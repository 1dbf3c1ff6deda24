import Mathlib.Order.Bounds.Basic
import Metering.Proofs.Profile

/-!
# The limit on the buckets of a profile

The pieces of an interval are as many as the least number of steps that cover it
(`Partitions.isLeast_length`). The limit on them is applied to a number that is
counted in whole milliseconds: buckets are refused if the whole milliseconds of
the interval are more than the limit allows for the whole milliseconds of a step
(`bucketEdges_eq_error_iff`). The two numbers agree where the interval and the
step have nothing below a millisecond. Elsewhere a profile may have one bucket
more than the limit, and one with fewer buckets may be refused
(`Engine.buckets_limited_in_millis`).
-/

namespace Metering

/-- A number of steps from a start reaches a stop. -/
def Span.Reaches (step : Span) (start stop : Instant) (steps : Int) : Prop :=
  (stop.since start).nanos ≤ steps * step.nanos

/-! ## How many pieces there are -/

namespace Partitions

variable {start stop : Instant} {step : Span}

/-- As many steps as there are pieces reach the stop, and one step less does not. -/
theorem length_bounds {first : Instant × Instant} {rest : List (Instant × Instant)}
    (stops : ∀ last ∈ (first :: rest).getLast?, last.2 = stop)
    (consecutive : (first :: rest).IsChain fun earlier later => earlier.2 = later.1)
    (full : ∀ piece ∈ (first :: rest).dropLast, piece.2.since piece.1 = step)
    (short : ∀ last ∈ (first :: rest).getLast?, last.1 < last.2 ∧ last.2.since last.1 ≤ step) :
    step.Reaches first.1 stop (rest.length + 1) ∧ ¬ step.Reaches first.1 stop rest.length := by
  unfold Span.Reaches
  induction rest generalizing first with
  | nil =>
    obtain rfl : first.2 = stop := stops first rfl
    obtain ⟨less, within⟩ := short first rfl
    rw [Instant.lt_iff] at less
    rw [Span.le_iff] at within
    simp only [Instant.since, List.length_nil] at within ⊢
    omega
  | cons second rest ih =>
    -- The first piece is a whole step, so it takes one step more to the stop than from its end.
    obtain ⟨joins, chain⟩ := List.isChain_cons_cons.1 consecutive
    have whole : first.2.since first.1 = step := full first List.mem_cons_self
    have wholeRest : ∀ piece ∈ (second :: rest).dropLast, piece.2.since piece.1 = step :=
      fun piece member => full piece (List.mem_cons_of_mem first member)
    have later := ih stops chain wholeRest short
    have long : first.2.nanos - first.1.nanos = step.nanos := congrArg Span.nanos whole
    rw [← joins] at later
    simp only [Instant.since, List.length_cons, Nat.cast_add, Nat.cast_one, add_mul,
      one_mul] at later ⊢
    omega

/-- There are as many pieces as it takes steps to cover the interval. -/
theorem isLeast_length {pieces : List (Instant × Instant)}
    (cut : Partitions start stop step pieces) (less : start < stop) (positive : 0 < step.nanos) :
    IsLeast {steps : Int | step.Reaches start stop steps} pieces.length := by
  cases pieces with
  | nil =>
    exact absurd (cut.nil_iff.1 rfl) (Instant.ne_of_lt less)
  | cons first rest =>
    obtain rfl : first.1 = start := cut.starts first rfl
    obtain ⟨reaches, fewer⟩ := length_bounds cut.stops cut.consecutive cut.full cut.short
    refine ⟨by simpa using reaches, fun steps enough => ?_⟩
    have more : (rest.length : Int) < steps :=
      lt_of_mul_lt_mul_right (lt_of_lt_of_le (Int.not_le.1 fewer) enough) (Int.le_of_lt positive)
    simp only [List.length_cons, Nat.cast_add, Nat.cast_one]
    omega

end Partitions

/-! ## Which intervals are refused -/

section Limit

variable {start stop : Instant} {step : Span}

/-- The shortest interval whose buckets are refused: a millisecond more than the limit allows for
the whole milliseconds of a step. -/
def refusedFrom (step : Span) : Span := .ofMillis (maxProfileBuckets * step.millis + 1)

/-- Buckets are refused from an interval of a certain length on. -/
theorem bucketEdges_eq_error_iff (forwards : start ≤ stop) (long : .ofMillis 1 ≤ step) :
    (∃ reason, bucketEdges start stop step = .error (.badInterval reason)) ↔
      refusedFrom step ≤ stop.since start := by
  have nonneg : 0 ≤ stop.nanos - start.nanos := Int.sub_nonneg_of_le forwards
  have milli : 1000000 ≤ step.nanos := long
  have length := Instant.millis_since_eq_ediv forwards
  have width : step.millis = step.nanos / 1000000 := Span.millis_eq_ediv (by omega)
  have some_ : 0 ≤ (stop.since start).millis := by omega
  have wide : 0 < step.millis := by omega
  have counted := lt_bucketCount_iff some_ wide maxProfileBuckets
  have reached : refusedFrom step ≤ stop.since start ↔
      maxProfileBuckets * step.millis < (stop.since start).millis := by
    rw [length]
    change (maxProfileBuckets * step.millis + 1) * 1000000 ≤ stop.nanos - start.nanos ↔ _
    omega
  rw [reached, ← counted]
  unfold bucketEdges
  simp only
  split
  · rename_i more
    exact iff_of_true ⟨_, rfl⟩ more
  · rename_i few
    exact iff_of_false nofun few

/-- Buckets are refused as a malformed interval, or have an edge more than it takes steps to cover
the interval. -/
theorem refused_or_length_bucketEdges (less : start < stop) (long : .ofMillis 1 ≤ step)
    {count : Int} (least : IsLeast {steps : Int | step.Reaches start stop steps} count) :
    (∃ reason, bucketEdges start stop step = .error (.badInterval reason)) ∨
      ∃ edges, bucketEdges start stop step = .ok edges ∧ (edges.length : Int) = count + 1 := by
  have forwards : start ≤ stop := Int.le_of_lt less
  have positive : 0 < step.nanos := Int.lt_of_lt_of_le (by decide) long
  unfold bucketEdges
  simp only
  split
  · exact Or.inl ⟨_, rfl⟩
  · refine Or.inr ⟨_, rfl, ?_⟩
    have cut := (edges_spec positive forwards (sub_le_bucketCount forwards long)).2.2
    have same := least.unique (cut.isLeast_length less positive)
    rw [List.length_zip, List.length_cons] at same
    rw [List.length_cons]
    omega

/-- An interval below the length from which buckets are refused is covered by one step more than
the limit. -/
theorem reaches_of_not_refused (long : .ofMillis 1 ≤ step)
    (below : stop.since start < refusedFrom step) :
    step.Reaches start stop (maxProfileBuckets + 1) := by
  have milli : 1000000 ≤ step.nanos := long
  have width : step.millis = step.nanos / 1000000 := Span.millis_eq_ediv (by omega)
  have short : (stop.since start).nanos < (maxProfileBuckets * step.millis + 1) * 1000000 := below
  change (stop.since start).nanos ≤ (100000 + 1) * step.nanos
  change _ < (100000 * step.millis + 1) * 1000000 at short
  omega

end Limit

/-! ## Profiles -/

namespace Database

variable {database : Database Rat} {id : SourceId} {start stop : Instant} {step : Span}
  {buckets : List (CheckpointCache.Bucket Rat)}

/-- Over an interval with a length a profile has buckets only if they are not refused. -/
theorem exists_edges_of_profile (less : start < stop) (long : .ofMillis 1 ≤ step)
    (came : ((CheckpointCache.profile id start stop step).result database).map Answer.value =
      .ok buckets) : ∃ edges, bucketEdges start stop step = .ok edges := by
  have moves : start ≠ stop := Instant.ne_of_lt less
  rw [result_profile id (Int.le_of_lt less) long] at came
  obtain ⟨_, _, rest⟩ := Except.bind_eq_ok_iff.1 came
  rw [if_neg moves] at rest
  obtain ⟨edges, cut, _⟩ := Except.bind_eq_ok_iff.1 rest
  exact ⟨edges, cut⟩

/-- A profile has as many buckets as it takes steps to reach its stop, which is at most one more
than the limit. -/
theorem length_profile (less : start < stop) (long : .ofMillis 1 ≤ step)
    (came : ((CheckpointCache.profile id start stop step).result database).map Answer.value =
      .ok buckets) {count : Int}
    (least : IsLeast {steps : Int | step.Reaches start stop steps} count) :
    (buckets.length : Int) = count ∧ count ≤ maxProfileBuckets + 1 := by
  have forwards : start ≤ stop := Int.le_of_lt less
  have positive : 0 < step.nanos := Int.lt_of_lt_of_le (by decide) long
  obtain ⟨edges, cut⟩ := exists_edges_of_profile less long came
  constructor
  · rcases refused_or_pairs_profile database id forwards long with ⟨refusal, same, _⟩ | pair
    · rw [cut] at same
      cases same
    · rw [came] at pair
      generalize database.sumEnergies _ _ id start stop = total at pair
      cases pair with
      | ok both => rw [least.unique (both.1.isLeast_length less positive), List.length_map]
  · refine least.2 (reaches_of_not_refused long (Int.not_le.1 fun reached => ?_))
    obtain ⟨reason, refusal⟩ := (bucketEdges_eq_error_iff forwards long).2 reached
    rw [cut] at refusal
    cases refusal

end Database

namespace Engine

/-- The buckets of a profile are as many as it takes steps to cover its interval. They are refused
from an interval on that is a millisecond longer than the limit allows for the whole milliseconds
of the step. So they are one more than the limit where the interval is longer than the limit allows
for the step, but not long enough to be refused; they are refused without being more than the limit
where the interval is long enough, but the limit allows it for the step. Where the interval and the
step are whole milliseconds, they are refused exactly if they are more than the limit. -/
theorem buckets_limited_in_millis (engine : Engine Rat (Database Rat)) {limits : Limits}
    (open_ : limits.check engine.progress.elapsed = none) (id : SourceId) {start stop : Instant}
    {step : Span} (less : start < stop) (long : .ofMillis 1 ≤ step) {count : Int}
    (least : IsLeast {steps : Int | step.Reaches start stop steps} count) :
    let span := stop.since start
    let refused := ∃ reason, bucketEdges start stop step = .error (.badInterval reason)
    (refused ↔ refusedFrom step ≤ span) ∧
    (refused ∨ ∃ edges, bucketEdges start stop step = .ok edges ∧
      (edges.length : Int) = count + 1) ∧
    (∀ buckets, (engine.inquire Database.serve limits (.profile id start stop step)).1 =
      .ok buckets → (buckets.length : Int) = count ∧ count ≤ maxProfileBuckets + 1) ∧
    (¬ refused ∧ maxProfileBuckets < count ↔
      maxProfileBuckets * step.nanos < span.nanos ∧ span < refusedFrom step) ∧
    (refused ∧ count ≤ maxProfileBuckets ↔
      refusedFrom step ≤ span ∧ span.nanos ≤ maxProfileBuckets * step.nanos) ∧
    (.ofMillis span.millis = span → .ofMillis step.millis = step →
      (refused ↔ maxProfileBuckets < count)) := by
  intro span refused
  have forwards : start ≤ stop := Int.le_of_lt less
  have positive : 0 < step.nanos := Int.lt_of_lt_of_le (by decide) long
  have limited : refused ↔ refusedFrom step ≤ span := bucketEdges_eq_error_iff forwards long
  have within : count ≤ maxProfileBuckets ↔ span.nanos ≤ maxProfileBuckets * step.nanos := by
    constructor
    · intro few
      exact Int.le_trans least.1 (Int.mul_le_mul_of_nonneg_right few (Int.le_of_lt positive))
    · exact fun covered => least.2 covered
  have beyond : maxProfileBuckets < count ↔ maxProfileBuckets * step.nanos < span.nanos := by
    rw [← Int.not_le, within, Int.not_le]
  refine ⟨limited, refused_or_length_bucketEdges less long least, fun buckets came => ?_, ?_, ?_,
    fun wholeSpan wholeStep => ?_⟩
  · rw [inquire_fst open_] at came
    exact Database.length_profile less long came least
  · rw [limited, beyond]
    exact and_comm.trans (and_congr_right fun _ => Int.not_le)
  · rw [limited, within]
  · have whole : step.millis * 1000000 = step.nanos := congrArg Span.nanos wholeStep
    have wholeLength : span.millis * 1000000 = span.nanos := congrArg Span.nanos wholeSpan
    rw [limited, beyond]
    change (100000 * step.millis + 1) * 1000000 ≤ span.nanos ↔ 100000 * step.nanos < span.nanos
    omega

/-- An interval of a hundred seconds and half a millisecond is cut into a bucket more than the limit
by steps of a millisecond. One of a hundred seconds and a millisecond is not cut by steps of almost
two milliseconds, of which it takes about half as many as the limit allows. -/
theorem buckets_limited_in_millis_missed :
    let longer : Instant := ⟨100000500000, by decide, by decide⟩
    let shorter : Instant := ⟨100001000000, by decide, by decide⟩
    (∃ edges, bucketEdges Instant.epoch longer (.ofMillis 1) = .ok edges ∧
      (edges.length : Int) = maxProfileBuckets + 2) ∧
    IsLeast {steps : Int | Span.Reaches ⟨1999999⟩ .epoch shorter steps} 50001 ∧
    ∃ reason, bucketEdges Instant.epoch shorter ⟨1999999⟩ = .error (.badInterval reason) := by
  intro longer shorter
  have open_ : Limits.none.check (ofReadings []).progress.elapsed = none := rfl
  have most : IsLeast {steps : Int | Span.Reaches (.ofMillis 1) .epoch longer steps} 100001 := by
    constructor
    · show (100000500000 - 0 : Int) ≤ 100001 * 1000000
      decide
    · intro steps reaches
      change (100000500000 - 0 : Int) ≤ steps * 1000000 at reaches
      omega
  have few : IsLeast {steps : Int | Span.Reaches ⟨1999999⟩ .epoch shorter steps} 50001 := by
    constructor
    · show (100001000000 - 0 : Int) ≤ 50001 * 1999999
      decide
    · intro steps reaches
      change (100001000000 - 0 : Int) ≤ steps * 1999999 at reaches
      omega
  obtain ⟨limited, cut, _⟩ := buckets_limited_in_millis (ofReadings []) open_ "meter"
    (show Instant.epoch < longer by decide) (show Span.ofMillis 1 ≤ .ofMillis 1 by decide) most
  obtain ⟨limitedShort, _⟩ := buckets_limited_in_millis (ofReadings []) open_ "meter"
    (show Instant.epoch < shorter by decide) (show Span.ofMillis 1 ≤ ⟨1999999⟩ by decide) few
  refine ⟨?_, few, limitedShort.2 (by decide)⟩
  have allowed : ¬ refusedFrom (.ofMillis 1) ≤ longer.since Instant.epoch := by decide
  exact cut.resolve_left fun refused => allowed (limited.1 refused)

end Engine

end Metering
