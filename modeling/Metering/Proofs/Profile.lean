import Metering.Proofs.Additivity
import Metering.Proofs.Sweep

/-!
# Profiles

The buckets of a profile cut its interval into pieces of one step, of which only
the last may be shorter (`Partitions`). What a leaf's counter gains from bucket to
bucket cancels out but for its first and its last value (`sum_addGains`), so the
buckets hold together the energy that two lookups for each leaf give
(`Database.pairs_profile`). A profile fails where these lookups fail, with the
same error unless a leaf's readings begin in time but end before the interval
starts (`ReadingStore.TurnsInto`).
-/

namespace Metering

/-! ## The pieces of an interval -/

/-- Pieces of one step follow each other from a start to a stop, and the last one may be shorter. -/
structure Partitions (start stop : Instant) (step : Span) (pieces : List (Instant × Instant)) :
    Prop where
  /-- There is nothing to cut if there is nothing between the start and the stop. -/
  nil_iff : pieces = [] ↔ start = stop
  /-- The first piece starts at the start. -/
  starts : ∀ first ∈ pieces.head?, first.1 = start
  /-- The last piece stops at the stop. -/
  stops : ∀ last ∈ pieces.getLast?, last.2 = stop
  /-- Each piece starts where the one before it stops. -/
  consecutive : pieces.IsChain fun earlier later => earlier.2 = later.1
  /-- Every piece but the last is one step long. -/
  full : ∀ piece ∈ pieces.dropLast, piece.2.since piece.1 = step
  /-- The last piece has a length, and is at most one step long. -/
  short : ∀ last ∈ pieces.getLast?, last.1 < last.2 ∧ last.2.since last.1 ≤ step

namespace Partitions

variable {start next stop : Instant} {step : Span} {pieces : List (Instant × Instant)}

/-- Nothing is cut into no pieces. -/
theorem nil (stop : Instant) (step : Span) : Partitions stop stop step [] where
  nil_iff := iff_of_true rfl rfl
  starts := by simp
  stops := by simp
  consecutive := .nil
  full := by simp
  short := by simp

/-- A piece goes before the pieces from its end on, if it is one step long or the last one. -/
theorem cons (rest : Partitions next stop step pieces) (less : start < next) (high : next ≤ stop)
    (within : next.since start ≤ step) (full : next ≠ stop → next.since start = step) :
    Partitions start stop step ((start, next) :: pieces) := by
  have apart : start ≠ stop := Instant.ne_of_lt (Int.lt_of_lt_of_le less high)
  cases pieces with
  | nil =>
    have ends : next = stop := rest.nil_iff.1 rfl
    refine ⟨by simp [apart], by simp, by simp [ends], .singleton _, by simp, ?_⟩
    intro last member
    obtain rfl : (start, next) = last := Option.some.inj member
    exact ⟨less, within⟩
  | cons piece others =>
    have onward : next ≠ stop := fun same => nomatch rest.nil_iff.2 same
    have joins : piece.1 = next := rest.starts piece rfl
    refine ⟨by simp [apart], by simp, rest.stops, .cons_cons joins.symm rest.consecutive, ?_,
      rest.short⟩
    intro other member
    rw [List.dropLast_cons_cons] at member
    rcases List.mem_cons.1 member with rfl | later
    · exact full onward
    · exact rest.full other later

end Partitions

/-! ## The edges of the buckets -/

section Edges

variable {start stop edge : Instant} {step : Span}

/-- Before the stop there is a next edge, which is a step later or at the stop. -/
theorem edgesAfter_succ (positive : 0 < step.nanos) (less : edge < stop) (count : Nat) :
    ∃ next, edgesAfter stop step (count + 1) edge = next :: edgesAfter stop step count next ∧
      next.nanos = min (edge.nanos + step.nanos) stop.nanos := by
  simp only [edgesAfter, if_pos less]
  refine ⟨_, rfl, ?_⟩
  cases moved : edge.shift? step with
  | some next =>
    have sits := (Instant.shift?_eq_some_iff ..).1 moved
    simp only [Instant.earlier]
    split
    · rename_i before
      rw [Instant.le_iff] at before
      omega
    · rename_i past
      rw [Instant.le_iff] at past
      omega
  | none =>
    have beyond : Instant.lastNanos < edge.nanos + step.nanos := by
      refine Int.not_le.1 fun within => ?_
      have low := edge.first_le
      have target : edge.shift? step = some ⟨edge.nanos + step.nanos, by omega, within⟩ :=
        (Instant.shift?_eq_some_iff ..).2 rfl
      rw [moved] at target
      cases target
    have bound := stop.le_last
    simp only
    omega

/-- Once at the stop there are no more edges. -/
theorem edgesAfter_self (count : Nat) : edgesAfter stop step count stop = [] := by
  cases count with
  | zero => rfl
  | succ count => exact if_neg (Int.lt_irrefl _)

/-- What holds of edges that are enough to reach the stop. -/
theorem edges_spec (positive : 0 < step.nanos) {count : Nat} (le : edge ≤ stop)
    (enough : stop.nanos - edge.nanos ≤ count * step.nanos) :
    Bracket.inOrder (edge :: edgesAfter stop step count edge) ∧
      (edge :: edgesAfter stop step count edge).getLast? = some stop ∧
      Partitions edge stop step
        ((edge :: edgesAfter stop step count edge).zip (edgesAfter stop step count edge)) := by
  induction count generalizing edge with
  | zero =>
    obtain rfl : edge = stop := by
      rw [Instant.le_iff] at le
      exact Instant.ext (by omega)
    exact ⟨rfl, rfl, .nil edge step⟩
  | succ count ih =>
    by_cases still : edge = stop
    · subst still
      rw [edgesAfter_self]
      exact ⟨rfl, rfl, .nil edge step⟩
    · have less : edge < stop := by
        have differ : edge.nanos ≠ stop.nanos := fun same => still (Instant.ext same)
        rw [Instant.le_iff] at le
        rw [Instant.lt_iff]
        omega
      obtain ⟨next, same, sits⟩ := edgesAfter_succ positive less count
      have split : ((count + 1 : Nat) : Int) * step.nanos = count * step.nanos + step.nanos := by
        push_cast
        ring
      have some_ : (0 : Int) ≤ count * step.nanos :=
        Int.mul_nonneg (Int.natCast_nonneg count) (Int.le_of_lt positive)
      rw [split] at enough
      have bounds : edge.nanos < next.nanos ∧ next.nanos ≤ stop.nanos ∧
          next.nanos - edge.nanos ≤ step.nanos ∧
          stop.nanos - next.nanos ≤ count * step.nanos ∧
          (next.nanos ≠ stop.nanos → next.nanos - edge.nanos = step.nanos) := by
        rw [Instant.lt_iff] at less
        omega
      obtain ⟨forward, high, within, left, full⟩ := bounds
      obtain ⟨ordered, ends, cut⟩ := ih high left
      rw [same]
      refine ⟨?_, ?_, cut.cons forward high within fun apart => ?_⟩
      · simp only [Bracket.inOrder, ordered, Bool.and_true, decide_eq_true_eq]
        exact Int.le_of_lt forward
      · rw [List.getLast?_cons_cons]
        exact ends
      · exact Span.ext (full fun equal => apart (Instant.ext equal))

/-- The buckets that are counted are more than a limit if that many of them are too short. -/
theorem lt_bucketCount_iff {length width : Int} (nonneg : 0 ≤ length) (positive : 0 < width)
    (limit : Int) : limit < bucketCount length width ↔ limit * width < length := by
  unfold bucketCount
  rw [Int.tdiv_eq_ediv_of_nonneg nonneg, Int.tmod_eq_emod_of_nonneg nonneg]
  split
  · rename_i even
    have whole : length / width * width = length :=
      Int.ediv_mul_cancel (Int.dvd_of_emod_eq_zero even)
    rw [add_zero, ← mul_lt_mul_iff_of_pos_right positive, whole]
  · rename_i odd
    have uneven : limit * width ≠ length := fun same => odd (same ▸ Int.mul_emod_left limit width)
    rw [Int.lt_add_one_iff, Int.le_ediv_iff_mul_le positive]
    exact ⟨fun le => lt_of_le_of_ne le uneven, le_of_lt⟩

/-- The buckets that are counted cover the milliseconds that are counted. -/
theorem le_bucketCount_mul {length width : Int} (nonneg : 0 ≤ length) (positive : 0 < width) :
    0 ≤ bucketCount length width ∧ length ≤ bucketCount length width * width := by
  have fits := lt_bucketCount_iff nonneg positive
  refine ⟨Int.le_of_sub_one_lt ((fits _).2 ?_), Int.not_lt.1 fun short => ?_⟩
  · rw [zero_sub, neg_one_mul]
    omega
  · exact Int.lt_irrefl _ ((fits _).2 short)

/-- The number of buckets in whole milliseconds and one more is enough for the interval. -/
theorem sub_le_bucketCount (forwards : start ≤ stop) (long : .ofMillis 1 ≤ step) :
    stop.nanos - start.nanos ≤
      ((bucketCount (stop.since start).millis step.millis).toNat + 1 : Nat) * step.nanos := by
  have nonneg : 0 ≤ stop.nanos - start.nanos := Int.sub_nonneg_of_le forwards
  have milli : 1000000 ≤ step.nanos := long
  have span := Instant.millis_since_eq_ediv forwards
  have width : step.millis = step.nanos / 1000000 := Span.millis_eq_ediv (by omega)
  obtain ⟨some_, covered⟩ : 0 ≤ bucketCount (stop.since start).millis step.millis ∧
      (stop.since start).millis ≤
        bucketCount (stop.since start).millis step.millis * step.millis :=
    le_bucketCount_mul (by omega) (by omega)
  generalize bucketCount (stop.since start).millis step.millis = buckets at *
  have lost : buckets * (step.millis * 1000000) ≤ buckets * step.nanos :=
    Int.mul_le_mul_of_nonneg_left (by omega) some_
  have regrouped : buckets * (step.millis * 1000000) = buckets * step.millis * 1000000 := by ring
  have total : ((buckets.toNat + 1 : Nat) : Int) * step.nanos =
      buckets * step.nanos + step.nanos := by
    rw [Nat.cast_add, Int.toNat_of_nonneg some_]
    ring
  omega

end Edges

/-! ## The energies of the buckets -/

namespace CheckpointCache

/-- Where a bucket starts and stops. -/
def Bucket.ends {σ : Type} (bucket : Bucket σ) : Instant × Instant := (bucket.start, bucket.stop)

section Ends

variable {σ : Type} [Scalar σ]

/-- The buckets of some edges go from each edge to the next. -/
theorem ends_emptyBuckets (edges : List Instant) :
    (emptyBuckets edges : List (Bucket σ)).map Bucket.ends = edges.zip edges.tail := by
  unfold emptyBuckets
  rw [List.map_zipWith, List.zip]
  rfl

/-- The first bucket gains the difference of the first two counters. -/
theorem addGains_cons (bucket : Bucket σ) (buckets : List (Bucket σ)) (first second : σ)
    (counters : List σ) :
    addGains (bucket :: buckets) (first :: second :: counters) =
      { bucket with energy := bucket.energy + (second - first) } ::
        addGains buckets (second :: counters) := rfl

/-- Adding to the buckets leaves them where they are. -/
theorem ends_addGains {buckets : List (Bucket σ)} {first : σ} {counters : List σ}
    (enough : counters.length = buckets.length) :
    (addGains buckets (first :: counters)).map Bucket.ends = buckets.map Bucket.ends := by
  induction buckets generalizing first counters with
  | nil => rfl
  | cons bucket rest ih =>
    cases counters with
    | nil => cases enough
    | cons second counters =>
      have fewer : counters.length = rest.length := Nat.succ.inj enough
      rw [addGains_cons, List.map_cons, List.map_cons, ih fewer]
      rfl

end Ends

/-- The buckets of some edges start without energy. -/
theorem sum_emptyBuckets (edges : List Instant) :
    ((emptyBuckets edges : List (Bucket Rat)).map Bucket.energy).sum = 0 := by
  unfold emptyBuckets
  generalize edges.tail = later
  induction edges generalizing later with
  | nil => rfl
  | cons edge rest ih =>
    cases later with
    | nil => rfl
    | cons next later =>
      rw [List.zipWith_cons_cons, List.map_cons, List.sum_cons, ih later, add_zero]
      rfl

/-- What a counter gains from bucket to bucket cancels out but for its first and last values. -/
theorem sum_addGains {buckets : List (Bucket Rat)} {first : Rat} {counters : List Rat}
    (enough : counters.length = buckets.length) :
    ((addGains buckets (first :: counters)).map Bucket.energy).sum =
      (buckets.map Bucket.energy).sum + ((counters.getLast?.getD first) - first) := by
  induction buckets generalizing first counters with
  | nil =>
    obtain rfl := List.eq_nil_of_length_eq_zero enough
    have nothing : addGains ([] : List (Bucket Rat)) [first] = [] := rfl
    simp [nothing]
  | cons bucket rest ih =>
    cases counters with
    | nil => cases enough
    | cons second counters =>
      have fewer : counters.length = rest.length := Nat.succ.inj enough
      rw [addGains_cons, List.map_cons, List.map_cons, List.sum_cons, List.sum_cons, ih fewer,
        List.getLast?_cons, Option.getD_some]
      ring

end CheckpointCache

/-! ## One leaf -/

/-- What the error of an energy turns into in a profile. A leaf whose readings begin in time but end
before the start is out of range at the stop. -/
inductive ReadingStore.TurnsInto {σ : Type} (store : ReadingStore σ) (start stop : Instant) :
    QueryError → QueryError → Prop where
  /-- The readings of a leaf end before the start. -/
  | late {id : SourceId} {reading : Reading σ}
    (held : store.Carries id .cumulativeEnergy reading) (low : reading.instant ≤ start) :
    TurnsInto store start stop (.outOfRange id start) (.outOfRange id stop)
  /-- Any other error stays the same. -/
  | same {error : QueryError}
    (otherwise : ∀ id reading, error = .outOfRange id start →
      store.Carries id .cumulativeEnergy reading → start < reading.instant) :
    TurnsInto store start stop error error

section Leaf

variable {σ : Type} [Scalar σ]

/-- A bracket that a store finds has a value. -/
theorem ReadingStore.exists_valueAt_of_bracket {store : ReadingStore σ} {id : SourceId}
    {time : Instant} {field : Field} {bracket : Bracket σ}
    (found : store.bracket id time field = .ok bracket) :
    ∃ value, store.valueAt id time field = .ok value := by
  obtain ⟨before, after, pair, rfl⟩ := (bracket_eq_ok_iff ..).1 found
  rw [pair.valueAt_eq]
  exact Bracket.exists_interpolate_eq_ok time pair.carries_before.2 pair.carries_after.2

variable (database : Database σ) {start stop : Instant} {edges : List Instant}

/-- Where the edges begin and end, the counters of a leaf at all of them differ by its energy. The
counters fail where the energy fails. -/
theorem pairs_counters (leaf : Source σ) (ordered : Bracket.inOrder edges)
    (begins : edges.head? = some start) (ends : edges.getLast? = some stop) (less : start < stop) :
    Except.Pairs (database.readings.TurnsInto start stop)
      (fun energy counters => ∃ first rest, counters = first :: rest ∧
        counters.length = edges.length ∧ energy = rest.getLast?.getD first - first)
      (Database.leafEnergy database.counters leaf start stop)
      ((Bracket.findAll leaf.id edges .cumulativeEnergy).result database >>= Bracket.values) := by
  unfold Database.leafEnergy Database.counters
  rcases Bracket.findAll_cases database leaf.id .cumulativeEnergy ordered begins ends with
    ⟨early, refusal, refused, failed⟩ | ⟨⟨lowest, lower⟩, upper, refused, failed⟩ |
    ⟨brackets, found, each⟩
  · have nothing : database.readings.valueAt leaf.id start .cumulativeEnergy = .error refusal := by
      rw [ReadingStore.valueAt, refused, Except.error_bind]
    rw [nothing, failed, Except.error_bind, Except.error_bind]
    refine .error (.same fun id reading same held => ?_)
    obtain rfl : leaf.id = id := by
      rw [ReadingStore.bracket_eq_error_of_nearestBefore early, same] at refused
      split at refused
      · injection refused with refused
        injection refused
      · cases refused
    exact Int.not_le.1 ((ReadingStore.nearestBefore_eq_none_iff ..).1 early reading held)
  · obtain ⟨held, low, _⟩ := (ReadingStore.nearestBefore_eq_some_iff ..).1 lower
    have beyond : database.readings.valueAt leaf.id stop .cumulativeEnergy =
        .error (.outOfRange leaf.id stop) := by
      rw [ReadingStore.valueAt, refused, Except.error_bind]
    rw [failed, beyond, Except.error_bind]
    cases next : database.readings.nearestAfter leaf.id start .cumulativeEnergy with
    | none =>
      have gone := ReadingStore.bracket_eq_error_of_nearestAfter held low next
      rw [ReadingStore.valueAt, gone, Except.error_bind, Except.error_bind]
      exact .error (.late held low)
    | some after =>
      obtain ⟨first, value⟩ := ReadingStore.exists_valueAt_of_bracket
        ((ReadingStore.bracket_eq_ok_iff ..).2 ⟨lowest, after, ⟨lower, next⟩, rfl⟩)
      rw [value, Except.ok_bind, Except.error_bind]
      refine .error (.same fun id reading same _ => ?_)
      injection same with _ moment
      exact absurd (congrArg Instant.nanos moment.symm) (Int.ne_of_lt less)
  · have values : ∀ edge ∈ edges, ∃ value,
        database.readings.valueAt leaf.id edge .cumulativeEnergy = .ok value := by
      intro edge member
      obtain ⟨bracket, around⟩ := Except.exists_mapM_eq_ok_iff.1 ⟨brackets, each⟩ edge member
      exact ReadingStore.exists_valueAt_of_bracket around
    obtain ⟨counters, read⟩ := Except.exists_mapM_eq_ok_iff.2 values
    have same : Bracket.values brackets = .ok counters := by
      rw [← read]
      exact (Except.mapM_bind each).symm
    have told := Except.mapM_eq_ok_iff.1 read
    rw [found, Except.ok_bind, same]
    obtain ⟨later, rfl⟩ : ∃ later, edges = start :: later := List.head?_eq_some_iff.1 begins
    cases counters with
    | nil => cases told
    | cons first rest =>
      have atStart : database.readings.valueAt leaf.id start .cumulativeEnergy = .ok first :=
        List.head_eq_of_cons_eq told
      have atStop : database.readings.valueAt leaf.id stop .cumulativeEnergy =
          .ok (rest.getLast?.getD first) := by
        have lasts := congrArg List.getLast? told
        rw [List.getLast?_map, List.getLast?_map, ends, List.getLast?_cons] at lasts
        exact Option.some.inj lasts
      have length : (first :: rest).length = (start :: later).length := by
        have lengths := congrArg List.length told
        rw [List.length_map, List.length_map] at lengths
        exact lengths.symm
      rw [atStart, atStop]
      exact .ok ⟨first, rest, rfl, length, rfl⟩

end Leaf

/-! ## All leaves -/

namespace Database

variable {database : Database Rat} {start stop : Instant} {step : Span} {edges : List Instant}

/-- Adds to each bucket what the counter of a leaf gained between its edges. -/
def addLeafGains (database : Database Rat) (edges : List Instant)
    (buckets : List (CheckpointCache.Bucket Rat)) (flat : FlatLeaf Rat) :
    Except QueryError (List (CheckpointCache.Bucket Rat)) := do
  let counters ← (Bracket.findAll flat.leaf.id edges .cumulativeEnergy).result database >>=
    Bracket.values
  return CheckpointCache.addGains buckets counters

/-- One more leaf adds to the buckets what it adds to the energy. -/
theorem pairs_addGains (ordered : Bracket.inOrder edges) (begins : edges.head? = some start)
    (ends : edges.getLast? = some stop) (less : start < stop) (flat : FlatLeaf Rat) {total : Rat}
    {buckets : List (CheckpointCache.Bucket Rat)}
    (cut : buckets.map CheckpointCache.Bucket.ends = edges.zip edges.tail)
    (holds : (buckets.map CheckpointCache.Bucket.energy).sum = total) :
    Except.Pairs (database.readings.TurnsInto start stop)
      (fun total buckets => buckets.map CheckpointCache.Bucket.ends = edges.zip edges.tail ∧
        (buckets.map CheckpointCache.Bucket.energy).sum = total)
      (addEnergy database.counters start stop total flat)
      (database.addLeafGains edges buckets flat) := by
  have pair := pairs_counters database flat.leaf ordered begins ends less
  unfold addEnergy addLeafGains
  generalize leafEnergy database.counters flat.leaf start stop = energy at pair ⊢
  generalize (Bracket.findAll flat.leaf.id edges .cumulativeEnergy).result database >>=
    Bracket.values = counters at pair ⊢
  cases pair with
  | error failed => exact .error failed
  | ok together =>
    obtain ⟨first, rest, rfl, length, rfl⟩ := together
    have enough : rest.length = buckets.length := by
      have lengths := congrArg List.length cut
      rw [List.length_map, List.length_zip, List.length_tail] at lengths
      rw [List.length_cons] at length
      omega
    refine .ok ⟨?_, ?_⟩
    · rw [CheckpointCache.ends_addGains enough, cut]
    · rw [CheckpointCache.sum_addGains enough, holds]

/-- An energy over an interval that does not end before it starts is what the leaves add up to. -/
theorem sumEnergies_of_le (id : SourceId) (forwards : start ≤ stop) :
    database.sumEnergies database.counters (fun _ energy => .ok energy) id start stop =
      (Graph.flatten id).result database >>= fun leaves =>
        if start = stop then .ok 0
        else leaves.foldlM (addEnergy database.counters start stop) 0 := by
  unfold sumEnergies
  rw [CheckpointCache.result_checkInterval_eq_ok_iff.2 forwards, Except.ok_bind]
  rfl

/-- A profile over an interval that does not end before it starts is what the leaves add to its
buckets. -/
theorem result_profile (id : SourceId) (forwards : start ≤ stop) (long : .ofMillis 1 ≤ step) :
    ((CheckpointCache.profile id start stop step).result database).map Answer.value =
      (Graph.flatten id).result database >>= fun leaves =>
        if start = stop then .ok []
        else bucketEdges start stop step >>= fun edges =>
          leaves.foldlM (database.addLeafGains edges) (CheckpointCache.emptyBuckets edges) := by
  have enough : ¬ step < .ofMillis 1 := Int.not_lt.2 long
  have checked : (CheckpointCache.checkInterval start stop : Attempt Rat Unit).result database =
      .ok () := CheckpointCache.result_checkInterval_eq_ok_iff.2 forwards
  unfold CheckpointCache.profile
  simp only [if_neg enough, Attempt.result_bind, checked, Except.ok_bind, Attempt.result_polled]
  cases (Graph.flatten id : Attempt Rat _).result database with
  | error error => rfl
  | ok leaves =>
    simp only [Except.ok_bind]
    by_cases still : start = stop
    · simp only [if_pos still]
      rfl
    · simp only [if_neg still, Attempt.result_bind, Attempt.result_ofExcept]
      cases bucketEdges start stop step with
      | error refusal => rfl
      | ok edges =>
        simp only [Except.ok_bind, Attempt.result_bind, Attempt.result_foldlM,
          Attempt.result_polled, Attempt.result_ofExcept, Attempt.result_pure]
        have same : (fun buckets (flat : FlatLeaf Rat) =>
            (Bracket.findAll flat.leaf.id edges .cumulativeEnergy).result database >>=
              fun brackets => Bracket.values brackets >>= fun counters =>
                .ok (CheckpointCache.addGains buckets counters)) =
            database.addLeafGains edges := by
          funext buckets flat
          unfold addLeafGains
          rw [bind_assoc]
          rfl
        rw [same]
        cases leaves.foldlM (database.addLeafGains edges) (CheckpointCache.emptyBuckets edges) with
        | error error => rfl
        | ok buckets => rfl

/-- A profile is refused for its number of buckets, or fails where the energy fails, or cuts the
interval into buckets that hold the energy together. -/
theorem refused_or_pairs_profile (database : Database Rat) (id : SourceId)
    (forwards : start ≤ stop) (long : .ofMillis 1 ≤ step) :
    (∃ refusal, bucketEdges start stop step = .error refusal ∧
      ((CheckpointCache.profile id start stop step).result database).map Answer.value =
        .error refusal) ∨
    Except.Pairs (database.readings.TurnsInto start stop)
      (fun total buckets => Partitions start stop step
          (buckets.map CheckpointCache.Bucket.ends) ∧
        (buckets.map CheckpointCache.Bucket.energy).sum = total)
      (database.sumEnergies database.counters (fun _ energy => .ok energy) id start stop)
      (((CheckpointCache.profile id start stop step).result database).map Answer.value) := by
  rw [result_profile id forwards long, sumEnergies_of_le id forwards]
  cases flattened : (Graph.flatten id : Attempt Rat _).result database with
  | error error =>
    refine Or.inr (.error (.same fun leaf reading same _ => ?_))
    exact absurd same (Graph.not_outOfRange_of_flatten flattened leaf start)
  | ok leaves =>
    simp only [Except.ok_bind]
    by_cases still : start = stop
    · rw [if_pos still, if_pos still]
      subst still
      exact Or.inr (.ok ⟨.nil start step, rfl⟩)
    · rw [if_neg still, if_neg still]
      cases cut : bucketEdges start stop step with
      | error refusal => exact Or.inl ⟨refusal, rfl, rfl⟩
      | ok edges =>
        have less : start < stop :=
          Int.lt_iff_le_and_ne.2 ⟨forwards, fun same => still (Instant.ext same)⟩
        have positive : 0 < step.nanos := Int.lt_of_lt_of_le (by decide) long
        unfold bucketEdges at cut
        simp only at cut
        split at cut
        · cases cut
        · obtain rfl := Except.ok.inj cut
          obtain ⟨ordered, ends, pieces⟩ :=
            edges_spec positive forwards (sub_le_bucketCount forwards long)
          refine Or.inr ((Except.Pairs.foldlM (fun flat _ total buckets both =>
            pairs_addGains ordered rfl ends less flat both.1 both.2) ?_).imp
              fun total buckets both => ?_)
          · exact ⟨CheckpointCache.ends_emptyBuckets _, CheckpointCache.sum_emptyBuckets _⟩
          · rw [both.1]
            exact ⟨pieces, both.2⟩

end Database

/-! ## An engine -/

/-- Lookups that use no checkpoints read the counters that the readings give. -/
theorem CheckpointCache.reads_counters {cache : CheckpointCache Rat}
    (off : cache.config.cacheEnabled = false) (database : Database Rat) (now time : Instant) :
    cache.Reads database now database.counters time := by
  intro leaf _
  have none_ : cache.settingsFor? leaf = none := by
    unfold settingsFor?
    rw [off, Bool.false_and]
    rfl
  unfold counterAt
  rw [none_]
  exact map_value_coldRead database leaf.id time .coldRead

namespace Engine

/-- The buckets of a profile cut its interval into steps, of which the last one may be shorter, and
hold together the energy that an engine without a cache responds with. Unless it is refused for its
number of buckets, a profile fails exactly if that energy fails, and with its error, except for a
leaf whose readings begin in time but end before the start, which is out of range at the stop. -/
theorem profile_partitions_energy (engine : Engine Rat (Database Rat)) {limits : Limits}
    (open_ : limits.check engine.progress.elapsed = none) {cache : CheckpointCache Rat}
    (off : cache.config.cacheEnabled = false) (id : SourceId) {start stop : Instant} {step : Span}
    (forwards : start ≤ stop) (long : .ofMillis 1 ≤ step) :
    let profile := (engine.inquire Database.serve limits (.profile id start stop step)).1
    let energy := ({ engine with cache := cache }.inquire Database.serve limits
      (.query (.energy id start stop))).1
    (∀ buckets, profile = .ok buckets →
      Partitions start stop step (buckets.map CheckpointCache.Bucket.ends) ∧
        energy = .ok (buckets.map CheckpointCache.Bucket.energy).sum) ∧
    ((∃ refusal, bucketEdges start stop step = .error refusal ∧ profile = .error refusal) ∨
      ((∃ error, profile = .error error) ↔ ∃ error, energy = .error error) ∧
        ∀ error, energy = .error error → ∃ other,
          engine.progress.world.readings.TurnsInto start stop error other ∧
            profile = .error other) := by
  intro profile energy
  have profiled : profile = ((CheckpointCache.profile id start stop step).result
      engine.progress.world).map Answer.value := inquire_fst open_ _
  have summed : energy = engine.progress.world.sumEnergies engine.progress.world.counters
      (fun _ energy => .ok energy) id start stop := by
    have asked : energy = ((cache.energy id start stop engine.now).result
        engine.progress.world).map Answer.value := by
      have inTime : limits.check
          ({ engine with cache := cache } : Engine Rat (Database Rat)).progress.elapsed = none :=
        open_
      exact inquire_fst inTime (.query (.energy id start stop))
    rw [asked]
    exact CheckpointCache.result_sumEnergies _ id
      (CheckpointCache.reads_counters off engine.progress.world engine.now start)
      (CheckpointCache.reads_counters off engine.progress.world engine.now stop)
  have agree := Database.refused_or_pairs_profile engine.progress.world id forwards long
  rw [← profiled, ← summed] at agree
  clear profiled summed
  clear_value profile energy
  rcases agree with ⟨refusal, limited, refused⟩ | pair
  · subst refused
    exact ⟨nofun, Or.inl ⟨refusal, limited, rfl⟩⟩
  · cases pair with
    | error turns =>
      refine ⟨nofun, Or.inr ⟨iff_of_true ⟨_, rfl⟩ ⟨_, rfl⟩, fun error same => ?_⟩⟩
      obtain rfl := Except.error.inj same
      exact ⟨_, turns, rfl⟩
    | ok both =>
      constructor
      · intro buckets same
        obtain rfl := Except.ok.inj same
        exact ⟨both.1, congrArg Except.ok both.2.symm⟩
      · refine Or.inr ⟨by simp only [reduceCtorEq, exists_false], fun error same => ?_⟩
        cases same

/-- Two hours and a half between two readings are cut into two hours and a half hour, which hold
together what the meter counts. -/
theorem profile_partitions_energy_hourly :
    let engine := ofReadings [hourlyReading 0 0, hourlyReading 180 6]
    let uncached := { engine with cache := .new .uncached }
    let hour := Span.ofMillis 3600000
    let profile := (engine.inquire Database.serve .none
      (.profile "meter" (atMinute 0) (atMinute 150) hour)).1
    profile.map (List.map fun bucket => (bucket.ends, bucket.energy)) =
        .ok [((atMinute 0, atMinute 60), 2), ((atMinute 60, atMinute 120), 2),
          ((atMinute 120, atMinute 150), 1)] ∧
      ∃ buckets, profile = .ok buckets ∧
        Partitions (atMinute 0) (atMinute 150) hour
          (buckets.map CheckpointCache.Bucket.ends) ∧
        (uncached.inquire Database.serve .none
          (.query (.energy "meter" (atMinute 0) (atMinute 150)))).1 =
            .ok (buckets.map CheckpointCache.Bucket.energy).sum := by
  intro engine uncached hour profile
  have told : profile.map (List.map fun bucket => (bucket.ends, bucket.energy)) =
      .ok [((atMinute 0, atMinute 60), 2), ((atMinute 60, atMinute 120), 2),
        ((atMinute 120, atMinute 150), 1)] := by decide +kernel
  have forwards : atMinute 0 ≤ atMinute 150 := by decide
  have long : .ofMillis 1 ≤ hour := by decide
  have off : (CheckpointCache.new .uncached : CheckpointCache Rat).config.cacheEnabled = false := rfl
  have open_ : Limits.none.check engine.progress.elapsed = none := rfl
  have agree := (profile_partitions_energy engine open_ off "meter" forwards long).1
  cases came : profile with
  | error error =>
    rw [came] at told
    cases told
  | ok buckets =>
    obtain ⟨pieces, total⟩ := agree buckets came
    exact ⟨came ▸ told, buckets, rfl, pieces, total⟩

/-- With a single reading before an interval, its energy is out of range at the start, but its
profile is out of range at the stop. -/
theorem profile_fails_at_stop :
    let engine := ofReadings [hourlyReading 0 0]
    let uncached := { engine with cache := .new .uncached }
    (uncached.inquire Database.serve .none
        (.query (.energy "meter" (atMinute 5) (atMinute 10)))).1 =
      .error (.outOfRange "meter" (atMinute 5)) ∧
    (engine.inquire Database.serve .none
        (.profile "meter" (atMinute 5) (atMinute 10) (.ofMillis 60000))).1.map
          (List.map CheckpointCache.Bucket.ends) =
      .error (.outOfRange "meter" (atMinute 10)) ∧
    QueryError.outOfRange "meter" (atMinute 10) ≠ .outOfRange "meter" (atMinute 5) := by
  decide +kernel

end Engine

end Metering
