import Metering.Proofs.Inquiries
import Metering.Proofs.Line
import Metering.Proofs.Sweep

/-!
# Mean powers

A mean power is asked for as an energy is, of the same service and under the same
limits, and what comes of the energy is divided by a number of hours
(`Engine.inquire_averagePower`). These are the hours of the whole milliseconds
of the interval. They are less than a millisecond short of its length, they are
its length exactly if it is a whole number of milliseconds, and they are zero if
it is shorter than one (`Engine.mean_over_whole_millis`).
-/

namespace Metering

/-! ## Hours -/

namespace Span

/-- A span in hours. -/
def hours (span : Span) : Rat := span.nanos / 3600000000000

/-- The whole milliseconds of a span in hours. -/
def wholeMilliHours (span : Span) : Rat := span.millis / CheckpointCache.millisPerHour

/-- The whole milliseconds of a span that is not negative are the most that fit into it. -/
theorem millis_mul_le {span : Span} (nonneg : 0 ≤ span.nanos) :
    0 ≤ span.millis ∧ span.millis * 1000000 ≤ span.nanos ∧
      span.nanos < span.millis * 1000000 + 1000000 := by
  have whole := millis_eq_ediv nonneg
  omega

variable {span : Span}

/-- The hours of whole milliseconds in terms of nanoseconds. -/
theorem wholeMilliHours_eq (span : Span) :
    span.wholeMilliHours = ((span.millis * 1000000 : Int) : Rat) / 3600000000000 := by
  unfold wholeMilliHours CheckpointCache.millisPerHour
  push_cast
  ring

/-- The hours of whole milliseconds are less than a millisecond short of a span. -/
theorem wholeMilliHours_bounds (nonneg : 0 ≤ span.nanos) :
    0 ≤ span.wholeMilliHours ∧ span.wholeMilliHours ≤ span.hours ∧
      span.hours < span.wholeMilliHours + (ofMillis 1).hours := by
  obtain ⟨some_, low, high⟩ := millis_mul_le nonneg
  have product : (0 : Rat) ≤ ((span.millis * 1000000 : Int) : Rat) := by
    exact_mod_cast Int.mul_nonneg some_ (by decide)
  have lower : ((span.millis * 1000000 : Int) : Rat) ≤ span.nanos := by exact_mod_cast low
  have upper : (span.nanos : Rat) < ((span.millis * 1000000 : Int) : Rat) + 1000000 := by
    exact_mod_cast high
  have milli : (ofMillis 1).hours = 1000000 / 3600000000000 := by rfl
  rw [wholeMilliHours_eq, milli, hours]
  generalize ((span.millis * 1000000 : Int) : Rat) = whole at *
  generalize (span.nanos : Rat) = nanos at *
  refine ⟨div_nonneg product (by norm_num), by linarith only [lower], by linarith only [upper]⟩

/-- There are no hours of whole milliseconds in a span exactly if it is shorter than one. -/
theorem wholeMilliHours_eq_zero_iff (nonneg : 0 ≤ span.nanos) :
    span.wholeMilliHours = 0 ↔ span < .ofMillis 1 := by
  obtain ⟨some_, low, high⟩ := millis_mul_le nonneg
  have none_ : span.wholeMilliHours = 0 ↔ span.millis * 1000000 = 0 := by
    rw [wholeMilliHours_eq, div_eq_zero_iff, Int.cast_eq_zero]
    exact or_iff_left (by norm_num)
  have short : span < .ofMillis 1 ↔ span.nanos < 1000000 := Iff.rfl
  rw [none_, short]
  omega

/-- The hours of whole milliseconds are a span exactly if it is a whole number of milliseconds. -/
theorem wholeMilliHours_eq_hours_iff :
    span.wholeMilliHours = span.hours ↔ .ofMillis span.millis = span := by
  have whole : Span.ofMillis span.millis = span ↔ span.millis * 1000000 = span.nanos := Span.ext_iff
  rw [wholeMilliHours_eq, hours, div_left_inj' (by norm_num), Int.cast_inj, whole]

end Span

/-! ## Asking for a mean power -/

variable {σ ω α β : Type} [Scalar σ]

/-- Over an interval with a length a mean power is an energy that is divided. -/
theorem CheckpointCache.averagePower_eq (cache : CheckpointCache σ) (id : SourceId)
    {start stop : Instant} (less : start < stop) (now : Instant) :
    cache.averagePower id start stop now = cache.energy id start stop now >>= fun answer =>
      pure ⟨answer.value / (Scalar.ofInt (stop.since start).millis / Scalar.ofInt millisPerHour),
        answer.found⟩ := by
  have forwards : ¬ stop < start := Int.not_lt.2 (Int.le_of_lt less)
  have moves : start ≠ stop := Instant.ne_of_lt less
  unfold averagePower checkInterval
  simp only [if_neg forwards, if_neg moves]
  rfl

namespace Engine

/-- A query whose answer is changed at the end is answered with what it changes to, and leaves
behind what it leaves without the change. -/
theorem query_map (serve : Service σ ω) (limits : Limits) (engine : Engine σ ω)
    (attempt : Attempt σ (Answer σ α)) (change : α → β) :
    engine.query serve limits
        (attempt >>= fun answer => pure ⟨change answer.value, answer.found⟩) =
      ((engine.query serve limits attempt).1.map change,
        (engine.query serve limits attempt).2) := by
  unfold query perform
  rw [Attempt.run_bind]
  rcases Plan.run serve limits attempt.run engine.progress with
    ⟨interruption | (error | answer), after⟩
  · rfl
  · rfl
  · rfl

/-- Over any service and under any limits, a mean power is what comes of the energy, divided by the
hours of whole milliseconds, and leaves behind what the energy leaves. -/
theorem inquire_averagePower (serve : Service σ ω) (limits : Limits) (engine : Engine σ ω)
    (id : SourceId) {start stop : Instant} (less : start < stop) :
    engine.inquire serve limits (.query (.averagePower id start stop)) =
      ((engine.inquire serve limits (.query (.energy id start stop))).1.map fun energy =>
          energy / (Scalar.ofInt (stop.since start).millis /
            Scalar.ofInt CheckpointCache.millisPerHour),
        (engine.inquire serve limits (.query (.energy id start stop))).2) := by
  have divided := engine.cache.averagePower_eq id less engine.now
  have mapped := query_map serve limits engine (engine.cache.energy id start stop engine.now)
    fun energy : σ => energy / (Scalar.ofInt (stop.since start).millis /
      Scalar.ofInt CheckpointCache.millisPerHour)
  rw [← divided] at mapped
  exact mapped

/-- A mean power fails as the energy does, and is otherwise the energy divided by the hours of the
whole milliseconds of the interval. Multiplied by the length of an interval that has some, it gives
the energy back exactly if that is zero or the length is a whole number of milliseconds. An interval
shorter than a millisecond has none, and the energy is divided by zero. -/
theorem mean_over_whole_millis (serve : Service Rat ω) (limits : Limits) (engine : Engine Rat ω)
    (id : SourceId) {start stop : Instant} (less : start < stop) :
    let mean := engine.inquire serve limits (.query (.averagePower id start stop))
    let total := engine.inquire serve limits (.query (.energy id start stop))
    let span := stop.since start
    mean.2 = total.2 ∧
    (∀ error, mean.1 = .error error ↔ total.1 = .error error) ∧
    (∀ energy, total.1 = .ok energy → mean.1 = .ok (energy / span.wholeMilliHours) ∧
      (.ofMillis 1 ≤ span → (energy / span.wholeMilliHours * span.hours = energy ↔
        energy = 0 ∨ .ofMillis span.millis = span))) ∧
    (0 ≤ span.wholeMilliHours ∧ span.wholeMilliHours ≤ span.hours ∧
      span.hours < span.wholeMilliHours + (Span.ofMillis 1).hours) ∧
    (span.wholeMilliHours = 0 ↔ span < .ofMillis 1) := by
  intro mean total span
  have nonneg : 0 ≤ span.nanos := Int.sub_nonneg_of_le (Int.le_of_lt less)
  have asked : mean = (total.1.map (· / span.wholeMilliHours), total.2) :=
    inquire_averagePower serve limits engine id less
  have none_ := Span.wholeMilliHours_eq_zero_iff nonneg
  refine ⟨by rw [asked], fun error => ?_, fun energy came => ⟨?_, fun long => ?_⟩,
    Span.wholeMilliHours_bounds nonneg, none_⟩
  · rw [asked]
    exact Except.map_eq_error_iff
  · rw [asked, came]
    rfl
  · have nonzero : span.wholeMilliHours ≠ 0 := fun same => Int.not_lt.2 long (none_.1 same)
    rw [← Span.wholeMilliHours_eq_hours_iff, div_mul_eq_mul_div, div_eq_iff nonzero,
      mul_eq_mul_left_iff, or_comm, @eq_comm _ span.hours]

/-- A watt hour in half a millisecond is divided by no hours at all. One in a millisecond and a half
is divided by the hours of a millisecond, which gives half as much again as the mean power is. -/
theorem mean_over_whole_millis_missed :
    let engine := ofReadings [quickReading 0 0, quickReading 500 1, quickReading 2000 2]
    let start := atMicro 0
    let middle := atMicro 500
    let stop := atMicro 2000
    let mean := fun start stop =>
      (engine.inquire Database.serve .none (.query (.averagePower "meter" start stop))).1
    (start < middle ∧ (middle.since start).wholeMilliHours = 0 ∧
        mean start middle = .ok (1 / (middle.since start).wholeMilliHours)) ∧
      middle < stop ∧ mean middle stop = .ok 3600000 ∧
        3600000 * (stop.since middle).hours = (1 + 1 / 2 : Rat) := by
  intro engine start middle stop mean
  have first : start < middle := by decide
  have second : middle < stop := by decide
  obtain ⟨_, _, divided, _, nothing⟩ :=
    mean_over_whole_millis Database.serve .none engine "meter" first
  obtain ⟨_, _, dividedLater, _⟩ :=
    mean_over_whole_millis Database.serve .none engine "meter" second
  have counted : (stop.since middle).wholeMilliHours = 1 / 3600000 := by rfl
  have length : (stop.since middle).hours = 1500000 / 3600000000000 := by rfl
  have later := (dividedLater 1 (by decide +kernel)).1
  rw [counted] at later
  refine ⟨⟨first, nothing.2 (by decide), (divided 1 (by decide +kernel)).1⟩, second, ?_, ?_⟩
  · rw [show (3600000 : Rat) = 1 / (1 / 3600000) by norm_num]
    exact later
  · rw [length]
    norm_num

end Engine

end Metering
