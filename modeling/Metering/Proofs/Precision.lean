import Mathlib.Algebra.Order.Field.Basic
import Metering.Proofs.Interpolation
import Metering.Proofs.MeanPower

/-!
# The precision of interpolation

The line between two readings is read off at the whole milliseconds from the first
reading to the target, as a part of the whole milliseconds between the two. Both
counts drop what is left of a millisecond, each on its own, so the value is off the
line through the two readings by less than what that line moves in a millisecond
(`Bracket.abs_line_sub_exactLine_lt`), and it is on the line exactly where the two
truncated counts are in the proportion of the times themselves
(`Bracket.line_within_a_milli`).
-/

namespace Metering

namespace Span

variable {span part : Span}

/-- A part of a span has at most as many whole milliseconds. -/
theorem millis_le_millis (nonneg : 0 ≤ part.nanos) (le : part.nanos ≤ span.nanos) :
    part.millis ≤ span.millis := by
  obtain ⟨_, low, _⟩ := millis_mul_le nonneg
  obtain ⟨_, _, high⟩ := millis_mul_le (Int.le_trans nonneg le)
  omega

/-- The whole milliseconds of a part of a span are off its proportion by less than a millisecond. -/
theorem abs_millis_cross_lt (nonneg : 0 ≤ part.nanos) (le : part.nanos ≤ span.nanos)
    (long : 0 < span.millis) :
    |part.millis * span.nanos - part.nanos * span.millis| < nanosPerMilli * span.millis := by
  have fewer := millis_le_millis nonneg le
  obtain ⟨some_, low, high⟩ := millis_mul_le nonneg
  obtain ⟨_, lowSpan, highSpan⟩ := millis_mul_le (Int.le_trans nonneg le)
  unfold nanosPerMilli
  generalize part.millis = reach at *
  generalize span.millis = total at *
  -- What the two counts drop is less than a millisecond each, and it enters with opposite signs.
  have split : reach * span.nanos - part.nanos * total =
      reach * (span.nanos - total * 1000000) - total * (part.nanos - reach * 1000000) := by ring
  have restSpan : 0 ≤ span.nanos - total * 1000000 := by omega
  have rest : 0 ≤ part.nanos - reach * 1000000 := by omega
  have first : reach * (span.nanos - total * 1000000) < total * 1000000 :=
    lt_of_le_of_lt (mul_le_mul_of_nonneg_right fewer restSpan)
      (mul_lt_mul_of_pos_left (by omega) long)
  have second : total * (part.nanos - reach * 1000000) < total * 1000000 :=
    mul_lt_mul_of_pos_left (by omega) long
  have firstNonneg := mul_nonneg some_ restSpan
  have secondNonneg := mul_nonneg (le_of_lt long) rest
  rw [split, abs_lt]
  constructor <;> omega

end Span

namespace Bracket

/-- The line through two points, read off at an instant in nanoseconds. -/
def exactLine (start : Instant) (startValue : Rat) (stop : Instant) (stopValue : Rat)
    (target : Instant) : Rat :=
  startValue + (stopValue - startValue) * (target.since start).nanos / (stop.since start).nanos

section Line

variable {start stop target : Instant} (startValue stopValue : Rat)

/-- The exact line starts in its first point. -/
theorem exactLine_start : exactLine start startValue stop stopValue start = startValue := by
  simp [exactLine, Instant.since]

/-- The exact line ends in its second point. -/
theorem exactLine_stop (less : start < stop) :
    exactLine start startValue stop stopValue stop = stopValue := by
  have long : ((stop.since start).nanos : Rat) ≠ 0 := by
    exact_mod_cast Int.ne_of_gt (Int.sub_pos_of_lt less)
  unfold exactLine
  field_simp
  ring

/-- What the line in whole milliseconds is off the exact one. -/
theorem line_sub_exactLine (less : start < stop) :
    line start startValue stop stopValue target - exactLine start startValue stop stopValue target =
      if (stop.since start).millis = 0 then
        -((stopValue - startValue) * (target.since start).nanos / (stop.since start).nanos)
      else
        (stopValue - startValue) *
          ((target.since start).millis * (stop.since start).nanos -
            (target.since start).nanos * (stop.since start).millis : Int) /
          ((stop.since start).millis * (stop.since start).nanos : Int) := by
  have long : ((stop.since start).nanos : Rat) ≠ 0 := by
    exact_mod_cast Int.ne_of_gt (Int.sub_pos_of_lt less)
  rw [line_eq, exactLine]
  split
  · ring
  · rename_i some_
    have whole : ((stop.since start).millis : Rat) ≠ 0 := by exact_mod_cast some_
    push_cast
    field_simp
    ring

variable {startValue stopValue}

/-- Short of its second point the line in whole milliseconds is off the exact one by less than what
that one moves in a millisecond. -/
theorem abs_line_sub_exactLine_lt (less : start < stop) (low : start ≤ target)
    (high : target < stop) (moves : startValue ≠ stopValue) :
    |line start startValue stop stopValue target -
        exactLine start startValue stop stopValue target| <
      |stopValue - startValue| * Span.nanosPerMilli / (stop.since start).nanos := by
  have rise : 0 < |stopValue - startValue| := abs_pos.2 (sub_ne_zero.2 moves.symm)
  have long : 0 < (stop.since start).nanos := Int.sub_pos_of_lt less
  have nonneg : 0 ≤ (target.since start).nanos := Int.sub_nonneg_of_le low
  have shorter : (target.since start).nanos < (stop.since start).nanos :=
    Int.sub_lt_sub_right high _
  obtain ⟨count, _, bound⟩ := Span.millis_mul_le (Int.le_of_lt long)
  rw [line_sub_exactLine startValue stopValue less]
  generalize stop.since start = span at *
  generalize target.since start = offset at *
  have longRat : (0 : Rat) < span.nanos := by exact_mod_cast long
  split
  · rename_i none_
    have short : |(offset.nanos : Rat)| < Span.nanosPerMilli := by
      rw [abs_of_nonneg (by exact_mod_cast nonneg)]
      exact_mod_cast (by unfold Span.nanosPerMilli; omega : offset.nanos < Span.nanosPerMilli)
    rw [abs_neg, abs_div, abs_mul, abs_of_pos longRat]
    exact div_lt_div_of_pos_right (mul_lt_mul_of_pos_left short rise) longRat
  · rename_i some_
    have whole : 0 < span.millis := by omega
    have wholeRat : (0 : Rat) < span.millis := by exact_mod_cast whole
    have cross := Span.abs_millis_cross_lt nonneg (Int.le_of_lt shorter) whole
    generalize offset.millis * span.nanos - offset.nanos * span.millis = difference at *
    have crossRat : |(difference : Rat)| < Span.nanosPerMilli * span.millis := by
      exact_mod_cast cross
    rw [Int.cast_mul, abs_div, abs_mul, abs_of_pos (mul_pos wholeRat longRat)]
    calc |stopValue - startValue| * |(difference : Rat)| / (span.millis * span.nanos)
      _ < |stopValue - startValue| * (Span.nanosPerMilli * span.millis) /
            (span.millis * span.nanos) :=
          div_lt_div_of_pos_right (mul_lt_mul_of_pos_left crossRat rise) (mul_pos wholeRat longRat)
      _ = |stopValue - startValue| * Span.nanosPerMilli / span.nanos := by field_simp

/-- Past its first point the line in whole milliseconds is on the exact one only if the line is
level or the truncated times are in the proportion of the times. -/
theorem line_eq_exactLine_iff (less : start < stop) (low : start < target) :
    line start startValue stop stopValue target = exactLine start startValue stop stopValue target ↔
      startValue = stopValue ∨ 0 < (stop.since start).millis ∧
        (target.since start).millis * (stop.since start).nanos =
          (target.since start).nanos * (stop.since start).millis := by
  have long : 0 < (stop.since start).nanos := Int.sub_pos_of_lt less
  have ahead : 0 < (target.since start).nanos := Int.sub_pos_of_lt low
  obtain ⟨count, _⟩ := Span.millis_mul_le (Int.le_of_lt long)
  rw [← sub_eq_zero, line_sub_exactLine startValue stopValue less]
  generalize stop.since start = span at *
  generalize target.since start = offset at *
  have level : stopValue - startValue = 0 ↔ startValue = stopValue := sub_eq_zero.trans eq_comm
  have longNe : (span.nanos : Rat) ≠ 0 := by exact_mod_cast Int.ne_of_gt long
  have aheadNe : (offset.nanos : Rat) ≠ 0 := by exact_mod_cast Int.ne_of_gt ahead
  split
  · rename_i none_
    rw [neg_eq_zero, div_eq_zero_iff, mul_eq_zero, level]
    simp [longNe, aheadNe, none_]
  · rename_i some_
    have whole : 0 < span.millis := by omega
    have wholeNe : ((span.millis * span.nanos : Int) : Rat) ≠ 0 := by
      exact_mod_cast mul_ne_zero some_ (Int.ne_of_gt long)
    rw [div_eq_zero_iff, or_iff_left wholeNe, mul_eq_zero, level, Int.cast_eq_zero, sub_eq_zero,
      and_iff_right whole]

end Line

/-- A bracket is built of readings that are around its target. -/
theorem of?_eq_ok_iff {σ : Type} {field : Field} {before after : Reading σ} {target : Instant}
    {bracket : Bracket σ} :
    of? field before after target = .ok bracket ↔
      before.instant ≤ target ∧ target ≤ after.instant ∧
        bracket = ⟨field, before, after, target⟩ := by
  constructor
  · intro built
    unfold of? at built
    split at built
    · cases built
    · rename_i inside
      injection built with same
      exact ⟨Int.not_lt.1 (not_or.1 inside).1, Int.not_lt.1 (not_or.1 inside).2, same.symm⟩
  · rintro ⟨start, stop, rfl⟩
    exact of?_eq_ok start stop

/-- A bracket of two readings that are apart has a value, which is off the line through the two by
less than what the line moves in a millisecond. It is on the line exactly if the line is level, the
target is at one of the readings, or the whole milliseconds of the offset and the span are in the
proportion of the two themselves. That is so if both are whole numbers of milliseconds. -/
theorem line_within_a_milli {field : Field} {before after : Reading Rat} {target : Instant}
    {bracket : Bracket Rat} {low high : Rat} (built : of? field before after target = .ok bracket)
    (lower : before.value? field = some low) (upper : after.value? field = some high)
    (less : before.instant < after.instant) :
    let span := after.instant.since before.instant
    let offset := target.since before.instant
    let exact := exactLine before.instant low after.instant high target
    ∃ value, bracket.interpolate = .ok value ∧
      (low ≠ high → |value - exact| < |high - low| * Span.nanosPerMilli / span.nanos) ∧
      (value = exact ↔ low = high ∨ target = before.instant ∨ target = after.instant ∨
        0 < span.millis ∧ offset.millis * span.nanos = offset.nanos * span.millis) ∧
      (.ofMillis span.millis = span → .ofMillis offset.millis = offset → value = exact) := by
  intro span offset exact
  obtain ⟨start, stop, rfl⟩ := of?_eq_ok_iff.1 built
  refine ⟨_, interpolate_eq_ok target lower upper, ?_⟩
  have apart : ¬ before.instant = after.instant := Instant.ne_of_lt less
  have positive : 0 < span.nanos := Int.sub_pos_of_lt less
  have milli : (0 : Rat) < Span.nanosPerMilli / span.nanos :=
    div_pos (by decide) (by exact_mod_cast positive)
  have room (moves : low ≠ high) : 0 < |high - low| * Span.nanosPerMilli / span.nanos := by
    rw [mul_div_assoc]
    exact mul_pos (abs_pos.2 (sub_ne_zero.2 moves.symm)) milli
  by_cases atStart : target = before.instant
  · have same : exact = low := by
      change exactLine before.instant low after.instant high target = low
      rw [atStart, exactLine_start]
    rw [if_pos (Or.inr atStart), same, sub_self, abs_zero]
    exact ⟨room, iff_of_true rfl (Or.inr (Or.inl atStart)), fun _ _ => rfl⟩
  rw [if_neg (not_or.2 ⟨apart, atStart⟩)]
  by_cases atStop : target = after.instant
  · have same : exact = high := by
      change exactLine before.instant low after.instant high target = high
      rw [atStop, exactLine_stop low high less]
    rw [if_pos atStop, same, sub_self, abs_zero]
    exact ⟨room, iff_of_true rfl (Or.inr (Or.inr (Or.inl atStop))), fun _ _ => rfl⟩
  rw [if_neg atStop]
  have past : before.instant < target :=
    Int.lt_iff_le_and_ne.2 ⟨start, fun same => atStart (Instant.ext same.symm)⟩
  have short : target < after.instant :=
    Int.lt_iff_le_and_ne.2 ⟨stop, fun same => atStop (Instant.ext same)⟩
  have on : line before.instant low after.instant high target = exact ↔ _ :=
    line_eq_exactLine_iff less past
  refine ⟨abs_line_sub_exactLine_lt less start short, ?_, fun wholeSpan wholeOffset => ?_⟩
  · rw [on, or_iff_right atStart, or_iff_right atStop]
  · have spanned : span.millis * 1000000 = span.nanos := Span.ext_iff.1 wholeSpan
    have reached : offset.millis * 1000000 = offset.nanos := Span.ext_iff.1 wholeOffset
    have some_ : 0 < span.millis := by omega
    refine on.2 (Or.inr ⟨some_, ?_⟩)
    calc offset.millis * span.nanos
      _ = offset.millis * 1000000 * span.millis := by rw [← spanned]; ring
      _ = offset.nanos * span.millis := by rw [reached]

/-- Between nothing and three watt hours that are a millisecond and a half apart a millisecond is
the whole span, so the value there is three watt hours. The line through the two is at two. -/
theorem line_within_a_milli_missed :
    let bracket : Bracket Rat :=
      ⟨.cumulativeEnergy, quickReading 0 0, quickReading 1500 3, atMicro 1000⟩
    of? .cumulativeEnergy (quickReading 0 0) (quickReading 1500 3) (atMicro 1000) = .ok bracket ∧
      bracket.interpolate = .ok 3 ∧ exactLine (atMicro 0) 0 (atMicro 1500) 3 (atMicro 1000) = 2 ∧
      ∃ value, bracket.interpolate = .ok value ∧ value ≠ 2 ∧ |value - 2| < 2 := by
  intro bracket
  have built : of? .cumulativeEnergy (quickReading 0 0) (quickReading 1500 3) (atMicro 1000) =
      .ok bracket := rfl
  have lower : (quickReading 0 0).value? .cumulativeEnergy = some 0 := rfl
  have upper : (quickReading 1500 3).value? .cumulativeEnergy = some 3 := rfl
  have less : (quickReading 0 0).instant < (quickReading 1500 3).instant := by decide
  have exact_ : exactLine (atMicro 0) 0 (atMicro 1500) 3 (atMicro 1000) = 2 := by decide +kernel
  obtain ⟨value, worth, close, on, _⟩ := line_within_a_milli built lower upper less
  change (0 : Rat) ≠ 3 → |value - exactLine (atMicro 0) 0 (atMicro 1500) 3 (atMicro 1000)| <
    |3 - 0| * 1000000 / 1500000 at close
  change value = exactLine (atMicro 0) 0 (atMicro 1500) 3 (atMicro 1000) ↔ _ at on
  rw [exact_] at close on
  refine ⟨built, by decide +kernel, exact_, value, worth, ?_, ?_⟩
  · rw [Ne, on]
    decide +kernel
  · have near := close (by decide)
    norm_num at near ⊢
    exact near

end Bracket

end Metering
