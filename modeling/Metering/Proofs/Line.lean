import Mathlib.Algebra.Order.Field.Rat
import Mathlib.Tactic.FieldSimp
import Mathlib.Tactic.Linarith
import Mathlib.Tactic.Ring
import Metering.Proofs.Neighbours

/-!
# Reading values off a line

On exact values the line through two readings stays between their values and
never turns back where they do not, although its time differences are counted
in whole milliseconds (`valueAt_mono`). Among instants that sit on whole
milliseconds nothing is lost by the counting, and a line through a point of
another line and one of its ends is that line (`line_of_line`).
-/

namespace Metering

namespace Instant

/-- An instant sits on a whole millisecond. -/
def IsWholeMilli (time : Instant) : Prop := Span.nanosPerMilli ∣ time.nanos

/-- The milliseconds between instants on whole milliseconds are exact. -/
theorem millis_since_of_isWholeMilli {time origin : Instant} (whole : time.IsWholeMilli)
    (wholeOrigin : origin.IsWholeMilli) :
    (time.since origin).millis * 1000000 = time.nanos - origin.nanos := by
  obtain ⟨count, same⟩ := whole
  obtain ⟨other, sameOrigin⟩ := wholeOrigin
  have apart : time.nanos - origin.nanos = (count - other) * 1000000 := by
    rw [same, sameOrigin]
    change 1000000 * count - 1000000 * other = _
    omega
  change (time.nanos - origin.nanos).tdiv 1000000 * 1000000 = _
  rw [apart, Int.mul_tdiv_cancel _ (by decide)]

/-- The milliseconds from an instant to a later one are not negative and grow with the later one. -/
theorem millis_since_mono {origin time later : Instant} (start : origin ≤ time)
    (le : time ≤ later) :
    0 ≤ (time.since origin).millis ∧ (time.since origin).millis ≤ (later.since origin).millis := by
  rw [millis_since_eq_ediv start, millis_since_eq_ediv (Int.le_trans start le)]
  rw [Instant.le_iff] at start le
  omega

end Instant

namespace Bracket

/-- The line through two points on exact values. -/
theorem line_eq (start : Instant) (startValue : Rat) (stop : Instant) (stopValue : Rat)
    (target : Instant) :
    line start startValue stop stopValue target =
      if (stop.since start).millis = 0 then startValue
      else startValue + (stopValue - startValue) * ((target.since start).millis : Rat) /
        ((stop.since start).millis : Rat) := rfl

/-- The line through a point of another line and its end is the other line. -/
theorem line_of_line {start middle stop target : Instant} (startValue stopValue : Rat)
    (wholeStart : start.IsWholeMilli) (wholeMiddle : middle.IsWholeMilli)
    (wholeStop : stop.IsWholeMilli) (wholeTarget : target.IsWholeMilli)
    (low : start < middle) (high : middle < stop) :
    line middle (line start startValue stop stopValue middle) stop stopValue target =
      line start startValue stop stopValue target := by
  have whole := Instant.millis_since_of_isWholeMilli wholeStop wholeStart
  have first := Instant.millis_since_of_isWholeMilli wholeMiddle wholeStart
  have second := Instant.millis_since_of_isWholeMilli wholeStop wholeMiddle
  have offset := Instant.millis_since_of_isWholeMilli wholeTarget wholeStart
  have rest := Instant.millis_since_of_isWholeMilli wholeTarget wholeMiddle
  rw [Instant.lt_iff] at low high
  simp only [line_eq]
  generalize (stop.since start).millis = span at *
  generalize (middle.since start).millis = ahead at *
  generalize (stop.since middle).millis = behind at *
  generalize (target.since start).millis = reach at *
  generalize (target.since middle).millis = remaining at *
  have split : span = ahead + behind := by omega
  have splitTarget : reach = ahead + remaining := by omega
  have behindPositive : 0 < behind := by omega
  have spanPositive : 0 < span := by omega
  simp only [if_neg (Int.ne_of_gt behindPositive), if_neg (Int.ne_of_gt spanPositive)]
  have behindNonzero : (behind : Rat) ≠ 0 := by exact_mod_cast Int.ne_of_gt behindPositive
  have spanNonzero : ((ahead : Rat) + behind) ≠ 0 := by
    exact_mod_cast split ▸ Int.ne_of_gt spanPositive
  rw [split, splitTarget]
  push_cast
  field_simp
  ring

/-- The line through two points that do not fall stays between them and does not fall. -/
theorem line_mono {start stop target later : Instant} {startValue stopValue : Rat}
    (ordered : startValue ≤ stopValue) (low : start ≤ target) (le : target ≤ later)
    (high : later ≤ stop) :
    startValue ≤ line start startValue stop stopValue target ∧
      line start startValue stop stopValue target ≤ line start startValue stop stopValue later ∧
      line start startValue stop stopValue later ≤ stopValue := by
  obtain ⟨nonnegative, grows⟩ := Instant.millis_since_mono low le
  obtain ⟨_, bound⟩ := Instant.millis_since_mono (Int.le_trans low le) high
  simp only [line_eq]
  generalize (stop.since start).millis = span at *
  generalize (target.since start).millis = offset at *
  generalize (later.since start).millis = further at *
  by_cases none : span = 0
  · rw [if_pos none, if_pos none]
    exact ⟨le_refl _, le_refl _, ordered⟩
  · rw [if_neg none, if_neg none]
    have positive : (0 : Rat) < span := by exact_mod_cast (by omega : 0 < span)
    have rise : 0 ≤ stopValue - startValue := sub_nonneg.2 ordered
    have offsetNonnegative : (0 : Rat) ≤ offset := by exact_mod_cast nonnegative
    have offsetGrows : (offset : Rat) ≤ further := by exact_mod_cast grows
    have offsetBound : (further : Rat) ≤ span := by exact_mod_cast bound
    have share : 0 ≤ (stopValue - startValue) * offset / span :=
      div_nonneg (mul_nonneg rise offsetNonnegative) (le_of_lt positive)
    have step : (stopValue - startValue) * offset / span ≤
        (stopValue - startValue) * further / span :=
      div_le_div_of_nonneg_right (mul_le_mul_of_nonneg_left offsetGrows rise) (le_of_lt positive)
    have whole : (stopValue - startValue) * further / span ≤ stopValue - startValue := by
      rw [div_le_iff₀ positive]
      exact mul_le_mul_of_nonneg_left offsetBound rise
    exact ⟨by linarith only [share], by linarith only [step], by linarith only [whole]⟩

/-- The value of a bracket does not fall with its target if the values of its readings do not. -/
theorem interpolate_mono {field : Field} {before after : Reading Rat} {low high first second : Rat}
    {target later : Instant} (lower : before.value? field = some low)
    (upper : after.value? field = some high) (ordered : low ≤ high)
    (start : before.instant ≤ target) (le : target ≤ later) (stop : later ≤ after.instant)
    (found : interpolate ⟨field, before, after, target⟩ = .ok first)
    (foundLater : interpolate ⟨field, before, after, later⟩ = .ok second) :
    low ≤ first ∧ first ≤ second ∧ second ≤ high := by
  obtain ⟨above, rises, below⟩ := line_mono ordered start le stop
  rw [interpolate_eq_ok target lower upper] at found
  rw [interpolate_eq_ok later lower upper] at foundLater
  injection found with found
  injection foundLater with foundLater
  subst found foundLater
  simp only [Instant.ext_iff, Instant.le_iff] at *
  have endsIn : low ≤ line before.instant low after.instant high later := le_trans above rises
  have startsIn : line before.instant low after.instant high target ≤ high := le_trans rises below
  -- At an end of the bracket its value is the reading's own, and the line runs between the two.
  split_ifs <;> refine ⟨?_, ?_, ?_⟩ <;>
    first
    | exact le_refl _
    | assumption
    | (exfalso; omega)

end Bracket

namespace ReadingStore

/-- The values of a field never fall from one reading of a source to a later one. -/
def NeverFalls (store : ReadingStore Rat) (id : SourceId) (field : Field) : Prop :=
  ∀ earlier later low high, store.Carries id field earlier → store.Carries id field later →
    earlier.value? field = some low → later.value? field = some high →
      earlier.instant ≤ later.instant → low ≤ high

/-- Readings of a source whose energy, taken as zero where there is none, never falls have a counter
that never falls. -/
theorem neverFalls_of_getD {store : ReadingStore Rat} {id : SourceId}
    (ordered : ∀ earlier ∈ (store.timeline id).entries, ∀ later ∈ (store.timeline id).entries,
      earlier.instant ≤ later.instant → earlier.energy.getD 0 ≤ later.energy.getD 0) :
    store.NeverFalls id .cumulativeEnergy := by
  intro earlier later low high held heldLater lower upper le
  have step := ordered earlier held.1 later heldLater.1 le
  change earlier.energy = some low at lower
  change later.energy = some high at upper
  rw [lower, upper] at step
  exact step

/-- Values read off readings that never fall do not fall. -/
theorem valueAt_mono {store : ReadingStore Rat} {id : SourceId} {field : Field}
    (steady : store.NeverFalls id field) {time later : Instant} {first second : Rat}
    (le : time ≤ later) (found : store.valueAt id time field = .ok first)
    (foundLater : store.valueAt id later field = .ok second) : first ≤ second := by
  obtain ⟨before, after, pair, value⟩ := (valueAt_eq_ok_iff ..).1 found
  obtain ⟨beforeLater, afterLater, pairLater, valueLater⟩ := (valueAt_eq_ok_iff ..).1 foundLater
  obtain ⟨low, lower⟩ := Option.isSome_iff_exists.1 pair.carries_before.2
  obtain ⟨high, upper⟩ := Option.isSome_iff_exists.1 pair.carries_after.2
  have ordered : low ≤ high := steady _ _ low high pair.carries_before pair.carries_after lower
    upper (Int.le_trans pair.before_le pair.le_after)
  rcases pair.apart_or_same pairLater le with apart | ⟨rfl, rfl⟩
  · obtain ⟨lowLater, lowerLater⟩ := Option.isSome_iff_exists.1 pairLater.carries_before.2
    obtain ⟨highLater, upperLater⟩ := Option.isSome_iff_exists.1 pairLater.carries_after.2
    have orderedLater : lowLater ≤ highLater := steady _ _ lowLater highLater
      pairLater.carries_before pairLater.carries_after lowerLater upperLater
      (Int.le_trans pairLater.before_le pairLater.le_after)
    have between : high ≤ lowLater := steady _ _ high lowLater pair.carries_after
      pairLater.carries_before upper lowerLater apart
    have below := (Bracket.interpolate_mono lower upper ordered pair.before_le (Int.le_refl _)
      pair.le_after value value).2.2
    have above := (Bracket.interpolate_mono lowerLater upperLater orderedLater pairLater.before_le
      (Int.le_refl _) pairLater.le_after valueLater valueLater).1
    exact le_trans below (le_trans between above)
  · exact (Bracket.interpolate_mono lower upper ordered pair.before_le le pairLater.le_after
      value valueLater).2.1

end ReadingStore

end Metering
