import Mathlib.Order.Bounds.Defs
import Metering.Proofs.Catalog
import Metering.Proofs.Enumeration

/-!
# Rounding down onto a grid

A time is rounded down to the greatest instant of a grid that is not after it,
and that alone tells which instant it is (`Grid.floor?_eq_some_iff`). That times
are rounded in their order, and that rounding twice is rounding once, follows
from it. Anchors and times may lie between two milliseconds: only the interval
has to be a whole number of them (`Grid.rounds_down`). The settings of a valid
source give such an interval (`Source.interval_of_validate`).
-/

namespace Metering

namespace Span

/-- A span is a whole number of milliseconds, of either sign, that a word holds. -/
def IsWholeMillis (span : Span) : Prop :=
  ∃ millis : Int, word? millis = some millis ∧ span = .ofMillis millis

/-- A number that fits a word is not above the greatest one. -/
theorem le_maxMillis_of_word? {count fitting : Int} (fits : word? count = some fitting) :
    count ≤ maxMillis := by
  unfold word? at fits
  split at fits
  · rename_i bounds
    exact bounds.2
  · cases fits

/-- As many milliseconds as a word holds are not longer than the longest span. -/
theorem IsWholeMillis.le_longest {span : Span} (whole : span.IsWholeMillis) : span ≤ longest := by
  obtain ⟨millis, fits, rfl⟩ := whole
  exact Int.mul_le_mul_of_nonneg_right (le_maxMillis_of_word? fits) (by decide)

/-- A number of milliseconds is positive exactly if the span of that many is. -/
theorem ofMillis_le_zero_iff (millis : Int) : ofMillis millis ≤ ofMillis 0 ↔ millis ≤ 0 := by
  change millis * 1000000 ≤ 0 * 1000000 ↔ millis ≤ 0
  omega

/-- A number of seconds up to the greatest one is a whole number of milliseconds. -/
theorem isWholeMillis_ofSeconds {count : Nat} (le : count ≤ maxSeconds) :
    (ofSeconds count).IsWholeMillis := by
  refine ⟨count * 1000, word?_eq_some (by omega) ?_, ofSeconds_eq_ofMillis count⟩
  unfold maxSeconds at le
  unfold maxMillis
  omega

end Span

/-! ## The interval that a source asks for -/

/-- The settings of a valid source ask for a positive whole number of milliseconds, all of the
seconds that are set. -/
theorem Source.interval_of_validate {σ : Type} [Scalar σ] {source : Source σ}
    (valid : source.validate = .ok ()) {settings : CacheSettings}
    (asks : source.cache = some settings) :
    settings.interval.IsWholeMillis ∧ .ofMillis 0 < settings.interval ∧
      settings.interval = .ofSeconds settings.intervalSeconds := by
  have leaf : source.isLeaf := isLeaf_of_validate valid asks
  obtain ⟨positive, _, representable⟩ :=
    (checkCache_eq_ok_iff ..).1 (checkCache_of_validate valid leaf asks)
  have same := CacheSettings.interval_eq representable
  refine ⟨?_, ?_, same⟩
  · rw [same]
    exact Span.isWholeMillis_ofSeconds (CacheSettings.intervalSeconds_le representable)
  · rw [same]
    change 0 < (settings.intervalSeconds : Int) * 1000000000
    omega

/-! ## The instant that a time is rounded down to -/

namespace Grid

variable {grid : Grid}

/-- A grid with a positive whole number of milliseconds between its instants is regular. -/
theorem isRegular_of_pos (whole : grid.interval.IsWholeMillis)
    (positive : ¬ grid.interval ≤ .ofMillis 0) : grid.IsRegular := by
  obtain ⟨millis, _, same⟩ := whole
  rw [same, Span.ofMillis_le_zero_iff] at positive
  exact ⟨millis, Int.not_le.1 positive, same⟩

/-- A time is rounded down exactly to the greatest instant of the grid that is not after it. -/
theorem floor?_eq_some_iff (regular : grid.IsRegular) (time floor : Instant) :
    grid.floor? time = some floor ↔
      IsGreatest {instant | grid.Has instant ∧ instant ≤ time} floor := by
  constructor
  · intro found
    have after : grid.anchor ≤ time := by
      refine Int.not_lt.1 fun before => ?_
      rw [floor?_eq_none before] at found
      cases found
    obtain ⟨greatest, same, has, le, near⟩ := exists_floor?_eq_some regular after
    obtain rfl : greatest = floor := Option.some_inj.1 (same.symm.trans found)
    refine ⟨⟨has, le⟩, fun instant inside => ?_⟩
    exact inside.1.le_of_lt_add has regular (Int.lt_of_le_of_lt inside.2 near)
  · rintro ⟨⟨has, le⟩, greatest⟩
    have after : grid.anchor ≤ time := Int.le_trans (has.anchor_le regular) le
    obtain ⟨other, same, hasOther, otherLe, near⟩ := exists_floor?_eq_some regular after
    have ahead : floor ≤ other := has.le_of_lt_add hasOther regular (Int.lt_of_le_of_lt le near)
    have behind : other ≤ floor := greatest ⟨hasOther, otherLe⟩
    rw [same, Option.some_inj]
    exact Instant.ext (Int.le_antisymm behind ahead)

/-- What has been rounded down stays where it is. -/
theorem floor?_of_floor? (regular : grid.IsRegular) {time floor : Instant}
    (found : grid.floor? time = some floor) : grid.floor? floor = some floor := by
  obtain ⟨⟨has, _⟩, _⟩ := (floor?_eq_some_iff regular ..).1 found
  exact (floor?_eq_some_iff regular ..).2 ⟨⟨has, Int.le_refl _⟩, fun _ inside => inside.2⟩

/-- A later time is rounded down as well, to an instant that is not earlier. -/
theorem floor?_mono (regular : grid.IsRegular) {time later floor : Instant} (le : time ≤ later)
    (found : grid.floor? time = some floor) :
    ∃ laterFloor, grid.floor? later = some laterFloor ∧ floor ≤ laterFloor := by
  obtain ⟨⟨has, before⟩, _⟩ := (floor?_eq_some_iff regular ..).1 found
  have after : floor ≤ later := Int.le_trans before le
  obtain ⟨laterFloor, foundLater, _⟩ :=
    exists_floor?_eq_some regular (Int.le_trans (has.anchor_le regular) after)
  have greatest := ((floor?_eq_some_iff regular ..).1 foundLater).2
  exact ⟨laterFloor, foundLater, greatest ⟨has, after⟩⟩

/-- There is nothing to round down to before the anchor, or without a positive interval. -/
theorem floor?_eq_none_iff (whole : grid.interval.IsWholeMillis) (time : Instant) :
    grid.floor? time = none ↔ time < grid.anchor ∨ grid.interval ≤ .ofMillis 0 := by
  constructor
  · intro none
    by_contra inside
    obtain ⟨after, positive⟩ := not_or.1 inside
    obtain ⟨floor, found, _⟩ :=
      exists_floor?_eq_some (isRegular_of_pos whole positive) (Int.not_lt.1 after)
    rw [none] at found
    cases found
  · rintro (before | idle)
    · exact floor?_eq_none before
    · cases found : grid.floor? time with
      | none => rfl
      | some floor =>
        obtain ⟨_, _, same⟩ := whole
        have positive := (isRegular_of_floor? same found).interval_pos
        exact absurd positive (Int.not_lt.2 idle)

/-- Rounding down in words comes to the same, also where there is nothing to round down to. -/
theorem floorInWords?_of_isWholeMillis (whole : grid.interval.IsWholeMillis) (time : Instant) :
    grid.floorInWords? time = some (grid.floor? time) := by
  by_cases idle : grid.interval ≤ .ofMillis 0
  · rw [(floor?_eq_none_iff whole time).2 (Or.inr idle)]
    obtain ⟨millis, fits, same⟩ := whole
    rw [same, Span.ofMillis_le_zero_iff] at idle
    simp [floorInWords?, same, fits, idle]
  · exact floorInWords?_eq (isRegular_of_pos whole idle) whole.le_longest time

/-- A grid rounds every time down onto one of its instants, if it has one up to that time. -/
structure RoundsDown (grid : Grid) : Prop where
  /-- There is nothing to round down to exactly before the anchor and without a positive
  interval. -/
  eq_none_iff : ∀ time, grid.floor? time = none ↔
    time < grid.anchor ∨ grid.interval ≤ .ofMillis 0
  /-- Otherwise a time is rounded down to the greatest instant of the grid that is not after it. -/
  isGreatest : ∀ time floor, grid.floor? time = some floor →
    IsGreatest {instant | grid.Has instant ∧ instant ≤ time} floor
  /-- No number leaves its word on the way, no span its range and no instant the calendar. -/
  inWords : ∀ time, grid.floorInWords? time = some (grid.floor? time)
  /-- Times are rounded down in their order. -/
  mono : ∀ time later, time ≤ later → ∀ floor, grid.floor? time = some floor →
    ∃ laterFloor, grid.floor? later = some laterFloor ∧ floor ≤ laterFloor
  /-- Rounding down twice is rounding down once. -/
  idempotent : ∀ time floor, grid.floor? time = some floor → grid.floor? floor = some floor

/-- A grid with a whole number of milliseconds between its instants rounds down, and the settings of
every valid source give such a grid a positive interval, none that is cut short. -/
theorem rounds_down {σ : Type} [Scalar σ] :
    (∀ grid : Grid, grid.interval.IsWholeMillis → grid.RoundsDown) ∧
      ∀ (source : Source σ) (settings : CacheSettings),
        source.validate = .ok () → source.cache = some settings →
          settings.interval.IsWholeMillis ∧ .ofMillis 0 < settings.interval ∧
            settings.interval = .ofSeconds settings.intervalSeconds := by
  constructor
  · intro grid whole
    -- A grid on which something is rounded down is regular, whatever the sign of its interval.
    have regular : ∀ time floor, grid.floor? time = some floor → grid.IsRegular := by
      intro time floor found
      obtain ⟨_, _, same⟩ := whole
      exact isRegular_of_floor? same found
    refine ⟨floor?_eq_none_iff whole, fun time floor found => ?_,
      floorInWords?_of_isWholeMillis whole, fun time later le floor found => ?_,
      fun time floor found => ?_⟩
    · exact (floor?_eq_some_iff (regular time floor found) ..).1 found
    · exact floor?_mono (regular time floor found) le found
    · exact floor?_of_floor? (regular time floor found) found
  · intro source settings valid asks
    exact Source.interval_of_validate valid asks

/-- The last instant of the calendar is rounded down by half a millisecond on the grid that begins
between two milliseconds, and the hourly meter gives its grid hours. -/
theorem rounds_down_eveGrid :
    (eveGrid.interval.IsWholeMillis ∧
      (eveGrid.floor? .last).map (fun floor => Instant.lastNanos - floor.nanos) = some 500000 ∧
      eveGrid.RoundsDown) ∧
    let settings : CacheSettings := ⟨3600, 60⟩
    (hourlyMeter.validate = .ok () ∧ hourlyMeter.cache = some settings) ∧
      settings.interval.IsWholeMillis ∧ .ofMillis 0 < settings.interval ∧
        settings.interval = .ofSeconds settings.intervalSeconds := by
  obtain ⟨grids, sources⟩ := @rounds_down Rat _
  have whole : eveGrid.interval.IsWholeMillis := ⟨3600000, by decide, rfl⟩
  exact ⟨⟨whole, by decide +kernel, grids eveGrid whole⟩, ⟨rfl, rfl⟩,
    sources hourlyMeter ⟨3600, 60⟩ rfl rfl⟩

end Grid

end Metering
