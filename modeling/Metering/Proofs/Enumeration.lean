import Metering.Proofs.Grid

/-!
# Enumerating a grid

The instants of a grid in a window are listed earliest first, and a limit cuts
the list off without leaving out an earlier one (`Grid.Enumerates`). The way to
the first of them rounds down in words of 64 bits: worked out with every number
checked to fit its word, its span or the calendar, it comes to the same list, so
nothing overflows on the way (`Grid.within_enumerates`).
-/

namespace Metering

/-! ## Numbers that fit -/

namespace Span

/-- A number of milliseconds, none unless a signed word of 64 bits holds it. -/
def word? (count : Int) : Option Int :=
  if -(maxMillis + 1) ≤ count ∧ count ≤ maxMillis then some count else none

/-- A span, none unless it is no longer than the longest one in its direction. -/
def bounded? (span : Span) : Option Span :=
  if -longest.nanos ≤ span.nanos ∧ span.nanos ≤ longest.nanos then some span else none

/-- A number from zero on fits a word up to the greatest one. -/
theorem word?_eq_some {count : Int} (nonneg : 0 ≤ count) (le : count ≤ maxMillis) :
    word? count = some count := if_pos ⟨by unfold maxMillis; omega, le⟩

/-- A span that is not negative is one up to the longest. -/
theorem bounded?_eq_some {span : Span} (nonneg : 0 ≤ span.nanos) (le : span ≤ longest) :
    span.bounded? = some span := by
  have negative : -longest.nanos ≤ 0 := by decide
  exact if_pos ⟨Int.le_trans negative nonneg, le⟩

/-- A number of milliseconds from zero on that fits a word is a span that is not too long. -/
theorem bounded?_ofMillis {count : Int} (nonneg : 0 ≤ count) (le : count ≤ maxMillis) :
    (ofMillis count).bounded? = some (.ofMillis count) :=
  bounded?_eq_some (Int.mul_nonneg nonneg (by decide))
    (Int.mul_le_mul_of_nonneg_right le (by decide))

end Span

namespace Instant

/-- No two instants of the calendar are further apart than a span is long. -/
theorem since_le_longest (instant origin : Instant) : instant.since origin ≤ Span.longest := by
  have upper := instant.le_last
  have lower := origin.first_le
  unfold lastNanos at upper
  unfold firstNanos at lower
  change instant.nanos - origin.nanos ≤ 9223372036854775807 * 1000000
  omega

/-- The whole milliseconds since an earlier instant are a number from zero on that fits a word. -/
theorem millis_since_bounds {instant origin : Instant} (le : origin ≤ instant) :
    0 ≤ (instant.since origin).millis ∧ (instant.since origin).millis ≤ Span.maxMillis := by
  have count : (instant.since origin).millis = (instant.since origin).nanos / 1000000 :=
    millis_since_eq_ediv le
  have nonneg : 0 ≤ (instant.since origin).nanos := Int.sub_nonneg_of_le le
  have most : (instant.since origin).nanos ≤ Span.maxMillis * 1000000 :=
    since_le_longest instant origin
  omega

end Instant

namespace Grid

/-! ## Rounding in words -/

/-- The latest instant of a grid at or before a time, worked out in words: none as soon as a number
does not fit its word, a span is too long or the calendar is left. -/
def floorInWords? (grid : Grid) (time : Instant) : Option (Option Instant) := do
  let interval ← Span.word? grid.interval.millis
  if time < grid.anchor ∨ interval ≤ 0 then
    return none
  else
    let elapsed ← (time.since grid.anchor).bounded?
    let offset ← Span.word? elapsed.millis
    let rest ← Span.word? (offset.emod interval)
    let whole ← Span.word? (offset - rest)
    let length ← (Span.ofMillis whole).bounded?
    let floor ← grid.anchor.shift? length
    return some floor

/-- The earliest instant of a grid at or after a time, worked out in words. -/
def ceilingInWords? (grid : Grid) (time : Instant) : Option (Option Instant) :=
  if time ≤ grid.anchor then
    some (some grid.anchor)
  else
    (grid.floorInWords? time).map fun
      | some floor => if floor = time then some floor else grid.next? floor
      | none => none

/-- The earliest instant of a grid that a start admits, worked out in words. -/
def firstInWords? (grid : Grid) : Bound → Option (Option Instant)
  | .unbounded => some (some grid.anchor)
  | .inclusive start => grid.ceilingInWords? start
  | .exclusive start =>
    (grid.ceilingInWords? start).map fun
      | some first => if first = start then grid.next? first else some first
      | none => none

/-- The instants of a grid in a window, at most a number of them, worked out in words. -/
def withinInWords? (grid : Grid) (window : Window) (limit : Nat) : Option (List Instant) :=
  (grid.firstInWords? window.start).map fun
    | some first => grid.run window limit first
    | none => []

variable {grid : Grid}

/-- What is left over of an offset, and the offset rounded down, lie between zero and the offset. -/
theorem floorMillis_bounds {offset interval : Int} (nonneg : 0 ≤ offset) (positive : 0 < interval) :
    (0 ≤ offset.emod interval ∧ offset.emod interval ≤ offset) ∧
      (0 ≤ floorMillis offset interval ∧ floorMillis offset interval ≤ offset) := by
  have parts : interval * (offset / interval) + offset.emod interval = offset :=
    Int.mul_ediv_add_emod offset interval
  have rest : 0 ≤ offset.emod interval := Int.emod_nonneg offset (Int.ne_of_gt positive)
  have whole : 0 ≤ interval * (offset / interval) :=
    Int.mul_nonneg (Int.le_of_lt positive) (Int.ediv_nonneg nonneg (Int.le_of_lt positive))
  unfold floorMillis
  omega

/-- Rounding down in words comes to the same instant: nothing overflows. -/
theorem floorInWords?_eq (regular : grid.IsRegular) (short : grid.interval ≤ Span.longest)
    (time : Instant) : grid.floorInWords? time = some (grid.floor? time) := by
  obtain ⟨millis, positive, same⟩ := regular
  have whole : grid.interval.millis = millis := by rw [same, Span.millis_ofMillis]
  have fits : millis ≤ Span.maxMillis := by
    rw [same, Span.le_iff] at short
    change millis * 1000000 ≤ Span.maxMillis * 1000000 at short
    omega
  have interval : Span.word? millis = some millis :=
    Span.word?_eq_some (Int.le_of_lt positive) fits
  by_cases before : time < grid.anchor
  · simp [floorInWords?, floor?, whole, interval, before]
  · have after : grid.anchor ≤ time := Int.not_lt.1 before
    have inside : ¬ (time < grid.anchor ∨ millis ≤ 0) := by
      rintro (less | none)
      · exact before less
      · omega
    have elapsed : (time.since grid.anchor).bounded? = some (time.since grid.anchor) :=
      Span.bounded?_eq_some (Int.sub_nonneg_of_le after) (Instant.since_le_longest ..)
    obtain ⟨nonneg, top⟩ := Instant.millis_since_bounds after
    obtain ⟨floor, found, _⟩ := exists_floor?_eq_some ⟨millis, positive, same⟩ after
    simp only [floor?, whole, if_neg inside] at found
    simp only [floorInWords?, floor?, whole, interval, if_neg inside, elapsed, Option.bind_eq_bind,
      Option.bind_some, found]
    generalize (time.since grid.anchor).millis = offset at *
    obtain ⟨⟨rest, restLe⟩, rounded, roundedLe⟩ := floorMillis_bounds nonneg positive
    have remainder : Span.word? (offset.emod millis) = some (offset.emod millis) :=
      Span.word?_eq_some rest (Int.le_trans restLe top)
    have difference : Span.word? (offset - offset.emod millis) = some (floorMillis offset millis) :=
      Span.word?_eq_some rounded (Int.le_trans roundedLe top)
    rw [Span.word?_eq_some nonneg top, Option.bind_some, remainder, Option.bind_some, difference,
      Option.bind_some, Span.bounded?_ofMillis rounded (Int.le_trans roundedLe top), Option.bind_some,
      found]
    rfl

/-- Rounding up in words comes to the same instant. -/
theorem ceilingInWords?_eq (regular : grid.IsRegular) (short : grid.interval ≤ Span.longest)
    (time : Instant) : grid.ceilingInWords? time = some (grid.ceiling? time) := by
  unfold ceilingInWords? ceiling?
  by_cases early : time ≤ grid.anchor
  · rw [if_pos early, if_pos early]
  · rw [if_neg early, if_neg early, floorInWords?_eq regular short]
    rfl

/-- The first instant that a start admits is the same in words. -/
theorem firstInWords?_eq (regular : grid.IsRegular) (short : grid.interval ≤ Span.longest)
    (bound : Bound) : grid.firstInWords? bound = some (grid.firstFrom? bound) := by
  cases bound with
  | unbounded => rfl
  | inclusive start => exact ceilingInWords?_eq regular short start
  | exclusive start =>
    change (grid.ceilingInWords? start).map _ = some _
    rw [ceilingInWords?_eq regular short]
    rfl

/-! ## Listing -/

/-- A list holds the first of some instants, earliest first, as many as a limit allows. -/
structure Enumerates (list : List Instant) (instants : Set Instant) (limit : Nat) : Prop where
  /-- Each instant of the list is later than the ones before it. -/
  increasing : list.Pairwise (· < ·)
  /-- The list holds nothing else. -/
  mem : ∀ time ∈ list, time ∈ instants
  /-- An instant is not listed before an earlier one. -/
  earliest : ∀ time ∈ list, ∀ other ∈ instants, other < time → other ∈ list
  /-- The list is cut off at the limit, and nowhere before it. -/
  length_eq : list.length = min limit instants.ncard

/-- A walk along a grid meets no more instants than it may. -/
theorem length_run_le (grid : Grid) (window : Window) (count : Nat) (first : Instant) :
    (grid.run window count first).length ≤ count := by
  induction count generalizing first with
  | zero => exact Nat.le_refl 0
  | succ count ih =>
    unfold run
    split
    · cases grid.next? first with
      | none => exact Nat.succ_le_succ (Nat.zero_le count)
      | some next => exact Nat.succ_le_succ (ih next)
    · exact Nat.zero_le _

/-- No more instants of a grid are met in a window than the limit. -/
theorem length_within_le (grid : Grid) (window : Window) (limit : Nat) :
    (grid.within window limit).length ≤ limit := by
  unfold within
  cases grid.firstFrom? window.start with
  | none => exact Nat.zero_le limit
  | some first => exact grid.length_run_le window limit first

/-- As many instants of a grid are met in a window as lie there, up to the limit. -/
theorem length_within (regular : grid.IsRegular) (window : Window) (limit : Nat) :
    (grid.within window limit).length = min limit (grid.instantsIn window).ncard := by
  have distinct : (grid.within window limit).Nodup :=
    (pairwise_within regular window limit).imp Instant.ne_of_lt
  have counted : (grid.within window limit).length =
      {time | time ∈ grid.within window limit}.ncard := by
    classical
    rw [← List.coe_toFinset, Set.ncard_coe_finset, List.toFinset_card_of_nodup distinct]
  have most : (grid.within window limit).length ≤ (grid.instantsIn window).ncard := by
    rw [counted]
    exact Set.ncard_le_ncard fun time member => ((mem_within_iff regular ..).1 member).1
  refine Nat.le_antisymm (Nat.le_min.2 ⟨grid.length_within_le window limit, most⟩) ?_
  -- A list that is shorter than the limit has met everything that lies in the window.
  rcases Nat.lt_or_ge (grid.within window limit).length limit with short | full
  · have few : (grid.instantsIn window).ncard ≤ limit := by
      cases limit with
      | zero => cases short
      | succ limit =>
        exact Nat.le_succ_of_le (ncard_instantsIn_le regular (Nat.le_of_lt_succ short))
    refine Nat.le_trans (Nat.min_le_right ..) ?_
    rw [counted]
    refine Set.ncard_le_ncard fun time member => (mem_within_iff regular ..).2 ⟨member, ?_⟩
    exact Nat.lt_of_lt_of_le (ncard_before_lt member) few
  · exact Nat.le_trans (Nat.min_le_left ..) full

/-- The walk along a grid lists the first instants of the grid in a window, as many as the limit
allows. Worked out in words it comes to the same list: no number leaves its word, no span its range
and no sum the calendar. -/
theorem within_enumerates (regular : grid.IsRegular) (short : grid.interval ≤ Span.longest)
    (window : Window) (limit : Nat) :
    grid.withinInWords? window limit = some (grid.within window limit) ∧
      Enumerates (grid.within window limit) (grid.instantsIn window) limit := by
  refine ⟨?_, pairwise_within regular window limit, fun time member => ?_,
    fun time member other inside less => ?_, length_within regular window limit⟩
  · unfold withinInWords? within
    rw [firstInWords?_eq regular short]
    rfl
  · exact ((mem_within_iff regular ..).1 member).1
  · obtain ⟨_, few⟩ := (mem_within_iff regular ..).1 member
    refine (mem_within_iff regular ..).2 ⟨inside, Nat.lt_of_le_of_lt ?_ few⟩
    exact Set.ncard_le_ncard fun earlier before =>
      ⟨before.1, Int.lt_trans before.2 less⟩

/-- An hourly grid that begins two hours and half a millisecond before the last instant. -/
def eveGrid : Grid :=
  ⟨⟨Instant.lastNanos - 7200000500000, by decide, by decide⟩, .ofMillis 3600000⟩

/-- After its anchor the grid has two instants left before the calendar ends, and a limit of five
lists both. -/
theorem within_enumerates_eveGrid :
    let window : Window := ⟨.exclusive eveGrid.anchor, .unbounded⟩
    (eveGrid.IsRegular ∧ eveGrid.interval ≤ Span.longest) ∧
      (eveGrid.within window 5).map (fun time => Instant.lastNanos - time.nanos) =
        [3600000500000, 500000] ∧
      eveGrid.withinInWords? window 5 = some (eveGrid.within window 5) ∧
      Enumerates (eveGrid.within window 5) (eveGrid.instantsIn window) 5 := by
  have regular : eveGrid.IsRegular := ⟨3600000, by decide, rfl⟩
  have short : eveGrid.interval ≤ Span.longest := by decide
  exact ⟨⟨regular, short⟩, by decide +kernel, within_enumerates regular short _ 5⟩

end Grid

end Metering
