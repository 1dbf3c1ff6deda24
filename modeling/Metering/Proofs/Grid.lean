import Mathlib.Data.Set.Card
import Mathlib.Data.Set.Finite.Lemmas
import Mathlib.Data.Int.Interval
import Metering.Grid

/-!
# The instants of a grid

The instants of a grid lie whole intervals after its anchor (`Grid.Has`). For
an interval of whole milliseconds the rounding of `Grid.floor?` loses nothing,
so that the walk along a grid starts at the first of its instants that a window
admits and meets every one there in order: an instant is met exactly if fewer
instants of the grid than the limit lie in the window before it
(`mem_within_iff`).
-/

namespace Metering

/-- The calendar holds finitely many instants. -/
instance : Finite Instant :=
  Finite.of_injective
    (fun time : Instant =>
      (⟨time.nanos, time.first_le, time.le_last⟩ : Set.Icc Instant.firstNanos Instant.lastNanos))
    fun _ _ same => Instant.ext (congrArg Subtype.val same)

namespace Grid

/-- An instant lies whole intervals after the anchor of a grid. -/
def Has (grid : Grid) (time : Instant) : Prop :=
  ∃ count : Nat, time.nanos = grid.anchor.nanos + count * grid.interval.nanos

/-- The interval of a grid is a positive whole number of milliseconds. -/
def IsRegular (grid : Grid) : Prop := ∃ millis : Int, 0 < millis ∧ grid.interval = .ofMillis millis

/-- The instants of a grid in a window. -/
def instantsIn (grid : Grid) (window : Window) : Set Instant :=
  {time | grid.Has time ∧ window.contains time}

variable {grid : Grid}

/-- A positive whole number of milliseconds is a positive number of nanoseconds. -/
theorem IsRegular.interval_pos (regular : grid.IsRegular) : 0 < grid.interval.nanos := by
  obtain ⟨millis, positive, same⟩ := regular
  rw [same]
  change 0 < millis * 1000000
  omega

/-- Steps along a grid never lead back. -/
theorem IsRegular.steps_nonneg (regular : grid.IsRegular) (steps : Nat) :
    0 ≤ (steps : Int) * grid.interval.nanos :=
  Int.mul_nonneg (Int.natCast_nonneg steps) (Int.le_of_lt regular.interval_pos)

/-- No instant of a grid is before its anchor. -/
theorem Has.anchor_le {time : Instant} (has : grid.Has time) (regular : grid.IsRegular) :
    grid.anchor ≤ time := by
  obtain ⟨count, same⟩ := has
  have length := regular.steps_nonneg count
  rw [Instant.le_iff]
  omega

/-- The anchor of a grid is one of its instants. -/
theorem has_anchor (grid : Grid) : grid.Has grid.anchor := ⟨0, by omega⟩

/-- An instant of a grid lies whole intervals after each one that is not later. -/
theorem Has.exists_steps {time later : Instant} (has : grid.Has time) (hasLater : grid.Has later)
    (regular : grid.IsRegular) (le : time ≤ later) :
    ∃ steps : Nat, later.nanos = time.nanos + steps * grid.interval.nanos := by
  obtain ⟨count, same⟩ := has
  obtain ⟨more, sameLater⟩ := hasLater
  have ordered : count ≤ more := by
    rw [Instant.le_iff, same, sameLater] at le
    have scaled : (count : Int) * grid.interval.nanos ≤ more * grid.interval.nanos := by omega
    exact Int.ofNat_le.1 (Int.le_of_mul_le_mul_right scaled regular.interval_pos)
  refine ⟨more - count, ?_⟩
  rw [same, sameLater, Int.ofNat_sub ordered, Int.sub_mul]
  omega

/-- An instant whole intervals after one of a grid is one of the grid. -/
theorem Has.add_steps {time later : Instant} (has : grid.Has time) {steps : Nat}
    (after : later.nanos = time.nanos + steps * grid.interval.nanos) : grid.Has later := by
  obtain ⟨count, same⟩ := has
  refine ⟨count + steps, ?_⟩
  rw [after, same, Int.natCast_add, Int.add_mul]
  omega

/-- The instant an interval after one of a grid is one of the grid. -/
theorem Has.add_interval {time later : Instant} (has : grid.Has time)
    (after : later.nanos = time.nanos + grid.interval.nanos) : grid.Has later := by
  have steps : later.nanos = time.nanos + (1 : Nat) * grid.interval.nanos := by omega
  exact has.add_steps steps

/-- The next instant of a grid is one interval on. -/
theorem next?_eq_some_iff (time next : Instant) :
    grid.next? time = some next ↔ next.nanos = time.nanos + grid.interval.nanos :=
  Instant.shift?_eq_some_iff time grid.interval next

/-- There is a next instant where an instant is at least an interval on. -/
theorem exists_next?_eq_some (regular : grid.IsRegular) {time later : Instant}
    (le : time.nanos + grid.interval.nanos ≤ later.nanos) :
    ∃ next, grid.next? time = some next := by
  have positive := regular.interval_pos
  have lower := time.first_le
  have upper := later.le_last
  exact ⟨⟨time.nanos + grid.interval.nanos, by omega, by omega⟩, (next?_eq_some_iff ..).2 rfl⟩

/-- The latest instant of a grid up to one from the anchor on exists and is less than an interval
back. -/
theorem exists_floor?_eq_some (regular : grid.IsRegular) {time : Instant}
    (le : grid.anchor ≤ time) :
    ∃ floor, grid.floor? time = some floor ∧ grid.Has floor ∧ floor ≤ time ∧
      time.nanos < floor.nanos + grid.interval.nanos := by
  obtain ⟨millis, positive, same⟩ := regular
  rw [Instant.le_iff] at le
  have nanos : grid.interval.nanos = millis * 1000000 := congrArg Span.nanos same
  have whole : grid.interval.millis = millis := by rw [same, Span.millis_ofMillis]
  have elapsed : (time.since grid.anchor).millis = (time.nanos - grid.anchor.nanos) / 1000000 :=
    Instant.millis_since_eq_ediv le
  generalize offsetDef : (time.since grid.anchor).millis = offset at elapsed
  have parts := Int.mul_ediv_add_emod offset millis
  have rest := Int.emod_nonneg offset (Int.ne_of_gt positive)
  have less := Int.emod_lt_of_pos offset positive
  have quotient : 0 ≤ offset / millis := Int.ediv_nonneg (by omega) (by omega)
  have product : 0 ≤ millis * (offset / millis) := Int.mul_nonneg (by omega) quotient
  have upper := time.le_last
  have lower := grid.anchor.first_le
  let floor : Instant := ⟨grid.anchor.nanos + millis * (offset / millis) * 1000000,
    by omega, by omega⟩
  have found : grid.floor? time = some floor := by
    have inside : ¬ (time < grid.anchor ∨ millis ≤ 0) := by
      rw [Instant.lt_iff]
      omega
    unfold floor?
    simp only [whole, if_neg inside, offsetDef]
    rw [Instant.shift?_eq_some_iff]
    change grid.anchor.nanos + millis * (offset / millis) * 1000000 =
      grid.anchor.nanos + (offset - offset % millis) * 1000000
    omega
  refine ⟨floor, found, ⟨(offset / millis).toNat, ?_⟩, ?_, ?_⟩
  · change grid.anchor.nanos + millis * (offset / millis) * 1000000 = _
    rw [Int.toNat_of_nonneg quotient, nanos, ← Int.mul_assoc, Int.mul_comm millis]
  · change grid.anchor.nanos + millis * (offset / millis) * 1000000 ≤ time.nanos
    omega
  · change time.nanos < grid.anchor.nanos + millis * (offset / millis) * 1000000 + _
    omega

/-- There is no instant of a grid up to one before the anchor. -/
theorem floor?_eq_none {time : Instant} (before : time < grid.anchor) :
    grid.floor? time = none := if_pos (Or.inl before)

/-- No grid rounds an instant up. -/
theorem floor?_le (grid : Grid) {time floor : Instant} (found : grid.floor? time = some floor) :
    floor ≤ time := by
  unfold floor? at found
  dsimp only at found
  split at found
  · cases found
  · rename_i inside
    rw [Instant.shift?_eq_some_iff] at found
    have positive : 0 < grid.interval.millis := Int.not_le.1 fun none => inside (Or.inr none)
    have after : grid.anchor ≤ time := Int.not_lt.1 fun before => inside (Or.inl before)
    have elapsed : (time.since grid.anchor).millis = (time.nanos - grid.anchor.nanos) / 1000000 :=
      Instant.millis_since_eq_ediv after
    rw [elapsed] at found
    have rest := Int.emod_nonneg ((time.nanos - grid.anchor.nanos) / 1000000)
      (Int.ne_of_gt positive)
    change floor.nanos = grid.anchor.nanos + ((time.nanos - grid.anchor.nanos) / 1000000 -
      (time.nanos - grid.anchor.nanos) / 1000000 % grid.interval.millis) * 1000000 at found
    rw [Instant.le_iff]
    omega

/-- What the latest instant of a grid up to a time is: an instant of the grid and not later. -/
theorem floor?_spec (regular : grid.IsRegular) {time floor : Instant}
    (found : grid.floor? time = some floor) : grid.Has floor ∧ floor ≤ time := by
  by_cases before : time < grid.anchor
  · rw [floor?_eq_none before] at found
    cases found
  · obtain ⟨other, same, has, le, _⟩ := exists_floor?_eq_some regular (Int.not_lt.1 before)
    rw [same, Option.some_inj] at found
    exact found ▸ ⟨has, le⟩

/-- A grid whose interval is a whole number of milliseconds has an instant up to some time only if
that number is positive. -/
theorem isRegular_of_floor? {millis : Int} (whole : grid.interval = .ofMillis millis)
    {time floor : Instant} (found : grid.floor? time = some floor) : grid.IsRegular := by
  refine ⟨millis, Int.not_le.1 fun none => ?_, whole⟩
  have idle : grid.interval.millis ≤ 0 := by
    rw [whole, Span.millis_ofMillis]
    exact none
  unfold floor? at found
  dsimp only at found
  rw [if_pos (Or.inr idle)] at found
  cases found

/-- Two instants of a grid less than an interval apart are in order. -/
theorem Has.le_of_lt_add {time later : Instant} (has : grid.Has time) (hasLater : grid.Has later)
    (regular : grid.IsRegular) (less : time.nanos < later.nanos + grid.interval.nanos) :
    time ≤ later := by
  refine Int.not_lt.1 fun more => ?_
  obtain ⟨steps, apart⟩ := hasLater.exists_steps has regular (Int.le_of_lt more)
  have positive : 0 < steps := by
    refine Nat.pos_of_ne_zero fun none => ?_
    subst none
    have : later.nanos < time.nanos := more
    omega
  have least : grid.interval.nanos ≤ steps * grid.interval.nanos := by
    have scaled := Int.mul_le_mul_of_nonneg_right (Int.ofNat_le.2 positive)
      (Int.le_of_lt regular.interval_pos)
    omega
  omega

/-- The instant that follows one of a grid is the earliest one after it, if there is one. -/
theorem Has.next?_spec {time : Instant} (has : grid.Has time) (regular : grid.IsRegular) :
    (∀ next, grid.next? time = some next → grid.Has next ∧ time < next ∧
      ∀ other, grid.Has other → time < other → next ≤ other) ∧
    (grid.next? time = none → ∀ other, grid.Has other → ¬ time < other) := by
  have positive := regular.interval_pos
  have beyond : ∀ other, grid.Has other → time < other →
      time.nanos + grid.interval.nanos ≤ other.nanos := by
    intro other hasOther less
    refine Int.not_lt.1 fun near => ?_
    have bound := hasOther.le_of_lt_add has regular near
    exact Int.lt_irrefl _ (Int.lt_of_lt_of_le less bound)
  constructor
  · intro next found
    rw [next?_eq_some_iff] at found
    refine ⟨has.add_interval found, ?_, fun other hasOther less => ?_⟩
    · rw [Instant.lt_iff]
      omega
    · have bound := beyond other hasOther less
      rw [Instant.le_iff]
      omega
  · intro none other hasOther less
    obtain ⟨next, found⟩ := exists_next?_eq_some regular (beyond other hasOther less)
    rw [none] at found
    cases found

/-- The earliest instant of a grid from a time on, if there is one. -/
theorem ceiling?_spec (regular : grid.IsRegular) (time : Instant) :
    (∀ first, grid.ceiling? time = some first → grid.Has first ∧ time ≤ first ∧
      ∀ other, grid.Has other → time ≤ other → first ≤ other) ∧
    (grid.ceiling? time = none → ∀ other, grid.Has other → ¬ time ≤ other) := by
  unfold ceiling?
  by_cases early : time ≤ grid.anchor
  · rw [if_pos early]
    refine ⟨fun first found => ?_, fun none => absurd none (Option.some_ne_none _)⟩
    rw [Option.some_inj] at found
    subst found
    exact ⟨grid.has_anchor, early, fun other has _ => has.anchor_le regular⟩
  · have late : grid.anchor ≤ time := Int.le_of_lt (Int.not_le.1 early)
    obtain ⟨floor, same, has, least, most⟩ := exists_floor?_eq_some regular late
    rw [if_neg early, same]
    by_cases sits : floor = time
    · simp only [if_pos sits]
      refine ⟨fun first found => ?_, fun none => absurd none (Option.some_ne_none _)⟩
      rw [Option.some_inj] at found
      subst found
      exact ⟨has, sits ▸ Int.le_refl _, fun other _ le => sits ▸ le⟩
    · simp only [if_neg sits]
      have ahead : ∀ other : Instant, time ≤ other → floor < other := by
        intro other le
        have apart : floor.nanos ≠ time.nanos := fun equal => sits (Instant.ext equal)
        rw [Instant.le_iff] at least le
        rw [Instant.lt_iff]
        omega
      obtain ⟨isNext, isNone⟩ := has.next?_spec regular
      refine ⟨fun first found => ?_, fun none other hasOther le =>
        isNone none other hasOther (ahead other le)⟩
      obtain ⟨hasNext, _, earliest⟩ := isNext first found
      rw [next?_eq_some_iff] at found
      refine ⟨hasNext, ?_, fun other hasOther le => earliest other hasOther (ahead other le)⟩
      rw [Instant.le_iff]
      omega

/-- The earliest instant of a grid that a start admits, if there is one. -/
theorem firstFrom?_spec (regular : grid.IsRegular) (bound : Bound) :
    (∀ first, grid.firstFrom? bound = some first → grid.Has first ∧
      Window.admitsStart first bound ∧
        ∀ other, grid.Has other → Window.admitsStart other bound → first ≤ other) ∧
    (grid.firstFrom? bound = none → ∀ other, grid.Has other →
      ¬ Window.admitsStart other bound) := by
  cases bound with
  | unbounded =>
    refine ⟨fun first found => ?_, fun none => absurd none (Option.some_ne_none _)⟩
    obtain rfl : grid.anchor = first := Option.some_inj.1 found
    exact ⟨grid.has_anchor, rfl, fun other has _ => has.anchor_le regular⟩
  | inclusive start =>
    simp only [Window.admitsStart, decide_eq_true_eq]
    exact ceiling?_spec regular start
  | exclusive start =>
    simp only [Window.admitsStart, decide_eq_true_eq, firstFrom?]
    obtain ⟨isFirst, isNone⟩ := ceiling?_spec regular start
    cases ceiling : grid.ceiling? start with
    | none =>
      refine ⟨fun first found => absurd found.symm (Option.some_ne_none _),
        fun _ other has less => ?_⟩
      exact isNone ceiling other has (Int.le_of_lt less)
    | some least =>
      obtain ⟨has, after, earliest⟩ := isFirst least ceiling
      by_cases sits : least = start
      · simp only [if_pos sits]
        subst sits
        exact has.next?_spec regular
      · simp only [if_neg sits]
        refine ⟨fun first found => ?_, fun none => absurd none (Option.some_ne_none _)⟩
        rw [Option.some_inj] at found
        subst found
        refine ⟨has, ?_, fun other hasOther less => earliest other hasOther (Int.le_of_lt less)⟩
        exact Int.lt_iff_le_and_ne.2 ⟨after, fun same => sits (Instant.ext same.symm)⟩

/-! ## Walking along a grid -/

/-- A walk along a grid meets only instants in the window. -/
theorem contains_of_mem_run {window : Window} {count : Nat} {first time : Instant}
    (member : time ∈ grid.run window count first) : window.contains time := by
  induction count generalizing first with
  | zero => cases member
  | succ count ih =>
    unfold run at member
    split at member
    · rename_i inside
      cases after : grid.next? first with
      | none =>
        rw [after] at member
        exact List.mem_singleton.1 member ▸ inside
      | some next =>
        rw [after] at member
        rcases List.mem_cons.1 member with rfl | member
        · exact inside
        · exact ih member
    · cases member

/-- A walk along a grid whose interval is not negative never leads back. -/
theorem pairwise_le_run (forward : 0 ≤ grid.interval.nanos) (window : Window) (count : Nat)
    (first : Instant) :
    (grid.run window count first).Pairwise (· ≤ ·) ∧
      ∀ time ∈ grid.run window count first, first ≤ time := by
  induction count generalizing first with
  | zero => exact ⟨List.Pairwise.nil, fun _ member => absurd member List.not_mem_nil⟩
  | succ count ih =>
    unfold run
    split
    · cases after : grid.next? first with
      | none =>
        refine ⟨List.pairwise_singleton .., fun time member => ?_⟩
        rw [List.mem_singleton.1 member]
        exact Int.le_refl _
      | some next =>
        rw [next?_eq_some_iff] at after
        have ahead : first ≤ next := by
          rw [Instant.le_iff]
          omega
        obtain ⟨ordered, least⟩ := ih next
        have later := fun time member => Int.le_trans ahead (least time member)
        refine ⟨List.pairwise_cons.2 ⟨later, ordered⟩, fun time member => ?_⟩
        rcases List.mem_cons.1 member with rfl | member
        · exact Int.le_refl _
        · exact later time member
    · exact ⟨List.Pairwise.nil, fun _ member => absurd member List.not_mem_nil⟩

/-- The instants of a grid that are met in a window are in it, and never lead back if the interval
is not negative. -/
theorem within_spec (forward : 0 ≤ grid.interval.nanos) (window : Window) (limit : Nat) :
    (grid.within window limit).Pairwise (· ≤ ·) ∧
      ∀ time ∈ grid.within window limit, window.contains time := by
  unfold within
  cases grid.firstFrom? window.start with
  | none => exact ⟨List.Pairwise.nil, fun _ member => absurd member List.not_mem_nil⟩
  | some first =>
    exact ⟨(pairwise_le_run forward window limit first).1, fun _ member =>
      contains_of_mem_run member⟩

/-- A walk along a grid from an instant that the window's start admits meets the instants that the
stop admits, as many as its count allows. -/
theorem mem_run_iff (regular : grid.IsRegular) {window : Window} {count : Nat} {first : Instant}
    (admitted : Window.admitsStart first window.start) (time : Instant) :
    time ∈ grid.run window count first ↔
      (∃ steps : Nat, steps < count ∧ time.nanos = first.nanos + steps * grid.interval.nanos) ∧
        Window.admitsStop time window.stop := by
  have positive := regular.interval_pos
  induction count generalizing first with
  | zero => simp [run]
  | succ count ih =>
    unfold run
    by_cases inside : window.contains first
    · rw [if_pos inside]
      have stop := ((window.contains_iff first).1 inside).2
      cases after : grid.next? first with
      | none =>
        simp only [List.mem_singleton]
        constructor
        · rintro rfl
          exact ⟨⟨0, by omega, by omega⟩, stop⟩
        · rintro ⟨⟨steps, _, same⟩, _⟩
          cases steps with
          | zero => exact Instant.ext (by omega)
          | succ steps =>
            have least := regular.steps_nonneg steps
            rw [Int.natCast_add, Int.add_mul] at same
            have there : first.nanos + grid.interval.nanos ≤ time.nanos := by omega
            obtain ⟨next, found⟩ := exists_next?_eq_some regular there
            rw [after] at found
            cases found
      | some next =>
        rw [next?_eq_some_iff] at after
        have later : Window.admitsStart next window.start :=
          Window.admitsStart_mono (by rw [Instant.le_iff]; omega) admitted
        simp only [List.mem_cons, ih later]
        constructor
        · rintro (rfl | ⟨⟨steps, less, same⟩, stopped⟩)
          · exact ⟨⟨0, by omega, by omega⟩, stop⟩
          · refine ⟨⟨steps + 1, by omega, ?_⟩, stopped⟩
            rw [Int.natCast_add, Int.add_mul]
            omega
        · rintro ⟨⟨steps, less, same⟩, stopped⟩
          cases steps with
          | zero => exact Or.inl (Instant.ext (by omega))
          | succ steps =>
            refine Or.inr ⟨⟨steps, by omega, ?_⟩, stopped⟩
            rw [Int.natCast_add, Int.add_mul] at same
            omega
    · rw [if_neg inside]
      simp only [List.not_mem_nil, false_iff]
      rintro ⟨⟨steps, _, same⟩, stopped⟩
      have length := regular.steps_nonneg steps
      have le : first ≤ time := by
        rw [Instant.le_iff]
        omega
      exact inside ((window.contains_iff first).2 ⟨admitted, Window.admitsStop_anti le stopped⟩)

/-- A walk along a grid meets later and later instants. -/
theorem pairwise_run (regular : grid.IsRegular) {window : Window} {count : Nat} {first : Instant}
    (admitted : Window.admitsStart first window.start) :
    (grid.run window count first).Pairwise (· < ·) := by
  have positive := regular.interval_pos
  induction count generalizing first with
  | zero => exact List.Pairwise.nil
  | succ count ih =>
    unfold run
    split
    · cases after : grid.next? first with
      | none => exact List.pairwise_singleton ..
      | some next =>
        rw [next?_eq_some_iff] at after
        have later : Window.admitsStart next window.start :=
          Window.admitsStart_mono (by rw [Instant.le_iff]; omega) admitted
        refine List.pairwise_cons.2 ⟨fun time member => ?_, ih later⟩
        obtain ⟨⟨steps, _, same⟩, _⟩ := (mem_run_iff regular later time).1 member
        have length := regular.steps_nonneg steps
        rw [Instant.lt_iff]
        omega
    · exact List.Pairwise.nil

/-- The instants of a grid in a window are met earliest first. -/
theorem pairwise_within (regular : grid.IsRegular) (window : Window) (limit : Nat) :
    (grid.within window limit).Pairwise (· < ·) := by
  unfold within
  cases found : grid.firstFrom? window.start with
  | none => exact List.Pairwise.nil
  | some first =>
    exact pairwise_run regular ((firstFrom?_spec regular window.start).1 first found).2.1

/-- The number of instants of a grid in a window that are so many steps from the first. -/
theorem ncard_instantsIn_before (regular : grid.IsRegular) {window : Window}
    {first time : Instant} (has : grid.Has first)
    (admitted : Window.admitsStart first window.start)
    (least : ∀ other, grid.Has other → Window.admitsStart other window.start → first ≤ other)
    (stopped : Window.admitsStop time window.stop) {steps : Nat}
    (same : time.nanos = first.nanos + steps * grid.interval.nanos) :
    {other ∈ grid.instantsIn window | other < time}.ncard = steps := by
  have positive := regular.interval_pos
  have scaled : ∀ less : Nat, less < steps →
      0 ≤ (less : Int) * grid.interval.nanos ∧
        (less : Int) * grid.interval.nanos + grid.interval.nanos ≤
          steps * grid.interval.nanos := by
    intro less bound
    have step := Int.mul_le_mul_of_nonneg_right (Int.ofNat_le.2 (Nat.succ_le_of_lt bound))
      (Int.le_of_lt positive)
    rw [Int.natCast_succ, Int.add_mul] at step
    exact ⟨regular.steps_nonneg less, by omega⟩
  have lower := first.first_le
  have upper := time.le_last
  refine Set.ncard_eq_of_bijective
    (fun less bound => ⟨first.nanos + less * grid.interval.nanos,
      by have := scaled less bound; omega, by have := scaled less bound; omega⟩) ?_ ?_ ?_
  · rintro other ⟨⟨hasOther, inside⟩, before⟩
    have start := ((window.contains_iff other).1 inside).1
    obtain ⟨less, apart⟩ := has.exists_steps hasOther regular (least other hasOther start)
    refine ⟨less, ?_, Instant.ext apart.symm⟩
    rw [Instant.lt_iff] at before
    have scaledLess : (less : Int) * grid.interval.nanos < steps * grid.interval.nanos := by omega
    exact Int.ofNat_lt.1 (Int.lt_of_mul_lt_mul_right scaledLess (Int.le_of_lt positive))
  · intro less bound
    have apart := scaled less bound
    have from_ : first.nanos ≤ first.nanos + less * grid.interval.nanos := by omega
    have before : first.nanos + less * grid.interval.nanos < time.nanos := by omega
    refine ⟨⟨has.add_steps rfl, (window.contains_iff _).2 ⟨?_, ?_⟩⟩, before⟩
    · exact Window.admitsStart_mono from_ admitted
    · exact Window.admitsStop_anti (Int.le_of_lt before) stopped
  · intro less more _ _ equal
    have nanos : first.nanos + less * grid.interval.nanos =
        first.nanos + more * grid.interval.nanos := congrArg Instant.nanos equal
    have products : (less : Int) * grid.interval.nanos = more * grid.interval.nanos := by omega
    exact Int.ofNat_inj.1 (Int.eq_of_mul_eq_mul_right (Int.ne_of_gt positive) products)

/-- An instant is met on a walk along a grid if the grid has it, the window contains it, and fewer
than the limit lie before it. -/
theorem mem_within_iff (regular : grid.IsRegular) (window : Window) (limit : Nat)
    (time : Instant) :
    time ∈ grid.within window limit ↔ time ∈ grid.instantsIn window ∧
      {other ∈ grid.instantsIn window | other < time}.ncard < limit := by
  obtain ⟨isFirst, isNone⟩ := firstFrom?_spec regular window.start
  unfold within
  cases found : grid.firstFrom? window.start with
  | none =>
    simp only [List.not_mem_nil, false_iff]
    rintro ⟨⟨has, inside⟩, _⟩
    exact isNone found time has ((window.contains_iff time).1 inside).1
  | some first =>
    obtain ⟨has, admitted, least⟩ := isFirst first found
    have counted : Window.admitsStop time window.stop → ∀ steps : Nat,
        time.nanos = first.nanos + steps * grid.interval.nanos →
          {other ∈ grid.instantsIn window | other < time}.ncard = steps :=
      fun stopped _ same => ncard_instantsIn_before regular has admitted least stopped same
    simp only [mem_run_iff regular admitted time]
    constructor
    · rintro ⟨⟨steps, less, same⟩, stopped⟩
      have length := regular.steps_nonneg steps
      have start : Window.admitsStart time window.start :=
        Window.admitsStart_mono (by rw [Instant.le_iff]; omega) admitted
      refine ⟨⟨has.add_steps same, (window.contains_iff time).2 ⟨start, stopped⟩⟩, ?_⟩
      rw [counted stopped steps same]
      exact less
    · rintro ⟨⟨hasTime, inside⟩, few⟩
      obtain ⟨start, stopped⟩ := (window.contains_iff time).1 inside
      obtain ⟨steps, same⟩ := has.exists_steps hasTime regular (least time hasTime start)
      rw [counted stopped steps same] at few
      exact ⟨⟨steps, few, same⟩, stopped⟩

/-- Fewer instants of a grid lie in a window before one of them than in all of it. -/
theorem ncard_before_lt {window : Window} {time : Instant} (member : time ∈ grid.instantsIn window) :
    {other ∈ grid.instantsIn window | other < time}.ncard < (grid.instantsIn window).ncard := by
  refine Set.ncard_lt_ncard ?_
  refine (Set.ssubset_iff_of_subset (Set.sep_subset _ _)).2 ⟨time, member, fun less => ?_⟩
  exact Int.lt_irrefl _ less.2

/-- The number of instants of a grid in a window can be told by walking one step further than it. -/
theorem ncard_instantsIn_le (regular : grid.IsRegular) {window : Window} {limit : Nat}
    (few : (grid.within window (limit + 1)).length ≤ limit) :
    (grid.instantsIn window).ncard ≤ limit := by
  have short : {time | time ∈ grid.within window (limit + 1)}.ncard ≤ limit := by
    refine Nat.le_trans ?_ few
    classical
    rw [← List.coe_toFinset, Set.ncard_coe_finset]
    exact List.toFinset_card_le _
  refine Nat.le_trans (Set.ncard_le_ncard fun time member => ?_) short
  -- The first instant that the walk misses would have too few before it to be missed.
  by_contra missed
  obtain ⟨first, ⟨inside, apart⟩, least⟩ := Set.exists_min_image
    {time ∈ grid.instantsIn window | time ∉ grid.within window (limit + 1)} Instant.nanos
    (Set.toFinite _) ⟨time, member, missed⟩
  refine apart ((mem_within_iff regular window (limit + 1) first).2 ⟨inside, ?_⟩)
  refine Nat.lt_succ_of_le (Nat.le_trans (Set.ncard_le_ncard fun other before => ?_) short)
  by_contra skipped
  exact Int.not_lt.2 (least other ⟨before.1, skipped⟩) before.2

end Grid

end Metering
