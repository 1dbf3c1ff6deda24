import Metering.Time.Instant

/-!
# Time windows

A window has a bound on either side, and each bound includes its instant,
excludes it or is absent. A window whose bounds leave no room is empty, which
takes in every window whose ends are in the wrong order
(`Window.isEmpty_of_isMisordered`).
-/

namespace Metering

/-- One end of a window. -/
inductive Bound where
  /-- The window has no end on this side. -/
  | unbounded
  /-- The window ends with the instant. -/
  | inclusive (instant : Instant)
  /-- The window ends short of the instant. -/
  | exclusive (instant : Instant)
deriving DecidableEq, Repr

/-- A stretch of time. -/
structure Window where
  /-- The earlier end. -/
  start : Bound
  /-- The later end. -/
  stop : Bound
deriving DecidableEq, Repr

namespace Window

/-- From one instant to another, both included. -/
def closed (start stop : Instant) : Window := ⟨.inclusive start, .inclusive stop⟩

/-- After one instant, up to and including another. -/
def afterUntil (start stop : Instant) : Window := ⟨.exclusive start, .inclusive stop⟩

/-- Whether an instant is on the right side of a start. -/
def admitsStart (instant : Instant) : Bound → Bool
  | .unbounded => true
  | .inclusive start => start ≤ instant
  | .exclusive start => start < instant

/-- Whether an instant is on the right side of a stop. -/
def admitsStop (instant : Instant) : Bound → Bool
  | .unbounded => true
  | .inclusive stop => instant ≤ stop
  | .exclusive stop => instant < stop

/-- Whether an instant lies in a window. -/
def contains (window : Window) (instant : Instant) : Bool :=
  admitsStart instant window.start && admitsStop instant window.stop

/-- Whether the ends of a window leave no room between them. -/
def isEmpty (window : Window) : Bool :=
  match window.start, window.stop with
  | .inclusive start, .inclusive stop => stop < start
  | .inclusive start, .exclusive stop => stop ≤ start
  | .exclusive start, .inclusive stop => stop ≤ start
  | .exclusive start, .exclusive stop => stop ≤ start
  | _, _ => false

/-- Whether the ends of a window are out of order: the start is after the stop, or the two are one
instant that neither of them includes. -/
def isMisordered (window : Window) : Bool :=
  match window.start, window.stop with
  | .inclusive start, .inclusive stop => stop < start
  | .inclusive start, .exclusive stop => stop < start
  | .exclusive start, .inclusive stop => stop < start
  | .exclusive start, .exclusive stop => stop < start || start = stop
  | _, _ => false

/-! ## What windows admit -/

/-- What a start admits goes on being admitted later. -/
theorem admitsStart_mono {bound : Bound} {time later : Instant} (le : time ≤ later)
    (admitted : admitsStart time bound) : admitsStart later bound := by
  cases bound with
  | unbounded => rfl
  | inclusive start =>
    simp only [admitsStart, decide_eq_true_eq] at *
    exact Int.le_trans admitted le
  | exclusive start =>
    simp only [admitsStart, decide_eq_true_eq] at *
    exact Int.lt_of_lt_of_le admitted le

/-- What a stop admits has been admitted before. -/
theorem admitsStop_anti {bound : Bound} {time later : Instant} (le : time ≤ later)
    (admitted : admitsStop later bound) : admitsStop time bound := by
  cases bound with
  | unbounded => rfl
  | inclusive stop =>
    simp only [admitsStop, decide_eq_true_eq] at *
    exact Int.le_trans le admitted
  | exclusive stop =>
    simp only [admitsStop, decide_eq_true_eq] at *
    exact Int.lt_of_le_of_lt le admitted

/-- A window contains what both of its ends admit. -/
theorem contains_iff (window : Window) (time : Instant) :
    window.contains time ↔ admitsStart time window.start ∧ admitsStop time window.stop := by
  unfold contains
  rw [Bool.and_eq_true]

/-- A window whose ends are out of order is taken for empty. -/
theorem isEmpty_of_isMisordered {window : Window} (misordered : window.isMisordered) :
    window.isEmpty := by
  obtain ⟨start, stop⟩ := window
  cases start <;> cases stop <;>
    simp only [isMisordered, isEmpty, Bool.or_eq_true, decide_eq_true_eq, Instant.lt_iff,
      Instant.le_iff, Instant.ext_iff] at misordered ⊢ <;>
    omega

/-- A window that is taken for empty admits no instant. -/
theorem not_contains_of_isEmpty {window : Window} (empty : window.isEmpty) (time : Instant) :
    ¬ window.contains time := by
  intro inside
  obtain ⟨above, below⟩ := Bool.and_eq_true_iff.1 inside
  obtain ⟨start, stop⟩ := window
  cases start <;> cases stop <;>
    simp only [isEmpty, admitsStart, admitsStop, decide_eq_true_eq, Bool.false_eq_true,
      Instant.lt_iff, Instant.le_iff] at empty above below <;>
    omega

end Window

end Metering
