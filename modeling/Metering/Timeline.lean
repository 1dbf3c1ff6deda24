import Metering.KeyOrder
import Metering.Reading
import Metering.Time.Window

/-!
# Timelines

A timeline holds at most one entry per instant. It is kept newest first, since
entries mostly arrive in the order of their instants, so that adding one at
the end and looking near the end both take few steps.
-/

namespace Metering

open Stamped (instant)

/-- Entries of strictly decreasing instants. -/
def NewestFirst {α : Type} [Stamped α] (entries : List α) : Prop :=
  entries.Pairwise fun newer older => instant older < instant newer

/-- Entries with at most one for each instant. -/
structure Timeline (α : Type) [Stamped α] where
  /-- The entries, newest first. -/
  entries : List α
  /-- Instants strictly decrease. -/
  newestFirst : NewestFirst entries

namespace Timeline

variable {α : Type} [Stamped α]

/-- The order in which a timeline keeps its entries. -/
def latestFirst : KeyOrder α Instant where
  key := instant
  before newer older := older < newer
  decidable _ _ := inferInstance
  irrefl time := Int.lt_irrefl time.nanos
  trans above below := Int.lt_trans below above
  connected differ := (Int.lt_or_gt_of_ne fun same => differ (Instant.ext same)).symm

/-- The timeline without entries. -/
def empty : Timeline α := ⟨[], List.Pairwise.nil⟩

instance : Inhabited (Timeline α) := ⟨empty⟩

/-- The number of entries. -/
def size (timeline : Timeline α) : Nat := timeline.entries.length

/-- The entries, oldest first. -/
def toList (timeline : Timeline α) : List α := timeline.entries.reverse

/-- The entry at an instant. -/
def at? (timeline : Timeline α) (time : Instant) : Option α :=
  timeline.entries.find? fun entry => instant entry = time

/-- Adds an entry, in the place of one at its instant. -/
def insert (timeline : Timeline α) (entry : α) : Timeline α :=
  ⟨latestFirst.place entry timeline.entries,
    latestFirst.isOrdered_place entry timeline.newestFirst⟩

/-- The newest entry at or before an instant that meets a condition. -/
def latestUpTo? (timeline : Timeline α) (time : Instant) (keep : α → Bool) : Option α :=
  timeline.entries.find? fun entry => instant entry ≤ time && keep entry

/-- The oldest entry at or after an instant that meets a condition. -/
def earliestFrom? (timeline : Timeline α) (time : Instant) (keep : α → Bool) : Option α :=
  (timeline.entries.takeWhile fun entry => time ≤ instant entry).reverse.find? keep

/-- The newest entry before an instant. -/
def below? (timeline : Timeline α) (time : Instant) : Option α :=
  timeline.entries.find? fun entry => instant entry < time

/-- The oldest entry after an instant. -/
def above? (timeline : Timeline α) (time : Instant) : Option α :=
  (timeline.entries.takeWhile fun entry => time < instant entry).getLast?

/-- The entries between the ends of a window, oldest first, as they are cut out of an ordered map:
what is after the stop is passed over, and the rest is taken as far as the start. Ends that are out
of order leave nothing to cut out. -/
def slice? (timeline : Timeline α) (window : Window) : Option (List α) :=
  if window.isMisordered then
    none
  else
    some ((timeline.entries.dropWhile fun entry =>
        !Window.admitsStop (instant entry) window.stop).takeWhile fun entry =>
      Window.admitsStart (instant entry) window.start).reverse

/-- There is something to cut out where the ends of a window leave room between them. -/
theorem isSome_slice? (timeline : Timeline α) {window : Window} (room : ¬ window.isEmpty) :
    (timeline.slice? window).isSome := by
  have ordered : ¬ window.isMisordered := mt Window.isEmpty_of_isMisordered room
  unfold slice?
  rw [if_neg ordered]
  rfl

/-- The entries in a window that meet a condition, oldest first. The ends of the window are compared
first, so that they are in order where the entries between them are cut out. -/
def within (timeline : Timeline α) (window : Window) (keep : α → Bool) : List α :=
  if room : window.isEmpty then
    []
  else
    ((timeline.slice? window).get (timeline.isSome_slice? room)).filter keep

/-- The instant of the oldest entry. -/
def oldest? (timeline : Timeline α) : Option Instant := timeline.entries.getLast?.map instant

/-- The instant of the newest entry. -/
def newest? (timeline : Timeline α) : Option Instant := timeline.entries.head?.map instant

/-- A timeline of entries, where a later one takes the place of an earlier one at its instant. -/
def ofList (entries : List α) : Timeline α := entries.foldl insert empty

/-! ## What operations do to the entries -/

/-- An insertion keeps every entry but one at its instant. -/
theorem mem_insert (timeline : Timeline α) (entry other : α) :
    other ∈ (timeline.insert entry).entries ↔
      other = entry ∨ other ∈ timeline.entries ∧ instant other ≠ instant entry :=
  latestFirst.mem_place_iff timeline.newestFirst

/-- Entries at one instant are one entry. -/
theorem eq_of_instant_eq (timeline : Timeline α) {left right : α}
    (leftMember : left ∈ timeline.entries) (rightMember : right ∈ timeline.entries)
    (same : instant left = instant right) : left = right :=
  latestFirst.eq_of_key_eq timeline.newestFirst leftMember rightMember same

/-- The entry found at an instant is the one the timeline has there. -/
theorem at?_eq_some_iff (timeline : Timeline α) (time : Instant) (entry : α) :
    timeline.at? time = some entry ↔ entry ∈ timeline.entries ∧ instant entry = time :=
  latestFirst.find?_eq_some_iff timeline.newestFirst time

end Timeline

end Metering
