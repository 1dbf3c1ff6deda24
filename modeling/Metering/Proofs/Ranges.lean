import Metering.Proofs.Catalog
import Metering.Proofs.StoreHistory
import Metering.Timeline.Merge

/-!
# Ranges of readings

A window that is not taken for empty has its ends in order, so that what lies
between them can be cut out of a timeline (`Timeline.exists_slice?_eq`). What lies
in a window of a store after a history is what the history leaves of it, and the
nearest readings on either side of an instant are the ends of two such windows
(`ReadingStore.refines_readings`).
-/

namespace Metering

open Stamped (instant)

/-! ## Timelines -/

namespace Timeline

variable {α : Type} [Stamped α] (timeline : Timeline α) (window : Window) (keep : α → Bool)

/-- What lies in a window that is not taken for empty is cut out of the timeline. -/
theorem exists_slice?_eq (room : window.isEmpty = false) :
    ∃ slice, timeline.slice? window = some slice ∧
      timeline.within window keep = slice.filter keep := by
  have ordered : window.isMisordered = false := Bool.eq_false_iff.2 fun misordered =>
    Bool.eq_false_iff.1 room (Window.isEmpty_of_isMisordered misordered)
  refine ⟨_, timeline.slice?_eq window ordered, ?_⟩
  rw [within_eq_filter, List.filter_reverse, List.filter_filter]
  simp only [Bool.and_comm]

/-- The newest entry up to an instant is the last one in the window that ends there. -/
theorem latestUpTo?_eq_getLast? (time : Instant) : timeline.latestUpTo? time keep =
    (timeline.within ⟨.unbounded, .inclusive time⟩ keep).getLast? := by
  rw [within_eq_filter, List.getLast?_reverse, List.head?_filter]
  rfl

/-- The oldest entry from an instant on is the first one in the window that begins there. -/
theorem earliestFrom?_eq_head? (time : Instant) : timeline.earliestFrom? time keep =
    (timeline.within ⟨.inclusive time, .unbounded⟩ keep).head? := by
  have onward : (timeline.entries.takeWhile fun entry => decide (time ≤ instant entry)) =
      timeline.entries.filter fun entry =>
        (Window.mk (.inclusive time) .unbounded).contains (instant entry) := by
    simp only [Window.contains, Window.admitsStart, Window.admitsStop, Bool.and_true]
    refine takeWhile_eq_filter (timeline.newestFirst.imp fun {newer older} less => ?_)
    simp only [decide_eq_true_eq]
    exact fun after => Int.le_trans after (Int.le_of_lt less)
  unfold earliestFrom?
  rw [onward, within_eq_filter, ← List.head?_filter, List.filter_reverse, List.filter_filter]
  simp only [Bool.and_comm]

end Timeline

/-! ## Stores -/

namespace ReadingStore

variable {σ : Type}

/-- What a store that holds the readings of a list finds in a window. -/
structure Ranges (store : ReadingStore σ) (stored : List (Reading σ)) (id : SourceId)
    (window : Window) (field : Field) : Prop where
  /-- The oldest reading comes first. -/
  oldestFirst : (store.range id window field).Pairwise fun earlier later =>
    earlier.instant < later.instant
  /-- The readings are those of the source that carry the field and that the window admits. -/
  mem_iff : ∀ reading, reading ∈ store.range id window field ↔
    reading ∈ stored ∧ reading.source = id ∧ reading.carries field ∧
      window.contains reading.instant
  /-- They are cut out of the timeline if the window is not taken for empty, and there is always
  something to cut out then. -/
  cut : window.isEmpty = false → ∃ slice, (store.timeline id).slice? window = some slice ∧
    store.range id window field = slice.filter fun reading => reading.carries field
  /-- A window that is taken for empty admits nothing, and nothing is found in it. -/
  empty : window.isEmpty → store.range id window field = [] ∧ ∀ time, ¬ window.contains time

/-- A store finds in each window what it holds there. -/
theorem Holds.ranges {store : ReadingStore σ} {stored : List (Reading σ)}
    (holds : store.Holds stored) (id : SourceId) (window : Window) (field : Field) :
    store.Ranges stored id window field where
  oldestFirst := Timeline.pairwise_within ..
  mem_iff reading := by
    unfold range
    rw [Timeline.mem_within_iff, holds id]
    constructor
    · exact fun ⟨⟨member, own⟩, inside, carries⟩ => ⟨member, own, carries, inside⟩
    · exact fun ⟨member, own, carries, inside⟩ => ⟨⟨member, own⟩, inside, carries⟩
  cut room := Timeline.exists_slice?_eq _ _ _ room
  empty empty := ⟨dif_pos empty, Window.not_contains_of_isEmpty empty⟩

/-- A store is the finite set of readings that its history leaves. In each window it finds those of
a source that carry a field and that the window admits, and the nearest ones on either side of an
instant are the last one in the window up to it and the first one in the window from it on. A
reading is refused only if one of its source and instant is there, and a history goes on as if it
had not been offered. -/
theorem refines_readings (actions : List (StoreAction σ)) :
    let store := afterAll empty actions
    let stored := StoreAction.leftBy actions
    (∀ id window field, store.Ranges stored id window field) ∧
    (∀ id time field,
      store.nearestBefore id time field =
          (store.range id ⟨.unbounded, .inclusive time⟩ field).getLast? ∧
        store.nearestAfter id time field =
          (store.range id ⟨.inclusive time, .unbounded⟩ field).head?) ∧
    ∀ reading error, store.insert reading = .error error →
      (∃ other ∈ stored, other.source = reading.source ∧ other.instant = reading.instant) ∧
        ∀ later, afterAll empty (actions ++ .insert reading :: later) =
          afterAll empty (actions ++ later) := by
  intro store stored
  have holds : store.Holds stored := holds_afterAll actions
  refine ⟨holds.ranges, fun id time field => ⟨?_, ?_⟩,
    fun reading error refused => ⟨?_, fun later => ?_⟩⟩
  · exact Timeline.latestUpTo?_eq_getLast? ..
  · exact Timeline.earliestFrom?_eq_head? ..
  · exact (holds.isSome_at?_iff ..).1 ((insert_eq_error_iff ..).1 refused).1
  · have still : store.after (.insert reading) = store := by
      unfold ReadingStore.after
      dsimp only
      rw [refused]
    unfold afterAll
    rw [List.foldl_append, List.foldl_append]
    exact congrArg (fun left => later.foldl ReadingStore.after left) still

/-- Two readings of the hourly meter and one of another source, which is removed. -/
def sparseActions : List (StoreAction Rat) :=
  [.insert (hourlyReading 0 0), .insert ⟨"spare", atMinute 30, none, some 1⟩,
    .insert (hourlyReading 60 2), .removeSource "spare"]

/-- After the first reading and up to the second one there is the second, between two excluded ends
at one instant there is nothing, and another reading for the instant of the second makes no
difference. -/
theorem refines_readings_sparseActions :
    let store := afterAll empty sparseActions
    store.range "meter" ⟨.exclusive (atMinute 0), .inclusive (atMinute 60)⟩ .cumulativeEnergy =
        [hourlyReading 60 2] ∧
      (∃ slice, (store.timeline "meter").slice?
        ⟨.exclusive (atMinute 0), .inclusive (atMinute 60)⟩ = some slice) ∧
      store.range "meter" ⟨.exclusive (atMinute 60), .exclusive (atMinute 60)⟩ .cumulativeEnergy =
        [] ∧
      afterAll empty (sparseActions ++ [.insert (hourlyReading 60 5), .removeSource "spare"]) =
        afterAll empty (sparseActions ++ [.removeSource "spare"]) := by
  intro store
  obtain ⟨ranges, _, refuses⟩ := refines_readings sparseActions
  have refused : store.insert (hourlyReading 60 5) = .error (.duplicate "meter" (atMinute 60)) :=
    (insert_eq_error_iff ..).2 ⟨by decide +kernel, rfl⟩
  obtain ⟨slice, cut, _⟩ := (ranges "meter"
    ⟨.exclusive (atMinute 0), .inclusive (atMinute 60)⟩ .cumulativeEnergy).cut (by decide)
  exact ⟨by decide +kernel, ⟨slice, cut⟩,
    ((ranges "meter" ⟨.exclusive (atMinute 60), .exclusive (atMinute 60)⟩
      .cumulativeEnergy).empty (by decide)).1,
    (refuses (hourlyReading 60 5) _ refused).2 [.removeSource "spare"]⟩

end ReadingStore

end Metering
