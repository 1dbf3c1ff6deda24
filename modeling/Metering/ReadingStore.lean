import Metering.Registry
import Metering.Timeline

/-!
# Stored readings

A reading store keeps one timeline per source. Lookups are for one field and
pass over the readings that do not carry it. A reading is never overwritten: a
second one at the same instant of a source is refused.
-/

namespace Metering

/-- The readings of every source. -/
structure ReadingStore (σ : Type) where
  /-- Timelines by source. -/
  timelines : Registry (Timeline (Reading σ))

namespace ReadingStore

variable {σ : Type}

/-- The store without readings. -/
def empty : ReadingStore σ := ⟨.empty⟩

/-- The readings of a source. -/
def timeline (store : ReadingStore σ) (source : SourceId) : Timeline (Reading σ) :=
  (store.timelines.get? source).getD .empty

/-- Adds a reading, refused when its source has one at its instant. -/
def insert (store : ReadingStore σ) (reading : Reading σ) :
    Except StoreError (ReadingStore σ) :=
  let timeline := store.timeline reading.source
  if (timeline.at? reading.instant).isSome then
    .error (.duplicate reading.source reading.instant)
  else
    .ok ⟨store.timelines.insert reading.source (timeline.insert reading)⟩

/-- The newest reading at or before an instant that carries a field. -/
def nearestBefore (store : ReadingStore σ) (source : SourceId) (time : Instant) (field : Field) :
    Option (Reading σ) :=
  (store.timeline source).latestUpTo? time fun reading => reading.carries field

/-- The oldest reading at or after an instant that carries a field. -/
def nearestAfter (store : ReadingStore σ) (source : SourceId) (time : Instant) (field : Field) :
    Option (Reading σ) :=
  (store.timeline source).earliestFrom? time fun reading => reading.carries field

/-- The readings in a window that carry a field, oldest first. -/
def range (store : ReadingStore σ) (source : SourceId) (window : Window) (field : Field) :
    List (Reading σ) :=
  (store.timeline source).within window fun reading => reading.carries field

/-- The number of readings of a source. -/
def count (store : ReadingStore σ) (source : SourceId) : Nat := (store.timeline source).size

/-- Removes every reading of a source. -/
def removeSource (store : ReadingStore σ) (source : SourceId) : ReadingStore σ :=
  ⟨store.timelines.erase source⟩

end ReadingStore

end Metering
