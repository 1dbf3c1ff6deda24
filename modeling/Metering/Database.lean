import Metering.Catalog
import Metering.Plan
import Metering.ReadingStore

/-!
# The database in memory

Readings and definitions held in memory answer every request at once and refuse
nothing but a second reading at one instant.
-/

namespace Metering

/-- Readings and definitions. -/
structure Database (σ : Type) where
  /-- The readings. -/
  readings : ReadingStore σ
  /-- The definitions. -/
  catalog : Catalog σ

namespace Database

variable {σ : Type}

/-- The database that holds nothing. -/
def empty : Database σ := ⟨.empty, .empty⟩

/-- Adds a reading. -/
def insert (database : Database σ) (reading : Reading σ) :
    Except StoreError Unit × Database σ :=
  match database.readings.insert reading with
  | .ok readings => (.ok (), { database with readings := readings })
  | .error error => (.error error, database)

/-- Answers a request from memory. -/
def answer (request : Request σ) (database : Database σ) :
    Except StoreError request.Answer × Database σ :=
  match request with
  | .insert reading => database.insert reading
  | .nearestBefore source time field =>
    (.ok (database.readings.nearestBefore source time field), database)
  | .nearestAfter source time field =>
    (.ok (database.readings.nearestAfter source time field), database)
  | .range source window field =>
    (.ok (database.readings.range source window field), database)
  | .definition source => (.ok (database.catalog.get? source), database)
  | .definitionCount => (.ok database.catalog.sources.size, database)

/-- The database as a service that never keeps a plan waiting. -/
def serve : Service σ (Database σ) := fun request database =>
  let (answer, database) := database.answer request
  (⟨answer, 0⟩, database)

end Database

end Metering
