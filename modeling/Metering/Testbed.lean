import Metering.Database

/-!
# A database whose calls fail or take time

A testbed puts a database behind calls that can be arranged to go wrong. A
fault is armed for one kind of call; it lets some calls pass, makes the next
ones fail, and is then spent. A stall makes every lookup of one source that
does not fail take some milliseconds. Definitions can be put in front of the
catalog that the catalog itself would refuse.
-/

namespace Metering

/-- A kind of call. -/
inductive Call where
  /-- Adding a reading. -/
  | insert
  /-- Looking for the newest reading at or before an instant. -/
  | nearestBefore
  /-- Looking for the oldest reading at or after an instant. -/
  | nearestAfter
  /-- Looking for the readings in a window. -/
  | range
  /-- Looking for a definition. -/
  | definition
deriving DecidableEq, Repr

/-- The name of a kind of call. -/
def Call.name : Call → String
  | .insert => "insert"
  | .nearestBefore => "nearest_before"
  | .nearestAfter => "nearest_after"
  | .range => "range"
  | .definition => "get"

/-- The kind of call with a name. -/
def Call.ofName? (name : String) : Option Call :=
  [Call.insert, .nearestBefore, .nearestAfter, .range, .definition].find? fun call =>
    call.name == name

/-- How a call fails. -/
inductive FaultKind where
  /-- The backend does not work. -/
  | backend
  /-- The record is missing. -/
  | notFound
  /-- The request is refused as senseless. -/
  | invalidInput
  /-- The request is rejected with a cancellation. -/
  | rejected
  /-- The reading is said to be there already. -/
  | duplicate
  /-- The call answers that there is nothing. -/
  | empty
deriving DecidableEq, Repr

/-- The kind of fault with a name. -/
def FaultKind.ofName? : String → Option FaultKind
  | "backend" => some .backend
  | "not_found" => some .notFound
  | "invalid_input" => some .invalidInput
  | "rejected" => some .rejected
  | "duplicate" => some .duplicate
  | "empty" => some .empty
  | _ => none

/-- A fault that is armed for a kind of call. -/
structure Fault where
  /-- How many calls pass first. -/
  skip : Nat
  /-- How many calls fail then. -/
  times : Nat
  /-- How they fail. -/
  kind : FaultKind
deriving DecidableEq, Repr

namespace Fault

/-- Counts one call: how it fails, if it does, and the fault after it. -/
def strike (fault : Fault) : Option FaultKind × Fault :=
  if 0 < fault.skip then
    (none, { fault with skip := fault.skip - 1 })
  else if 0 < fault.times then
    (some fault.kind, { fault with times := fault.times - 1 })
  else
    (none, fault)

end Fault

/-- A database with what is arranged for it. -/
structure Testbed (σ : Type) where
  /-- The database behind the calls. -/
  database : Database σ
  /-- Definitions served in place of the catalog's. -/
  overrides : Registry (Source σ)
  /-- The fault armed for each kind of call. -/
  faults : List (Call × Fault)
  /-- The source whose lookups take time, and the milliseconds they take. -/
  stall : Option (SourceId × Nat)

namespace Testbed

variable {σ : Type}

/-- A database for which nothing is arranged. -/
def new (database : Database σ) : Testbed σ := ⟨database, .empty, [], none⟩

/-- Arms a fault in place of the one for the same kind of call. -/
def arm (testbed : Testbed σ) (call : Call) (fault : Fault) : Testbed σ :=
  { testbed with faults := (call, fault) :: testbed.faults.filter fun pair => pair.1 ≠ call }

/-- Counts a call: how it fails, if it does. -/
def strike (testbed : Testbed σ) (call : Call) : Option FaultKind × Testbed σ :=
  match testbed.faults.lookup call with
  | some fault =>
    let (kind, after) := fault.strike
    (kind, testbed.arm call after)
  | none => (none, testbed)

/-- What a failing call says, the second and third argument being the source and the instant it
was about. Saying that there is nothing needs a value for it. -/
def failure {α : Type} (call : Call) (source : SourceId) (time : Instant)
    (nothing : Except StoreError α) : FaultKind → Except StoreError α
  | .backend => .error (.backend (call.name ++ " unavailable"))
  | .notFound => .error (.notFound source)
  | .invalidInput => .error (.invalidInput (call.name ++ " refused"))
  | .rejected => .error (.rejected (.cancelled (call.name ++ " rejected")))
  | .duplicate => .error (.duplicate source time)
  | .empty => nothing

/-- The milliseconds that a lookup of a source takes. -/
def delayOf (testbed : Testbed σ) (source : SourceId) : Nat :=
  match testbed.stall with
  | some (stalled, millis) => if stalled = source then millis else 0
  | none => 0

/-- The definition of a source, from the overrides or the catalog. -/
def definition (testbed : Testbed σ) (source : SourceId) : Option (Source σ) :=
  (testbed.overrides.get? source).or (testbed.database.catalog.get? source)

/-- The number of definitions there can be. -/
def definitionCount (testbed : Testbed σ) : Nat :=
  testbed.overrides.size + testbed.database.catalog.sources.size

/-- Answers a lookup of readings: a fault at once, anything else after the stall. -/
def lookUp {α : Type} (testbed : Testbed σ) (call : Call) (source : SourceId) (time : Instant)
    (nothing found : α) : Reply α × Testbed σ :=
  match testbed.strike call with
  | (some kind, after) => (⟨failure call source time (.ok nothing) kind, 0⟩, after)
  | (none, after) => (⟨.ok found, after.delayOf source⟩, after)

/-- The testbed as a service. -/
def serve : Service σ (Testbed σ) := fun request testbed =>
  let readings := testbed.database.readings
  match request with
  | .insert reading =>
    match testbed.strike .insert with
    | (some kind, after) =>
      (⟨failure .insert reading.source reading.instant (.ok ()) kind, 0⟩, after)
    | (none, after) =>
      let (answer, database) := after.database.insert reading
      (⟨answer, 0⟩, { after with database := database })
  | .nearestBefore source time field =>
    testbed.lookUp .nearestBefore source time none (readings.nearestBefore source time field)
  | .nearestAfter source time field =>
    testbed.lookUp .nearestAfter source time none (readings.nearestAfter source time field)
  | .range source window field =>
    testbed.lookUp .range source .epoch [] (readings.range source window field)
  | .definition source =>
    match testbed.strike .definition with
    | (some kind, after) => (⟨failure .definition source .epoch (.ok none) kind, 0⟩, after)
    | (none, after) => (⟨.ok (after.definition source), 0⟩, after)
  | .definitionCount => (⟨.ok testbed.definitionCount, 0⟩, testbed)

end Testbed

end Metering
