import Metering.Command.Fixture
import Metering.Command.Settings
import Metering.Database
import Metering.Engine.Basic

/-!
# Reports

A command line is answered with a report, which is a document, or with a
failure. Configuration, fixture, sources, readings and query are gone through
in this order, and the first failure is the answer.
-/

namespace Metering.Command

/-- Why a command line got no report. -/
inductive Failure where
  /-- The settings cannot be used. -/
  | settings
  /-- The fixture is not a document of sources and readings. -/
  | fixture
  /-- The fixture is missing. -/
  | missingFixture
  /-- The engine refused a reading or a query. -/
  | query (error : QueryError)
  /-- The question itself or a definition is not valid. -/
  | input (reason : String)
deriving DecidableEq, Repr

namespace Failure

/-- The message of a failure. -/
def message : Failure → String
  | .settings => "configuration error"
  | .fixture => "JSON error"
  | .missingFixture => "I/O error"
  | .query error => error.message
  | .input reason => "invalid input: " ++ reason

/-- The exit code of a failure: 2 for a mistake of the caller's in what was asked. -/
def exitCode : Failure → Nat
  | .query error => if error.isCallerFault then 2 else 1
  | .input _ => 2
  | _ => 1

end Failure

/-- A report. -/
abbrev Report := Json (Numeral Float)

/-- The engine that answers a command line. -/
abbrev LoadedEngine := Engine Float (Database Float)

/-! ## Documents of results -/

/-- A measured value, null unless it is finite. -/
def amount (value : Float) : Report := if value.isFinite then Json.ofScalar value else .null

/-- The report of one quantity over an interval. -/
def overInterval (interval : Interval) (quantity unit : String) (value : Float) : Report :=
  .object [("end", Json.ofInstant interval.stop), ("quantity", .string quantity),
    ("source", .string interval.source), ("start", Json.ofInstant interval.start),
    ("unit", .string unit), ("value", amount value)]

/-- The report of power at an instant. -/
def atInstant (source : SourceId) (time : Instant) (value : Float) : Report :=
  .object [("at", Json.ofInstant time), ("quantity", .string "power"),
    ("source", .string source), ("unit", .string "W"), ("value", amount value)]

/-- The report of a bucket. -/
def ofBucket (bucket : CheckpointCache.Bucket Float) : Report :=
  .object [("end", Json.ofInstant bucket.stop), ("energy", amount bucket.energy),
    ("start", Json.ofInstant bucket.start)]

/-- The report of a leaf and its path. -/
def ofFlatLeaf (flat : FlatLeaf Float) : Report :=
  .object [("ancestors", .array (flat.ancestors.map Json.string)), ("leaf", flat.leaf.toJson)]

/-- The report of the counters. -/
def ofTally (tally : Tally) : Report :=
  .object [("cold_reads", Json.ofNat tally.coldReads), ("created", Json.ofNat tally.created),
    ("fallbacks", Json.ofNat tally.fallbacks), ("frozen_skips", Json.ofNat tally.frozenSkips),
    ("hits", Json.ofNat tally.hits), ("refreshed", Json.ofNat tally.refreshed),
    ("rejected", Json.ofNat tally.rejected),
    ("window_bypasses", Json.ofNat tally.windowBypasses)]

/-! ## Answering -/

/-- Answers a query and reports what it gave. -/
def ask {α : Type} (engine : LoadedEngine) (report : α → Report)
    (attempt : Attempt Float (Answer Float α)) : Except Failure Report :=
  match (engine.query Database.serve engine.standardLimits attempt).1 with
  | .ok value => .ok (report value)
  | .error error => .error (.query error)

/-- Reports on a question. -/
def answer (engine : LoadedEngine) : Question → Except Failure Report
  | .power source time =>
    ask engine (atInstant source time) (CheckpointCache.power source time)
  | .energy interval =>
    ask engine (overInterval interval "energy" "Wh")
      (engine.cache.energy interval.source interval.start interval.stop engine.now)
  | .carbon interval =>
    ask engine (overInterval interval "carbon" "lbs_co2")
      (engine.cache.carbon interval.source interval.start interval.stop engine.now)
  | .averagePower interval =>
    ask engine (overInterval interval "average_power" "W")
      (engine.cache.averagePower interval.source interval.start interval.stop engine.now)
  | .profile interval stepSeconds =>
    match Span.ofSeconds? stepSeconds with
    | none => .error (.input ("step too large: " ++ toString stepSeconds))
    | some step =>
      ask engine (fun buckets => .array (buckets.map ofBucket))
        (CheckpointCache.profile interval.source interval.start interval.stop step)
  | .flatten source =>
    match (engine.perform Database.serve .none (Graph.flatten source)).1 with
    | .ok leaves => .ok (.array (leaves.map ofFlatLeaf))
    | .error error => .error (.query error)
  | .sources => .ok (.array (engine.progress.world.catalog.toList.map Source.toJson))
  | .cacheStats => .ok (ofTally engine.progress.tally)

/-- Takes in readings one after another, up to the first that is refused. -/
def takeInAll (engine : LoadedEngine) :
    List (Reading Float) → Except Failure LoadedEngine
  | [] => .ok engine
  | reading :: rest =>
    match engine.ingest Database.serve reading with
    | (.ok _, after) => takeInAll after rest
    | (.error error, _) => .error (.query error)

/-- The engine that a fixture gives. -/
def load (config : Config) (now : Instant) (fixture : Fixture Float) :
    Except Failure LoadedEngine :=
  match Catalog.ofList fixture.sources with
  | .ok catalog => takeInAll (.new config ⟨.empty, catalog⟩ now) fixture.readings
  | .error error => .error (.input ("fixture sources: " ++ error.message))

/-- What a command line depends on beside its arguments. -/
structure Surroundings where
  /-- The environment variables. -/
  environment : List (String × String)
  /-- The text of the configuration, if there is one. -/
  configText : Option String
  /-- The text of the fixture, if there is one. -/
  fixtureText : Option String
  /-- The time of day. -/
  clock : Instant

/-- Reports on the question of a command line. -/
def run (invocation : Invocation) (surroundings : Surroundings) : Except Failure Report := do
  let config ←
    match Settings.load? surroundings.configText surroundings.environment with
    | some config => .ok config
    | none => .error .settings
  let text ←
    match surroundings.fixtureText with
    | some text => .ok text
    | none => .error .missingFixture
  let fixture ←
    match Fixture.parse? text with
    | some fixture => .ok fixture
    | none => .error .fixture
  let engine ← load config (invocation.now.getD surroundings.clock) fixture
  answer engine invocation.question

end Metering.Command
