import Metering.Cache.Commit
import Metering.Cache.Maintenance
import Metering.Engine.Queries

/-!
# The engine

An engine holds the checkpoint cache, a clock that is moved by hand, and the
service that answers its requests. A query that is answered leaves the
checkpoints it found in the cache; one that fails or is abandoned leaves the
cache as it was, apart from the counters.
-/

namespace Metering

/-- An engine over a service with states of type `ω`. -/
structure Engine (σ ω : Type) where
  /-- The checkpoints and the configuration. -/
  cache : CheckpointCache σ
  /-- The time on the clock. -/
  now : Instant
  /-- The service, the elapsed time and the counters. -/
  progress : Progress ω

namespace Engine

variable {σ ω α : Type}

/-- An engine without checkpoints. -/
def new (config : Config) (world : ω) (now : Instant) : Engine σ ω :=
  ⟨.new config, now, ⟨world, 0, .zero⟩⟩

/-- The limits of a query that starts now and has only the configured timeout. -/
def standardLimits (engine : Engine σ ω) : Limits :=
  ⟨engine.cache.config.queryTimeoutMillis.map fun millis => engine.progress.elapsed + millis,
    none⟩

/-- Carries out an attempt. An interruption is one of its errors. -/
def perform (serve : Service σ ω) (limits : Limits) (engine : Engine σ ω)
    (attempt : Attempt σ α) : Except QueryError α × Engine σ ω :=
  let (outcome, progress) := Plan.run serve limits attempt.run engine.progress
  let result :=
    match outcome with
    | .ok result => result
    | .error interruption => .error interruption.toQueryError
  (result, { engine with progress := progress })

/-- Makes one request of the service. -/
def call (serve : Service σ ω) (engine : Engine σ ω) (request : Request σ) :
    Except StoreError request.Answer × Engine σ ω :=
  let (reply, world) := serve request engine.progress.world
  (reply.answer,
    { engine with progress :=
        { engine.progress with
          world := world
          elapsed := engine.progress.elapsed + reply.delay } })

/-- Keeps checkpoints that a query found, and says how many were added. -/
def commit (engine : Engine σ ω) [Scalar σ] (found : List (Checkpoint σ)) :
    Nat × Engine σ ω :=
  let (cache, events) := engine.cache.commit found
  let tally := events.foldl Tally.add engine.progress.tally
  (events.count .created,
    { engine with cache := cache, progress := { engine.progress with tally := tally } })

variable [Scalar σ]

/-- Answers a query and keeps the checkpoints it found. -/
def query (serve : Service σ ω) (limits : Limits) (engine : Engine σ ω)
    (attempt : Attempt σ (Answer σ α)) : Except QueryError α × Engine σ ω :=
  match engine.perform serve limits attempt with
  | (.ok answer, after) => (.ok answer.value, (after.commit answer.found).2)
  | (.error error, after) => (.error error, after)

/-- The source of a reading, which has to be a leaf. -/
def resolveLeaf (id : SourceId) : Attempt σ (Source σ) := do
  let source ← Graph.resolve id
  if source.isLeaf then
    return source
  else
    throw (source.invalid "readings can only be recorded for leaf sources")

/-- Carries out an attempt whose result goes into the cache. -/
def takeIn (serve : Service σ ω) (engine : Engine σ ω)
    (attempt : Attempt σ (Nat × CheckpointCache σ)) : Except QueryError Nat × Engine σ ω :=
  match engine.perform serve .none attempt with
  | (.ok (written, cache), after) => (.ok written, { after with cache := cache })
  | (.error error, after) => (.error error, after)

/-- Stores a reading and brings the checkpoints of its source up to date. -/
def ingest (serve : Service σ ω) (engine : Engine σ ω) (reading : Reading σ) :
    Except QueryError Nat × Engine σ ω :=
  engine.takeIn serve do
    let source ← resolveLeaf reading.source
    engine.cache.ingest source reading engine.now

/-- Forgets the checkpoints of a source, and says how many there were. -/
def evict (engine : Engine σ ω) (id : SourceId) : Nat × Engine σ ω :=
  ((engine.cache.seriesOf id).size, { engine with cache := engine.cache.evict id })

/-- Sets the clock. -/
def setNow (engine : Engine σ ω) (now : Instant) : Engine σ ω := { engine with now := now }

end Engine

end Metering
