import Metering.Engine.Basic
import Metering.Proofs.Graph
import Metering.Proofs.Maintenance

/-!
# An engine over a database in memory

A query carried out over a database in memory comes to the result of its
attempt and moves nothing but the counters, unless its time is up before it
starts (`perform_eq`, `perform_polled`). An ingestion depends on the cache only
in what it leaves there: whether the reading is accepted is settled by the
database (`ingest_of_accept_error`, `ingest_of_accept_ok`).
-/

namespace Metering

variable {σ α β ω : Type}

namespace Attempt

/-- One attempt is carried out after another unless that one fails or is interrupted. -/
theorem run_bind (serve : Service σ ω) (limits : Limits) (attempt : Attempt σ α)
    (next : α → Attempt σ β) (progress : Progress ω) :
    Plan.run serve limits (attempt >>= next).run progress =
      match Plan.run serve limits attempt.run progress with
      | (.ok (.ok value), after) => Plan.run serve limits (next value).run after
      | (.ok (.error error), after) => (.ok (.error error), after)
      | (.error interruption, after) => (.error interruption, after) := by
  have split := Plan.run_bind serve limits attempt.run (ExceptT.bindCont next) progress
  change Plan.run serve limits (attempt.run.bind (ExceptT.bindCont next)) progress = _
  rw [split]
  rcases Plan.run serve limits attempt.run progress with ⟨(interruption | (error | value)), after⟩
  · rfl
  · rfl
  · rfl

end Attempt

namespace Engine

/-- The leaf a source resolves to is its definition in the catalog. -/
theorem result_resolveLeaf_eq_ok_iff (database : Database σ) (id : SourceId) (source : Source σ) :
    (resolveLeaf id).result database = .ok source ↔
      database.catalog.get? id = some source ∧ source.isLeaf := by
  unfold resolveLeaf
  rw [Attempt.result_bind, Graph.result_resolve]
  cases database.catalog.get? id with
  | none => simp
  | some found =>
    simp only [Option.elim_some, Except.ok_bind, Option.some_inj]
    constructor
    · intro same
      split at same
      · rename_i leaf
        rw [Attempt.result_pure, Except.ok.injEq] at same
        exact ⟨same, same ▸ leaf⟩
      · cases same
    · rintro ⟨rfl, leaf⟩
      rw [if_pos leaf, Attempt.result_pure]

/-- Resolving a leaf asks for its definition. -/
theorem asks_resolveLeaf (id : SourceId) :
    (resolveLeaf id : Attempt σ (Source σ)).Uses (· = .definition id) fun _ => False := by
  unfold resolveLeaf
  have resolves : (Graph.resolve id : Attempt σ (Source σ)).Uses (· = .definition id)
      fun _ => False := Graph.uses_resolve rfl
  refine resolves.bind fun source => ?_
  split
  · exact Attempt.uses_pure source
  · exact Attempt.uses_throw _

/-- Resolving a leaf only looks things up. -/
theorem uses_resolveLeaf (id : SourceId) :
    (resolveLeaf id : Attempt σ (Source σ)).Uses Request.IsLookup fun _ => False := by
  refine Plan.Uses.imp (asks_resolveLeaf id) ?_ fun _ never => never
  rintro _ rfl
  trivial

/-- Resolving a leaf counts nothing. -/
theorem events_resolveLeaf (database : Database σ) (id : SourceId) :
    (resolveLeaf id : Attempt σ (Source σ)).events database = [] :=
  List.eq_nil_iff_forall_not_mem.2 fun event =>
    Plan.Uses.counted_of_mem_events (uses_resolveLeaf id) database event

end Engine

namespace Database

/-- What comes of a reading that is offered to a database: the leaf it is for, and the database
with the reading in it. -/
def accept (database : Database σ) (reading : Reading σ) :
    Except QueryError (Source σ × Database σ) := do
  let source ← (Engine.resolveLeaf reading.source).result database
  match database.readings.insert reading with
  | .ok readings => return (source, { database with readings := readings })
  | .error error => throw error.toQueryError

/-- A reading is accepted if it is for a leaf of the catalog that has none at its instant. -/
theorem accept_eq_ok_iff (database after : Database σ) (reading : Reading σ) (source : Source σ) :
    database.accept reading = .ok (source, after) ↔
      (database.catalog.get? reading.source = some source ∧ source.isLeaf) ∧
        database.readings.insert reading = .ok after.readings ∧
          after.catalog = database.catalog := by
  rw [← Engine.result_resolveLeaf_eq_ok_iff]
  obtain ⟨readings, catalog⟩ := after
  unfold accept
  cases (Engine.resolveLeaf reading.source).result database with
  | error error => simp
  | ok found =>
    cases database.readings.insert reading with
    | error error => simp
    | ok later => simp [eq_comm]

end Database

namespace Engine

section Perform

variable {engine : Engine σ (Database σ)} {limits : Limits} {counted : CacheEvent → Prop}

/-- An attempt that only looks things up comes to its result and moves nothing but the counters,
unless a limit has come when it starts. -/
theorem perform_eq (open_ : limits.check engine.progress.elapsed = none)
    {attempt : Attempt σ α} (lookups : attempt.Uses Request.IsLookup counted) :
    engine.perform Database.serve limits attempt =
      (attempt.result engine.progress.world,
        { engine with progress :=
          { engine.progress with tally :=
            (attempt.events engine.progress.world).foldl Tally.add engine.progress.tally } }) := by
  obtain ⟨cache, now, database, elapsed, tally⟩ := engine
  unfold perform
  rw [Plan.run_serve open_ lookups]
  rfl

end Perform

/-- An attempt whose time is up when it starts fails and moves nothing. -/
theorem perform_polled {serve : Service σ ω} {limits : Limits} {engine : Engine σ ω}
    {interruption : Interruption}
    (expired : limits.check engine.progress.elapsed = some interruption) (attempt : Attempt σ α)
    (next : α → Attempt σ β) :
    engine.perform serve limits (attempt.polled >>= next) =
      (.error interruption.toQueryError, engine) := by
  have stopped : Plan.run serve limits attempt.polled.run engine.progress =
      (.error interruption, engine.progress) := by
    unfold Attempt.polled
    simp only [ExceptT.run_mk, Plan.run, expired]
  unfold perform
  rw [Attempt.run_bind, stopped]

/-! ## Ingestion -/

section Ingest

/-- Storing a reading without limits. -/
theorem run_insert (database : Database σ) (reading : Reading σ) (elapsed : Nat) (tally : Tally) :
    Plan.run Database.serve .none (Attempt.insert reading).run ⟨database, elapsed, tally⟩ =
      match database.readings.insert reading with
      | .ok readings => (.ok (.ok ()), ⟨{ database with readings := readings }, elapsed, tally⟩)
      | .error error => (.ok (.error error.toQueryError), ⟨database, elapsed, tally⟩) := by
  have nothing : Limits.none.check elapsed = none := rfl
  change Plan.run Database.serve .none (.ask (.insert reading) fun answer =>
    .done (answer.mapError StoreError.toQueryError)) ⟨database, elapsed, tally⟩ = _
  simp only [Plan.run, Database.serve, Database.answer, Database.insert,
    Limits.wait_zero_of_check nothing]
  cases database.readings.insert reading with
  | ok readings => rfl
  | error error => rfl

/-- Resolving a leaf without limits. -/
theorem run_resolveLeaf (id : SourceId) (database : Database σ) (elapsed : Nat) (tally : Tally) :
    Plan.run Database.serve .none (resolveLeaf id).run ⟨database, elapsed, tally⟩ =
      (.ok ((resolveLeaf id).result database), ⟨database, elapsed, tally⟩) := by
  have nothing : Limits.none.check elapsed = none := rfl
  rw [Plan.run_serve nothing (uses_resolveLeaf id)]
  change (_, (⟨database, elapsed, ((resolveLeaf id).events database).foldl Tally.add tally⟩ :
    Progress (Database σ))) = _
  rw [events_resolveLeaf]
  rfl

variable [Scalar σ] {engine : Engine σ (Database σ)} {reading : Reading σ} {source : Source σ}

/-- Storing a reading and bringing checkpoints up to date without limits. -/
theorem run_ingest (cache : CheckpointCache σ) (source : Source σ) (reading : Reading σ)
    (now : Instant) (database : Database σ) (elapsed : Nat) (tally : Tally) :
    Plan.run Database.serve .none (cache.ingest source reading now).run
        ⟨database, elapsed, tally⟩ =
      match database.readings.insert reading with
      | .ok readings =>
        (.ok ((cache.upkeep source reading now).result { database with readings := readings }),
          ⟨{ database with readings := readings }, elapsed,
            ((cache.upkeep source reading now).events
              { database with readings := readings }).foldl Tally.add tally⟩)
      | .error error => (.ok (.error error.toQueryError), ⟨database, elapsed, tally⟩) := by
  have nothing : Limits.none.check elapsed = none := rfl
  rw [CheckpointCache.ingest_eq, Attempt.run_bind, run_insert]
  cases database.readings.insert reading with
  | error error => rfl
  | ok readings => exact Plan.run_serve nothing CheckpointCache.uses_upkeep _ _

/-- A reading that a store takes and the checkpoints that the upkeep makes of it are kept. -/
theorem takeIn_ingest {readings : ReadingStore σ} {now : Instant} {written : Nat}
    {cache : CheckpointCache σ}
    (stored : engine.progress.world.readings.insert reading = .ok readings)
    (kept : (engine.cache.upkeep source reading now).result
      { engine.progress.world with readings := readings } = .ok (written, cache)) :
    engine.takeIn Database.serve (engine.cache.ingest source reading now) =
      (.ok written, ⟨cache, engine.now, ⟨{ engine.progress.world with readings := readings },
        engine.progress.elapsed, ((engine.cache.upkeep source reading now).events
          { engine.progress.world with readings := readings }).foldl Tally.add
            engine.progress.tally⟩⟩) := by
  obtain ⟨old, moment, database, elapsed, tally⟩ := engine
  dsimp only at stored kept
  unfold takeIn perform
  simp only [run_ingest, stored, kept]

/-- A reading that a store refuses is refused and changes nothing. -/
theorem takeIn_ingest_of_error {now : Instant} {error : StoreError}
    (refused : engine.progress.world.readings.insert reading = .error error) :
    engine.takeIn Database.serve (engine.cache.ingest source reading now) =
      (.error error.toQueryError, engine) := by
  obtain ⟨old, moment, database, elapsed, tally⟩ := engine
  dsimp only at refused
  unfold takeIn perform
  simp only [run_ingest, refused]

/-- A reading that the database refuses is refused and changes nothing. -/
theorem ingest_of_accept_error {error : QueryError}
    (refused : engine.progress.world.accept reading = .error error) :
    engine.ingest Database.serve reading = (.error error, engine) := by
  obtain ⟨cache, now, database, elapsed, tally⟩ := engine
  unfold ingest takeIn perform
  rw [Attempt.run_bind, run_resolveLeaf]
  unfold Database.accept at refused
  cases resolved : (resolveLeaf reading.source).result database with
  | error missing =>
    simp only [resolved, Except.error_bind, Except.error.injEq] at refused
    rw [refused]
  | ok source =>
    simp only [resolved, Except.ok_bind] at refused
    simp only [run_ingest]
    cases stored : database.readings.insert reading with
    | error duplicate =>
      simp only [stored] at refused
      injection refused with same
      rw [← same]
    | ok readings =>
      simp only [stored] at refused
      cases refused

/-- An ingestion of a reading that the database accepts leaves the database with the reading and
the cache as the upkeep makes it. -/
theorem ingest_of_accept_ok {after : Database σ} {written : Nat} {cache : CheckpointCache σ}
    (accepted : engine.progress.world.accept reading = .ok (source, after))
    (kept : (engine.cache.upkeep source reading engine.now).result after = .ok (written, cache)) :
    engine.ingest Database.serve reading =
      (.ok written, ⟨cache, engine.now, ⟨after, engine.progress.elapsed,
        ((engine.cache.upkeep source reading engine.now).events after).foldl Tally.add
          engine.progress.tally⟩⟩) := by
  obtain ⟨old, now, database, elapsed, tally⟩ := engine
  obtain ⟨leaf, stored, same⟩ := (Database.accept_eq_ok_iff ..).1 accepted
  have resolved := (result_resolveLeaf_eq_ok_iff database reading.source source).2 leaf
  obtain ⟨readings, catalog⟩ := after
  dsimp only at stored same kept
  subst same
  unfold ingest takeIn perform
  rw [Attempt.run_bind, run_resolveLeaf, resolved]
  simp only [run_ingest, stored, kept]

end Ingest

end Engine

end Metering
