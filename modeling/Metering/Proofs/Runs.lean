import Metering.Proofs.Perform
import Metering.Proofs.Queries

/-!
# Runs of an engine

An engine over a database in memory takes one action after another: readings
come in, queries are asked, checkpoints are forgotten and the clock moves. What
an action does to the database does not depend on the cache, and a sound engine
stays sound as long as the clock goes forward and the readings that come in
bring up to date every checkpoint they have a bearing on (`act_spec`). What
holds of a whole run follows action by action.
-/

namespace Metering

variable {σ : Type}

/-! ## Queries -/

/-- An attempt fails at once or polls before it asks for anything. -/
def Attempt.GuardedBy {α : Type} (guard : Except QueryError Unit) (attempt : Attempt σ α) : Prop :=
  ∃ (β : Type) (first : Attempt σ β) (next : β → Attempt σ α),
    attempt = (Attempt.ofExcept guard >>= fun _ => first.polled >>= next)

namespace Attempt

variable {α β : Type} {attempt : Attempt σ α}

/-- An attempt that fails at once is guarded. -/
theorem guardedBy_of_error {error : QueryError} (fails : attempt = Attempt.ofExcept (.error error)) :
    attempt.GuardedBy (.error error) :=
  ⟨Unit, pure (), fun _ => attempt, fails⟩

/-- An attempt that polls first is guarded. -/
theorem guardedBy_of_polled {first : Attempt σ β} {next : β → Attempt σ α}
    (polls : attempt = (first.polled >>= next)) : attempt.GuardedBy (.ok ()) :=
  ⟨β, first, next, polls⟩

end Attempt

/-- What can be asked of a source. -/
inductive Query where
  /-- The counter at an instant. -/
  | counterAt (id : SourceId) (time : Instant)
  /-- The energy over an interval. -/
  | energy (id : SourceId) (start stop : Instant)
  /-- The carbon over an interval. -/
  | carbon (id : SourceId) (start stop : Instant)
  /-- The mean power over an interval. -/
  | averagePower (id : SourceId) (start stop : Instant)

namespace Query

/-- The error of a query that is refused for its interval. -/
def guard : Query → Except QueryError Unit
  | counterAt _ _ => .ok ()
  | energy _ start stop => checkInterval start stop
  | carbon _ start stop => checkInterval start stop
  | averagePower _ start stop => do
    checkInterval start stop
    if start = stop then
      throw (.badInterval "average power needs a non-empty interval")
where
  /-- The error of an interval that ends before it starts. -/
  checkInterval (start stop : Instant) : Except QueryError Unit :=
    if stop < start then
      .error (.badInterval ("start " ++ start.display ++ " is after end " ++ stop.display))
    else
      .ok ()

/-- The instants of a query sit on whole milliseconds. -/
def IsWhole : Query → Prop
  | counterAt _ time => time.IsWholeMilli
  | energy _ start stop => start.IsWholeMilli ∧ stop.IsWholeMilli
  | carbon _ start stop => start.IsWholeMilli ∧ stop.IsWholeMilli
  | averagePower _ start stop => start.IsWholeMilli ∧ stop.IsWholeMilli

/-- The source that is asked about. -/
def source : Query → SourceId
  | counterAt id _ => id
  | energy id _ _ => id
  | carbon id _ _ => id
  | averagePower id _ _ => id

/-- The instants at which a query looks counters up. -/
def instants : Query → List Instant
  | counterAt _ time => [time]
  | energy _ start stop => [start, stop]
  | carbon _ start stop => [start, stop]
  | averagePower _ start stop => [start, stop]

/-- A query on whole milliseconds looks counters up there. -/
theorem IsWhole.instants {query : Query} (whole : query.IsWhole) :
    ∀ time ∈ query.instants, time.IsWholeMilli := by
  cases query with
  | counterAt id time => exact List.forall_mem_singleton.2 whole
  | _ => exact List.forall_mem_cons.2 ⟨whole.1, List.forall_mem_singleton.2 whole.2⟩

variable [Scalar σ]

/-- The attempt that answers a query. -/
def attempt (cache : CheckpointCache σ) (now : Instant) : Query → Attempt σ (Answer σ σ)
  | counterAt id time => cache.counterQuery id time now
  | energy id start stop => cache.energy id start stop now
  | carbon id start stop => cache.carbon id start stop now
  | averagePower id start stop => cache.averagePower id start stop now

/-- What the counters of the leaves make of a query. -/
def value (database : Database σ) (counters : Counters σ) : Query → Except QueryError σ
  | counterAt id time => database.counterAt counters id time
  | energy id start stop => database.sumEnergies counters (fun _ energy => .ok energy) id start stop
  | carbon id start stop => database.sumEnergies counters CheckpointCache.carbonOf id start stop
  | averagePower id start stop => database.averagePower counters id start stop

/-- Every query is guarded. -/
theorem guardedBy (query : Query) (cache : CheckpointCache σ) (now : Instant) :
    (query.attempt cache now).GuardedBy query.guard := by
  have sum : ∀ weigh id start stop, (cache.sumEnergies weigh id start stop now).GuardedBy
      (guard.checkInterval start stop) := by
    intro weigh id start stop
    unfold guard.checkInterval CheckpointCache.sumEnergies CheckpointCache.checkInterval
    by_cases backwards : stop < start
    · simp only [if_pos backwards]
      exact Attempt.guardedBy_of_error rfl
    · simp only [if_neg backwards]
      exact Attempt.guardedBy_of_polled rfl
  cases query with
  | counterAt id time =>
    change (cache.counterQuery id time now).GuardedBy (.ok ())
    unfold CheckpointCache.counterQuery
    exact Attempt.guardedBy_of_polled rfl
  | energy id start stop => exact sum (fun _ energy => .ok energy) id start stop
  | carbon id start stop => exact sum CheckpointCache.carbonOf id start stop
  | averagePower id start stop =>
    change (cache.averagePower id start stop now).GuardedBy (guard (averagePower id start stop))
    unfold guard guard.checkInterval CheckpointCache.averagePower CheckpointCache.checkInterval
    by_cases backwards : stop < start
    · simp only [if_pos backwards]
      exact Attempt.guardedBy_of_error rfl
    · by_cases still : start = stop
      · simp only [if_neg backwards, if_pos still]
        exact Attempt.guardedBy_of_error rfl
      · simp only [if_neg backwards, if_neg still]
        unfold CheckpointCache.energy CheckpointCache.sumEnergies CheckpointCache.checkInterval
        simp only [if_neg backwards]
        exact Attempt.guardedBy_of_polled rfl

/-- A query only looks things up. -/
theorem uses_attempt (query : Query) (cache : CheckpointCache σ) (now : Instant) :
    (query.attempt cache now).Uses Request.IsLookup CacheEvent.IsOfLookup := by
  unfold attempt
  cases query with
  | counterAt id time => exact CheckpointCache.uses_counterQuery id time
  | energy id start stop => exact CheckpointCache.uses_sumEnergies _ id start stop
  | carbon id start stop => exact CheckpointCache.uses_sumEnergies _ id start stop
  | averagePower id start stop => exact CheckpointCache.uses_averagePower id start stop

section Attempt

variable {cache : CheckpointCache σ} {database : Database σ} {now : Instant}

/-- What a query finds is offered by lookups of leaves of its source at its instants. -/
theorem canFind_of_attempt (query : Query) {possible : Possibility σ} {events : List CacheEvent}
    {answer : Answer σ σ} (came : (query.attempt cache now).Yields possible events (.ok answer)) :
    ∀ checkpoint ∈ answer.found,
      cache.CanFind possible now query.source query.instants checkpoint := by
  unfold attempt at came
  cases query with
  | counterAt id time => exact CheckpointCache.canFind_of_counterQuery came
  | energy id start stop => exact CheckpointCache.canFind_of_sumEnergies came
  | carbon id start stop => exact CheckpointCache.canFind_of_sumEnergies came
  | averagePower id start stop => exact CheckpointCache.canFind_of_averagePower came

/-- What a query finds over a database are offers. -/
theorem found_of_attempt (query : Query) {meets : Checkpoint σ → Prop}
    (offers : cache.Offers database now meets) {answer : Answer σ σ}
    (came : (query.attempt cache now).result database = .ok answer) :
    ∀ checkpoint ∈ answer.found, meets checkpoint :=
  fun checkpoint member => offers.meets
    (query.canFind_of_attempt (Attempt.yields_of_result came) checkpoint member)

/-- A query comes to what the counters that its lookups read make of it. -/
theorem result_attempt (query : Query) {counters : Counters σ}
    (reads : ∀ time ∈ query.instants, cache.Reads database now counters time) :
    ((query.attempt cache now).result database).map Answer.value =
      query.value database counters := by
  have ends : ∀ start stop, (∀ time ∈ [start, stop], cache.Reads database now counters time) →
      cache.Reads database now counters start ∧ cache.Reads database now counters stop :=
    fun start stop both => (List.forall_mem_cons.1 both).imp_right List.forall_mem_singleton.1
  unfold attempt value
  cases query with
  | counterAt id time =>
    exact CheckpointCache.result_counterQuery id (List.forall_mem_singleton.1 reads)
  | energy id start stop =>
    obtain ⟨first, last⟩ := ends start stop reads
    exact CheckpointCache.result_sumEnergies _ id first last
  | carbon id start stop =>
    obtain ⟨first, last⟩ := ends start stop reads
    exact CheckpointCache.result_sumEnergies _ id first last
  | averagePower id start stop =>
    obtain ⟨first, last⟩ := ends start stop reads
    exact CheckpointCache.result_averagePower id first last

end Attempt

end Query

namespace Engine

variable [Scalar σ]

/-- The interruption of a query that starts now and has no time. -/
def timeUp? (engine : Engine σ (Database σ)) : Option Interruption :=
  engine.standardLimits.check engine.progress.elapsed

/-- Asks a query under the configured timeout. -/
def ask (engine : Engine σ (Database σ)) (attempt : Attempt σ (Answer σ σ)) :
    Except QueryError σ × Engine σ (Database σ) :=
  engine.query Database.serve engine.standardLimits attempt

variable {engine : Engine σ (Database σ)}

omit [Scalar σ] in
/-- A query has no time where it had none under the same configuration at the same time. -/
theorem timeUp?_eq {final : Engine σ (Database σ)}
    (config : final.cache.config = engine.cache.config)
    (elapsed : final.progress.elapsed = engine.progress.elapsed) :
    final.timeUp? = engine.timeUp? := by
  unfold timeUp? standardLimits
  rw [config, elapsed]

omit [Scalar σ] in
/-- What comes of a query that has no time. -/
theorem perform_of_timeUp {interruption : Interruption} (expired : engine.timeUp? = some interruption)
    {guard : Except QueryError Unit} {attempt : Attempt σ (Answer σ σ)}
    (guarded : attempt.GuardedBy guard) :
    engine.perform Database.serve engine.standardLimits attempt =
      (guard >>= fun _ => .error interruption.toQueryError, engine) := by
  obtain ⟨β, first, next, rfl⟩ := guarded
  cases guard with
  | error error => rfl
  | ok done => exact perform_polled expired first next

/-- A query moves nothing but the counters and the checkpoints it finds. -/
theorem ask_spec {attempt : Attempt σ (Answer σ σ)} {guard : Except QueryError Unit}
    (guarded : attempt.GuardedBy guard)
    (lookups : attempt.Uses Request.IsLookup CacheEvent.IsOfLookup) {meets : Checkpoint σ → Prop}
    (each : ∀ answer, attempt.result engine.progress.world = .ok answer →
      ∀ checkpoint ∈ answer.found, meets checkpoint) :
    ∃ (found : List (Checkpoint σ)) (events : List CacheEvent),
      engine.ask attempt =
        (match engine.timeUp? with
          | some interruption => guard >>= fun _ => .error interruption.toQueryError
          | none => (attempt.result engine.progress.world).map Answer.value,
        ⟨(engine.cache.commit found).1, engine.now,
          { engine.progress with tally := events.foldl Tally.add engine.progress.tally }⟩) ∧
      (∀ checkpoint ∈ found, meets checkpoint) ∧
      ∀ event ∈ events, event.IsOfLookup ∨ event = .created ∨ event = .rejected := by
  unfold ask query
  cases expired : engine.timeUp? with
  | some interruption =>
    refine ⟨[], [], ?_, fun _ member => absurd member List.not_mem_nil,
      fun _ member => absurd member List.not_mem_nil⟩
    rw [perform_of_timeUp expired guarded]
    cases guard <;> rfl
  | none =>
    have counted := Plan.Uses.counted_of_mem_events lookups engine.progress.world
    rw [perform_eq expired lookups]
    cases came : attempt.result engine.progress.world with
    | error error =>
      exact ⟨[], attempt.events engine.progress.world, rfl,
        fun _ member => absurd member List.not_mem_nil,
        fun event member => Or.inl (counted event member)⟩
    | ok answer =>
      refine ⟨answer.found, attempt.events engine.progress.world ++
        (engine.cache.commit answer.found).2, ?_, each answer came, fun event member => ?_⟩
      · rw [List.foldl_append]
        rfl
      · rcases List.mem_append.1 member with early | late
        · exact Or.inl (counted event early)
        · exact Or.inr (CheckpointCache.mem_commit_events late)

end Engine

/-! ## Actions -/

/-- What can happen to an engine. -/
inductive Action (σ : Type) where
  /-- A reading comes in. -/
  | ingest (reading : Reading σ)
  /-- A query is asked. -/
  | ask (query : Query)
  /-- The checkpoints of a source are forgotten. -/
  | evict (id : SourceId)
  /-- The clock is set. -/
  | setNow (now : Instant)

/-- The time on the clock after an action. -/
def Action.clock (now : Instant) : Action σ → Instant
  | setNow later => later
  | _ => now

/-- The database after an action. -/
def Database.after (database : Database σ) : Action σ → Database σ
  | .ingest reading =>
    match database.accept reading with
    | .ok (_, stored) => stored
    | .error _ => database
  | _ => database

/-- Each of some actions meets a condition on the database and the clock when it is taken. -/
def Database.AllAlong (condition : Database σ → Instant → Action σ → Prop) :
    Database σ → Instant → List (Action σ) → Prop
  | _, _, [] => True
  | database, now, action :: rest =>
    condition database now action ∧
      (database.after action).AllAlong condition (action.clock now) rest

/-- A reading that is accepted is in the database afterwards. -/
theorem Database.after_of_accept_ok {database stored : Database σ} {reading : Reading σ}
    {source : Source σ} (accepted : database.accept reading = .ok (source, stored)) :
    database.after (.ingest reading) = stored := by
  simp only [Database.after, accepted]

/-- A reading that is refused leaves the database as it is. -/
theorem Database.after_of_accept_error {database : Database σ} {reading : Reading σ}
    {error : QueryError} (refused : database.accept reading = .error error) :
    database.after (.ingest reading) = database := by
  simp only [Database.after, refused]

/-- An action leaves the definitions as they are. -/
theorem Database.catalog_after (database : Database σ) (action : Action σ) :
    (database.after action).catalog = database.catalog := by
  cases action with
  | ingest reading =>
    cases accepted : database.accept reading with
    | error error => rw [Database.after_of_accept_error accepted]
    | ok found =>
      rw [Database.after_of_accept_ok accepted]
      exact ((Database.accept_eq_ok_iff ..).1 accepted).2.2
  | _ => rfl

namespace Engine

variable [Scalar σ]

/-- What an engine responds to an action, and the engine after it. -/
def act (engine : Engine σ (Database σ)) :
    Action σ → Except QueryError (Option σ) × Engine σ (Database σ)
  | .ingest reading =>
    ((engine.ingest Database.serve reading).1.map fun _ => none,
      (engine.ingest Database.serve reading).2)
  | .ask query =>
    ((engine.ask (query.attempt engine.cache engine.now)).1.map some,
      (engine.ask (query.attempt engine.cache engine.now)).2)
  | .evict id => (.ok none, (engine.evict id).2)
  | .setNow now => (.ok none, engine.setNow now)

/-- What an engine responds to actions one after another, and the engine after the last. -/
def run (engine : Engine σ (Database σ)) :
    List (Action σ) → List (Except QueryError (Option σ)) × Engine σ (Database σ)
  | [] => ([], engine)
  | action :: rest =>
    ((engine.act action).1 :: ((engine.act action).2.run rest).1,
      ((engine.act action).2.run rest).2)

/-- The checkpoints are backed and the definitions are valid. -/
structure IsSound (engine : Engine σ (Database σ)) : Prop where
  /-- The checkpoints are backed. -/
  cache : engine.cache.IsSound engine.progress.world engine.now
  /-- The definitions are valid. -/
  catalog : engine.progress.world.catalog.IsValid

/-- A reading that comes in has a proposal for every checkpoint in the settled part of the gap that
it splits. -/
def Covers (engine : Engine σ (Database σ)) (reading : Reading σ) : Prop :=
  ∀ source stored settings, engine.progress.world.accept reading = .ok (source, stored) →
    engine.cache.CallsForUpkeep source settings reading engine.now →
    ∀ checkpoint ∈ (engine.cache.seriesOf source.id).entries, checkpoint.source = source.id →
      engine.cache.Backing engine.progress.world engine.now checkpoint source settings →
      ((engine.progress.world.readings.around source.id reading).settledWindow settings.window
        engine.now).contains checkpoint.instant →
      ∃ candidate ∈ engine.cache.candidates source settings stored.readings reading engine.now,
        candidate.checkpoint.instant = checkpoint.instant

/-- An action sets the clock forward if at all, and a reading that comes in leaves no checkpoint
behind. -/
def Permits (engine : Engine σ (Database σ)) : Action σ → Prop
  | .ingest reading => engine.Covers reading
  | .setNow now => engine.now ≤ now
  | _ => True

/-- The checkpoints that are due to be backed are, and the definitions are valid. -/
structure IsSoundFor (engine : Engine σ (Database σ)) (due : Checkpoint σ → Prop) : Prop where
  /-- The checkpoints are backed. -/
  cache : engine.cache.IsSoundFor due engine.progress.world engine.now
  /-- The definitions are valid. -/
  catalog : engine.progress.world.catalog.IsValid

/-- What becomes of the database and the clock of an engine. -/
structure MovesTo (engine final : Engine σ (Database σ)) (world : Database σ) (now : Instant) :
    Prop where
  /-- The database. -/
  world : final.progress.world = world
  /-- The clock. -/
  now : final.now = now
  /-- The configuration stays. -/
  config : final.cache.config = engine.cache.config
  /-- No time elapses. -/
  elapsed : final.progress.elapsed = engine.progress.elapsed

/-- An action leaves an engine sound, and the database and the clock as it does without a cache. -/
structure Follows (engine final : Engine σ (Database σ)) (due : Checkpoint σ → Prop)
    (action : Action σ) : Prop
    extends MovesTo engine final (engine.progress.world.after action)
      (action.clock engine.now) where
  /-- It stays sound. -/
  sound : final.IsSoundFor due

variable {engine : Engine σ (Database σ)} {due : Checkpoint σ → Prop}

/-- An engine is sound if every checkpoint is due to be backed and is. -/
theorem isSoundFor_true_iff : engine.IsSoundFor (fun _ => True) ↔ engine.IsSound :=
  ⟨fun sound => ⟨CheckpointCache.isSoundFor_true_iff.1 sound.cache, sound.catalog⟩,
    fun sound => ⟨CheckpointCache.isSoundFor_true_iff.2 sound.cache, sound.catalog⟩⟩

/-- A reading that comes in leaves a sound engine sound. -/
theorem follows_ingest (sound : engine.IsSoundFor due) {reading : Reading σ}
    (covers : engine.Covers reading) :
    engine.Follows (engine.act (.ingest reading)).2 due (.ingest reading) := by
  change engine.Follows (engine.ingest Database.serve reading).2 due (.ingest reading)
  cases accepted : engine.progress.world.accept reading with
  | error error =>
    rw [ingest_of_accept_error accepted]
    exact ⟨⟨(Database.after_of_accept_error accepted).symm, rfl, rfl, rfl⟩, sound⟩
  | ok found =>
    obtain ⟨source, stored⟩ := found
    obtain ⟨⟨defined, _⟩, inserted, unchanged⟩ := (Database.accept_eq_ok_iff ..).1 accepted
    obtain ⟨written, final, result, config, kept⟩ := sound.cache.upkeep sound.catalog defined
      inserted unchanged fun settings => covers source stored settings accepted
    rw [ingest_of_accept_ok accepted result]
    exact ⟨⟨(Database.after_of_accept_ok accepted).symm, rfl, config, rfl⟩,
      ⟨kept, unchanged ▸ sound.catalog⟩⟩

/-- A reading that is accepted over valid definitions is stored, and besides it only the checkpoints
and the counters move. -/
theorem exists_ingest_eq (valid : engine.progress.world.catalog.IsValid) {reading : Reading σ}
    {source : Source σ} {stored : Database σ}
    (accepted : engine.progress.world.accept reading = .ok (source, stored)) :
    ∃ written cache tally, engine.ingest Database.serve reading =
        (.ok written, ⟨cache, engine.now, ⟨stored, engine.progress.elapsed, tally⟩⟩) ∧
      cache.config = engine.cache.config := by
  obtain ⟨⟨defined, _⟩, inserted, _⟩ := (Database.accept_eq_ok_iff ..).1 accepted
  obtain ⟨own, checked⟩ := valid reading.source source defined
  obtain ⟨written, final, result, config, _⟩ :=
    engine.cache.exists_upkeep engine.now checked inserted own.symm
  exact ⟨written, final, _, ingest_of_accept_ok accepted result, config⟩

/-- An engine over valid definitions accepts the readings that its database accepts. -/
theorem act_ingest (valid : engine.progress.world.catalog.IsValid) (reading : Reading σ) :
    (engine.act (.ingest reading)).1 =
      (engine.progress.world.accept reading).map fun _ => none := by
  change (engine.ingest Database.serve reading).1.map (fun _ => none) = _
  cases accepted : engine.progress.world.accept reading with
  | error error =>
    rw [ingest_of_accept_error accepted]
    rfl
  | ok found =>
    obtain ⟨written, cache, tally, same, _⟩ := exists_ingest_eq valid accepted
    rw [same]
    rfl

/-- A query moves only the counters and the checkpoints that it finds, which agree with the
readings. -/
theorem exists_act_ask_eq (engine : Engine σ (Database σ)) (query : Query) :
    ∃ (found : List (Checkpoint σ)) (events : List CacheEvent),
      (engine.act (.ask query)).2 = ⟨(engine.cache.commit found).1, engine.now,
        { engine.progress with tally := events.foldl Tally.add engine.progress.tally }⟩ ∧
      ∀ checkpoint ∈ found, engine.progress.world.readings.Agrees checkpoint.source checkpoint := by
  obtain ⟨found, events, same, agree, _⟩ := ask_spec (query.guardedBy engine.cache engine.now)
    (query.uses_attempt engine.cache engine.now)
    fun _ came => query.found_of_attempt
      (CheckpointCache.offers_agrees engine.cache engine.progress.world engine.now) came
  exact ⟨found, events, congrArg Prod.snd same, agree⟩

/-- Over valid definitions an action moves the database and the clock as it does without a cache,
and nothing else but the checkpoints and the counters. -/
theorem movesTo_act (valid : engine.progress.world.catalog.IsValid) (action : Action σ) :
    engine.MovesTo (engine.act action).2 (engine.progress.world.after action)
      (action.clock engine.now) := by
  cases action with
  | evict id => exact ⟨rfl, rfl, rfl, rfl⟩
  | setNow now => exact ⟨rfl, rfl, rfl, rfl⟩
  | ask query =>
    obtain ⟨found, events, same, _⟩ := exists_act_ask_eq engine query
    rw [same]
    exact ⟨rfl, rfl, CheckpointCache.config_commit found engine.cache, rfl⟩
  | ingest reading =>
    change engine.MovesTo (engine.ingest Database.serve reading).2 _ _
    cases accepted : engine.progress.world.accept reading with
    | error error =>
      rw [ingest_of_accept_error accepted]
      exact ⟨(Database.after_of_accept_error accepted).symm, rfl, rfl, rfl⟩
    | ok found =>
      obtain ⟨source, stored⟩ := found
      obtain ⟨written, cache, tally, same, config⟩ := exists_ingest_eq valid accepted
      rw [same]
      exact ⟨(Database.after_of_accept_ok accepted).symm, rfl, config, rfl⟩

/-- What an engine responds to a query is what the counters that its lookups read make of it, unless
the query has no time. -/
theorem act_ask {query : Query} {counters : Counters σ} (reads : ∀ time ∈ query.instants,
    engine.cache.Reads engine.progress.world engine.now counters time) :
    (engine.act (.ask query)).1 =
      (match engine.timeUp? with
        | some interruption => query.guard >>= fun _ => .error interruption.toQueryError
        | none => query.value engine.progress.world counters).map some := by
  obtain ⟨found, events, same, _⟩ := ask_spec (query.guardedBy engine.cache engine.now)
    (query.uses_attempt engine.cache engine.now)
    fun _ came => query.found_of_attempt
      (CheckpointCache.offers_agrees engine.cache engine.progress.world engine.now) came
  change (engine.ask (query.attempt engine.cache engine.now)).1.map some = _
  rw [same, query.result_attempt reads]

/-- The counters that the lookups of an engine read as it is. -/
def countersRead (engine : Engine σ (Database σ)) : Counters σ := fun leaf time =>
  ((engine.cache.counterAt leaf time engine.now).result engine.progress.world).map CounterRead.value

/-- Lookups read what they read. -/
theorem reads_countersRead (engine : Engine σ (Database σ)) (time : Instant) :
    engine.cache.Reads engine.progress.world engine.now engine.countersRead time :=
  fun _ _ => rfl

/-- A query leaves a sound engine sound. -/
theorem follows_ask (sound : engine.IsSoundFor due) (query : Query) :
    engine.Follows (engine.act (.ask query)).2 due (.ask query) := by
  obtain ⟨found, events, same, backed, _⟩ := ask_spec (query.guardedBy engine.cache engine.now)
    (query.uses_attempt engine.cache engine.now)
    fun _ came => query.found_of_attempt
      (CheckpointCache.offers_isBacked engine.cache sound.catalog engine.now) came
  change engine.Follows (engine.ask (query.attempt engine.cache engine.now)).2 due (.ask query)
  rw [same]
  exact ⟨⟨rfl, rfl, CheckpointCache.config_commit found engine.cache, rfl⟩,
    ⟨sound.cache.commit backed, sound.catalog⟩⟩

/-- An action leaves a sound engine sound. -/
theorem act_spec (sound : engine.IsSoundFor due) {action : Action σ}
    (permits : engine.Permits action) :
    engine.Follows (engine.act action).2 due action := by
  cases action with
  | ingest reading => exact follows_ingest sound permits
  | ask query => exact follows_ask sound query
  | evict id => exact ⟨⟨rfl, rfl, rfl, rfl⟩, ⟨sound.cache.evict id, sound.catalog⟩⟩
  | setNow now => exact ⟨⟨rfl, rfl, rfl, rfl⟩, ⟨sound.cache.later permits, sound.catalog⟩⟩

/-- A new engine is sound over valid definitions. -/
theorem isSoundFor_new {catalog : Catalog σ} (valid : catalog.IsValid) (config : Config)
    (due : Checkpoint σ → Prop) (readings : ReadingStore σ) (now : Instant) :
    (new config ⟨readings, catalog⟩ now : Engine σ (Database σ)).IsSoundFor due :=
  ⟨CheckpointCache.isSoundFor_new config due _ now, valid⟩

/-- Every checkpoint of a new engine is backed, since it has none. -/
theorem isSound_new {catalog : Catalog σ} (valid : catalog.IsValid) (config : Config)
    (readings : ReadingStore σ) (now : Instant) :
    (new config ⟨readings, catalog⟩ now : Engine σ (Database σ)).IsSound :=
  isSoundFor_true_iff.1 (isSoundFor_new valid config _ readings now)

end Engine

end Metering
