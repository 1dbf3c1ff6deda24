import Metering.Proofs.Runs

/-!
# The cache makes no difference

Under a policy that revises, on exact values and with all instants on whole
milliseconds, an engine with a cache responds to every action as the database
alone would (`run_responses`), provided that no reading affects more grid
instants than it may bring up to date. An engine without a cache does so in any
case, so that two engines that differ in the cache cannot be told apart.
-/

namespace Metering

namespace Database

variable {σ : Type} [Scalar σ]

/-- The response to an action that the database settles by itself. Queries that have no time are
interrupted unless they are refused before. -/
def respond (database : Database σ) (expired : Option Interruption) :
    Action σ → Except QueryError (Option σ)
  | .ingest reading => (database.accept reading).map fun _ => none
  | .ask query =>
    (match expired with
      | some interruption => query.guard >>= fun _ => .error interruption.toQueryError
      | none => query.value database database.counters).map some
  | .evict _ => .ok none
  | .setNow _ => .ok none

/-- The responses to actions one after another that the database settles by itself. -/
def responses (expired : Option Interruption) :
    Database σ → List (Action σ) → List (Except QueryError (Option σ))
  | _, [] => []
  | database, action :: rest =>
    database.respond expired action :: (database.after action).responses expired rest

/-- The grid instants whose counter a reading for a leaf changes where the readings have settled. -/
def affected (database : Database σ) (source : Source σ) (settings : CacheSettings)
    (reading : Reading σ) (now : Instant) : Set Instant :=
  (source.grid settings).instantsIn
    ((database.readings.around source.id reading).settledWindow settings.window now)

/-- An action keeps to whole milliseconds, sets the clock forward if at all, and a reading that is
accepted affects no more grid instants than a limit. -/
def Admits (limit : Nat) (database : Database σ) (now : Instant) : Action σ → Prop
  | .ingest reading =>
    reading.instant.IsWholeMilli ∧
      ∀ source stored settings, database.accept reading = .ok (source, stored) →
        source.cache = some settings → reading.carries .cumulativeEnergy →
        settings.window < now.since reading.instant →
        (database.affected source settings reading now).ncard ≤ limit
  | .ask query => query.IsWhole
  | .evict _ => True
  | .setNow later => now ≤ later

omit [Scalar σ] in
/-- A database stays on whole milliseconds with readings that are from there. -/
theorem IsWhole.after_of_readings {database : Database σ} (whole : database.IsWhole)
    {action : Action σ}
    (wholeReading : ∀ reading, action = .ingest reading → reading.instant.IsWholeMilli) :
    (database.after action).IsWhole := by
  cases action with
  | ask query => exact whole
  | evict id => exact whole
  | setNow later => exact whole
  | ingest reading =>
    cases accepted : database.accept reading with
    | error error =>
      rw [after_of_accept_error accepted]
      exact whole
    | ok found =>
      obtain ⟨source, stored⟩ := found
      obtain ⟨_, inserted, unchanged⟩ := (accept_eq_ok_iff ..).1 accepted
      rw [after_of_accept_ok accepted]
      refine ⟨unchanged ▸ whole.anchors, fun id other held => ?_⟩
      rcases (ReadingStore.carries_of_insert inserted ..).1 held with there | ⟨_, _, rfl⟩
      · exact whole.readings id other there
      · exact wholeReading other rfl

omit [Scalar σ] in
/-- An action that is admitted keeps the database on whole milliseconds. -/
theorem IsWhole.after {database : Database σ} (whole : database.IsWhole) {limit : Nat}
    {now : Instant} {action : Action σ} (admits : database.Admits limit now action) :
    (database.after action).IsWhole := by
  refine whole.after_of_readings fun reading same => ?_
  subst same
  exact admits.1

end Database

namespace Engine

/-- The cache is off, or it revises and may bring a number of grid instants up to date at once. -/
def KeepsUp {σ : Type} (engine : Engine σ (Database σ)) (limit : Nat) : Prop :=
  engine.cache.config.cacheEnabled →
    engine.cache.config.lateDataPolicy = .revise ∧
      limit ≤ engine.cache.config.maxBoundariesPerIngest

variable {σ : Type} [Scalar σ] {engine : Engine σ (Database σ)} {limit : Nat}

/-- Where no reading affects more grid instants than are brought up to date at once, every
checkpoint in the settled part of a gap that a reading splits has a proposal. -/
theorem permits_of_admits (valid : engine.progress.world.catalog.IsValid)
    (keepsUp : engine.KeepsUp limit)
    {action : Action σ} (admits : engine.progress.world.Admits limit engine.now action) :
    engine.Permits action := by
  cases action with
  | ask query => trivial
  | evict id => trivial
  | setNow now => exact admits
  | ingest reading =>
    intro source stored settings accepted calls checkpoint _ _ backing inside
    obtain ⟨kept, carries, older⟩ := calls
    obtain ⟨enabled, _, asks⟩ := (CheckpointCache.settingsFor?_eq_some_iff ..).1 kept
    obtain ⟨revises, room⟩ := keepsUp enabled
    obtain ⟨⟨defined, _⟩, inserted, _⟩ := (Database.accept_eq_ok_iff ..).1 accepted
    have regular := CheckpointCache.isRegular_of_settingsFor? kept
      (valid reading.source source defined).2
    have member : checkpoint.instant ∈
        engine.progress.world.affected source settings reading engine.now :=
      ⟨backing.onGrid, inside⟩
    have few := Nat.lt_of_lt_of_le (Grid.ncard_before_lt member)
      (Nat.le_trans (admits.2 source stored settings accepted asks carries older) room)
    unfold Database.affected at member few
    rw [← ReadingStore.around_of_insert inserted] at member few
    exact CheckpointCache.exists_candidate_of_revise revises regular member few

/-- An engine whose lookups read what the readings give responds as the database settles by
itself. -/
theorem act_respond (valid : engine.progress.world.catalog.IsValid)
    (reads : ∀ time, time.IsWholeMilli → engine.cache.Reads engine.progress.world engine.now
      engine.progress.world.counters time) {action : Action σ}
    (admits : engine.progress.world.Admits limit engine.now action) :
    (engine.act action).1 = engine.progress.world.respond engine.timeUp? action := by
  cases action with
  | evict id => rfl
  | setNow now => rfl
  | ingest reading => exact act_ingest valid reading
  | ask query => exact act_ask fun time member => reads time (admits.instants time member)

omit [Scalar σ] in
/-- An engine keeps up as one with its configuration does. -/
theorem KeepsUp.of_config_eq {final : Engine σ (Database σ)} (keepsUp : engine.KeepsUp limit)
    (same : final.cache.config = engine.cache.config) : final.KeepsUp limit := by
  unfold KeepsUp
  rw [same]
  exact keepsUp

/-- An engine that keeps up stays sound. -/
theorem isSound_run_of_admits (actions : List (Action σ)) {engine : Engine σ (Database σ)}
    (sound : engine.IsSound) (keepsUp : engine.KeepsUp limit)
    (admits : engine.progress.world.AllAlong (Database.Admits limit) engine.now actions) :
    (engine.run actions).2.IsSound := by
  induction actions generalizing engine with
  | nil => exact sound
  | cons action rest ih =>
    obtain ⟨first, others⟩ := admits
    have follows := act_spec (isSoundFor_true_iff.2 sound)
      (permits_of_admits sound.catalog keepsUp first)
    exact ih (isSoundFor_true_iff.1 follows.sound) (keepsUp.of_config_eq follows.config)
      (by rw [follows.world, follows.now]; exact others)

/-- A sound engine on whole milliseconds goes on responding as the database settles by itself. -/
theorem run_responses (actions : List (Action Rat)) {engine : Engine Rat (Database Rat)}
    (sound : engine.IsSound) (keepsUp : engine.KeepsUp limit)
    (whole : engine.progress.world.IsWhole)
    (admits : engine.progress.world.AllAlong (Database.Admits limit) engine.now actions) :
    (engine.run actions).1 = engine.progress.world.responses engine.timeUp? actions := by
  induction actions generalizing engine with
  | nil => rfl
  | cons action rest ih =>
    obtain ⟨first, others⟩ := admits
    have follows := act_spec (isSoundFor_true_iff.2 sound)
      (permits_of_admits sound.catalog keepsUp first)
    have response := act_respond sound.catalog (fun _ => sound.cache.reads whole) first
    have timeUp : (engine.act action).2.timeUp? = engine.timeUp? :=
      timeUp?_eq follows.config follows.elapsed
    have later := ih (isSoundFor_true_iff.1 follows.sound)
      (keepsUp.of_config_eq follows.config) (by rw [follows.world]; exact whole.after first)
      (by rw [follows.world, follows.now]; exact others)
    change (engine.act action).1 :: ((engine.act action).2.run rest).1 = _
    rw [response, later, follows.world, timeUp]
    rfl

/-- An engine that keeps checkpoints and revises them responds to any actions as one without a
cache: the same errors and, on exact values, the same values. -/
theorem run_eq_run_uncached {catalog : Catalog Rat} (valid : catalog.IsValid)
    (wholeAnchors : ∀ id source, catalog.get? id = some source → source.createdAt.IsWholeMilli)
    {cached uncached : Config} (revises : cached.lateDataPolicy = .revise)
    (off : uncached.cacheEnabled = false)
    (sameTimeout : uncached.queryTimeoutSeconds = cached.queryTimeoutSeconds) (now : Instant)
    (actions : List (Action Rat))
    (admits : (⟨.empty, catalog⟩ : Database Rat).AllAlong
      (Database.Admits cached.maxBoundariesPerIngest) now actions) :
    (run (new cached ⟨.empty, catalog⟩ now) actions).1 =
      (run (new uncached ⟨.empty, catalog⟩ now) actions).1 := by
  have whole : (⟨.empty, catalog⟩ : Database Rat).IsWhole :=
    ⟨wholeAnchors, fun id reading held => absurd held.1 List.not_mem_nil⟩
  have keepsUp : (new cached ⟨.empty, catalog⟩ now : Engine Rat (Database Rat)).KeepsUp
      cached.maxBoundariesPerIngest := fun _ => ⟨revises, Nat.le_refl _⟩
  have keepsNothing : (new uncached ⟨.empty, catalog⟩ now : Engine Rat (Database Rat)).KeepsUp
      cached.maxBoundariesPerIngest := fun enabled => absurd (off.symm.trans enabled) (by decide)
  rw [run_responses actions (isSound_new valid cached .empty now) keepsUp whole admits,
    run_responses actions (isSound_new valid uncached .empty now) keepsNothing whole admits]
  unfold timeUp? standardLimits Config.queryTimeoutMillis new CheckpointCache.new
  rw [sameTimeout]

omit [Scalar σ] in
/-- A reading is admitted if a walk along the grid of its source tells that it affects few enough
instants. -/
theorem admits_of_few {database : Database σ} {reading : Reading σ} {source : Source σ}
    {settings : CacheSettings} {now : Instant}
    (defined : database.catalog.get? reading.source = some source)
    (asks : source.cache = some settings) (regular : (source.grid settings).IsRegular)
    (whole : reading.instant.IsWholeMilli)
    (few : ((source.grid settings).within
      ((database.readings.around source.id reading).settledWindow settings.window now)
      (limit + 1)).length ≤ limit) :
    database.Admits limit now (.ingest reading) := by
  refine ⟨whole, fun other stored others accepted asked _ _ => ?_⟩
  obtain ⟨⟨found, _⟩, _⟩ := (Database.accept_eq_ok_iff ..).1 accepted
  obtain rfl : source = other := Option.some_inj.1 (defined.symm.trans found)
  obtain rfl : settings = others := Option.some_inj.1 (asks.symm.trans asked)
  exact Grid.ncard_instantsIn_le regular few

/-- A reading of the hourly meter is admitted if it affects few enough instants. -/
theorem admits_hourlyReading {database : Database Rat} (same : database.catalog = hourlyCatalog)
    {minute : Nat} {energy : Rat} {now : Instant}
    (few : ((hourlyMeter.grid ⟨3600, 60⟩).within
      ((database.readings.around hourlyMeter.id (hourlyReading minute energy)).settledWindow
        (CacheSettings.window ⟨3600, 60⟩) now) (limit + 1)).length ≤ limit) :
    database.Admits limit now (.ingest (hourlyReading minute energy)) := by
  have defined : database.catalog.get? "meter" = some hourlyMeter := same ▸ rfl
  exact admits_of_few defined rfl (hourlyMeter.isRegular_grid rfl rfl rfl)
    (isWholeMilli_atMinute minute) few

/-- A day on which a late reading and two queries come in. -/
def hourlyActions : List (Action Rat) :=
  [.setNow (atMinute 1440), .ingest (hourlyReading 0 0), .ingest (hourlyReading 150 5),
    .ingest (hourlyReading 90 4), .ask (.counterAt "meter" (atMinute 75)),
    .ask (.energy "meter" (atMinute 30) (atMinute 135))]

/-- On that day the responses with checkpoints are those without, and all lookups were answered from
checkpoints. -/
theorem run_hourlyActions :
    (run (new ⟨true, .revise, none, 2⟩ ⟨.empty, hourlyCatalog⟩ .epoch) hourlyActions).1 =
      (run (new .uncached ⟨.empty, hourlyCatalog⟩ .epoch) hourlyActions).1 ∧
    (run (new ⟨true, .revise, none, 2⟩ ⟨.empty, hourlyCatalog⟩ .epoch)
      hourlyActions).2.progress.tally.hits = 3 := by
  have wholeAnchors : ∀ id source, hourlyCatalog.get? id = some source →
      source.createdAt.IsWholeMilli := fun _ _ found => isWholeMilli_createdAt found
  have admits : (⟨.empty, hourlyCatalog⟩ : Database Rat).AllAlong (Database.Admits 2) .epoch
      hourlyActions := by
    have forward : Instant.epoch ≤ atMinute 1440 := by decide
    refine ⟨forward, admits_hourlyReading rfl ?_, admits_hourlyReading rfl ?_,
      admits_hourlyReading rfl ?_, isWholeMilli_atMinute 75,
      ⟨isWholeMilli_atMinute 30, isWholeMilli_atMinute 135⟩, trivial⟩
    · decide +kernel
    · decide +kernel
    · decide +kernel
  exact ⟨run_eq_run_uncached isValid_hourlyCatalog wholeAnchors (by rfl) (by rfl) (by rfl) .epoch
    hourlyActions admits, by decide +kernel⟩

end Engine

end Metering
