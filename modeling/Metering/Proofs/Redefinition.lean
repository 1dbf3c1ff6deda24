import Metering.Proofs.Transparency

/-!
# Redefining a source

The checkpoints of a source outlive its definition, and a later definition may
put another grid or another window to them. An engine whose sources are
redefined still responds as one without a cache, provided that the checkpoints
of a source take to each new definition (`undergoAll_eq_undergoAll_uncached`).
They do if they have been forgotten (`welcomes_of_evict`), or if the new grid is
part of the old one and the new window no longer than the old one
(`IsCurrent.welcomes_of_coarser`). Where they do not, a reading can come in that
leaves a checkpoint behind, and a later lookup goes by it
(`undergoAll_apart_of_redefinition`).
-/

namespace Metering

/-- What can happen to an engine whose sources may be redefined. -/
inductive Change (σ : Type) where
  /-- An action is taken. -/
  | act (action : Action σ)
  /-- A source is defined, in place of the definition that it has. -/
  | define (source : Source σ)

/-- The time on the clock after a change. -/
def Change.clock {σ : Type} (now : Instant) : Change σ → Instant
  | act action => action.clock now
  | define _ => now

namespace Database

variable {σ : Type}

variable [Scalar σ]

/-- Adds or replaces a definition. -/
def define (database : Database σ) (source : Source σ) :
    Except StoreError Unit × Database σ :=
  match database.catalog.upsert source with
  | .ok catalog => (.ok (), { database with catalog := catalog })
  | .error error => (.error error, database)

/-- The database after a change. -/
def afterChange (database : Database σ) : Change σ → Database σ
  | .act action => database.after action
  | .define source => (database.define source).2

/-- The response to a change that the database settles by itself. -/
def respondTo (database : Database σ) (expired : Option Interruption) :
    Change σ → Except QueryError (Option σ)
  | .act action => database.respond expired action
  | .define source =>
    ((database.define source).1.mapError StoreError.toQueryError).map fun _ => none

/-- The responses to changes one after another that the database settles by itself. -/
def responsesTo (expired : Option Interruption) :
    Database σ → List (Change σ) → List (Except QueryError (Option σ))
  | _, [] => []
  | database, change :: rest =>
    database.respondTo expired change :: (database.afterChange change).responsesTo expired rest

/-- An action is admitted, and a source that is defined was created at a whole millisecond. -/
def AdmitsChange (limit : Nat) (database : Database σ) (now : Instant) : Change σ → Prop
  | .act action => database.Admits limit now action
  | .define source => source.createdAt.IsWholeMilli

/-- Each of some changes is admitted when it comes. -/
def AdmitsAll (limit : Nat) : Database σ → Instant → List (Change σ) → Prop
  | _, _, [] => True
  | database, now, change :: rest =>
    database.AdmitsChange limit now change ∧
      (database.afterChange change).AdmitsAll limit (change.clock now) rest

variable {database : Database σ} {source : Source σ}

/-- A definition that is refused changes nothing. -/
theorem define_of_error {error : StoreError}
    (refused : database.catalog.upsert source = .error error) :
    database.define source = (.error error, database) := by
  unfold define
  rw [refused]

/-- A definition that is taken in goes into the catalog. -/
theorem define_of_ok {catalog : Catalog σ}
    (added : database.catalog.upsert source = .ok catalog) :
    database.define source = (.ok (), { database with catalog := catalog }) := by
  unfold define
  rw [added]

/-- A change that is admitted keeps the database on whole milliseconds. -/
theorem IsWhole.afterChange (whole : database.IsWhole) {limit : Nat} {now : Instant}
    {change : Change σ} (admits : database.AdmitsChange limit now change) :
    (database.afterChange change).IsWhole := by
  cases change with
  | act action => exact whole.after admits
  | define source =>
    change (database.define source).2.IsWhole
    cases added : database.catalog.upsert source with
    | error error =>
      rw [define_of_error added]
      exact whole
    | ok catalog =>
      rw [define_of_ok added]
      refine ⟨fun id other found => ?_, whole.readings⟩
      rw [Catalog.get?_of_upsert added] at found
      split at found
      · exact Option.some_inj.1 found ▸ admits
      · exact whole.anchors id other found

end Database

namespace CheckpointCache

variable {σ : Type}

/-- A checkpoint lies on the grid on which the counter of its source is kept. -/
def IsOnGrid (cache : CheckpointCache σ) (catalog : Catalog σ) (checkpoint : Checkpoint σ) : Prop :=
  ∃ source settings, catalog.get? checkpoint.source = some source ∧
    cache.settingsFor? source = some settings ∧ (source.grid settings).Has checkpoint.instant

/-- Which checkpoints lie on the grids depends on a cache only through its configuration. -/
theorem IsOnGrid.of_config_eq {cache other : CheckpointCache σ} {catalog : Catalog σ}
    {checkpoint : Checkpoint σ} (onGrid : other.IsOnGrid catalog checkpoint)
    (same : other.config = cache.config) : cache.IsOnGrid catalog checkpoint := by
  obtain ⟨source, settings, defined, kept, has⟩ := onGrid
  exact ⟨source, settings, defined, (settingsFor?_of_config_eq same source).symm.trans kept, has⟩

/-- Over a cache that is sound for the checkpoints on the grids, lookups read what the readings
give. -/
theorem IsSoundFor.reads {cache : CheckpointCache Rat} {database : Database Rat} {now : Instant}
    (sound : cache.IsSoundFor (cache.IsOnGrid database.catalog) database now)
    (valid : database.catalog.IsValid) (whole : database.IsWhole) {time : Instant}
    (wholeTime : time.IsWholeMilli) : cache.Reads database now database.counters time := by
  rintro leaf ⟨id, found⟩
  refine map_value_counterAt (whole.anchors id leaf found) (whole.readings leaf.id) wholeTime
    fun settings boundary checkpoint kept floor held => ?_
  obtain ⟨member, rfl⟩ := (Timeline.at?_eq_some_iff ..).1 held
  obtain ⟨own, backed⟩ := sound leaf.id checkpoint member
  have defined : database.catalog.get? checkpoint.source = some leaf :=
    own.symm ▸ valid.get?_id ⟨id, found⟩
  have has := (Grid.floor?_spec (Source.isRegular_of_floor? floor) floor).1
  obtain ⟨_, _, backing⟩ := backed ⟨leaf, settings, defined, kept, has⟩
  exact ⟨own, backing.agrees⟩

end CheckpointCache

namespace Engine

variable {σ : Type} [Scalar σ]

/-- Adds or replaces a definition in the database of an engine. -/
def define (engine : Engine σ (Database σ)) (source : Source σ) :
    Except QueryError Unit × Engine σ (Database σ) :=
  ((engine.progress.world.define source).1.mapError StoreError.toQueryError,
    { engine with progress :=
      { engine.progress with world := (engine.progress.world.define source).2 } })

/-- What an engine responds to a change, and the engine after it. -/
def undergo (engine : Engine σ (Database σ)) :
    Change σ → Except QueryError (Option σ) × Engine σ (Database σ)
  | .act action => engine.act action
  | .define source => ((engine.define source).1.map fun _ => none, (engine.define source).2)

/-- What an engine responds to changes one after another, and the engine after the last. -/
def undergoAll (engine : Engine σ (Database σ)) :
    List (Change σ) → List (Except QueryError (Option σ)) × Engine σ (Database σ)
  | [] => ([], engine)
  | change :: rest =>
    ((engine.undergo change).1 :: ((engine.undergo change).2.undergoAll rest).1,
      ((engine.undergo change).2.undergoAll rest).2)

/-- Checkpoints take to a new definition of their source: around each one on the new grid the
readings have settled for the new window, and it lies on the grid that is replaced or agrees with
the readings. -/
def Welcomes (engine : Engine σ (Database σ)) : Change σ → Prop
  | .act _ => True
  | .define source =>
    ∀ settings, engine.cache.settingsFor? source = some settings →
      ∀ checkpoint ∈ (engine.cache.seriesOf source.id).entries,
        (source.grid settings).Has checkpoint.instant →
        engine.progress.world.readings.SettledAt source.id settings.window engine.now
            checkpoint.instant ∧
          (engine.cache.IsOnGrid engine.progress.world.catalog checkpoint ∨
            engine.progress.world.readings.Agrees source.id checkpoint)

/-- Checkpoints take to each of some changes when it comes. -/
def WelcomesAll : Engine σ (Database σ) → List (Change σ) → Prop
  | _, [] => True
  | engine, change :: rest =>
    engine.Welcomes change ∧ (engine.undergo change).2.WelcomesAll rest

/-- The checkpoints on the grids of their sources are backed, and the definitions are valid. -/
def IsCurrent (engine : Engine σ (Database σ)) : Prop :=
  engine.IsSoundFor (engine.cache.IsOnGrid engine.progress.world.catalog)

variable {engine : Engine σ (Database σ)} {limit : Nat}

/-! ## Definitions that are welcome -/

/-- Every definition is welcome to a source whose checkpoints have been forgotten. -/
theorem welcomes_of_evict (engine : Engine σ (Database σ)) (source : Source σ) :
    (engine.act (.evict source.id)).2.Welcomes (.define source) := by
  intro settings _ checkpoint member
  change checkpoint ∈ ((engine.cache.evict source.id).seriesOf source.id).entries at member
  rw [CheckpointCache.seriesOf_evict, if_pos rfl] at member
  cases member

/-- A definition is welcome if its grid is part of the old one and its window no longer than the old
one. -/
theorem IsCurrent.welcomes_of_coarser (current : engine.IsCurrent) {old source : Source σ}
    {before after : CacheSettings}
    (defined : engine.progress.world.catalog.get? source.id = some old)
    (kept : engine.cache.settingsFor? old = some before) (asks : source.cache = some after)
    (part : ∀ time, (source.grid after).Has time → (old.grid before).Has time)
    (shorter : after.window ≤ before.window) : engine.Welcomes (.define source) := by
  intro settings keeps checkpoint member has
  obtain ⟨_, _, asked⟩ := (CheckpointCache.settingsFor?_eq_some_iff ..).1 keeps
  obtain rfl : after = settings := Option.some_inj.1 (asks.symm.trans asked)
  obtain ⟨own, backed⟩ := current.cache source.id checkpoint member
  have onGrid : engine.cache.IsOnGrid engine.progress.world.catalog checkpoint :=
    ⟨old, before, own.symm ▸ defined, kept, part checkpoint.instant has⟩
  obtain ⟨other, settings, backing⟩ := backed onGrid
  obtain rfl : old = other := Option.some_inj.1 ((own.symm ▸ defined).symm.trans backing.defined)
  obtain rfl : before = settings := Option.some_inj.1 (kept.symm.trans backing.kept)
  exact ⟨own ▸ backing.settled.shorter shorter, Or.inl onGrid⟩

/-! ## One change -/

/-- An action leaves an engine current. -/
theorem IsCurrent.act (current : engine.IsCurrent) {action : Action σ}
    (permits : engine.Permits action) :
    (engine.act action).2.IsCurrent ∧ engine.MovesTo (engine.act action).2
      (engine.progress.world.after action) (action.clock engine.now) := by
  have follows := act_spec current permits
  have catalog : (engine.act action).2.progress.world.catalog = engine.progress.world.catalog := by
    rw [follows.world, Database.catalog_after]
  refine ⟨⟨follows.sound.cache.mono fun checkpoint onGrid => ?_, follows.sound.catalog⟩,
    follows.toMovesTo⟩
  rw [catalog] at onGrid
  exact onGrid.of_config_eq follows.config

/-- A definition that the checkpoints of its source take to leaves an engine current. -/
theorem IsCurrent.define (current : engine.IsCurrent) {source : Source σ}
    (welcomes : engine.Welcomes (.define source)) :
    (engine.define source).2.IsCurrent := by
  unfold Engine.define
  cases added : engine.progress.world.catalog.upsert source with
  | error error =>
    rw [Database.define_of_error added]
    exact current
  | ok catalog =>
    rw [Database.define_of_ok added]
    refine ⟨fun id checkpoint member => ?_, current.catalog.upsert added⟩
    obtain ⟨rfl, backed⟩ := current.cache id checkpoint member
    refine ⟨rfl, fun ⟨other, settings, defined, kept, has⟩ => ?_⟩
    have found := defined
    rw [Catalog.get?_of_upsert added] at found
    split at found
    -- Of the source that is redefined, a checkpoint on the new grid is one that takes to it.
    · rename_i here
      obtain rfl : source = other := Option.some_inj.1 found
      rw [← here] at member
      obtain ⟨settled, fits⟩ := welcomes settings kept checkpoint member has
      rw [here] at settled fits
      have agrees : engine.progress.world.readings.Agrees checkpoint.source checkpoint := by
        rcases fits with onGrid | agrees
        · obtain ⟨_, _, backing⟩ := backed onGrid
          exact backing.agrees
        · exact agrees
      exact ⟨source, settings, defined, kept, has, settled, agrees⟩
    -- Another source keeps its definition, and its checkpoints what they rest on.
    · rename_i elsewhere
      obtain ⟨same, others, backing⟩ := backed ⟨other, settings, found, kept, has⟩
      have stays : catalog.get? checkpoint.source = some same := by
        rw [Catalog.get?_of_upsert added, if_neg elsewhere]
        exact backing.defined
      exact ⟨same, others, stays, backing.kept, backing.onGrid, backing.settled, backing.agrees⟩

/-- A change that is admitted and that checkpoints take to leaves an engine current, and the
database and the clock as it does without a cache. -/
theorem IsCurrent.undergo (current : engine.IsCurrent) (keepsUp : engine.KeepsUp limit)
    {change : Change σ}
    (admits : engine.progress.world.AdmitsChange limit engine.now change)
    (welcomes : engine.Welcomes change) :
    (engine.undergo change).2.IsCurrent ∧ engine.MovesTo (engine.undergo change).2
      (engine.progress.world.afterChange change) (change.clock engine.now) := by
  cases change with
  | act action => exact current.act (permits_of_admits current.catalog keepsUp admits)
  | define source => exact ⟨current.define welcomes, rfl, rfl, rfl, rfl⟩

/-- A current engine on whole milliseconds responds to a change as the database settles by
itself. -/
theorem IsCurrent.undergo_respond {engine : Engine Rat (Database Rat)} (current : engine.IsCurrent)
    (whole : engine.progress.world.IsWhole) {change : Change Rat}
    (admits : engine.progress.world.AdmitsChange limit engine.now change) :
    (engine.undergo change).1 = engine.progress.world.respondTo engine.timeUp? change := by
  cases change with
  | act action =>
    exact act_respond current.catalog (fun _ => current.cache.reads current.catalog whole) admits
  | define source => rfl

/-! ## One change after another -/

/-- A current engine on whole milliseconds goes on responding as the database settles by itself, if
its cache is off or checkpoints take to each change. -/
theorem IsCurrent.undergoAll (changes : List (Change Rat)) {engine : Engine Rat (Database Rat)}
    (current : engine.IsCurrent) (keepsUp : engine.KeepsUp limit)
    (whole : engine.progress.world.IsWhole)
    (admits : engine.progress.world.AdmitsAll limit engine.now changes)
    (welcomes : engine.cache.config.cacheEnabled → engine.WelcomesAll changes) :
    (engine.undergoAll changes).1 = engine.progress.world.responsesTo engine.timeUp? changes := by
  induction changes generalizing engine with
  | nil => rfl
  | cons change rest ih =>
    obtain ⟨first, others⟩ := admits
    -- An engine whose cache is off keeps no counter, so every definition is welcome to it.
    have welcome : engine.Welcomes change := by
      cases change with
      | act action => trivial
      | define source =>
        intro settings kept
        have enabled := ((CheckpointCache.settingsFor?_eq_some_iff ..).1 kept).1
        exact (welcomes enabled).1 settings kept
    obtain ⟨stays, moves⟩ := current.undergo keepsUp first welcome
    have response := current.undergo_respond whole first
    have timeUp : (engine.undergo change).2.timeUp? = engine.timeUp? :=
      timeUp?_eq moves.config moves.elapsed
    have later := ih stays
      (keepsUp.of_config_eq moves.config)
      (by rw [moves.world]; exact whole.afterChange first)
      (by rw [moves.world, moves.now]; exact others)
      (by rw [moves.config]; exact fun enabled => (welcomes enabled).2)
    change (engine.undergo change).1 :: ((engine.undergo change).2.undergoAll rest).1 = _
    rw [response, later, moves.world, timeUp]
    rfl

/-- An engine that keeps checkpoints and revises them responds to any actions and redefinitions as
one without a cache, provided that the checkpoints of a source take to each new definition. -/
theorem undergoAll_eq_undergoAll_uncached {catalog : Catalog Rat} (valid : catalog.IsValid)
    (wholeAnchors : ∀ id source, catalog.get? id = some source → source.createdAt.IsWholeMilli)
    {cached uncached : Config} (revises : cached.lateDataPolicy = .revise)
    (off : uncached.cacheEnabled = false)
    (sameTimeout : uncached.queryTimeoutSeconds = cached.queryTimeoutSeconds) (now : Instant)
    (changes : List (Change Rat))
    (admits : (⟨.empty, catalog⟩ : Database Rat).AdmitsAll cached.maxBoundariesPerIngest now
      changes)
    (welcomes : (new cached ⟨.empty, catalog⟩ now).WelcomesAll changes) :
    (undergoAll (new cached ⟨.empty, catalog⟩ now) changes).1 =
      (undergoAll (new uncached ⟨.empty, catalog⟩ now) changes).1 := by
  have whole : (⟨.empty, catalog⟩ : Database Rat).IsWhole :=
    ⟨wholeAnchors, fun id reading held => absurd held.1 List.not_mem_nil⟩
  have keepsUp : (new cached ⟨.empty, catalog⟩ now : Engine Rat (Database Rat)).KeepsUp
      cached.maxBoundariesPerIngest := fun _ => ⟨revises, Nat.le_refl _⟩
  have nothing : ¬ (new uncached ⟨.empty, catalog⟩ now :
      Engine Rat (Database Rat)).cache.config.cacheEnabled :=
    fun enabled => absurd (off.symm.trans enabled) (by decide)
  have current : ∀ config,
      (new config ⟨.empty, catalog⟩ now : Engine Rat (Database Rat)).IsCurrent :=
    fun config => isSoundFor_new valid config _ .empty now
  rw [(current cached).undergoAll changes keepsUp whole admits fun _ => welcomes,
    (current uncached).undergoAll changes (fun enabled => absurd enabled nothing) whole admits
      fun enabled => absurd enabled nothing]
  unfold timeUp? standardLimits Config.queryTimeoutMillis new CheckpointCache.new
  rw [sameTimeout]

/-! ## A meter that is redefined -/

/-- The hourly meter with other settings. -/
def retimedMeter (settings : CacheSettings) : Source Rat :=
  { hourlyMeter with cache := some settings }

/-- The hourly meter as if it had been created half an hour later. -/
def shiftedMeter : Source Rat := { hourlyMeter with createdAt := atMinute 30 }

/-- Two readings, a definition whose grid is part of the old one and whose window is longer, and a
late reading. -/
def coarserChanges : List (Change Rat) :=
  [.act (.setNow (atMinute 1440)), .act (.ingest (hourlyReading 0 0)),
    .act (.ingest (hourlyReading 180 6)), .define (retimedMeter ⟨7200, 120⟩),
    .act (.ingest (hourlyReading 90 4)), .act (.ask (.counterAt "meter" (atMinute 125))),
    .act (.ask (.energy "meter" (atMinute 30) (atMinute 135)))]

/-- Two readings, of which the second is two minutes old, a window of a day, and a late reading in
that window. -/
def widenedChanges : List (Change Rat) :=
  [.act (.setNow (atMinute 182)), .act (.ingest (hourlyReading 0 0)),
    .act (.ingest (hourlyReading 180 6)), .define (retimedMeter ⟨3600, 86400⟩),
    .act (.ingest (hourlyReading 90 6)), .act (.setNow (atMinute 2000)),
    .act (.ask (.counterAt "meter" (atMinute 125)))]

/-- Two readings, a late one while the grid is another, and the old definition again. -/
def shiftedChanges : List (Change Rat) :=
  [.act (.setNow (atMinute 1440)), .act (.ingest (hourlyReading 0 0)),
    .act (.ingest (hourlyReading 180 6)), .define shiftedMeter,
    .act (.ingest (hourlyReading 90 6)), .define hourlyMeter,
    .act (.ask (.counterAt "meter" (atMinute 125)))]

/-- An engine over the hourly meter that revises late data, four grid instants at a time. -/
def revisingEngine : Engine Rat (Database Rat) :=
  new ⟨true, .revise, none, 4⟩ ⟨.empty, hourlyCatalog⟩ .epoch

/-- An engine over the hourly meter without a cache. -/
def uncachedEngine : Engine Rat (Database Rat) := new .uncached ⟨.empty, hourlyCatalog⟩ .epoch

/-- A reading of a meter is admitted if it affects few enough instants. -/
theorem admits_meterReading {database : Database Rat} {meter : Source Rat}
    {settings : CacheSettings}
    (defined : database.catalog.get? "meter" = some meter) (asks : meter.cache = some settings)
    (valid : meter.validate = .ok ()) (leaf : meter.isLeaf) {minute : Nat} {energy : Rat}
    {now : Instant}
    (few : ((meter.grid settings).within
      ((database.readings.around meter.id (hourlyReading minute energy)).settledWindow
        settings.window now) (limit + 1)).length ≤ limit) :
    database.AdmitsChange limit now (.act (.ingest (hourlyReading minute energy))) :=
  admits_of_few defined asks (meter.isRegular_grid valid leaf asks)
    (isWholeMilli_atMinute minute) few

/-- The two readings settle every checkpoint that the first definition has. -/
theorem welcomesAll_coarserChanges : revisingEngine.WelcomesAll coarserChanges := by
  let engine := (revisingEngine.undergoAll (coarserChanges.take 3)).2
  have welcome : engine.Welcomes (.define (retimedMeter ⟨7200, 120⟩)) := by
    intro settings kept checkpoint member _
    obtain ⟨_, _, asked⟩ := (CheckpointCache.settingsFor?_eq_some_iff ..).1 kept
    obtain rfl : ⟨7200, 120⟩ = settings := Option.some_inj.1 asked
    have inside : ∀ held ∈ (engine.cache.seriesOf "meter").entries,
        atMinute 0 ≤ held.instant ∧ held.instant ≤ atMinute 180 := by decide +kernel
    have agree : ∀ held ∈ (engine.cache.seriesOf "meter").entries,
        engine.progress.world.readings.valueAt "meter" held.instant .cumulativeEnergy =
          .ok held.energy := by decide +kernel
    have first : engine.progress.world.readings.Carries "meter" .cumulativeEnergy
        (hourlyReading 0 0) := ⟨by decide +kernel, by decide⟩
    have second : engine.progress.world.readings.Carries "meter" .cumulativeEnergy
        (hourlyReading 180 6) := ⟨by decide +kernel, by decide⟩
    exact ⟨ReadingStore.settledAt_of_carries first second (inside checkpoint member).1
      (inside checkpoint member).2 (by decide +kernel), Or.inr (agree checkpoint member)⟩
  exact ⟨trivial, trivial, trivial, welcome, trivial, trivial, trivial, trivial⟩

/-- With the coarser grid the responses with checkpoints are those without, and all lookups were
answered from checkpoints. -/
theorem undergoAll_coarserChanges :
    (revisingEngine.undergoAll coarserChanges).1 = (uncachedEngine.undergoAll coarserChanges).1 ∧
    (revisingEngine.undergoAll coarserChanges).2.progress.tally.hits = 3 := by
  have wholeAnchors : ∀ id source, hourlyCatalog.get? id = some source →
      source.createdAt.IsWholeMilli := fun _ _ found => isWholeMilli_createdAt found
  have forward : Instant.epoch ≤ atMinute 1440 := by decide
  have admits : (⟨.empty, hourlyCatalog⟩ : Database Rat).AdmitsAll 4 .epoch coarserChanges := by
    refine ⟨forward, admits_meterReading rfl rfl rfl rfl ?_, admits_meterReading rfl rfl rfl rfl ?_,
      ⟨0, rfl⟩, admits_meterReading rfl rfl rfl rfl ?_, isWholeMilli_atMinute 125,
      ⟨isWholeMilli_atMinute 30, isWholeMilli_atMinute 135⟩, trivial⟩
    · decide +kernel
    · decide +kernel
    · decide +kernel
  exact ⟨undergoAll_eq_undergoAll_uncached isValid_hourlyCatalog wholeAnchors (by rfl) (by rfl)
    (by rfl) .epoch coarserChanges admits welcomesAll_coarserChanges, by decide +kernel⟩

/-- The changes that lengthen the window are admitted. -/
theorem admitsAll_widenedChanges :
    (⟨.empty, hourlyCatalog⟩ : Database Rat).AdmitsAll 4 .epoch widenedChanges := by
  have start : Instant.epoch ≤ atMinute 182 := by decide
  have forward : atMinute 182 ≤ atMinute 2000 := by decide
  refine ⟨start, admits_meterReading rfl rfl rfl rfl ?_, admits_meterReading rfl rfl rfl rfl ?_,
    ⟨0, rfl⟩, admits_meterReading rfl rfl rfl rfl ?_, forward, isWholeMilli_atMinute 125, trivial⟩
  · decide +kernel
  · decide +kernel
  · decide +kernel

/-- The changes that shift the grid and bring it back are admitted. -/
theorem admitsAll_shiftedChanges :
    (⟨.empty, hourlyCatalog⟩ : Database Rat).AdmitsAll 4 .epoch shiftedChanges := by
  have start : Instant.epoch ≤ atMinute 1440 := by decide
  refine ⟨start, admits_meterReading rfl rfl rfl rfl ?_, admits_meterReading rfl rfl rfl rfl ?_,
    isWholeMilli_atMinute 30, admits_meterReading rfl rfl rfl rfl ?_, ⟨0, rfl⟩,
    isWholeMilli_atMinute 125, trivial⟩
  · decide +kernel
  · decide +kernel
  · decide +kernel

/-- Neither a longer window nor a grid that comes back is welcome without more: the last lookup goes
by a checkpoint that a late reading has left behind. -/
theorem undergoAll_apart_of_redefinition :
    ((⟨.empty, hourlyCatalog⟩ : Database Rat).AdmitsAll 4 .epoch widenedChanges ∧
      (revisingEngine.undergoAll widenedChanges).1 =
        .replicate 6 (.ok none) ++ [.ok (some (25 / 6))] ∧
      (uncachedEngine.undergoAll widenedChanges).1 =
        .replicate 6 (.ok none) ++ [.ok (some 6)]) ∧
    (⟨.empty, hourlyCatalog⟩ : Database Rat).AdmitsAll 4 .epoch shiftedChanges ∧
      (revisingEngine.undergoAll shiftedChanges).1 =
        .replicate 6 (.ok none) ++ [.ok (some (25 / 6))] ∧
      (uncachedEngine.undergoAll shiftedChanges).1 =
        .replicate 6 (.ok none) ++ [.ok (some 6)] :=
  ⟨⟨admitsAll_widenedChanges, by decide +kernel, by decide +kernel⟩,
    admitsAll_shiftedChanges, by decide +kernel, by decide +kernel⟩

end Engine

end Metering
