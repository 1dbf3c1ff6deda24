import Metering.Proofs.Perform
import Metering.Proofs.Sessions

/-!
# Checkpoints stand on what has settled

Over a store in memory every checkpoint of a session is at an instant of its
source's grid, with readings on either side that are older than the window
(`CacheSession.standsOn_run`). Both writers see to it, the upkeep and the lookups,
and it lasts: time only makes readings older, and new ones only come closer to
the instant (`ReadingStore.SettledAt.of_insert`). So a checkpoint is finalized
from the start, and a reading that is late by no more than the window is out of
its reach.
-/

namespace Metering

variable {σ : Type}

/-- Readings around an instant that have settled still have when another one comes in. -/
theorem ReadingStore.SettledAt.of_insert {store later : ReadingStore σ} {id : SourceId}
    {reading : Reading σ} {window : Span} {now time : Instant}
    (settled : store.SettledAt id window now time) (inserted : store.insert reading = .ok later) :
    later.SettledAt id window now time := by
  obtain ⟨before, after, brackets, old⟩ := settled
  have kept : ∀ other, store.Carries id .cumulativeEnergy other →
      later.Carries id .cumulativeEnergy other :=
    fun other held => (carries_of_insert inserted ..).2 (Or.inl held)
  exact settledAt_of_carries (kept before brackets.carries_before)
    (kept after brackets.carries_after) brackets.before_le brackets.le_after old

namespace Checkpoint

/-- What a checkpoint of a source under some settings stands on, whatever its counter is. -/
structure Footing (checkpoint : Checkpoint σ) (database : Database σ) (now : Instant)
    (source : Source σ) (settings : CacheSettings) : Prop where
  /-- The catalog has the source. -/
  defined : database.catalog.get? checkpoint.source = some source
  /-- The counter of the source is to be kept. -/
  asked : source.cache = some settings
  /-- The checkpoint is on the grid of the source. -/
  onGrid : (source.grid settings).Has checkpoint.instant
  /-- The readings around it have settled. -/
  settled : database.readings.SettledAt checkpoint.source settings.window now checkpoint.instant

/-- A checkpoint stands on something under the settings of its source. -/
def HasFooting (database : Database σ) (now : Instant) (checkpoint : Checkpoint σ) : Prop :=
  ∃ source settings, checkpoint.Footing database now source settings

variable {database after : Database σ} {now : Instant} {checkpoint : Checkpoint σ}

/-- A backed checkpoint stands on what backs it. -/
theorem hasFooting_of_isBacked [Scalar σ] {cache : CheckpointCache σ}
    (backed : cache.IsBacked database now checkpoint) : checkpoint.HasFooting database now := by
  obtain ⟨source, settings, backing⟩ := backed
  have asked := ((cache.settingsFor?_eq_some_iff source settings).1 backing.kept).2.2
  exact ⟨source, settings, backing.defined, asked, backing.onGrid, backing.settled⟩

/-- What a checkpoint stands on lasts as time goes on. -/
theorem HasFooting.later (footing : checkpoint.HasFooting database now) {later : Instant}
    (le : now ≤ later) : checkpoint.HasFooting database later := by
  obtain ⟨source, settings, footing⟩ := footing
  exact ⟨source, settings, { footing with settled := footing.settled.later le }⟩

/-- What a checkpoint stands on lasts as readings come in. -/
theorem HasFooting.insert (footing : checkpoint.HasFooting database now) {reading : Reading σ}
    (inserted : database.readings.insert reading = .ok after.readings)
    (unchanged : after.catalog = database.catalog) : checkpoint.HasFooting after now := by
  obtain ⟨source, settings, footing⟩ := footing
  exact ⟨source, settings, unchanged ▸ footing.defined, footing.asked, footing.onGrid,
    footing.settled.of_insert inserted⟩

/-- A checkpoint of a source lies on the grid of the source, between two of its readings. Both are
older than the window, so the checkpoint is finalized and a reading that is no older comes after
them. -/
structure StandsOn (checkpoint : Checkpoint σ) (store : ReadingStore σ) (now : Instant)
    (source : Source σ) (settings : CacheSettings) (before after : Reading σ) : Prop where
  /-- The checkpoint is whole intervals after the creation of the source. -/
  onGrid : ∃ count : Nat,
    checkpoint.instant.nanos = source.createdAt.nanos + count * settings.interval.nanos
  /-- The store holds the earlier reading. -/
  first : store.Carries source.id .cumulativeEnergy before
  /-- The store holds the later reading. -/
  second : store.Carries source.id .cumulativeEnergy after
  /-- The checkpoint is no earlier than the earlier reading. -/
  before_le : before.instant ≤ checkpoint.instant
  /-- The checkpoint is no later than the later reading. -/
  le_after : checkpoint.instant ≤ after.instant
  /-- The later reading is older than the window. -/
  old : settings.window < now.since after.instant
  /-- The checkpoint is finalized. -/
  finalized : checkpoint.maturity now settings.window = .finalized
  /-- A reading in the window comes after the later one. -/
  apart : ∀ reading : Reading σ,
    now.since reading.instant ≤ settings.window → after.instant < reading.instant

/-- What a checkpoint stands on are readings. -/
theorem Footing.exists_standsOn {source : Source σ} {settings : CacheSettings}
    (footing : checkpoint.Footing database now source settings)
    (own : checkpoint.source = source.id) :
    ∃ before after, checkpoint.StandsOn database.readings now source settings before after := by
  obtain ⟨before, after, brackets, old⟩ := footing.settled
  rw [own] at brackets
  have older : settings.window < now.since checkpoint.instant :=
    Instant.lt_since_of_le old (Int.le_refl _) brackets.le_after
  have finalized : checkpoint.maturity now settings.window = .finalized := if_pos older
  have apart : ∀ reading : Reading σ,
      now.since reading.instant ≤ settings.window → after.instant < reading.instant := by
    intro reading recent
    by_contra notLater
    have late : reading.instant ≤ after.instant := Int.not_lt.1 notLater
    exact absurd recent (Int.not_le.2 (Instant.lt_since_of_le old (Int.le_refl _) late))
  exact ⟨before, after, footing.onGrid, brackets.carries_before, brackets.carries_after,
    brackets.before_le, brackets.le_after, old, finalized, apart⟩

end Checkpoint

/-- A reading that is taken in is one of the source it is taken in for. -/
def CacheAction.IsOwn : CacheAction σ → Prop
  | .ingest source reading => reading.source = source.id
  | _ => True

instance (action : CacheAction σ) : Decidable action.IsOwn :=
  match action with
  | .ingest source reading => decEq reading.source source.id
  | .counterAt _ _ | .commit _ | .evict _ | .setNow _ => isTrue trivial

namespace CacheSession

variable [Scalar σ] {catalog : Catalog σ} {session : CacheSession σ (Database σ)}

/-- The definitions are those of a catalog, and every checkpoint stands on something. -/
structure IsSettled (catalog : Catalog σ) (session : CacheSession σ (Database σ)) : Prop where
  /-- The definitions are those of the catalog. -/
  definitions : session.engine.progress.world.catalog = catalog
  /-- Whatever is kept or offered stands on something. -/
  footing : session.Everywhere
    (Checkpoint.HasFooting session.engine.progress.world session.now)

/-- A lookup over a database moves nothing but the counters, and offers what it comes to. -/
theorem exists_step_counterAt_eq (session : CacheSession σ (Database σ)) (source : Source σ)
    (time : Instant) : ∃ tally, session.step Database.serve (.counterAt source time) =
      ⟨{ session.engine with progress := { session.engine.progress with tally := tally } },
        (((session.engine.cache.counterAt source time session.now).result
          session.engine.progress.world).toOption.bind CounterRead.pending).toList ++
            session.offered⟩ := by
  have nothing : Limits.none.check session.engine.progress.elapsed = none := rfl
  have lookups := CheckpointCache.uses_counterAt session.engine.cache source time session.now
  have same := Engine.perform_eq nothing lookups
  let events := (session.engine.cache.counterAt source time session.now).events
    session.engine.progress.world
  exists events.foldl Tally.add session.engine.progress.tally
  unfold step
  dsimp only
  rw [same]

/-- A lookup leaves a session settled. -/
theorem IsSettled.counterAt (settled : session.IsSettled catalog) {source : Source σ}
    (defined : catalog.get? source.id = some source) (time : Instant) :
    (session.step Database.serve (.counterAt source time)).IsSettled catalog := by
  obtain ⟨tally, same⟩ := exists_step_counterAt_eq session source time
  rw [same]
  refine ⟨settled.definitions, settled.footing.offering ?_ fun read checkpoint came pending => ?_⟩
  · rfl
  · have there : session.engine.progress.world.catalog.get? source.id = some source := by
      rw [settled.definitions]
      exact defined
    exact Checkpoint.hasFooting_of_isBacked
      (CheckpointCache.isBacked_of_pending there came pending)

/-- A reading of a source that is taken in leaves a session settled. -/
theorem IsSettled.ingest (settled : session.IsSettled catalog) (valid : catalog.IsValid)
    {source : Source σ} (defined : catalog.get? source.id = some source) {reading : Reading σ}
    (own : reading.source = source.id) :
    (session.step Database.serve (.ingest source reading)).IsSettled catalog := by
  have checked := (valid source.id source defined).2
  change (⟨(session.engine.takeIn Database.serve
    (session.engine.cache.ingest source reading session.now)).2, session.offered⟩ :
      CacheSession σ (Database σ)).IsSettled catalog
  cases inserted : session.engine.progress.world.readings.insert reading with
  | error error =>
    rw [Engine.takeIn_ingest_of_error inserted]
    exact settled
  | ok readings =>
    let after : Database σ := { session.engine.progress.world with readings := readings }
    have stored : session.engine.progress.world.readings.insert reading = .ok after.readings :=
      inserted
    have there : after.catalog.get? source.id = some source := settled.definitions ▸ defined
    have lasting : session.Everywhere (Checkpoint.HasFooting after session.now) :=
      settled.footing.imp fun _ footing => footing.insert stored rfl
    obtain ⟨_, final, result, _, each⟩ :=
      session.engine.cache.exists_upkeep session.now checked stored own
    rw [Engine.takeIn_ingest inserted result]
    refine ⟨settled.definitions, fun id checkpoint member => ?_, lasting.offered⟩
    rcases each id checkpoint member with ⟨rfl, proposed⟩ | ⟨held, _⟩
    · obtain ⟨same, backed⟩ := proposed.isBacked checked there stored own
      exact ⟨same, Checkpoint.hasFooting_of_isBacked backed⟩
    · exact lasting.kept id checkpoint held

/-- Every action leaves a session settled. -/
theorem IsSettled.step (settled : session.IsSettled catalog) (valid : catalog.IsValid)
    {action : CacheAction σ} (obeys : session.Obeys catalog.get? action) (own : action.IsOwn) :
    (session.step Database.serve action).IsSettled catalog := by
  cases action with
  | ingest source reading => exact settled.ingest valid obeys own
  | counterAt source time => exact settled.counterAt obeys time
  | commit batch => exact ⟨settled.definitions, settled.footing.commit obeys⟩
  | evict id => exact ⟨settled.definitions, settled.footing.evict id⟩
  | setNow now =>
    have lasting : session.Everywhere (Checkpoint.HasFooting session.engine.progress.world now) :=
      settled.footing.imp fun _ footing => footing.later obeys
    exact ⟨settled.definitions, lasting.kept, lasting.offered⟩

/-- A session stays settled. -/
theorem IsSettled.run (settled : session.IsSettled catalog) (valid : catalog.IsValid)
    {actions : List (CacheAction σ)}
    (obeys : session.AllAlong Database.serve (Obeys catalog.get?) actions)
    (own : ∀ action ∈ actions, action.IsOwn) :
    (session.run Database.serve actions).IsSettled catalog :=
  run_induction (IsSettled catalog) (fun _ _ before keeps => before.step valid keeps.1 keeps.2)
    settled (obeys.and own)

/-- With validated definitions and a clock that goes forward, every checkpoint that a session keeps
stands on readings of its source that have settled, in whatever order the readings came in, whatever
their counters are and whatever was kept or forgotten in between. -/
theorem standsOn_run {catalog : Catalog σ} (valid : catalog.IsValid) (config : Config)
    (readings : ReadingStore σ) (now : Instant) {actions : List (CacheAction σ)}
    (obeys : (new config ⟨readings, catalog⟩ now).AllAlong Database.serve (Obeys catalog.get?)
      actions)
    (own : ∀ action ∈ actions, action.IsOwn) :
    let session := (new config ⟨readings, catalog⟩ now).run Database.serve actions
    ∀ id, ∀ checkpoint ∈ (session.seriesOf id).toList,
      ∃ source settings before after,
        catalog.get? id = some source ∧ source.cache = some settings ∧
        checkpoint.StandsOn session.engine.progress.world.readings session.now source settings
          before after := by
  intro session id checkpoint member
  have start : (new config ⟨readings, catalog⟩ now).IsSettled catalog := ⟨rfl, .new config _ now⟩
  have settled : session.IsSettled catalog := start.run valid obeys own
  obtain ⟨rfl, source, settings, footing⟩ :=
    settled.footing.kept id checkpoint (List.mem_reverse.1 member)
  have defined := footing.defined
  rw [settled.definitions] at defined
  obtain ⟨before, after, stands⟩ := footing.exists_standsOn (valid _ source defined).1.symm
  exact ⟨source, settings, before, after, defined, footing.asked, stands⟩

/-- On the day of the hourly meter the checkpoint that the lookup offered stands on the readings of
its first two hours, also after the late one has come in. -/
theorem standsOn_run_hourlyActions :
    hourlyCatalog.IsValid ∧
    hourlySession.AllAlong Database.serve (Obeys hourlyCatalog.get?)
      (earlyActions ++ lateActions) ∧
    (∀ action ∈ earlyActions ++ lateActions, action.IsOwn) ∧
    let session := hourlySession.run Database.serve (earlyActions ++ lateActions)
    hourlyCheckpoint ∈ (session.seriesOf "meter").toList ∧
    ∃ source settings before after,
      hourlyCatalog.get? "meter" = some source ∧ source.cache = some settings ∧
      hourlyCheckpoint.StandsOn session.engine.progress.world.readings session.now source settings
        before after := by
  have own : ∀ action ∈ earlyActions ++ lateActions, action.IsOwn := by decide
  have member : hourlyCheckpoint ∈ ((hourlySession.run Database.serve
      (earlyActions ++ lateActions)).seriesOf "meter").toList := by decide +kernel
  exact ⟨isValid_hourlyCatalog, obeys_hourlyActions, own, member,
    standsOn_run isValid_hourlyCatalog .standard .empty .epoch obeys_hourlyActions own "meter"
      hourlyCheckpoint member⟩

end CacheSession

end Metering
