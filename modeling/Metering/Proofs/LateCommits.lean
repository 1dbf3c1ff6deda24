import Metering.Proofs.Arrival
import Metering.Proofs.Settled
import Metering.Proofs.Transparency

/-!
# Checkpoints that are kept late

A lookup offers a checkpoint and whoever asked keeps it later, when readings may
have come in that change its counter. Where late data is revised and the counter
never falls this does no harm (`valueAt_of_late_commits`): a reading that changes
the counter of an offer writes a checkpoint at the same instant first, as no
candidate is refused, and an offer whose place is taken is not kept
(`MayCome.upkeep`).
-/

namespace Metering

namespace CheckpointCache

section Commits

variable {σ : Type} [Scalar σ] {cache : CheckpointCache σ} {database : Database σ} {now : Instant}

omit [Scalar σ] in
/-- The series of a source has a checkpoint at an instant. -/
def Holds (cache : CheckpointCache σ) (id : SourceId) (time : Instant) : Prop :=
  ∃ checkpoint ∈ (cache.seriesOf id).entries, checkpoint.instant = time

/-- Keeping checkpoints frees no place. -/
theorem Holds.commit {id : SourceId} {time : Instant} (holds : cache.Holds id time)
    (batch : List (Checkpoint σ)) : (cache.commit batch).1.Holds id time := by
  obtain ⟨checkpoint, member, same⟩ := holds
  exact ⟨checkpoint, mem_commit_of_mem batch member, same⟩

/-- A checkpoint that is added had its place free before. -/
theorem not_holds_of_mem_commit {batch : List (Checkpoint σ)} {checkpoint : Checkpoint σ}
    {id : SourceId} (member : checkpoint ∈ ((cache.commit batch).1.seriesOf id).entries)
    (added : checkpoint ∉ (cache.seriesOf id).entries) : ¬ cache.Holds id checkpoint.instant := by
  rintro ⟨other, there, same⟩
  have stays := mem_commit_of_mem batch there
  have equal : other = checkpoint := Timeline.eq_of_instant_eq _ stays member same
  exact added (equal ▸ there)

/-- A checkpoint that was offered is backed, or will find its place taken. -/
def MayCome (cache : CheckpointCache σ) (database : Database σ) (now : Instant)
    (checkpoint : Checkpoint σ) : Prop :=
  cache.IsBacked database now checkpoint ∨ cache.Holds checkpoint.source checkpoint.instant

/-- An offer may still come when other checkpoints have been kept. -/
theorem MayCome.commit {checkpoint : Checkpoint σ} (may : cache.MayCome database now checkpoint)
    (batch : List (Checkpoint σ)) : (cache.commit batch).1.MayCome database now checkpoint :=
  may.imp (fun backed => backed.of_config_eq (config_commit batch cache))
    fun holds => holds.commit batch

/-- A cache stays sound with checkpoints that may come. -/
theorem IsSound.commit_of_mayCome (sound : cache.IsSound database now)
    {batch : List (Checkpoint σ)}
    (each : ∀ checkpoint ∈ batch, cache.MayCome database now checkpoint) :
    (cache.commit batch).1.IsSound database now := by
  have config := config_commit batch cache
  intro id checkpoint member
  by_cases there : checkpoint ∈ (cache.seriesOf id).entries
  · obtain ⟨own, backed⟩ := sound id checkpoint there
    exact ⟨own, backed.of_config_eq config⟩
  · obtain ⟨added, rfl⟩ := (mem_commit member).resolve_left there
    have free := not_holds_of_mem_commit member there
    have backed := (each checkpoint added).resolve_right free
    exact ⟨rfl, backed.of_config_eq config⟩

end Commits

/-! ## Readings -/

/-- A stored reading can be kept pace with: late data is revised, the counter of the source never
falls, and the reading affects no more grid instants than may be brought up to date at once. -/
structure KeepsPace (cache : CheckpointCache Rat) (database after : Database Rat)
    (source : Source Rat) (reading : Reading Rat) (now : Instant) : Prop where
  /-- Late data is revised. -/
  revises : cache.config.lateDataPolicy = .revise
  /-- The definitions are valid. -/
  valid : database.catalog.IsValid
  /-- The source is one of them. -/
  defined : database.catalog.get? source.id = some source
  /-- The reading is one of the source. -/
  own : reading.source = source.id
  /-- The reading is stored. -/
  inserted : database.readings.insert reading = .ok after.readings
  /-- The definitions stay. -/
  unchanged : after.catalog = database.catalog
  /-- The counter never falls. -/
  steady : after.readings.NeverFalls source.id .cumulativeEnergy
  /-- The instants affected are not too many. -/
  room : ∀ settings, cache.CallsForUpkeep source settings reading now →
    (database.affected source settings reading now).ncard ≤ cache.config.maxBoundariesPerIngest

namespace KeepsPace

variable {cache : CheckpointCache Rat} {database after : Database Rat} {source : Source Rat}
  {reading : Reading Rat} {now : Instant} {settings : CacheSettings}

/-- A source whose counter is kept has a regular grid. -/
theorem regular (pace : cache.KeepsPace database after source reading now)
    (calls : cache.CallsForUpkeep source settings reading now) :
    (source.grid settings).IsRegular :=
  isRegular_of_settingsFor? calls.1 (pace.valid source.id source pace.defined).2

/-- A checkpoint is proposed in place of each one whose counter may have changed. -/
theorem covered (pace : cache.KeepsPace database after source reading now)
    (calls : cache.CallsForUpkeep source settings reading now) {checkpoint : Checkpoint Rat}
    (onGrid : (source.grid settings).Has checkpoint.instant)
    (inside : ((database.readings.around source.id reading).settledWindow settings.window
      now).contains checkpoint.instant) :
    ∃ candidate ∈ cache.candidates source settings after.readings reading now,
      candidate.checkpoint.instant = checkpoint.instant := by
  have few : {other ∈ database.affected source settings reading now |
      other < checkpoint.instant}.ncard < cache.config.maxBoundariesPerIngest :=
    Nat.lt_of_lt_of_le (Grid.ncard_before_lt ⟨onGrid, inside⟩) (pace.room settings calls)
  unfold Database.affected at few
  rw [← ReadingStore.around_of_insert pace.inserted] at inside few
  exact exists_candidate_of_revise pace.revises (pace.regular calls) ⟨onGrid, inside⟩ few

/-- A backed checkpoint that is spared stays backed. -/
theorem isBacked_of_spared (pace : cache.KeepsPace database after source reading now)
    {checkpoint : Checkpoint Rat} (backed : cache.IsBacked database now checkpoint)
    (spared : checkpoint.source = source.id →
      cache.Spares source after.readings reading now checkpoint) :
    cache.IsBacked after now checkpoint := by
  obtain ⟨other, settings, backing⟩ := backed
  have defined : database.catalog.get? reading.source = some source := pace.own ▸ pace.defined
  exact ⟨other, settings, backing.spared defined pace.own.symm pace.inserted pace.unchanged
    (fun _ _ calls backing inside => pace.covered calls backing.onGrid inside) spared⟩

/-- No candidate is refused. -/
theorem accepted_eq (pace : cache.KeepsPace database after source reading now)
    (sound : cache.IsSound database now)
    (calls : cache.CallsForUpkeep source settings reading now) :
    (cache.review source settings after.readings reading now).accepted =
      ((cache.candidates source settings after.readings reading now).map
        Candidate.checkpoint).reverse := by
  refine (review_of_neverFalls (pace.regular calls) pace.inserted pace.own calls.2.1 calls.2.2
    pace.steady fun checkpoint there apart => ?_).1
  obtain ⟨own, backed⟩ := sound source.id checkpoint there
  have spared : cache.Spares source after.readings reading now checkpoint := by
    intro other others
    obtain rfl : other = settings := Option.some_inj.1 (others.1.symm.trans calls.1)
    exact apart
  obtain ⟨_, _, backing⟩ := pace.isBacked_of_spared backed fun _ => spared
  exact own ▸ backing.agrees

/-- Bringing a series up to date frees no place. -/
theorem holds_of_holds (pace : cache.KeepsPace database after source reading now)
    (sound : cache.IsSound database now)
    (calls : cache.CallsForUpkeep source settings reading now) {id : SourceId} {time : Instant}
    (holds : cache.Holds id time) :
    (cache.withSeries source.id (cache.maintained source settings after.readings reading
      now)).Holds id time := by
  unfold Holds
  rw [seriesOf_withSeries]
  split
  · rename_i here
    subst here
    obtain ⟨other, there, rfl⟩ := holds
    exact exists_mem_maintained_of_mem (pace.accepted_eq sound calls) there
  · exact holds

/-- An offer may still come once a series has been brought up to date: it is spared, or a candidate
has taken its place. -/
theorem mayCome_of_calls (pace : cache.KeepsPace database after source reading now)
    (sound : cache.IsSound database now)
    (calls : cache.CallsForUpkeep source settings reading now) {checkpoint : Checkpoint Rat}
    (may : cache.MayCome database now checkpoint) :
    (cache.withSeries source.id (cache.maintained source settings after.readings reading
      now)).MayCome after now checkpoint := by
  rcases may with backed | holds
  · by_cases taken : checkpoint.source = source.id ∧
        ∃ candidate ∈ cache.candidates source settings after.readings reading now,
          candidate.checkpoint.instant = checkpoint.instant
    · obtain ⟨here, candidate, proposed, same⟩ := taken
      refine Or.inr ?_
      unfold Holds
      rw [seriesOf_withSeries, if_pos here.symm, ← same]
      exact exists_mem_maintained_of_candidate (pace.accepted_eq sound calls) proposed
    · have spared : checkpoint.source = source.id →
          cache.Spares source after.readings reading now checkpoint := by
        intro here other others candidate proposed same
        obtain rfl : other = settings := Option.some_inj.1 (others.1.symm.trans calls.1)
        exact taken ⟨here, candidate, proposed, same⟩
      exact Or.inl ((pace.isBacked_of_spared backed spared).of_config_eq rfl)
  · exact Or.inr (pace.holds_of_holds sound calls holds)

/-- The upkeep after a reading that can be kept pace with leaves a sound cache sound, and an offer
that may come may still come. -/
theorem upkeep (pace : cache.KeepsPace database after source reading now)
    (sound : cache.IsSound database now) :
    ∃ written final, (cache.upkeep source reading now).result after = .ok (written, final) ∧
      final.config = cache.config ∧ final.IsSound after now ∧
      ∀ checkpoint, cache.MayCome database now checkpoint →
        final.MayCome after now checkpoint := by
  have defined : database.catalog.get? reading.source = some source := pace.own ▸ pace.defined
  obtain ⟨written, final, result, config, kept⟩ := (isSoundFor_true_iff.2 sound).upkeep pace.valid
    defined pace.inserted pace.unchanged fun _ calls _ _ _ backing inside =>
      pace.covered calls backing.onGrid inside
  refine ⟨written, final, result, config, isSoundFor_true_iff.1 kept, fun checkpoint may => ?_⟩
  by_cases calls : ∃ settings, cache.CallsForUpkeep source settings reading now
  · obtain ⟨settings, calls⟩ := calls
    have replaced := (result_upkeep_of_calls calls (pace.regular calls) pace.inserted pace.own).1
    obtain rfl : final = _ := congrArg Prod.snd (Except.ok.inj (result.symm.trans replaced))
    exact pace.mayCome_of_calls sound calls may
  · have idle : ∀ settings, ¬ cache.CallsForUpkeep source settings reading now :=
      fun settings does => calls ⟨settings, does⟩
    rw [upkeep_eq_of_not_calls idle] at result
    obtain rfl : cache = final := congrArg Prod.snd (Except.ok.inj result)
    exact may.imp_left fun backed =>
      pace.isBacked_of_spared backed fun _ settings does => absurd does (idle settings)

end KeepsPace

end CheckpointCache

/-! ## Sessions -/

namespace CacheSession

open Engine (risingReadings isRising_risingReadings)

/-- A reading that is taken in is one of its source, leaves a counter that never falls, and affects
no more grid instants than may be brought up to date at once. Nothing is forgotten. -/
def IsSteady (session : CacheSession Rat (Database Rat)) : CacheAction Rat → Prop
  | .ingest source reading =>
    let cache := session.engine.cache
    let database := session.engine.progress.world
    reading.source = source.id ∧
      (∀ later, database.readings.insert reading = .ok later →
        later.NeverFalls source.id .cumulativeEnergy) ∧
      ∀ settings, cache.CallsForUpkeep source settings reading session.now →
        (database.affected source settings reading session.now).ncard ≤
          cache.config.maxBoundariesPerIngest
  | .evict _ => False
  | _ => True

/-- Late data is revised, every checkpoint is backed, and every offer may come. -/
structure IsCurrent (catalog : Catalog Rat) (session : CacheSession Rat (Database Rat)) :
    Prop where
  /-- The definitions are those of the catalog. -/
  definitions : session.engine.progress.world.catalog = catalog
  /-- Late data is revised. -/
  revises : session.engine.cache.config.lateDataPolicy = .revise
  /-- What is kept is backed. -/
  sound : session.engine.cache.IsSound session.engine.progress.world session.now
  /-- What was offered may come. -/
  offers : ∀ checkpoint ∈ session.offered,
    session.engine.cache.MayCome session.engine.progress.world session.now checkpoint

variable {catalog : Catalog Rat} {session : CacheSession Rat (Database Rat)}

/-- A reading that is taken in leaves a session current. -/
theorem IsCurrent.ingest (current : session.IsCurrent catalog) (valid : catalog.IsValid)
    {source : Source Rat} (defined : catalog.get? source.id = some source) {reading : Reading Rat}
    (steady : session.IsSteady (.ingest source reading)) :
    (session.step Database.serve (.ingest source reading)).IsCurrent catalog := by
  obtain ⟨own, rising, room⟩ := steady
  change (⟨(session.engine.takeIn Database.serve
    (session.engine.cache.ingest source reading session.now)).2, session.offered⟩ :
      CacheSession Rat (Database Rat)).IsCurrent catalog
  cases inserted : session.engine.progress.world.readings.insert reading with
  | error error =>
    rw [Engine.takeIn_ingest_of_error inserted]
    exact current
  | ok readings =>
    let after : Database Rat := { session.engine.progress.world with readings := readings }
    have pace : session.engine.cache.KeepsPace session.engine.progress.world after source reading
        session.now :=
      ⟨current.revises, current.definitions ▸ valid, current.definitions ▸ defined, own, inserted,
        rfl, rising readings inserted, room⟩
    obtain ⟨written, final, result, config, sound, offers⟩ := pace.upkeep current.sound
    rw [Engine.takeIn_ingest inserted result]
    exact ⟨current.definitions, config ▸ current.revises, sound,
      fun checkpoint member => offers checkpoint (current.offers checkpoint member)⟩

/-- A lookup leaves a session current. -/
theorem IsCurrent.counterAt (current : session.IsCurrent catalog) {source : Source Rat}
    (defined : catalog.get? source.id = some source) (time : Instant) :
    (session.step Database.serve (.counterAt source time)).IsCurrent catalog := by
  obtain ⟨tally, same⟩ := exists_step_counterAt_eq session source time
  rw [same]
  refine ⟨current.definitions, current.revises, current.sound, fun checkpoint member => ?_⟩
  rcases List.mem_append.1 member with fresh | before
  · have there : session.engine.progress.world.catalog.get? source.id = some source :=
      current.definitions ▸ defined
    cases came : (session.engine.cache.counterAt source time session.now).result
        session.engine.progress.world with
    | error error =>
      rw [came] at fresh
      cases fresh
    | ok read =>
      rw [came] at fresh
      exact Or.inl (CheckpointCache.isBacked_of_pending there came (Option.mem_toList.1 fresh))
  · exact current.offers checkpoint before

/-- Every action leaves a session current. -/
theorem IsCurrent.step (current : session.IsCurrent catalog) (valid : catalog.IsValid)
    {action : CacheAction Rat} (obeys : session.Obeys catalog.get? action)
    (steady : session.IsSteady action) :
    (session.step Database.serve action).IsCurrent catalog := by
  cases action with
  | ingest source reading => exact current.ingest valid obeys steady
  | counterAt source time => exact current.counterAt obeys time
  | commit batch =>
    have each := fun checkpoint member => current.offers checkpoint (obeys checkpoint member)
    exact ⟨current.definitions,
      (CheckpointCache.config_commit batch session.engine.cache) ▸ current.revises,
      current.sound.commit_of_mayCome each,
      fun checkpoint member => (current.offers checkpoint member).commit batch⟩
  | evict id => exact steady.elim
  | setNow now =>
    have later : ∀ checkpoint ∈ session.offered,
        session.engine.cache.MayCome session.engine.progress.world now checkpoint :=
      fun checkpoint member => (current.offers checkpoint member).imp_left fun backed => by
        obtain ⟨source, settings, backing⟩ := backed
        exact ⟨source, settings, backing.later obeys⟩
    have sound := (CheckpointCache.isSoundFor_true_iff.2 current.sound).later obeys
    exact ⟨current.definitions, current.revises, CheckpointCache.isSoundFor_true_iff.1 sound, later⟩

/-- Where late data is revised, the counters never fall and no reading affects more grid instants
than may be brought up to date at once, every checkpoint that is kept has the counter that the
readings give at its instant, in whatever order readings came in, counters were looked up and offers
were kept, however late and however often. -/
theorem valueAt_of_late_commits {catalog : Catalog Rat} (valid : catalog.IsValid) {config : Config}
    (revises : config.lateDataPolicy = .revise) (readings : ReadingStore Rat) (now : Instant)
    {actions : List (CacheAction Rat)}
    (along : (new config ⟨readings, catalog⟩ now).AllAlong Database.serve (fun session action =>
      session.Obeys catalog.get? action ∧ session.IsSteady action) actions) :
    let session := (new config ⟨readings, catalog⟩ now).run Database.serve actions
    ∀ id, ∀ checkpoint ∈ (session.seriesOf id).toList,
      checkpoint.source = id ∧
      (session.engine.perform Database.serve .none
        (Bracket.valueAt id checkpoint.instant .cumulativeEnergy)).1 = .ok checkpoint.energy := by
  intro session id checkpoint member
  have start : (new config ⟨readings, catalog⟩ now).IsCurrent catalog :=
    ⟨rfl, revises, CheckpointCache.isSoundFor_true_iff.1
      (CheckpointCache.isSoundFor_new config _ _ now),
      fun _ member => absurd member List.not_mem_nil⟩
  have current : session.IsCurrent catalog := run_induction (IsCurrent catalog)
    (fun _ _ before keeps => before.step valid keeps.1 keeps.2) start along
  obtain ⟨rfl, _, _, backing⟩ := current.sound id checkpoint (List.mem_reverse.1 member)
  have idle : Limits.none.check session.engine.progress.elapsed = none := rfl
  rw [Engine.perform_eq idle (Bracket.uses_valueAt ..), Bracket.result_valueAt]
  exact ⟨rfl, backing.agrees⟩

/-- A lookup between the first and the last of three readings offers a checkpoint, the one in the
middle comes in, and then the offer is to be kept. -/
def overtakenActions : List (CacheAction Rat) :=
  [.ingest hourlyMeter (hourlyReading 0 0), .ingest hourlyMeter (hourlyReading 190 8),
    .setNow (atMinute 1440), .counterAt hourlyMeter (atMinute 75),
    .ingest hourlyMeter (hourlyReading 90 3), .commit [⟨"meter", atMinute 60, 48 / 19, atMinute 1440⟩]]

/-- One of the three readings can be taken in by a session that has others of them, if a walk along
the grid tells that it affects few enough instants. -/
theorem isSteady_of_mem_risingReadings {session : CacheSession Rat (Database Rat)}
    {reading : Reading Rat} (member : reading ∈ risingReadings)
    (known : ∀ other ∈ (session.engine.progress.world.readings.timeline hourlyMeter.id).entries,
      other ∈ risingReadings)
    (few : ((hourlyMeter.grid ⟨3600, 60⟩).within
      ((session.engine.progress.world.readings.around hourlyMeter.id reading).settledWindow
        (CacheSettings.window ⟨3600, 60⟩) session.now)
          (session.engine.cache.config.maxBoundariesPerIngest + 1)).length ≤
            session.engine.cache.config.maxBoundariesPerIngest) :
    session.IsSteady (.ingest hourlyMeter reading) := by
  refine ⟨isRising_risingReadings.own reading member, fun later inserted => ?_,
    fun settings calls => ?_⟩
  · apply isRising_risingReadings.neverFalls
    intro other there
    rcases (ReadingStore.mem_timeline_of_insert inserted _ _).1 there with held | ⟨_, rfl⟩
    · exact known other held
    · exact member
  · have asks := ((CheckpointCache.settingsFor?_eq_some_iff ..).1 calls.1).2.2
    obtain rfl : ⟨3600, 60⟩ = settings := Option.some_inj.1 asks
    exact Grid.ncard_instantsIn_le (hourlyMeter.isRegular_grid rfl rfl rfl) few

/-- The offer comes too late to be kept: the checkpoint at its instant has the counter that all three
readings give, which is less. -/
theorem valueAt_overtakenActions :
    let start : CacheSession Rat (Database Rat) :=
      new ⟨true, .revise, none, 4⟩ ⟨.empty, hourlyCatalog⟩ .epoch
    let session := start.run Database.serve overtakenActions
    start.AllAlong Database.serve (fun session action =>
      session.Obeys hourlyCatalog.get? action ∧ session.IsSteady action) overtakenActions ∧
    session.offered = [⟨"meter", atMinute 60, 48 / 19, atMinute 1440⟩] ∧
    (session.engine.perform Database.serve .none
      (Bracket.valueAt "meter" (atMinute 60) .cumulativeEnergy)).1 = .ok 2 := by
  intro start session
  have forward : Instant.epoch ≤ atMinute 1440 := by decide
  have offered : ∀ checkpoint ∈ [⟨"meter", atMinute 60, 48 / 19, atMinute 1440⟩],
      checkpoint ∈ (start.run Database.serve (overtakenActions.take 5)).offered := by
    decide +kernel
  have along : start.AllAlong Database.serve (fun session action =>
      session.Obeys hourlyCatalog.get? action ∧ session.IsSteady action) overtakenActions := by
    refine ⟨⟨rfl, isSteady_of_mem_risingReadings ?_ ?_ ?_⟩,
      ⟨rfl, isSteady_of_mem_risingReadings ?_ ?_ ?_⟩, ⟨forward, trivial⟩, ⟨rfl, trivial⟩,
      ⟨rfl, isSteady_of_mem_risingReadings ?_ ?_ ?_⟩, ⟨offered, trivial⟩, trivial⟩
    all_goals decide +kernel
  have kept : ⟨"meter", atMinute 60, 2, atMinute 1440⟩ ∈ (session.seriesOf "meter").toList := by
    decide +kernel
  exact ⟨along, by decide +kernel, (valueAt_of_late_commits isValid_hourlyCatalog rfl .empty .epoch
    along "meter" _ kept).2⟩

end CacheSession

end Metering
