import Metering.Proofs.Freeze

/-!
# Checkpoints beyond the number allowed

A reading brings up to date at most a configured number of grid instants. Under
a policy that revises, the checkpoints that are then stale are exactly those of
the affected instants beyond that number whose counter the reading has changed
(`mem_maintained_and_not_agrees_iff`): they are neither worked out again nor
dropped.
-/

namespace Metering

variable {σ : Type} [Scalar σ]

namespace Engine

/-- The readings give another counter, or none, at the instant of a checkpoint. -/
def IsStale (engine : Engine σ (Database σ)) (id : SourceId) (checkpoint : Checkpoint σ) : Prop :=
  (engine.perform Database.serve .none
    (Bracket.valueAt id checkpoint.instant .cumulativeEnergy)).1 ≠ .ok checkpoint.energy

variable {engine : Engine σ (Database σ)}

/-- A checkpoint is stale if it does not agree with the readings. -/
theorem isStale_iff (id : SourceId) (checkpoint : Checkpoint σ) :
    engine.IsStale id checkpoint ↔ ¬ engine.progress.world.readings.Agrees id checkpoint := by
  have unlimited : Limits.none.check engine.progress.elapsed = none := rfl
  unfold IsStale
  rw [perform_eq unlimited (Bracket.uses_valueAt ..), Bracket.result_valueAt]
  rfl

end Engine

namespace CheckpointCache

variable {cache : CheckpointCache σ} {source : Source σ} {settings : CacheSettings}
  {store later : ReadingStore σ} {reading : Reading σ} {now : Instant} {checkpoint : Checkpoint σ}

/-- The series holds a checkpoint that does not agree with the readings exactly if it held it before
and its instant is beyond the number that a reading brings up to date. -/
theorem mem_maintained_and_not_agrees_iff (revises : cache.config.lateDataPolicy = .revise)
    (regular : (source.grid settings).IsRegular) (inserted : store.insert reading = .ok later)
    (own : reading.source = source.id) (carries : reading.carries .cumulativeEnergy)
    (older : settings.window < now.since reading.instant)
    (backed : ∀ checkpoint ∈ (cache.seriesOf source.id).entries,
      (source.grid settings).Has checkpoint.instant ∧
        store.SettledAt source.id settings.window now checkpoint.instant ∧
        store.Agrees source.id checkpoint) :
    checkpoint ∈ (cache.maintained source settings later reading now).entries ∧
        ¬ later.Agrees source.id checkpoint ↔
      checkpoint ∈ (cache.seriesOf source.id).entries ∧
        cache.config.maxBoundariesPerIngest ≤
          {other ∈ (source.grid settings).instantsIn
            ((store.around source.id reading).settledWindow settings.window now) |
              other < checkpoint.instant}.ncard ∧
        ¬ later.Agrees source.id checkpoint := by
  rw [← and_assoc, ← ReadingStore.around_of_insert inserted]
  refine and_congr_left fun stale => ⟨fun member => ?_, fun ⟨there, beyond⟩ => ?_⟩
  · rcases mem_maintained member with ⟨candidate, proposed, rfl⟩ | ⟨there, apart⟩
    · exact absurd (agrees_of_mem_candidates regular inserted own carries older proposed).2.2.2 stale
    · obtain ⟨onGrid, settled, agrees⟩ := backed checkpoint there
      refine ⟨there, Nat.not_lt.1 fun few => ?_⟩
      by_cases inside : ((later.around source.id reading).settledWindow settings.window
          now).contains checkpoint.instant
      · obtain ⟨candidate, proposed, same⟩ :=
          exists_candidate_of_revise revises regular ⟨onGrid, inside⟩ few
        exact apart candidate proposed same
      · have unchanged := (settled.insert inserted fun _ _ _ =>
          ReadingStore.around_of_insert inserted ▸ inside).2
        exact stale (unchanged.trans agrees)
  · refine mem_maintained_of_untouched there fun candidate proposed same => ?_
    obtain ⟨time, inside, _, rfl⟩ := (mem_candidates_iff candidate).1 proposed
    have few := ((mem_affected_iff regular time).1 inside).2
    obtain rfl : time = checkpoint.instant := same
    exact Nat.not_lt.2 beyond few

end CheckpointCache

namespace Engine

/-- Storing a reading under a policy that revises succeeds, and the checkpoints that are stale
afterwards are those that were there before at an affected instant beyond the number allowed, if the
reading has changed the counter there. -/
theorem stale_after_ingest_iff {engine : Engine σ (Database σ)} {source : Source σ}
    {settings : CacheSettings} {reading : Reading σ} {later : ReadingStore σ} {now : Instant}
    (kept : engine.cache.settingsFor? source = some settings) (valid : source.validate = .ok ())
    (revises : engine.cache.config.lateDataPolicy = .revise) (own : reading.source = source.id)
    (carries : reading.carries .cumulativeEnergy)
    (inserted : engine.progress.world.readings.insert reading = .ok later)
    (backed : ∀ checkpoint ∈ (engine.cache.seriesOf source.id).entries,
      (source.grid settings).Has checkpoint.instant ∧
        engine.progress.world.readings.SettledAt source.id settings.window now
          checkpoint.instant ∧
        engine.progress.world.readings.Agrees source.id checkpoint) :
    ∃ written final,
      engine.takeIn Database.serve (engine.cache.ingest source reading now) =
        (.ok written, final) ∧
      final.progress.world.readings = later ∧
      ∀ checkpoint,
        checkpoint ∈ (final.cache.seriesOf source.id).entries ∧
            final.IsStale source.id checkpoint ↔
          checkpoint ∈ (engine.cache.seriesOf source.id).entries ∧
            engine.cache.config.maxBoundariesPerIngest ≤
              {other ∈ (source.grid settings).instantsIn
                ((engine.progress.world.readings.around source.id reading).settledWindow
                  settings.window now) | other < checkpoint.instant}.ncard ∧
            final.IsStale source.id checkpoint := by
  have regular := CheckpointCache.isRegular_of_settingsFor? kept valid
  by_cases older : settings.window < now.since reading.instant
  · have stored : engine.progress.world.readings.insert reading =
        .ok { engine.progress.world with readings := later : Database σ }.readings := inserted
    obtain ⟨result, _⟩ := CheckpointCache.result_upkeep_of_calls ⟨kept, carries, older⟩ regular
      stored own
    refine ⟨_, _, takeIn_ingest inserted result, rfl, fun checkpoint => ?_⟩
    rw [isStale_iff, CheckpointCache.seriesOf_withSeries, if_pos rfl]
    exact CheckpointCache.mem_maintained_and_not_agrees_iff revises regular inserted own carries
      older backed
  · have idle : ∀ settings,
        ¬ engine.cache.CallsForUpkeep source settings reading now := by
      intro other calls
      obtain rfl : other = settings := Option.some_inj.1 (calls.1.symm.trans kept)
      exact older calls.2.2
    have result : (engine.cache.upkeep source reading now).result
        { engine.progress.world with readings := later } = .ok (0, engine.cache) := by
      rw [CheckpointCache.upkeep_eq_of_not_calls idle, Attempt.result_pure]
    refine ⟨_, _, takeIn_ingest inserted result, rfl, fun checkpoint => ?_⟩
    have fresh : ∀ checkpoint ∈ (engine.cache.seriesOf source.id).entries,
        later.Agrees source.id checkpoint := by
      intro checkpoint there
      obtain ⟨_, settled, agrees⟩ := backed checkpoint there
      exact (settled.insert inserted fun _ _ does => absurd does older).2.trans agrees
    rw [isStale_iff]
    constructor
    · rintro ⟨there, stale⟩
      exact absurd (fresh checkpoint there) stale
    · rintro ⟨there, _, stale⟩
      exact absurd (fresh checkpoint there) stale

/-- A checkpoint of the hourly meter at a minute, worked out the day after. -/
def hourlyCheckpoint (minute : Nat) (energy : Rat) : Checkpoint Rat :=
  ⟨"meter", atMinute minute, energy, atMinute 1440⟩

/-- Two readings three hours apart. -/
def sparseStore : ReadingStore Rat :=
  ⟨Registry.empty.insert "meter" (.ofList [hourlyReading 0 0, hourlyReading 180 6])⟩

/-- The two readings and a late one. -/
def sparseStoreWithLate : ReadingStore Rat :=
  ⟨sparseStore.timelines.insert "meter" ((sparseStore.timeline "meter").insert (hourlyReading 30 3))⟩

/-- An engine that brings one instant up to date at once, with a checkpoint for every hour between
the two readings. -/
def sparseEngine : Engine Rat (Database Rat) :=
  ⟨⟨⟨true, .revise, none, 1⟩, Registry.empty.insert "meter"
    (.ofList [hourlyCheckpoint 0 0, hourlyCheckpoint 60 2, hourlyCheckpoint 120 4])⟩,
    atMinute 1440, ⟨⟨sparseStore, hourlyCatalog⟩, 0, .zero⟩⟩

/-- The checkpoints of the engine are what its two readings give. -/
theorem backed_sparseEngine : ∀ checkpoint ∈ (sparseEngine.cache.seriesOf hourlyMeter.id).entries,
    (hourlyMeter.grid ⟨3600, 60⟩).Has checkpoint.instant ∧
      sparseStore.SettledAt hourlyMeter.id (CacheSettings.window ⟨3600, 60⟩) (atMinute 1440)
        checkpoint.instant ∧
      sparseStore.Agrees hourlyMeter.id checkpoint := by
  have all : (sparseEngine.cache.seriesOf hourlyMeter.id).entries =
    [hourlyCheckpoint 120 4, hourlyCheckpoint 60 2, hourlyCheckpoint 0 0] := by rfl
  have atTwo : sparseStore.valueAt "meter" (atMinute 120) .cumulativeEnergy = .ok 4 := by
    decide +kernel
  have atOne : sparseStore.valueAt "meter" (atMinute 60) .cumulativeEnergy = .ok 2 := by
    decide +kernel
  have atZero : sparseStore.valueAt "meter" (atMinute 0) .cumulativeEnergy = .ok 0 := by
    decide +kernel
  rw [all]
  intro checkpoint member
  simp only [List.mem_cons, List.not_mem_nil, or_false] at member
  rcases member with rfl | rfl | rfl
  · exact ⟨⟨2, rfl⟩, ⟨hourlyReading 0 0, hourlyReading 180 6, ⟨rfl, rfl⟩, by decide⟩, atTwo⟩
  · exact ⟨⟨1, rfl⟩, ⟨hourlyReading 0 0, hourlyReading 180 6, ⟨rfl, rfl⟩, by decide⟩, atOne⟩
  · exact ⟨⟨0, rfl⟩, ⟨hourlyReading 0 0, hourlyReading 0 0, ⟨rfl, rfl⟩, by decide⟩, atZero⟩

/-- The late reading leaves the checkpoint of the second hour with the counter from before. -/
theorem stale_sparseEngine :
    hourlyCheckpoint 120 4 ∈ ((sparseEngine.takeIn Database.serve
      (sparseEngine.cache.ingest hourlyMeter (hourlyReading 30 3)
        (atMinute 1440))).2.cache.seriesOf hourlyMeter.id).entries ∧
    (sparseEngine.takeIn Database.serve (sparseEngine.cache.ingest hourlyMeter (hourlyReading 30 3)
      (atMinute 1440))).2.IsStale hourlyMeter.id (hourlyCheckpoint 120 4) := by
  have kept : sparseEngine.cache.settingsFor? hourlyMeter = some ⟨3600, 60⟩ := by decide +kernel
  have valid : hourlyMeter.validate = .ok () := rfl
  have inserted : sparseEngine.progress.world.readings.insert (hourlyReading 30 3) =
      .ok sparseStoreWithLate := rfl
  have revises : sparseEngine.cache.config.lateDataPolicy = .revise := rfl
  have own : (hourlyReading 30 3).source = hourlyMeter.id := rfl
  have carries : (hourlyReading 30 3).carries .cumulativeEnergy := rfl
  have backed := backed_sparseEngine
  obtain ⟨written, final, same, stored, stale⟩ := stale_after_ingest_iff kept valid revises own
    carries inserted backed
  rw [same]
  refine (stale (hourlyCheckpoint 120 4)).2 ⟨?_, ?_, ?_⟩
  · have all : (sparseEngine.cache.seriesOf hourlyMeter.id).entries =
      [hourlyCheckpoint 120 4, hourlyCheckpoint 60 2, hourlyCheckpoint 0 0] := by rfl
    rw [all]
    exact List.mem_cons_self
  · have inside : atMinute 60 ∈ {other ∈ (hourlyMeter.grid ⟨3600, 60⟩).instantsIn
        ((sparseStore.around hourlyMeter.id (hourlyReading 30 3)).settledWindow
          (CacheSettings.window ⟨3600, 60⟩) (atMinute 1440)) | other < atMinute 120} :=
      ⟨⟨⟨1, rfl⟩, by decide +kernel⟩, by decide⟩
    exact (Set.ncard_pos (Set.toFinite _)).2 ⟨_, inside⟩
  · have revised : sparseStoreWithLate.valueAt "meter" (atMinute 120) .cumulativeEnergy =
        .ok (24 / 5) := by decide +kernel
    have changed : (.ok (24 / 5) : Except QueryError Rat) ≠ .ok 4 := by decide +kernel
    rw [isStale_iff, stored]
    exact fun agrees => changed (revised.symm.trans agrees)

end Engine

end Metering
