import Metering.Cache.Commit
import Metering.Proofs.Maintenance

/-!
# Checkpoints backed by readings

A checkpoint is backed if its source keeps a counter, the checkpoint sits on
the grid of the source where the readings have settled, and its counter is the
one that the readings give (`Backing`). A cache is sound if it holds nothing
else (`IsSound`), and sound for some checkpoints if these are backed
(`IsSoundFor`). Backing lasts as time goes on, and a reading takes it only from
the checkpoints in the settled part of the gap it splits, so a cache stays sound
if these are all brought up to date (`IsSoundFor.upkeep`).
-/

namespace Metering

variable {σ : Type}

namespace CheckpointCache

/-! ## Series -/

/-- Giving a source a series changes the series of that source and no other. -/
theorem seriesOf_withSeries (cache : CheckpointCache σ) (id other : SourceId)
    (series : Series σ) :
    (cache.withSeries id series).seriesOf other =
      if id = other then series else cache.seriesOf other := by
  unfold seriesOf withSeries
  rw [Registry.get?_insert]
  split
  · rfl
  · rfl

/-- Forgetting the checkpoints of a source leaves those of other sources. -/
theorem seriesOf_evict (cache : CheckpointCache σ) (id other : SourceId) :
    (cache.evict id).seriesOf other = if id = other then .empty else cache.seriesOf other := by
  unfold seriesOf evict
  rw [Registry.get?_erase]
  split
  · rfl
  · rfl

/-- The settings of a source whose counter is kept are its own. -/
theorem settingsFor?_eq_some_iff (cache : CheckpointCache σ) (source : Source σ)
    (settings : CacheSettings) :
    cache.settingsFor? source = some settings ↔
      cache.config.cacheEnabled ∧ source.isLeaf ∧ source.cache = some settings := by
  unfold settingsFor?
  rw [Option.ite_none_right_eq_some, Bool.and_eq_true, and_assoc]

/-- The settings of a source depend on a cache only through its configuration. -/
theorem settingsFor?_of_config_eq {cache other : CheckpointCache σ}
    (same : other.config = cache.config) (source : Source σ) :
    other.settingsFor? source = cache.settingsFor? source := by
  unfold settingsFor?
  rw [same]

variable [Scalar σ]

/-- Keeping a checkpoint changes no setting. -/
theorem config_keep (cache : CheckpointCache σ) (checkpoint : Checkpoint σ) :
    (cache.keep checkpoint).1.config = cache.config := by
  unfold keep
  dsimp only
  split
  · rfl
  · split <;> rfl

/-- A series holds what it held before and perhaps the checkpoint that was to be kept. -/
theorem mem_keep {cache : CheckpointCache σ} {checkpoint other : Checkpoint σ} {id : SourceId}
    (member : other ∈ ((cache.keep checkpoint).1.seriesOf id).entries) :
    other ∈ (cache.seriesOf id).entries ∨ other = checkpoint ∧ checkpoint.source = id := by
  unfold keep at member
  dsimp only at member
  split at member
  · exact Or.inl member
  · split at member
    · rw [seriesOf_withSeries] at member
      split at member
      · rename_i same
        rcases (Timeline.mem_insert ..).1 member with rfl | ⟨there, _⟩
        · exact Or.inr ⟨rfl, same⟩
        · exact Or.inl (same ▸ there)
      · exact Or.inl member
    · exact Or.inl member

/-- Keeping a checkpoint takes none away. -/
theorem mem_keep_of_mem {cache : CheckpointCache σ} {other : Checkpoint σ} {id : SourceId}
    (member : other ∈ (cache.seriesOf id).entries) (checkpoint : Checkpoint σ) :
    other ∈ ((cache.keep checkpoint).1.seriesOf id).entries := by
  unfold keep
  dsimp only
  split
  · exact member
  · rename_i free
    split
    · rw [seriesOf_withSeries]
      split
      · rename_i same
        subst same
        refine (Timeline.mem_insert ..).2 (Or.inr ⟨member, fun here => free ?_⟩)
        have found : (cache.seriesOf checkpoint.source).at? checkpoint.instant = some other :=
          (Timeline.at?_eq_some_iff ..).2 ⟨member, here⟩
        rw [found]
        rfl
      · exact member
    · exact member

/-- Keeping a checkpoint adds it or refuses it, or finds one there. -/
theorem mem_keep_event {cache : CheckpointCache σ} {checkpoint : Checkpoint σ} {event : CacheEvent}
    (came : (cache.keep checkpoint).2 = some event) : event = .created ∨ event = .rejected := by
  unfold keep at came
  dsimp only at came
  split at came
  · cases came
  · split at came
    · exact Or.inl (Option.some_inj.1 came).symm
    · exact Or.inr (Option.some_inj.1 came).symm

/-- Keeping checkpoints changes no setting. -/
theorem config_commit (found : List (Checkpoint σ)) (cache : CheckpointCache σ) :
    (cache.commit found).1.config = cache.config := by
  induction found generalizing cache with
  | nil => rfl
  | cons first rest ih => exact (ih (cache.keep first).1).trans (cache.config_keep first)

/-- A series holds what it held before and some of the checkpoints that were to be kept. -/
theorem mem_commit {found : List (Checkpoint σ)} {cache : CheckpointCache σ}
    {checkpoint : Checkpoint σ} {id : SourceId}
    (member : checkpoint ∈ ((cache.commit found).1.seriesOf id).entries) :
    checkpoint ∈ (cache.seriesOf id).entries ∨ checkpoint ∈ found ∧ checkpoint.source = id := by
  induction found generalizing cache with
  | nil => exact Or.inl member
  | cons first rest ih =>
    rcases ih member with there | ⟨added, same⟩
    · rcases mem_keep there with before | ⟨rfl, same⟩
      · exact Or.inl before
      · exact Or.inr ⟨List.mem_cons_self, same⟩
    · exact Or.inr ⟨List.mem_cons_of_mem first added, same⟩

/-- Keeping checkpoints takes none away. -/
theorem mem_commit_of_mem (found : List (Checkpoint σ)) {cache : CheckpointCache σ}
    {checkpoint : Checkpoint σ} {id : SourceId}
    (member : checkpoint ∈ (cache.seriesOf id).entries) :
    checkpoint ∈ ((cache.commit found).1.seriesOf id).entries := by
  induction found generalizing cache with
  | nil => exact member
  | cons first rest ih => exact ih (mem_keep_of_mem member first)

/-- Keeping checkpoints adds them or refuses them. -/
theorem mem_commit_events {found : List (Checkpoint σ)} {cache : CheckpointCache σ}
    {event : CacheEvent} (member : event ∈ (cache.commit found).2) :
    event = .created ∨ event = .rejected := by
  induction found generalizing cache with
  | nil => cases member
  | cons first rest ih =>
    rcases List.mem_append.1 member with came | later
    · exact mem_keep_event (Option.mem_toList.1 came)
    · exact ih later

/-- A valid source whose counter is kept has a regular grid. -/
theorem isRegular_of_settingsFor? {cache : CheckpointCache σ} {source : Source σ}
    {settings : CacheSettings} (kept : cache.settingsFor? source = some settings)
    (valid : source.validate = .ok ()) : (source.grid settings).IsRegular := by
  obtain ⟨_, leaf, asks⟩ := (settingsFor?_eq_some_iff ..).1 kept
  exact source.isRegular_grid valid leaf asks

/-! ## Backing -/

/-- What a checkpoint of a source under some settings rests on. -/
structure Backing (cache : CheckpointCache σ) (database : Database σ) (now : Instant)
    (checkpoint : Checkpoint σ) (source : Source σ) (settings : CacheSettings) : Prop where
  /-- The catalog has the source. -/
  defined : database.catalog.get? checkpoint.source = some source
  /-- The counter of the source is kept. -/
  kept : cache.settingsFor? source = some settings
  /-- The checkpoint is on the grid of the source. -/
  onGrid : (source.grid settings).Has checkpoint.instant
  /-- The readings around it have settled. -/
  settled : database.readings.SettledAt checkpoint.source settings.window now checkpoint.instant
  /-- Its counter is the one they give. -/
  agrees : database.readings.Agrees checkpoint.source checkpoint

/-- A checkpoint is backed under the settings of its source. -/
def IsBacked (cache : CheckpointCache σ) (database : Database σ) (now : Instant)
    (checkpoint : Checkpoint σ) : Prop :=
  ∃ source settings, cache.Backing database now checkpoint source settings

/-- Every checkpoint is in the series of its source and backed. -/
def IsSound (cache : CheckpointCache σ) (database : Database σ) (now : Instant) : Prop :=
  ∀ id, ∀ checkpoint ∈ (cache.seriesOf id).entries,
    checkpoint.source = id ∧ cache.IsBacked database now checkpoint

variable {cache : CheckpointCache σ} {database after : Database σ} {now : Instant}
  {checkpoint : Checkpoint σ} {source : Source σ} {settings : CacheSettings} {reading : Reading σ}

/-- Backing depends on a cache only through its configuration. -/
theorem IsBacked.of_config_eq {other : CheckpointCache σ}
    (backed : cache.IsBacked database now checkpoint) (same : other.config = cache.config) :
    other.IsBacked database now checkpoint := by
  obtain ⟨source, settings, backing⟩ := backed
  have kept := (settingsFor?_of_config_eq same source).trans backing.kept
  exact ⟨source, settings, backing.defined, kept, backing.onGrid, backing.settled, backing.agrees⟩

/-- Backing lasts as time goes on. -/
theorem Backing.later {later : Instant}
    (backing : cache.Backing database now checkpoint source settings) (le : now ≤ later) :
    cache.Backing database later checkpoint source settings :=
  { backing with settled := backing.settled.later le }

/-- A stored reading takes the backing only from checkpoints in the settled part of the gap it
splits. -/
theorem Backing.insert (backing : cache.Backing database now checkpoint source settings)
    (inserted : database.readings.insert reading = .ok after.readings)
    (same : after.catalog = database.catalog)
    (outside : reading.source = checkpoint.source →
      cache.CallsForUpkeep source settings reading now →
        ¬ ((database.readings.around checkpoint.source reading).settledWindow settings.window
          now).contains checkpoint.instant) :
    cache.Backing after now checkpoint source settings := by
  obtain ⟨settled, value⟩ := backing.settled.insert inserted fun own carries older =>
    outside own ⟨backing.kept, carries, older⟩
  exact ⟨same ▸ backing.defined, backing.kept, backing.onGrid, settled,
    value.trans backing.agrees⟩

/-! ## Sound caches -/

/-- Every checkpoint is in the series of its source, and backed if it is due to be. -/
def IsSoundFor (cache : CheckpointCache σ) (due : Checkpoint σ → Prop) (database : Database σ)
    (now : Instant) : Prop :=
  ∀ id, ∀ checkpoint ∈ (cache.seriesOf id).entries,
    checkpoint.source = id ∧ (due checkpoint → cache.IsBacked database now checkpoint)

/-- A cache is sound if every checkpoint is due to be backed and is. -/
theorem isSoundFor_true_iff :
    cache.IsSoundFor (fun _ => True) database now ↔ cache.IsSound database now := by
  simp only [IsSoundFor, IsSound, forall_const]

section IsSoundFor

variable {due : Checkpoint σ → Prop}

/-- A cache without checkpoints is sound. -/
theorem isSoundFor_new (config : Config) (due : Checkpoint σ → Prop) (database : Database σ)
    (now : Instant) : (new config : CheckpointCache σ).IsSoundFor due database now := by
  intro id checkpoint member
  cases member

/-- A sound cache is sound where less is due to be backed. -/
theorem IsSoundFor.mono {other : Checkpoint σ → Prop} (sound : cache.IsSoundFor due database now)
    (implies : ∀ checkpoint, other checkpoint → due checkpoint) :
    cache.IsSoundFor other database now :=
  fun id checkpoint member => (sound id checkpoint member).imp_right fun backed isDue =>
    backed (implies checkpoint isDue)

/-- A cache stays sound as time goes on. -/
theorem IsSoundFor.later {later : Instant} (sound : cache.IsSoundFor due database now)
    (le : now ≤ later) : cache.IsSoundFor due database later := by
  intro id checkpoint member
  obtain ⟨own, backed⟩ := sound id checkpoint member
  refine ⟨own, fun isDue => ?_⟩
  obtain ⟨source, settings, backing⟩ := backed isDue
  exact ⟨source, settings, backing.later le⟩

/-- A cache stays sound without the checkpoints of a source. -/
theorem IsSoundFor.evict (sound : cache.IsSoundFor due database now) (id : SourceId) :
    (cache.evict id).IsSoundFor due database now := by
  intro other checkpoint member
  rw [seriesOf_evict] at member
  split at member
  · cases member
  · obtain ⟨own, backed⟩ := sound other checkpoint member
    exact ⟨own, fun isDue => (backed isDue).of_config_eq rfl⟩

/-- A cache stays sound with checkpoints that are backed. -/
theorem IsSoundFor.commit (sound : cache.IsSoundFor due database now)
    {found : List (Checkpoint σ)}
    (backed : ∀ checkpoint ∈ found, cache.IsBacked database now checkpoint) :
    (cache.commit found).1.IsSoundFor due database now := by
  have same := config_commit found cache
  intro id checkpoint member
  rcases mem_commit member with there | ⟨added, own⟩
  · obtain ⟨own, before⟩ := sound id checkpoint there
    exact ⟨own, fun isDue => (before isDue).of_config_eq same⟩
  · exact ⟨own, fun _ => (backed checkpoint added).of_config_eq same⟩

end IsSoundFor

/-! ## Upkeep -/

/-- The upkeep after a reading proposes a checkpoint. -/
def Proposes (cache : CheckpointCache σ) (source : Source σ) (store : ReadingStore σ)
    (reading : Reading σ) (now : Instant) (checkpoint : Checkpoint σ) : Prop :=
  ∃ settings, cache.CallsForUpkeep source settings reading now ∧
    ∃ candidate ∈ cache.candidates source settings store reading now,
      candidate.checkpoint = checkpoint

/-- What is proposed is worked out now, on the grid of the source where the readings have settled,
with the counter that they give. -/
theorem Proposes.spec {store later : ReadingStore σ}
    (proposes : cache.Proposes source later reading now checkpoint)
    (valid : source.validate = .ok ()) (inserted : store.insert reading = .ok later)
    (own : reading.source = source.id) :
    checkpoint.source = source.id ∧ checkpoint.computedAt = now ∧
      ∃ settings, cache.settingsFor? source = some settings ∧
        (source.grid settings).Has checkpoint.instant ∧
        later.SettledAt source.id settings.window now checkpoint.instant ∧
        later.Agrees source.id checkpoint := by
  obtain ⟨settings, ⟨kept, carries, older⟩, candidate, proposed, rfl⟩ := proposes
  obtain ⟨same, onGrid, settled, agrees⟩ := agrees_of_mem_candidates
    (isRegular_of_settingsFor? kept valid) inserted own carries older proposed
  obtain ⟨_, _, _, rfl⟩ := (mem_candidates_iff _).1 proposed
  exact ⟨same, rfl, settings, kept, onGrid, settled, agrees⟩

/-- What is proposed is backed. -/
theorem Proposes.isBacked (proposes : cache.Proposes source after.readings reading now checkpoint)
    (valid : source.validate = .ok ()) (defined : after.catalog.get? source.id = some source)
    {store : ReadingStore σ} (inserted : store.insert reading = .ok after.readings)
    (own : reading.source = source.id) :
    checkpoint.source = source.id ∧ cache.IsBacked after now checkpoint := by
  obtain ⟨same, _, settings, kept, onGrid, settled, agrees⟩ := proposes.spec valid inserted own
  exact ⟨same, source, settings, same ▸ defined, kept, onGrid, same ▸ settled, same ▸ agrees⟩

/-- Where late data is revised, a checkpoint is proposed for each grid instant in the settled part of
the gap that a reading splits, as far as the number allowed. -/
theorem exists_candidate_of_revise {store : ReadingStore σ}
    (revises : cache.config.lateDataPolicy = .revise) (regular : (source.grid settings).IsRegular)
    {time : Instant} (inside : time ∈ (source.grid settings).instantsIn
      ((store.around source.id reading).settledWindow settings.window now))
    (few : {other ∈ (source.grid settings).instantsIn
      ((store.around source.id reading).settledWindow settings.window now) |
        other < time}.ncard < cache.config.maxBoundariesPerIngest) :
    ∃ candidate ∈ cache.candidates source settings store reading now,
      candidate.checkpoint.instant = time := by
  have taken := (mem_affected_iff regular time).2 ⟨inside, few⟩
  have open_ : ∀ checkpoint : Option (Checkpoint σ),
      checkpoint.any (cache.rulesFor source settings now).isFrozen = false := by
    intro checkpoint
    cases checkpoint with
    | none => rfl
    | some checkpoint => simp [rulesFor, ProposalRules.isFrozen, revises]
  exact ⟨_, (mem_candidates_iff _).2 ⟨time, taken, open_ _, rfl⟩, rfl⟩

/-- Nothing is proposed at the instant of a checkpoint. -/
def Spares (cache : CheckpointCache σ) (source : Source σ) (store : ReadingStore σ)
    (reading : Reading σ) (now : Instant) (checkpoint : Checkpoint σ) : Prop :=
  ∀ settings, cache.CallsForUpkeep source settings reading now →
    ∀ candidate ∈ cache.candidates source settings store reading now,
      candidate.checkpoint.instant ≠ checkpoint.instant

/-- The upkeep after a reading never fails, and what it leaves is proposed, or was there before and
was spared. -/
theorem exists_upkeep (cache : CheckpointCache σ) (now : Instant)
    (valid : source.validate = .ok ()) {store : ReadingStore σ}
    (inserted : store.insert reading = .ok after.readings) (own : reading.source = source.id) :
    ∃ written final, (cache.upkeep source reading now).result after = .ok (written, final) ∧
      final.config = cache.config ∧
      ∀ id, ∀ checkpoint ∈ (final.seriesOf id).entries,
        id = source.id ∧ cache.Proposes source after.readings reading now checkpoint ∨
        checkpoint ∈ (cache.seriesOf id).entries ∧
          (id = source.id → cache.Spares source after.readings reading now checkpoint) := by
  by_cases calls : ∃ settings, cache.CallsForUpkeep source settings reading now
  · obtain ⟨settings, calls⟩ := calls
    obtain ⟨result, _⟩ := result_upkeep_of_calls calls
      (isRegular_of_settingsFor? calls.1 valid) inserted own
    refine ⟨_, _, result, rfl, fun id checkpoint member => ?_⟩
    rw [seriesOf_withSeries] at member
    split at member
    · rename_i here
      subst here
      rcases mem_maintained member with proposed | ⟨there, apart⟩
      · exact Or.inl ⟨rfl, settings, calls, proposed⟩
      · refine Or.inr ⟨there, fun _ other others => ?_⟩
        obtain rfl : other = settings := Option.some_inj.1 (others.1.symm.trans calls.1)
        exact apart
    · rename_i elsewhere
      exact Or.inr ⟨member, fun here => absurd here.symm elsewhere⟩
  · have idle : ∀ settings, ¬ cache.CallsForUpkeep source settings reading now :=
      fun settings does => calls ⟨settings, does⟩
    refine ⟨0, cache, ?_, rfl, fun id checkpoint member =>
      Or.inr ⟨member, fun _ settings does => absurd does (idle settings)⟩⟩
    rw [upkeep_eq_of_not_calls idle, Attempt.result_pure]

/-- A checkpoint that is spared stays backed if one in the settled part of the gap that the reading
splits would not have been. -/
theorem Backing.spared {other : Source σ}
    (backing : cache.Backing database now checkpoint other settings)
    (defined : database.catalog.get? reading.source = some source)
    (own : source.id = reading.source)
    (inserted : database.readings.insert reading = .ok after.readings)
    (unchanged : after.catalog = database.catalog)
    (covered : checkpoint.source = source.id → ∀ settings,
      cache.CallsForUpkeep source settings reading now →
      cache.Backing database now checkpoint source settings →
      ((database.readings.around source.id reading).settledWindow settings.window
        now).contains checkpoint.instant →
      ∃ candidate ∈ cache.candidates source settings after.readings reading now,
        candidate.checkpoint.instant = checkpoint.instant)
    (spared : checkpoint.source = source.id →
      cache.Spares source after.readings reading now checkpoint) :
    cache.Backing after now checkpoint other settings := by
  refine backing.insert inserted unchanged fun same calls inside => ?_
  -- A checkpoint of the source of the reading has the settings that the upkeep goes by.
  obtain rfl : other = source := Option.some_inj.1 (backing.defined.symm.trans (same ▸ defined))
  have here : checkpoint.source = other.id := same ▸ own.symm
  rw [here] at inside
  obtain ⟨candidate, proposed, equal⟩ := covered here settings calls backing inside
  exact spared here settings calls candidate proposed equal

/-- The upkeep after a reading never fails, and it leaves a sound cache sound if it proposes a
checkpoint for each one in the settled part of the gap that the reading splits. -/
theorem IsSoundFor.upkeep {due : Checkpoint σ → Prop} (sound : cache.IsSoundFor due database now)
    (valid : database.catalog.IsValid)
    (defined : database.catalog.get? reading.source = some source)
    (inserted : database.readings.insert reading = .ok after.readings)
    (unchanged : after.catalog = database.catalog)
    (covered : ∀ settings, cache.CallsForUpkeep source settings reading now →
      ∀ checkpoint ∈ (cache.seriesOf source.id).entries, checkpoint.source = source.id →
        cache.Backing database now checkpoint source settings →
        ((database.readings.around source.id reading).settledWindow settings.window
          now).contains checkpoint.instant →
        ∃ candidate ∈ cache.candidates source settings after.readings reading now,
          candidate.checkpoint.instant = checkpoint.instant) :
    ∃ written final, (cache.upkeep source reading now).result after = .ok (written, final) ∧
      final.config = cache.config ∧ final.IsSoundFor due after now := by
  obtain ⟨own, checked⟩ := valid reading.source source defined
  obtain ⟨written, final, result, config, each⟩ :=
    cache.exists_upkeep now checked inserted own.symm
  refine ⟨written, final, result, config, fun id checkpoint member => ?_⟩
  rcases each id checkpoint member with ⟨rfl, proposed⟩ | ⟨there, spared⟩
  · obtain ⟨here, backed⟩ := proposed.isBacked checked (unchanged ▸ own.symm ▸ defined) inserted
      own.symm
    exact ⟨here, fun _ => backed.of_config_eq config⟩
  · obtain ⟨rfl, backed⟩ := sound id checkpoint there
    refine ⟨rfl, fun isDue => ?_⟩
    obtain ⟨other, settings, backing⟩ := backed isDue
    have lasting := backing.spared defined own inserted unchanged
      (fun here settings calls => covered settings calls checkpoint (here ▸ there) here) spared
    exact IsBacked.of_config_eq ⟨other, settings, lasting⟩ config

end CheckpointCache

end Metering
