import Metering.Proofs.Runs

/-!
# Queries leave no trace in each other

A query leaves behind the checkpoints that it found, and a later one may start
from them. On exact values and with all instants on whole milliseconds that
makes no difference to its response (`ask_after_ask`, and `run_asks` for any
number of queries), whatever the cache held before and however far that is from
the readings: what was there stays, and what is added agrees with the readings,
so that it gives what they would have given in its place.
-/

namespace Metering

namespace CheckpointCache

/-- A cache has grown to another one if all that it held is there and whatever else is there meets a
condition. -/
structure GrowsTo {σ : Type} (cache final : CheckpointCache σ) (meets : Checkpoint σ → Prop) :
    Prop where
  /-- The configuration is the same. -/
  config : final.config = cache.config
  /-- What was held is there. -/
  retains : ∀ id, ∀ checkpoint ∈ (cache.seriesOf id).entries,
    checkpoint ∈ (final.seriesOf id).entries
  /-- What is there was held or meets the condition. -/
  introduces : ∀ id, ∀ checkpoint ∈ (final.seriesOf id).entries,
    checkpoint ∈ (cache.seriesOf id).entries ∨ checkpoint.source = id ∧ meets checkpoint

namespace GrowsTo

section Growth

variable {σ : Type} {cache middle final : CheckpointCache σ} {meets : Checkpoint σ → Prop}

/-- A cache has grown to itself. -/
theorem refl (cache : CheckpointCache σ) (meets : Checkpoint σ → Prop) :
    cache.GrowsTo cache meets :=
  ⟨rfl, fun _ _ => id, fun _ _ => Or.inl⟩

/-- What a cache has grown to may grow further. -/
theorem trans (first : cache.GrowsTo middle meets) (second : middle.GrowsTo final meets) :
    cache.GrowsTo final meets where
  config := second.config.trans first.config
  retains id checkpoint member :=
    second.retains id checkpoint (first.retains id checkpoint member)
  introduces id checkpoint member := by
    rcases second.introduces id checkpoint member with there | added
    · exact first.introduces id checkpoint there
    · exact Or.inr added

/-- A cache grows when checkpoints are to be kept. -/
theorem commit [Scalar σ] (cache : CheckpointCache σ) {batch : List (Checkpoint σ)}
    (each : ∀ checkpoint ∈ batch, meets checkpoint) :
    cache.GrowsTo (cache.commit batch).1 meets where
  config := config_commit batch cache
  retains _ _ member := mem_commit_of_mem batch member
  introduces id checkpoint member := by
    rcases mem_commit member with there | ⟨added, own⟩
    · exact Or.inl there
    · exact Or.inr ⟨own, each checkpoint added⟩

/-- A checkpoint that was found at an instant is found there. -/
theorem at?_of_at? (grows : cache.GrowsTo final meets) {id : SourceId} {time : Instant}
    {checkpoint : Checkpoint σ} (found : (cache.seriesOf id).at? time = some checkpoint) :
    (final.seriesOf id).at? time = some checkpoint := by
  obtain ⟨member, same⟩ := (Timeline.at?_eq_some_iff ..).1 found
  exact (Timeline.at?_eq_some_iff ..).2 ⟨grows.retains id checkpoint member, same⟩

/-- A checkpoint that is found where there was none meets the condition. -/
theorem meets_of_at? (grows : cache.GrowsTo final meets) {id : SourceId} {time : Instant}
    {checkpoint : Checkpoint σ} (nothing : (cache.seriesOf id).at? time = none)
    (found : (final.seriesOf id).at? time = some checkpoint) :
    checkpoint.source = id ∧ meets checkpoint := by
  obtain ⟨member, same⟩ := (Timeline.at?_eq_some_iff ..).1 found
  rcases grows.introduces id checkpoint member with there | added
  · rw [(Timeline.at?_eq_some_iff ..).2 ⟨there, same⟩] at nothing
    cases nothing
  · exact added

/-- A lookup that started from a checkpoint goes on as before. -/
theorem counterAt_eq [Scalar σ] (grows : cache.GrowsTo final meets) {source : Source σ}
    {settings : CacheSettings} {boundary time : Instant} {checkpoint : Checkpoint σ}
    (kept : cache.settingsFor? source = some settings)
    (floor : (source.grid settings).floor? time = some boundary)
    (found : (cache.seriesOf source.id).at? boundary = some checkpoint) (now : Instant) :
    final.counterAt source time now = cache.counterAt source time now := by
  change (Grid.mk source.createdAt settings.interval).floor? time = some boundary at floor
  unfold counterAt
  simp only [settingsFor?_of_config_eq grows.config source, kept, floor, found,
    grows.at?_of_at? found]

end Growth

/-- Where what is added agrees with the readings, lookups read what they read before. -/
theorem map_value_counterAt {cache final : CheckpointCache Rat} {database : Database Rat}
    (grows : cache.GrowsTo final fun checkpoint =>
      database.readings.Agrees checkpoint.source checkpoint)
    {source : Source Rat} {time : Instant} (wholeAnchor : source.createdAt.IsWholeMilli)
    (whole : ∀ reading, database.readings.Carries source.id .cumulativeEnergy reading →
      reading.instant.IsWholeMilli) (wholeTime : time.IsWholeMilli) (now : Instant) :
    ((final.counterAt source time now).result database).map CounterRead.value =
      ((cache.counterAt source time now).result database).map CounterRead.value := by
  by_cases held : ∃ settings boundary checkpoint, cache.settingsFor? source = some settings ∧
      (source.grid settings).floor? time = some boundary ∧
      (cache.seriesOf source.id).at? boundary = some checkpoint
  · obtain ⟨settings, boundary, checkpoint, kept, floor, found⟩ := held
    rw [grows.counterAt_eq kept floor found now]
  · -- The lookup went to the readings before, and a checkpoint from there agrees with them.
    have nothing : ∀ settings boundary, cache.settingsFor? source = some settings →
        (source.grid settings).floor? time = some boundary →
        (cache.seriesOf source.id).at? boundary = none := by
      intro settings boundary kept floor
      rw [Option.eq_none_iff_forall_ne_some]
      intro checkpoint found
      exact held ⟨settings, boundary, checkpoint, kept, floor, found⟩
    rw [CheckpointCache.map_value_counterAt wholeAnchor whole wholeTime,
      CheckpointCache.map_value_counterAt wholeAnchor whole wholeTime]
    · intro settings boundary checkpoint kept floor found
      rw [nothing settings boundary kept floor] at found
      cases found
    · intro settings boundary checkpoint kept floor found
      rw [settingsFor?_of_config_eq grows.config source] at kept
      exact grows.meets_of_at? (nothing settings boundary kept floor) found

end GrowsTo

end CheckpointCache

namespace Engine

/-- An engine is as another one was, apart from counters and from checkpoints that agree with the
readings. -/
structure Enriches {σ : Type} [Scalar σ] (engine final : Engine σ (Database σ)) : Prop where
  /-- The checkpoints that were added agree with the readings. -/
  cache : engine.cache.GrowsTo final.cache fun checkpoint =>
    engine.progress.world.readings.Agrees checkpoint.source checkpoint
  /-- The clock has not moved. -/
  now : final.now = engine.now
  /-- The database is the same. -/
  world : final.progress.world = engine.progress.world
  /-- No time has elapsed. -/
  elapsed : final.progress.elapsed = engine.progress.elapsed

section Asking

variable {σ : Type} [Scalar σ] {engine final : Engine σ (Database σ)}

/-- A query only adds counters and checkpoints that agree with the readings. -/
theorem enriches_ask (engine : Engine σ (Database σ)) (query : Query) :
    engine.Enriches (engine.act (.ask query)).2 := by
  obtain ⟨found, events, same, agree⟩ := exists_act_ask_eq engine query
  rw [same]
  exact ⟨.commit engine.cache agree, rfl, rfl, rfl⟩

/-- What a query leaves behind, after others, only adds to what there was before all of them. -/
theorem Enriches.ask (enriches : engine.Enriches final) (query : Query) :
    engine.Enriches (final.act (.ask query)).2 := by
  have further := enriches_ask final query
  have grown := further.cache
  rw [enriches.world] at grown
  exact ⟨enriches.cache.trans grown, further.now.trans enriches.now,
    further.world.trans enriches.world, further.elapsed.trans enriches.elapsed⟩

end Asking

/-- A query gets the response that it would have got before. -/
theorem Enriches.act_ask {engine final : Engine Rat (Database Rat)}
    (enriches : engine.Enriches final) (whole : engine.progress.world.IsWhole) {query : Query}
    (wholeQuery : query.IsWhole) : (final.act (.ask query)).1 = (engine.act (.ask query)).1 := by
  have before : ∀ time ∈ query.instants,
      engine.cache.Reads engine.progress.world engine.now engine.countersRead time :=
    fun time _ => engine.reads_countersRead time
  have after : ∀ time ∈ query.instants,
      final.cache.Reads final.progress.world final.now engine.countersRead time := by
    rintro time member leaf ⟨id, found⟩
    rw [enriches.world] at found ⊢
    rw [enriches.now]
    exact enriches.cache.map_value_counterAt (whole.anchors id leaf found) (whole.readings leaf.id)
      (wholeQuery.instants time member) engine.now
  rw [Engine.act_ask after, Engine.act_ask before,
    timeUp?_eq enriches.cache.config enriches.elapsed, enriches.world]

/-- Queries that are asked one after another get the responses that each of them gets alone. -/
theorem run_asks (engine : Engine Rat (Database Rat)) (whole : engine.progress.world.IsWhole)
    {queries : List Query} (wholeQueries : ∀ query ∈ queries, query.IsWhole) :
    (engine.run (queries.map Action.ask)).1 =
      queries.map fun query => (engine.act (.ask query)).1 := by
  suffices later : ∀ final, engine.Enriches final → (final.run (queries.map Action.ask)).1 =
      queries.map fun query => (engine.act (.ask query)).1 from
    later engine ⟨.refl engine.cache _, rfl, rfl, rfl⟩
  induction queries with
  | nil => exact fun _ _ => rfl
  | cons query rest ih =>
    intro final enriches
    obtain ⟨wholeQuery, wholeRest⟩ := List.forall_mem_cons.1 wholeQueries
    have others := ih wholeRest (final.act (.ask query)).2 (enriches.ask query)
    change (final.act (.ask query)).1 ::
      ((final.act (.ask query)).2.run (rest.map Action.ask)).1 = _
    rw [enriches.act_ask whole wholeQuery, others]
    rfl

/-- A query that is asked after another one, whose checkpoints have been kept, gets the response
that it gets without the other one, over any readings and any checkpoints. -/
theorem ask_after_ask (engine : Engine Rat (Database Rat)) (whole : engine.progress.world.IsWhole)
    (first : Query) {second : Query} (wholeSecond : second.IsWhole) :
    ((engine.act (.ask first)).2.act (.ask second)).1 = (engine.act (.ask second)).1 :=
  (enriches_ask engine first).act_ask whole wholeSecond

/-- An engine with two readings three hours apart and a checkpoint between them that is not on their
line. -/
def frozenEngine : Engine Rat (Database Rat) :=
  ⟨⟨.standard, Registry.empty.insert "meter" (.ofList [⟨"meter", atMinute 120, 5, atMinute 1440⟩])⟩,
    atMinute 1440, ⟨⟨⟨Registry.empty.insert "meter"
      (.ofList [hourlyReading 0 0, hourlyReading 180 6])⟩, hourlyCatalog⟩, 0, .zero⟩⟩

/-- The two readings are at minutes. -/
theorem isWhole_frozenEngine : frozenEngine.progress.world.IsWhole := by
  refine ⟨fun _ _ found => isWholeMilli_createdAt found, fun id reading held => ?_⟩
  have timeline : frozenEngine.progress.world.readings.timeline id =
      (if "meter" = id then some (.ofList [hourlyReading 0 0, hourlyReading 180 6])
        else none).getD .empty := by
    unfold ReadingStore.timeline frozenEngine
    rw [Registry.get?_insert]
    rfl
  obtain ⟨member, _⟩ := held
  rw [timeline] at member
  split at member
  · have both : (Timeline.ofList [hourlyReading 0 0, hourlyReading 180 6]).entries =
        [hourlyReading 180 6, hourlyReading 0 0] := by rfl
    rw [Option.getD_some, both] at member
    rcases List.mem_pair.1 member with rfl | rfl
    · exact isWholeMilli_atMinute 180
    · exact isWholeMilli_atMinute 0
  · cases member

/-- A sum of energies from that engine starts from the checkpoint that is off the line, and, after a
lookup of a counter, from another one that the lookup has left behind. Its response is the same. -/
theorem ask_after_ask_frozenEngine :
    let first := Query.counterAt "meter" (atMinute 75)
    let second := Query.energy "meter" (atMinute 70) (atMinute 135)
    frozenEngine.progress.world.IsWhole ∧ second.IsWhole ∧
    ((frozenEngine.act (.ask first)).2.act (.ask second)).1 =
      (frozenEngine.act (.ask second)).1 ∧
    (frozenEngine.act (.ask second)).1 = .ok (some (35 / 12)) ∧
    (frozenEngine.act (.ask second)).2.progress.tally.hits = 1 ∧
    ((frozenEngine.act (.ask first)).2.act (.ask second)).2.progress.tally.hits = 2 := by
  intro first second
  have wholeSecond : second.IsWhole := ⟨isWholeMilli_atMinute 70, isWholeMilli_atMinute 135⟩
  exact ⟨isWhole_frozenEngine, wholeSecond,
    ask_after_ask frozenEngine isWhole_frozenEngine first wholeSecond, by decide +kernel,
    by decide +kernel, by decide +kernel⟩

end Engine

end Metering
