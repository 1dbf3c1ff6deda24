import Metering.Proofs.Runs

/-!
# Readings at most a window late

Under a policy that freezes, a checkpoint keeps its counter whatever comes in
later. That does no harm as long as readings are never both out of order and
older than the window: a recent reading does not fall between readings that
have settled, and the newest one lies after every checkpoint
(`not_contains_of_newest`). Every checkpoint is then exactly what the readings
give at any time, and none is ever found to be frozen or worked out again
(`run_of_isTimely`). No policy matters to that, since none is called upon.
-/

namespace Metering

variable {σ : Type}

namespace ReadingStore

/-- The newest reading of a source falls between no readings that have settled. -/
theorem not_contains_of_newest {store : ReadingStore σ} {id : SourceId} {reading : Reading σ}
    {window : Span} {now time : Instant} (settled : store.SettledAt id window now time)
    (newest : ∀ other, store.Carries id .cumulativeEnergy other →
      other.instant < reading.instant) :
    ¬ ((store.around id reading).settledWindow window now).contains time := by
  intro inside
  obtain ⟨before, after, pair, _⟩ := settled
  have start := ((Window.contains_iff _ time).1 inside).1
  cases nearest : (store.around id reading).previous with
  | none =>
    have oldest := le_of_previous_around_eq_none nearest pair.carries_before
    exact Int.not_lt.2 oldest (newest before pair.carries_before)
  | some previous =>
    obtain ⟨_, _, latest⟩ := (previous_around_eq_some_iff previous).1 nearest
    have bound := latest after pair.carries_after (newest after pair.carries_after)
    simp only [Neighbours.settledWindow, nearest, Window.admitsStart, decide_eq_true_eq] at start
    exact Int.not_lt.2 (Int.le_trans pair.le_after bound) start

end ReadingStore

namespace Database

/-- An action sets the clock forward if at all, and an energy reading that is accepted for a kept
counter is newer than every energy reading of its source or at most a window old. -/
def IsTimely (database : Database σ) (now : Instant) : Action σ → Prop
  | .ingest reading =>
    ∀ source stored settings, database.accept reading = .ok (source, stored) →
      source.cache = some settings → reading.carries .cumulativeEnergy →
      (∀ other, database.readings.Carries source.id .cumulativeEnergy other →
        other.instant < reading.instant) ∨
      now.since reading.instant ≤ settings.window
  | .setNow later => now ≤ later
  | _ => True

/-- A timely reading that calls for upkeep is the newest of its source. -/
theorem IsTimely.newest_of_calls {database stored : Database σ} {now : Instant}
    {reading : Reading σ} {source : Source σ} {settings : CacheSettings}
    {cache : CheckpointCache σ} (timely : database.IsTimely now (.ingest reading))
    (accepted : database.accept reading = .ok (source, stored))
    (calls : cache.CallsForUpkeep source settings reading now) :
    ∀ other, database.readings.Carries source.id .cumulativeEnergy other →
      other.instant < reading.instant := by
  obtain ⟨kept, carries, older⟩ := calls
  obtain ⟨_, _, asks⟩ := (CheckpointCache.settingsFor?_eq_some_iff ..).1 kept
  rcases timely source stored settings accepted asks carries with newest | recent
  · exact newest
  · exact absurd older (Int.not_lt.2 recent)

end Database

namespace CheckpointCache

variable [Scalar σ] {cache : CheckpointCache σ} {source : Source σ} {settings : CacheSettings}
  {store : ReadingStore σ} {reading : Reading σ} {now : Instant}

/-- Where there are no checkpoints to bring up to date, they are only added or refused. -/
theorem mem_upkeepEvents_of_fresh
    (fresh : ∀ slot ∈ cache.slots source settings store reading now, slot.2 = none)
    {event : CacheEvent} (member : event ∈ cache.upkeepEvents source settings store reading now) :
    event = .created ∨ event = .rejected := by
  have unfrozen : (cache.slots source settings store reading now).countP
      (cache.rulesFor source settings now).leavesAlone = 0 := by
    refine List.countP_eq_zero.2 fun slot found => ?_
    unfold ProposalRules.leavesAlone
    rw [fresh slot found]
    exact Bool.false_ne_true
  have replacing : ∀ candidate ∈ cache.candidates source settings store reading now,
      candidate.replaces = false := by
    intro candidate proposed
    obtain ⟨time, inside, _, rfl⟩ := (mem_candidates_iff candidate).1 proposed
    exact congrArg Option.isSome (fresh _ (List.mem_map_of_mem inside))
  unfold upkeepEvents at member
  rw [unfrozen, List.replicate_zero, List.nil_append, List.mem_reverse] at member
  rcases Review.mem_events_foldl_judge _ _ replacing member with nothing | came
  · cases nothing
  · exact came

end CheckpointCache

namespace Engine

variable [Scalar σ] {engine : Engine σ (Database σ)}

/-- A timely action splits no gap around a checkpoint. -/
theorem permits_of_isTimely {action : Action σ}
    (timely : engine.progress.world.IsTimely engine.now action) : engine.Permits action := by
  cases action with
  | ask query => trivial
  | evict id => trivial
  | setNow now => exact timely
  | ingest reading =>
    intro source stored settings accepted calls checkpoint _ own backing inside
    exact absurd inside (ReadingStore.not_contains_of_newest (own ▸ backing.settled)
      (timely.newest_of_calls accepted calls))

/-- A timely reading finds no checkpoints to bring up to date. -/
theorem slots_of_isTimely (sound : engine.IsSound) {reading : Reading σ} {source : Source σ}
    {stored : Database σ} {settings : CacheSettings}
    (timely : engine.progress.world.IsTimely engine.now (.ingest reading))
    (accepted : engine.progress.world.accept reading = .ok (source, stored))
    (calls : engine.cache.CallsForUpkeep source settings reading engine.now) :
    ∀ slot ∈ engine.cache.slots source settings stored.readings reading engine.now,
      slot.2 = none := by
  intro slot member
  obtain ⟨time, inside, rfl⟩ := List.mem_map.1 member
  refine (Timeline.at?_eq_none_iff ..).2 fun checkpoint there here => ?_
  obtain ⟨⟨defined, _⟩, inserted, _⟩ := (Database.accept_eq_ok_iff ..).1 accepted
  obtain ⟨named, valid⟩ := sound.catalog reading.source source defined
  obtain ⟨own, other, others, backing⟩ := sound.cache source.id checkpoint there
  have same : some other = some source :=
    backing.defined.symm.trans (own.symm ▸ named.symm ▸ defined)
  obtain rfl : other = source := Option.some_inj.1 same
  obtain rfl : others = settings := Option.some_inj.1 (backing.kept.symm.trans calls.1)
  have regular := CheckpointCache.isRegular_of_settingsFor? calls.1 valid
  have around := ((CheckpointCache.mem_affected_iff regular time).1 inside).1.2
  rw [ReadingStore.around_of_insert inserted, ← here] at around
  exact ReadingStore.not_contains_of_newest (own ▸ backing.settled)
    (timely.newest_of_calls accepted calls) around

/-- A timely reading neither meets a frozen checkpoint nor works one out again. -/
theorem count_ingest (sound : engine.IsSound) {reading : Reading σ}
    (timely : engine.progress.world.IsTimely engine.now (.ingest reading)) {event : CacheEvent}
    (late : event = .refreshed ∨ event = .frozenSkip) :
    (engine.act (.ingest reading)).2.progress.tally.count event =
      engine.progress.tally.count event := by
  change (engine.ingest Database.serve reading).2.progress.tally.count event = _
  cases accepted : engine.progress.world.accept reading with
  | error error => rw [ingest_of_accept_error accepted]
  | ok found =>
    obtain ⟨source, stored⟩ := found
    obtain ⟨⟨defined, _⟩, inserted, unchanged⟩ := (Database.accept_eq_ok_iff ..).1 accepted
    obtain ⟨named, valid⟩ := sound.catalog reading.source source defined
    by_cases calls : ∃ settings,
        engine.cache.CallsForUpkeep source settings reading engine.now
    · obtain ⟨settings, calls⟩ := calls
      obtain ⟨result, events⟩ := CheckpointCache.result_upkeep_of_calls calls
        (CheckpointCache.isRegular_of_settingsFor? calls.1 valid) inserted named.symm
      have fresh := slots_of_isTimely sound timely accepted calls
      rw [ingest_of_accept_ok accepted result, events]
      refine Tally.count_foldl_add_of_not_mem (fun member => ?_) _
      rcases late with rfl | rfl
      · rcases CheckpointCache.mem_upkeepEvents_of_fresh fresh member with same | same <;> cases same
      · rcases CheckpointCache.mem_upkeepEvents_of_fresh fresh member with same | same <;> cases same
    · have idle := CheckpointCache.upkeep_eq_of_not_calls fun settings does => calls ⟨settings, does⟩
      have result : (engine.cache.upkeep source reading engine.now).result stored =
          .ok (0, engine.cache) := by rw [idle, Attempt.result_pure]
      rw [ingest_of_accept_ok accepted result, idle]
      rfl

/-- A timely action neither meets a frozen checkpoint nor works one out again. -/
theorem count_act (sound : engine.IsSound) {action : Action σ}
    (timely : engine.progress.world.IsTimely engine.now action) {event : CacheEvent}
    (late : event = .refreshed ∨ event = .frozenSkip) :
    (engine.act action).2.progress.tally.count event = engine.progress.tally.count event := by
  cases action with
  | evict id => rfl
  | setNow now => rfl
  | ingest reading => exact count_ingest sound timely late
  | ask query =>
    obtain ⟨found, events, same, _, counted⟩ := ask_spec
      (query.guardedBy engine.cache engine.now) (query.uses_attempt engine.cache engine.now)
      fun _ came => query.found_of_attempt
        (CheckpointCache.offers_isBacked engine.cache sound.catalog engine.now) came
    change (engine.ask (query.attempt engine.cache engine.now)).2.progress.tally.count event = _
    rw [same]
    refine Tally.count_foldl_add_of_not_mem (fun member => ?_) _
    rcases late with rfl | rfl
    · rcases counted _ member with lookup | same | same
      · exact lookup
      · cases same
      · cases same
    · rcases counted _ member with lookup | same | same
      · exact lookup
      · cases same
      · cases same

/-- Timely actions keep an engine sound, and none of them meets a frozen checkpoint or works one out
again. -/
theorem run_of_isTimely (actions : List (Action σ)) {engine : Engine σ (Database σ)}
    (sound : engine.IsSound)
    (timely : engine.progress.world.AllAlong Database.IsTimely engine.now actions) :
    (engine.run actions).2.IsSound ∧ ∀ event, event = .refreshed ∨ event = .frozenSkip →
      (engine.run actions).2.progress.tally.count event = engine.progress.tally.count event := by
  induction actions generalizing engine with
  | nil => exact ⟨sound, fun _ _ => rfl⟩
  | cons action rest ih =>
    obtain ⟨first, others⟩ := timely
    have follows := act_spec (isSoundFor_true_iff.2 sound) (permits_of_isTimely first)
    obtain ⟨final, counts⟩ := ih (isSoundFor_true_iff.1 follows.sound)
      (by rw [follows.world, follows.now]; exact others)
    exact ⟨final, fun event late => (counts event late).trans (count_act sound first late)⟩

/-- In every state that timely actions lead to, each checkpoint is exactly what the readings give at
its instant, and no checkpoint has been frozen over or worked out again. -/
theorem exact_of_timely {catalog : Catalog σ} (valid : catalog.IsValid) (config : Config)
    (readings : ReadingStore σ) (now : Instant) (actions : List (Action σ))
    (timely : (⟨readings, catalog⟩ : Database σ).AllAlong Database.IsTimely now actions) :
    (∀ id, ∀ checkpoint ∈
        ((run (new config ⟨readings, catalog⟩ now) actions).2.cache.seriesOf id).entries,
      ((run (new config ⟨readings, catalog⟩ now) actions).2.perform Database.serve .none
        (Bracket.valueAt id checkpoint.instant .cumulativeEnergy)).1 = .ok checkpoint.energy) ∧
    (run (new config ⟨readings, catalog⟩ now) actions).2.progress.tally.frozenSkips = 0 ∧
    (run (new config ⟨readings, catalog⟩ now) actions).2.progress.tally.refreshed = 0 := by
  obtain ⟨sound, counts⟩ := run_of_isTimely actions (isSound_new valid config readings now) timely
  refine ⟨fun id checkpoint member => ?_, counts .frozenSkip (Or.inr rfl),
    counts .refreshed (Or.inl rfl)⟩
  obtain ⟨rfl, source, settings, backing⟩ := sound.cache id checkpoint member
  have unlimited : Limits.none.check (run (new config ⟨readings, catalog⟩ now)
    actions).2.progress.elapsed = none := rfl
  rw [perform_eq unlimited (Bracket.uses_valueAt ..), Bracket.result_valueAt]
  exact backing.agrees

/-- A reading of the hourly meter is timely if it is recent or newer than all there are. -/
theorem isTimely_hourlyReading {database : Database Rat} (same : database.catalog = hourlyCatalog)
    {minute : Nat} {energy : Rat} {now : Instant}
    (timely : (database.readings.timeline hourlyMeter.id).entries.all
        (fun other => other.instant < atMinute minute) ∨
      now.since (atMinute minute) ≤ CacheSettings.window ⟨3600, 60⟩) :
    database.IsTimely now (.ingest (hourlyReading minute energy)) := by
  intro source stored settings accepted asks _
  obtain ⟨⟨defined, _⟩, _⟩ := (Database.accept_eq_ok_iff ..).1 accepted
  rw [same] at defined
  obtain rfl := eq_hourlyMeter defined
  obtain rfl : ⟨3600, 60⟩ = settings := Option.some_inj.1 asks
  refine timely.imp_left fun newest other held => ?_
  exact of_decide_eq_true (List.all_eq_true.1 newest other held.1)

/-- A morning on which one reading is overtaken by the next, and a query the day after. -/
def timelyActions : List (Action Rat) :=
  [.setNow (atMinute 121), .ingest (hourlyReading 0 0), .ingest (hourlyReading 121 4),
    .ingest (hourlyReading 120 3), .setNow (atMinute 1440), .ask (.counterAt "meter" (atMinute 75))]

/-- The query adds a second checkpoint to the one at the start, and both are what the readings give. -/
theorem exact_timelyActions :
    (∀ id, ∀ checkpoint ∈ ((run (new .standard ⟨.empty, hourlyCatalog⟩ .epoch)
        timelyActions).2.cache.seriesOf id).entries,
      ((run (new .standard ⟨.empty, hourlyCatalog⟩ .epoch) timelyActions).2.perform Database.serve
        .none (Bracket.valueAt id checkpoint.instant .cumulativeEnergy)).1 =
          .ok checkpoint.energy) ∧
    ((run (new .standard ⟨.empty, hourlyCatalog⟩ .epoch) timelyActions).2.cache.seriesOf
      "meter").entries.map Checkpoint.energy = [3 / 2, 0] := by
  have timely : (⟨.empty, hourlyCatalog⟩ : Database Rat).AllAlong Database.IsTimely .epoch
      timelyActions := by
    have first : Instant.epoch ≤ atMinute 121 := by decide
    have second : atMinute 121 ≤ atMinute 1440 := by decide
    refine ⟨first, isTimely_hourlyReading rfl (Or.inl ?_), isTimely_hourlyReading rfl (Or.inl ?_),
      isTimely_hourlyReading rfl (Or.inr ?_), second, trivial, trivial⟩
    · decide +kernel
    · decide +kernel
    · decide +kernel
  exact ⟨(exact_of_timely isValid_hourlyCatalog .standard .empty .epoch timelyActions timely).1,
    by decide +kernel⟩

end Engine

end Metering
