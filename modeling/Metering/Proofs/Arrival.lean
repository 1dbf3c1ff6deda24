import Metering.Proofs.Backing
import Metering.Proofs.Line
import Metering.Proofs.Runs

/-!
# Readings in any order

Where late data is revised, readings that have settled by the time they arrive
leave a checkpoint at every grid instant that has readings on either side and
nowhere else (`Absorbs.isFilled`). As long as the counter never falls no
checkpoint is refused on the way, so the order in which the readings arrive
leaves no trace in the counters that are kept (`HasTaken.counters_eq`).
-/

namespace Metering

namespace CheckpointCache

variable {σ : Type} [Scalar σ]

/-- A series has a checkpoint at each grid instant that has energy readings on either side and
nowhere else, and each is what the readings give. -/
structure IsFilled (cache : CheckpointCache σ) (store : ReadingStore σ) (source : Source σ)
    (settings : CacheSettings) : Prop where
  /-- Every checkpoint is what the readings give at an instant of the grid. -/
  agrees : ∀ checkpoint ∈ (cache.seriesOf source.id).entries,
    (source.grid settings).Has checkpoint.instant ∧ store.Agrees source.id checkpoint
  /-- No grid instant between readings is left out. -/
  full : ∀ time, (source.grid settings).Has time →
    (∃ before after, store.Brackets source.id .cumulativeEnergy time before after) →
      ∃ checkpoint ∈ (cache.seriesOf source.id).entries, checkpoint.instant = time

/-- A cache that revises can bring up to date all that a stored reading changes: the energy readings
have settled, the new one among them, and the instants it affects are not too many. -/
structure Absorbs (cache : CheckpointCache σ) (source : Source σ) (settings : CacheSettings)
    (store : ReadingStore σ) (reading : Reading σ) (later : ReadingStore σ) (now : Instant) :
    Prop where
  /-- Late data is revised. -/
  revises : cache.config.lateDataPolicy = .revise
  /-- The source has a grid. -/
  regular : (source.grid settings).IsRegular
  /-- The reading is stored. -/
  inserted : store.insert reading = .ok later
  /-- The reading is one of the source. -/
  own : reading.source = source.id
  /-- The reading carries energy. -/
  carries : reading.carries .cumulativeEnergy
  /-- Every energy reading of the source has settled. -/
  settled : ∀ other, later.Carries source.id .cumulativeEnergy other →
    settings.window < now.since other.instant
  /-- The instants in the gap that the reading splits are as few as may be brought up to date. -/
  room : ((source.grid settings).instantsIn
    ((store.around source.id reading).settledWindow settings.window now)).ncard ≤
      cache.config.maxBoundariesPerIngest

namespace Absorbs

variable {cache : CheckpointCache σ} {source : Source σ} {settings : CacheSettings}
  {store later : ReadingStore σ} {reading : Reading σ} {now time : Instant}

omit [Scalar σ] in
/-- The reading itself has settled. -/
theorem older (absorbs : cache.Absorbs source settings store reading later now) :
    settings.window < now.since reading.instant :=
  absorbs.settled reading
    ((ReadingStore.carries_of_insert absorbs.inserted ..).2 (Or.inr ⟨absorbs.own, absorbs.carries, rfl⟩))

/-- A checkpoint is proposed for each grid instant in the settled part of the gap. -/
theorem exists_candidate (absorbs : cache.Absorbs source settings store reading later now)
    (inside : time ∈ (source.grid settings).instantsIn
      ((store.around source.id reading).settledWindow settings.window now)) :
    ∃ candidate ∈ cache.candidates source settings later reading now,
      candidate.checkpoint.instant = time := by
  have few := Nat.lt_of_lt_of_le (Grid.ncard_before_lt inside) absorbs.room
  rw [← ReadingStore.around_of_insert absorbs.inserted] at inside few
  exact exists_candidate_of_revise absorbs.revises absorbs.regular inside few

/-- A checkpoint that nothing is proposed for is still what the readings give. -/
theorem agrees_of_untouched (absorbs : cache.Absorbs source settings store reading later now)
    (filled : cache.IsFilled store source settings) {checkpoint : Checkpoint σ}
    (there : checkpoint ∈ (cache.seriesOf source.id).entries)
    (apart : ∀ candidate ∈ cache.candidates source settings later reading now,
      candidate.checkpoint.instant ≠ checkpoint.instant) :
    later.Agrees source.id checkpoint := by
  obtain ⟨onGrid, agrees⟩ := filled.agrees checkpoint there
  obtain ⟨before, after, brackets, _⟩ := (ReadingStore.valueAt_eq_ok_iff ..).1 agrees
  have held : later.Carries source.id .cumulativeEnergy after :=
    (ReadingStore.carries_of_insert absorbs.inserted ..).2 (Or.inl brackets.carries_after)
  have settled : store.SettledAt source.id settings.window now checkpoint.instant :=
    ⟨before, after, brackets, absorbs.settled after held⟩
  refine (settled.insert absorbs.inserted fun _ _ _ inside => ?_).2.trans agrees
  obtain ⟨candidate, proposed, same⟩ := absorbs.exists_candidate ⟨onGrid, inside⟩
  exact apart candidate proposed same

end Absorbs

/-! ## A counter that never falls -/

section NeverFalls

variable {cache : CheckpointCache Rat} {source : Source Rat} {settings : CacheSettings}
  {store later : ReadingStore Rat} {reading : Reading Rat} {now : Instant}

/-- No candidate is refused where the counter never falls and the checkpoints that are spared agree
with the readings. -/
theorem review_of_neverFalls (regular : (source.grid settings).IsRegular)
    (inserted : store.insert reading = .ok later) (own : reading.source = source.id)
    (carries : reading.carries .cumulativeEnergy) (older : settings.window < now.since reading.instant)
    (steady : later.NeverFalls source.id .cumulativeEnergy)
    (spared : ∀ checkpoint ∈ (cache.seriesOf source.id).entries,
      (∀ candidate ∈ cache.candidates source settings later reading now,
        candidate.checkpoint.instant ≠ checkpoint.instant) → later.Agrees source.id checkpoint) :
    (cache.review source settings later reading now).accepted =
        ((cache.candidates source settings later reading now).map Candidate.checkpoint).reverse ∧
      .rejected ∉ (cache.review source settings later reading now).events := by
  have ordered : ∀ earlier next, later.Agrees source.id earlier → later.Agrees source.id next →
      earlier.instant < next.instant → Scalar.atMost earlier.energy next.energy := by
    intro earlier next first second less
    exact decide_eq_true (ReadingStore.valueAt_mono steady (Int.le_of_lt less) first second)
  have proposed : ∀ candidate ∈ cache.candidates source settings later reading now,
      later.Agrees source.id candidate.checkpoint := fun candidate member =>
    (agrees_of_mem_candidates regular inserted own carries older member).2.2.2
  have there : ∀ checkpoint ∈ ((cache.seriesOf source.id).neighbourhood
      (cache.candidates source settings later reading now)).entries,
        later.Agrees source.id checkpoint := by
    intro checkpoint member
    obtain ⟨held, apart⟩ := Timeline.mem_of_mem_neighbourhood member
    exact spared checkpoint held apart
  obtain ⟨accepted, _, events⟩ := Review.foldl_judge_of_fitting ordered proposed
    ⟨(cache.seriesOf source.id).neighbourhood
      (cache.candidates source settings later reading now), [], [], []⟩ there
  unfold review Review.of
  rw [accepted, events, List.append_nil, List.append_nil]
  refine ⟨rfl, fun member => ?_⟩
  obtain ⟨candidate, _, same⟩ := List.mem_map.1 (List.mem_reverse.1 member)
  split at same
  · cases same
  · cases same

/-- Where no candidate is refused there is a checkpoint at the instant of each. -/
theorem exists_mem_maintained_of_candidate
    (accepted : (cache.review source settings later reading now).accepted =
      ((cache.candidates source settings later reading now).map Candidate.checkpoint).reverse)
    {candidate : Candidate Rat}
    (proposed : candidate ∈ cache.candidates source settings later reading now) :
    ∃ checkpoint ∈ (cache.maintained source settings later reading now).entries,
      checkpoint.instant = candidate.checkpoint.instant := by
  have taken : candidate.checkpoint ∈
      (cache.review source settings later reading now).accepted.reverse := by
    rw [accepted, List.reverse_reverse]
    exact List.mem_map_of_mem proposed
  obtain ⟨checkpoint, kept, same⟩ := Timeline.exists_mem_ofList taken
  exact ⟨checkpoint, (Review.mem_apply_iff ..).2 (Or.inl kept), same⟩

/-- Where no candidate is refused there is a checkpoint wherever there was one. -/
theorem exists_mem_maintained_of_mem
    (accepted : (cache.review source settings later reading now).accepted =
      ((cache.candidates source settings later reading now).map Candidate.checkpoint).reverse)
    {checkpoint : Checkpoint Rat} (there : checkpoint ∈ (cache.seriesOf source.id).entries) :
    ∃ other ∈ (cache.maintained source settings later reading now).entries,
      other.instant = checkpoint.instant := by
  by_cases taken : ∃ candidate ∈ cache.candidates source settings later reading now,
      candidate.checkpoint.instant = checkpoint.instant
  · obtain ⟨candidate, proposed, same⟩ := taken
    rw [← same]
    exact exists_mem_maintained_of_candidate accepted proposed
  · exact ⟨checkpoint, mem_maintained_of_untouched there fun candidate proposed same =>
      taken ⟨candidate, proposed, same⟩, rfl⟩

end NeverFalls

namespace Absorbs

variable {cache : CheckpointCache Rat} {source : Source Rat} {settings : CacheSettings}
  {store later : ReadingStore Rat} {reading : Reading Rat} {now : Instant}

/-- No candidate is refused where the counter never falls. -/
theorem review_eq (absorbs : cache.Absorbs source settings store reading later now)
    (filled : cache.IsFilled store source settings)
    (steady : later.NeverFalls source.id .cumulativeEnergy) :
    (cache.review source settings later reading now).accepted =
        ((cache.candidates source settings later reading now).map Candidate.checkpoint).reverse ∧
      .rejected ∉ (cache.review source settings later reading now).events :=
  review_of_neverFalls absorbs.regular absorbs.inserted absorbs.own absorbs.carries absorbs.older
    steady fun _ there apart => absorbs.agrees_of_untouched filled there apart

/-- Nothing that is counted is a refusal where the counter never falls. -/
theorem rejected_notMem_upkeepEvents
    (absorbs : cache.Absorbs source settings store reading later now)
    (filled : cache.IsFilled store source settings)
    (steady : later.NeverFalls source.id .cumulativeEnergy) :
    .rejected ∉ cache.upkeepEvents source settings later reading now := by
  intro member
  rcases List.mem_append.1 member with frozen | reviewed
  · cases (List.mem_replicate.1 frozen).2
  · exact (absorbs.review_eq filled steady).2 (List.mem_reverse.1 reviewed)

/-- A filled series is filled again once a reading is taken in. -/
theorem isFilled (absorbs : cache.Absorbs source settings store reading later now)
    (filled : cache.IsFilled store source settings)
    (steady : later.NeverFalls source.id .cumulativeEnergy) :
    (cache.withSeries source.id (cache.maintained source settings later reading now)).IsFilled
      later source settings := by
  have series : (cache.withSeries source.id
      (cache.maintained source settings later reading now)).seriesOf source.id =
        cache.maintained source settings later reading now := by
    rw [seriesOf_withSeries, if_pos rfl]
  constructor
  · rw [series]
    intro checkpoint member
    rcases mem_maintained member with ⟨candidate, proposed, rfl⟩ | ⟨there, apart⟩
    · obtain ⟨_, onGrid, _, agrees⟩ := agrees_of_mem_candidates absorbs.regular absorbs.inserted
        absorbs.own absorbs.carries absorbs.older proposed
      exact ⟨onGrid, agrees⟩
    · exact ⟨(filled.agrees checkpoint there).1, absorbs.agrees_of_untouched filled there apart⟩
  · rw [series]
    rintro time onGrid ⟨before, after, brackets⟩
    by_cases inside : ((store.around source.id reading).settledWindow settings.window
        now).contains time
    · obtain ⟨candidate, proposed, rfl⟩ := absorbs.exists_candidate ⟨onGrid, inside⟩
      exact exists_mem_maintained_of_candidate (absorbs.review_eq filled steady).1 proposed
    · have settled := absorbs.settled after brackets.carries_after
      obtain ⟨checkpoint, there, rfl⟩ := filled.full time onGrid
        ⟨before, after, brackets.of_insert absorbs.inserted settled inside⟩
      refine ⟨checkpoint, mem_maintained_of_untouched there fun candidate proposed same => ?_, rfl⟩
      obtain ⟨instant, affected, _, rfl⟩ := (mem_candidates_iff candidate).1 proposed
      have within := ((mem_affected_iff absorbs.regular instant).1 affected).1.2
      rw [ReadingStore.around_of_insert absorbs.inserted] at within
      obtain rfl : instant = checkpoint.instant := same
      exact inside within

end Absorbs

end CheckpointCache

/-! ## Arrivals -/

variable {σ : Type}

/-- The instants of a grid between two of some readings. -/
def Grid.between (grid : Grid) (readings : List (Reading σ)) : Set Instant :=
  {time | grid.Has time ∧ ∃ first ∈ readings, ∃ last ∈ readings,
    first.instant ≤ time ∧ time ≤ last.instant}

/-- Energy readings of one source at different instants whose counter never falls. -/
structure IsRising (id : SourceId) (readings : List (Reading Rat)) : Prop where
  /-- All are of the source. -/
  own : ∀ reading ∈ readings, reading.source = id
  /-- All carry energy. -/
  carries : ∀ reading ∈ readings, reading.carries .cumulativeEnergy
  /-- No two are at one instant. -/
  distinct : readings.Pairwise fun first second => first.instant ≠ second.instant
  /-- The counter does not fall from one to a later one. -/
  rises : ∀ earlier ∈ readings, ∀ later ∈ readings, earlier.instant ≤ later.instant →
    ∀ low high, earlier.energy = some low → later.energy = some high → low ≤ high

/-- A store whose readings of a source are among ones that rise has a counter that never falls. -/
theorem IsRising.neverFalls {id : SourceId} {readings : List (Reading Rat)}
    (rising : IsRising id readings) {store : ReadingStore Rat}
    (known : ∀ reading ∈ (store.timeline id).entries, reading ∈ readings) :
    store.NeverFalls id .cumulativeEnergy := by
  intro earlier later low high first second lower upper le
  have firstKnown := known earlier first.1
  have secondKnown := known later second.1
  exact rising.rises earlier firstKnown later secondKnown le low high lower upper

/-- The grid instants that a stored reading affects lie between two of the readings. -/
theorem Grid.instantsIn_settledWindow_subset_between [Scalar σ] {store later : ReadingStore σ}
    {id : SourceId} {reading : Reading σ} {window : Span} {now : Instant} (grid : Grid)
    {readings : List (Reading σ)} (inserted : store.insert reading = .ok later)
    (own : reading.source = id) (carries : reading.carries .cumulativeEnergy)
    (older : window < now.since reading.instant)
    (known : ∀ reading ∈ (later.timeline id).entries, reading ∈ readings) :
    grid.instantsIn ((store.around id reading).settledWindow window now) ⊆
      grid.between readings := by
  rintro time ⟨onGrid, inside⟩
  obtain ⟨before, after, brackets, _⟩ :=
    ReadingStore.exists_brackets_of_contains inserted own carries older inside
  have first := known before brackets.carries_before.1
  have last := known after brackets.carries_after.1
  exact ⟨onGrid, before, first, after, last, brackets.before_le, brackets.le_after⟩

/-- Readings arrive in some order, each at a time at which it has settled. -/
structure ArrivesSettled (window : Span) (readings : List (Reading σ))
    (arrivals : List (Reading σ × Instant)) : Prop where
  /-- Each reading arrives once and nothing else does. -/
  permuted : (arrivals.map Prod.fst).Perm readings
  /-- Time does not go back. -/
  forward : arrivals.Pairwise fun first second => first.2 ≤ second.2
  /-- Each reading is older than the window when it arrives. -/
  older : ∀ arrival ∈ arrivals, window < arrival.2.since arrival.1.instant

namespace Engine

/-- Takes in readings of a source one after another, each at its own time, and says what came of
each one. -/
def takeInAll [Scalar σ] (engine : Engine σ (Database σ)) (source : Source σ) :
    List (Reading σ × Instant) → List (Except QueryError Nat) × Engine σ (Database σ)
  | [] => ([], engine)
  | (reading, now) :: rest =>
    let (outcome, after) :=
      engine.takeIn Database.serve (engine.cache.ingest source reading now)
    let (outcomes, final) := after.takeInAll source rest
    (outcome :: outcomes, final)

/-- Where an engine is once it has taken in some readings of a source. -/
structure HasTaken (engine : Engine Rat (Database Rat)) (config : Config) (source : Source Rat)
    (settings : CacheSettings) (taken : List (Reading Rat)) : Prop where
  /-- The configuration is as at the start. -/
  configured : engine.cache.config = config
  /-- The readings are stored and no other ones of the source. -/
  stored : ∀ reading,
    reading ∈ (engine.progress.world.readings.timeline source.id).entries ↔ reading ∈ taken
  /-- The series is filled. -/
  filled : engine.cache.IsFilled engine.progress.world.readings source settings
  /-- No checkpoint was refused. -/
  unrefused : engine.progress.tally.rejected = 0

variable {engine : Engine Rat (Database Rat)} {config : Config} {source : Source Rat}
  {settings : CacheSettings} {readings taken : List (Reading Rat)} {reading : Reading Rat}
  {now : Instant}

/-- One more of the readings is taken in. -/
theorem HasTaken.takeIn (state : engine.HasTaken config source settings taken)
    (kept : (CheckpointCache.new config : CheckpointCache Rat).settingsFor? source = some settings)
    (valid : source.validate = .ok ()) (revises : config.lateDataPolicy = .revise)
    (rising : IsRising source.id readings)
    (room : ((source.grid settings).between readings).ncard ≤ config.maxBoundariesPerIngest)
    (known : ∀ other ∈ taken ++ [reading], other ∈ readings)
    (fresh : ∀ other ∈ taken, other.instant ≠ reading.instant)
    (settled : ∀ other ∈ taken ++ [reading], settings.window < now.since other.instant) :
    ∃ written after,
      engine.takeIn Database.serve (engine.cache.ingest source reading now) =
        (.ok written, after) ∧
      after.HasTaken config source settings (taken ++ [reading]) := by
  have here : reading ∈ taken ++ [reading] := List.mem_append_right taken List.mem_cons_self
  have own := rising.own reading (known reading here)
  have carries := rising.carries reading (known reading here)
  have regular := CheckpointCache.isRegular_of_settingsFor? kept valid
  obtain ⟨later, inserted⟩ := engine.progress.world.readings.exists_insert_eq_ok
    ((Timeline.at?_eq_none_iff _ reading.instant).2 fun other there =>
      fresh other ((state.stored other).1 (own ▸ there)))
  have stored : ∀ other,
      other ∈ (later.timeline source.id).entries ↔ other ∈ taken ++ [reading] := by
    intro other
    rw [ReadingStore.mem_timeline_of_insert inserted, state.stored, List.mem_append,
      List.mem_singleton]
    exact or_congr_right ⟨fun same => same.2, fun same => ⟨own, same⟩⟩
  have among : ∀ other ∈ (later.timeline source.id).entries, other ∈ readings :=
    fun other there => known other ((stored other).1 there)
  have steady := rising.neverFalls among
  have older : settings.window < now.since reading.instant := settled reading here
  have subset := (source.grid settings).instantsIn_settledWindow_subset_between inserted own carries
    older among
  have few := Nat.le_trans (Set.ncard_le_ncard subset (Set.toFinite _)) room
  have absorbs : engine.cache.Absorbs source settings engine.progress.world.readings reading later
      now :=
    ⟨state.configured ▸ revises, regular, inserted, own, carries,
      fun other held => settled other ((stored other).1 held.1), state.configured ▸ few⟩
  have configured : engine.cache.config =
      (CheckpointCache.new config : CheckpointCache Rat).config := state.configured
  have keeps : engine.cache.settingsFor? source = some settings :=
    (CheckpointCache.settingsFor?_of_config_eq configured source).trans kept
  have accepted : engine.progress.world.readings.insert reading =
      .ok { engine.progress.world with readings := later : Database Rat }.readings := inserted
  obtain ⟨result, events⟩ :=
    CheckpointCache.result_upkeep_of_calls ⟨keeps, carries, older⟩ regular accepted own
  refine ⟨_, _, takeIn_ingest inserted result, state.configured, stored,
    absorbs.isFilled state.filled steady, ?_⟩
  have none := absorbs.rejected_notMem_upkeepEvents state.filled steady
  rw [events]
  exact (Tally.count_foldl_add_of_not_mem none _).trans state.unrefused

/-- Readings are taken in one part after another. -/
theorem takeInAll_append (engine : Engine Rat (Database Rat)) (source : Source Rat)
    (first second : List (Reading Rat × Instant)) :
    engine.takeInAll source (first ++ second) =
      ((engine.takeInAll source first).1 ++
          ((engine.takeInAll source first).2.takeInAll source second).1,
        ((engine.takeInAll source first).2.takeInAll source second).2) := by
  induction first generalizing engine with
  | nil => rfl
  | cons arrival rest ih =>
    simp only [List.cons_append, takeInAll, ih]

/-- All readings that arrive are taken in. -/
theorem hasTaken_takeInAll (start : engine.HasTaken config source settings [])
    (kept : (CheckpointCache.new config : CheckpointCache Rat).settingsFor? source = some settings)
    (valid : source.validate = .ok ()) (revises : config.lateDataPolicy = .revise)
    (rising : IsRising source.id readings)
    (room : ((source.grid settings).between readings).ncard ≤ config.maxBoundariesPerIngest)
    {arrivals : List (Reading Rat × Instant)}
    (known : ∀ arrival ∈ arrivals, arrival.1 ∈ readings)
    (distinct : arrivals.Pairwise fun first second => first.1.instant ≠ second.1.instant)
    (forward : arrivals.Pairwise fun first second => first.2 ≤ second.2)
    (older : ∀ arrival ∈ arrivals, settings.window < arrival.2.since arrival.1.instant) :
    (∀ outcome ∈ (engine.takeInAll source arrivals).1, ∃ written, outcome = .ok written) ∧
      (engine.takeInAll source arrivals).2.HasTaken config source settings
        (arrivals.map Prod.fst) := by
  -- The induction is on the last arrival, since the state tells of the arrivals so far.
  induction arrivals using List.reverseRecOn with
  | nil => exact ⟨fun _ member => absurd member List.not_mem_nil, start⟩
  | append_singleton arrived last ih =>
    obtain ⟨distinctArrived, _, apart⟩ := List.pairwise_append.1 distinct
    obtain ⟨forwardArrived, _, before⟩ := List.pairwise_append.1 forward
    have knownArrived := (List.forall_mem_append.1 known).1
    have olderArrived := (List.forall_mem_append.1 older).1
    obtain ⟨succeeded, state⟩ := ih knownArrived distinctArrived forwardArrived olderArrived
    have members : ∀ other ∈ (arrived ++ [last]).map Prod.fst, other ∈ readings :=
      List.forall_mem_map.2 known
    have fresh : ∀ other ∈ arrived.map Prod.fst, other.instant ≠ last.1.instant :=
      List.forall_mem_map.2 fun arrival there => apart arrival there last List.mem_cons_self
    have settled : ∀ other ∈ (arrived ++ [last]).map Prod.fst,
        settings.window < last.2.since other.instant := by
      refine List.forall_mem_map.2 fun arrival member => ?_
      have le : arrival.2 ≤ last.2 := by
        rcases List.mem_append.1 member with there | there
        · exact before arrival there last List.mem_cons_self
        · rw [List.mem_singleton.1 there]
          exact Int.le_refl _
      exact Instant.lt_since_of_le (older arrival member) le (Int.le_refl _)
    rw [List.map_append] at members settled
    obtain ⟨written, after, same, taken⟩ :=
      state.takeIn kept valid revises rising room members fresh settled
    have step : (engine.takeInAll source arrived).2.takeInAll source [last] =
        ([.ok written], after) := by
      simp only [takeInAll, same]
    rw [takeInAll_append, step, List.map_append]
    refine ⟨List.forall_mem_append.2 ⟨succeeded, fun outcome member => ?_⟩, taken⟩
    exact ⟨written, List.mem_singleton.1 member⟩

/-! ## What the order leaves -/

/-- The instants and the energies of the checkpoints of a source, newest first. -/
def counters {σ ω : Type} (engine : Engine σ ω) (id : SourceId) : List (Instant × σ) :=
  (engine.cache.seriesOf id).entries.map fun checkpoint => (checkpoint.instant, checkpoint.energy)

/-- The counters that are kept are the values of the readings on the grid. -/
theorem HasTaken.mem_counters_iff (state : engine.HasTaken config source settings taken)
    (time : Instant) (energy : Rat) :
    (time, energy) ∈ engine.counters source.id ↔
      (source.grid settings).Has time ∧
        engine.progress.world.readings.valueAt source.id time .cumulativeEnergy = .ok energy := by
  constructor
  · intro member
    obtain ⟨checkpoint, there, same⟩ := List.mem_map.1 member
    obtain ⟨rfl, rfl⟩ := Prod.mk.injEq .. ▸ same
    exact state.filled.agrees checkpoint there
  · rintro ⟨onGrid, value⟩
    obtain ⟨before, after, brackets, _⟩ := (ReadingStore.valueAt_eq_ok_iff ..).1 value
    obtain ⟨checkpoint, there, rfl⟩ := state.filled.full time onGrid ⟨before, after, brackets⟩
    obtain rfl : checkpoint.energy = energy :=
      Except.ok.inj ((state.filled.agrees checkpoint there).2.symm.trans value)
    exact List.mem_map.2 ⟨checkpoint, there, rfl⟩

/-- The counters that are kept depend on the readings alone. -/
theorem HasTaken.counters_eq {other : Engine Rat (Database Rat)} {others : List (Reading Rat)}
    (state : engine.HasTaken config source settings taken)
    (stateOther : other.HasTaken config source settings others)
    (same : ∀ reading, reading ∈ taken ↔ reading ∈ others) :
    engine.counters source.id = other.counters source.id := by
  have stored : ∀ reading,
      reading ∈ (engine.progress.world.readings.timeline source.id).entries ↔
        reading ∈ (other.progress.world.readings.timeline source.id).entries := fun reading => by
    rw [state.stored, stateOther.stored, same]
  have sorted : ∀ series : Series Rat, (series.entries.map fun checkpoint =>
      (checkpoint.instant, checkpoint.energy)).Pairwise fun newer older => older.1 < newer.1 :=
    fun series => List.pairwise_map.2 series.newestFirst
  refine Timeline.eq_of_mem_iff_of_pairwise (sorted _) (sorted _)
    (fun left right less more => Int.lt_asymm less more) fun ⟨time, energy⟩ => ?_
  rw [state.mem_counters_iff, stateOther.mem_counters_iff, ReadingStore.valueAt_congr stored]

/-- An engine that starts without readings has taken in none. -/
theorem hasTaken_new (config : Config) (catalog : Catalog Rat) (clock : Instant)
    (source : Source Rat) (settings : CacheSettings) :
    (new config (⟨.empty, catalog⟩ : Database Rat) clock).HasTaken config source settings [] where
  configured := rfl
  stored _ := Iff.rfl
  filled :=
    ⟨fun _ member => absurd member List.not_mem_nil, fun _ _ ⟨_, _, brackets⟩ =>
      absurd brackets.carries_before.1 List.not_mem_nil⟩
  unrefused := rfl

/-- All readings that arrive in some order are taken in. -/
theorem hasTaken_of_arrives (catalog : Catalog Rat) (clock : Instant)
    (kept : (CheckpointCache.new config : CheckpointCache Rat).settingsFor? source = some settings)
    (valid : source.validate = .ok ()) (revises : config.lateDataPolicy = .revise)
    (rising : IsRising source.id readings)
    (room : ((source.grid settings).between readings).ncard ≤ config.maxBoundariesPerIngest)
    {arrivals : List (Reading Rat × Instant)}
    (arrives : ArrivesSettled settings.window readings arrivals) :
    (∀ outcome ∈ (takeInAll (new config ⟨.empty, catalog⟩ clock) source arrivals).1,
        ∃ written, outcome = .ok written) ∧
      (takeInAll (new config ⟨.empty, catalog⟩ clock) source arrivals).2.HasTaken config source
        settings (arrivals.map Prod.fst) := by
  refine hasTaken_takeInAll (hasTaken_new config catalog clock source settings) kept valid revises
    rising room (fun arrival member => ?_) ?_ arrives.forward arrives.older
  · exact arrives.permuted.mem_iff.1 (List.mem_map_of_mem member)
  · have distinct : (arrivals.map Prod.fst).Pairwise fun first second =>
        first.instant ≠ second.instant :=
      (arrives.permuted.pairwise_iff fun different => Ne.symm different).2 rising.distinct
    rw [List.pairwise_map] at distinct
    exact distinct

/-- Whatever the order in which settled readings arrive, each is taken in, and the series then has
one checkpoint for each grid instant between two of them and no other, each with the value that all
readings give there. No checkpoint is refused, and another order leaves the same counters. -/
theorem filled_of_arrivals (config : Config) (catalog : Catalog Rat) (clock : Instant)
    (kept : (CheckpointCache.new config : CheckpointCache Rat).settingsFor? source = some settings)
    (valid : source.validate = .ok ()) (revises : config.lateDataPolicy = .revise)
    (rising : IsRising source.id readings)
    (room : ((source.grid settings).between readings).ncard ≤ config.maxBoundariesPerIngest)
    {arrivals : List (Reading Rat × Instant)}
    (arrives : ArrivesSettled settings.window readings arrivals) :
    ∃ outcomes final,
      takeInAll (new config ⟨.empty, catalog⟩ clock) source arrivals = (outcomes, final) ∧
      (∀ outcome ∈ outcomes, ∃ written, outcome = .ok written) ∧
      (∀ reading, reading ∈ (final.progress.world.readings.timeline source.id).entries ↔
        reading ∈ readings) ∧
      (∀ checkpoint ∈ (final.cache.seriesOf source.id).entries,
        checkpoint.instant ∈ (source.grid settings).between readings ∧
          (final.perform Database.serve .none
            (Bracket.valueAt source.id checkpoint.instant .cumulativeEnergy)).1 =
              .ok checkpoint.energy) ∧
      (∀ time ∈ (source.grid settings).between readings,
        ∃! checkpoint, checkpoint ∈ (final.cache.seriesOf source.id).entries ∧
          checkpoint.instant = time) ∧
      final.progress.tally.rejected = 0 ∧
      ∀ others, ArrivesSettled settings.window readings others →
        (takeInAll (new config ⟨.empty, catalog⟩ clock) source others).2.counters source.id =
          final.counters source.id := by
  obtain ⟨succeeded, state⟩ :=
    hasTaken_of_arrives catalog clock kept valid revises rising room arrives
  have stored : ∀ reading, reading ∈ arrivals.map Prod.fst ↔ reading ∈ readings :=
    fun _ => arrives.permuted.mem_iff
  refine ⟨_, _, rfl, succeeded, fun reading => (state.stored reading).trans (stored reading),
    fun checkpoint there => ?_, fun time member => ?_, state.unrefused, fun others arriveOthers => ?_⟩
  · obtain ⟨onGrid, agrees⟩ := state.filled.agrees checkpoint there
    obtain ⟨before, after, brackets, _⟩ := (ReadingStore.valueAt_eq_ok_iff ..).1 agrees
    have first := (stored _).1 ((state.stored _).1 brackets.carries_before.1)
    have last := (stored _).1 ((state.stored _).1 brackets.carries_after.1)
    refine ⟨⟨onGrid, before, first, after, last, brackets.before_le, brackets.le_after⟩, ?_⟩
    rw [perform_eq rfl (Bracket.uses_valueAt ..), Bracket.result_valueAt]
    exact agrees
  · obtain ⟨onGrid, first, firstThere, last, lastThere, low, high⟩ := member
    have carried : ∀ reading ∈ readings, (takeInAll (new config ⟨.empty, catalog⟩ clock) source
        arrivals).2.progress.world.readings.Carries source.id .cumulativeEnergy reading :=
      fun reading there =>
        ⟨(state.stored reading).2 ((stored reading).2 there), rising.carries reading there⟩
    obtain ⟨checkpoint, there, rfl⟩ := state.filled.full time onGrid
      (ReadingStore.exists_brackets (carried first firstThere) (carried last lastThere) low high)
    exact ⟨checkpoint, ⟨there, rfl⟩, fun other found =>
      Timeline.eq_of_instant_eq _ found.1 there found.2⟩
  · obtain ⟨_, stateOthers⟩ :=
      hasTaken_of_arrives catalog clock kept valid revises rising room arriveOthers
    exact stateOthers.counters_eq state fun reading =>
      arriveOthers.permuted.mem_iff.trans (stored reading).symm

/-- Three readings of the hourly meter. -/
def risingReadings : List (Reading Rat) :=
  [hourlyReading 0 0, hourlyReading 90 3, hourlyReading 190 8]

/-- The last of three readings arrives first and the one in the middle last. -/
def overtakingArrivals : List (Reading Rat × Instant) :=
  [(hourlyReading 190 8, atMinute 1440), (hourlyReading 0 0, atMinute 1440),
    (hourlyReading 90 3, atMinute 1500)]

/-- The counter does not fall over the three readings. -/
theorem isRising_risingReadings : IsRising hourlyMeter.id risingReadings where
  own := by decide
  carries := by decide
  distinct := by decide
  rises := by
    have ordered : ∀ earlier ∈ risingReadings, ∀ later ∈ risingReadings,
        earlier.instant ≤ later.instant → earlier.energy.getD 0 ≤ later.energy.getD 0 := by
      decide +kernel
    intro earlier first later second le low high lower upper
    have step := ordered earlier first later second le
    rw [lower, upper] at step
    exact step

/-- The readings that overtake one another leave the counters at the hours between them. -/
theorem filled_overtakingArrivals :
    (takeInAll (new ⟨true, .revise, none, 4⟩ ⟨.empty, hourlyCatalog⟩ .epoch) hourlyMeter
      (risingReadings.map fun reading => (reading, atMinute 1440))).2.counters "meter" =
    (takeInAll (new ⟨true, .revise, none, 4⟩ ⟨.empty, hourlyCatalog⟩ .epoch) hourlyMeter
      overtakingArrivals).2.counters "meter" ∧
    (takeInAll (new ⟨true, .revise, none, 4⟩ ⟨.empty, hourlyCatalog⟩ .epoch) hourlyMeter
      overtakingArrivals).2.counters "meter" =
        [(atMinute 180, 15 / 2), (atMinute 120, 9 / 2), (atMinute 60, 2), (atMinute 0, 0)] := by
  have regular := hourlyMeter.isRegular_grid rfl rfl (rfl : hourlyMeter.cache = some ⟨3600, 60⟩)
  have within : (hourlyMeter.grid ⟨3600, 60⟩).between risingReadings ⊆
      (hourlyMeter.grid ⟨3600, 60⟩).instantsIn
        ⟨.inclusive (atMinute 0), .inclusive (atMinute 190)⟩ := by
    have bounds : ∀ reading ∈ risingReadings,
        atMinute 0 ≤ reading.instant ∧ reading.instant ≤ atMinute 190 := by decide
    rintro time ⟨onGrid, first, firstThere, last, lastThere, low, high⟩
    exact ⟨onGrid, (Window.contains_iff ..).2
      ⟨decide_eq_true (Int.le_trans (bounds first firstThere).1 low),
        decide_eq_true (Int.le_trans high (bounds last lastThere).2)⟩⟩
  have room : ((hourlyMeter.grid ⟨3600, 60⟩).between risingReadings).ncard ≤ 4 :=
    Nat.le_trans (Set.ncard_le_ncard within (Set.toFinite _))
      (Grid.ncard_instantsIn_le regular (by decide +kernel))
  have arrives : ArrivesSettled (CacheSettings.window ⟨3600, 60⟩) risingReadings
      (risingReadings.map fun reading => (reading, atMinute 1440)) :=
    ⟨.refl _, by decide, by decide⟩
  have overtaking : ArrivesSettled (CacheSettings.window ⟨3600, 60⟩) risingReadings
      overtakingArrivals :=
    ⟨(List.perm_append_singleton (hourlyReading 190 8)
      [hourlyReading 0 0, hourlyReading 90 3]).symm, by decide, by decide⟩
  have kept : (CheckpointCache.new ⟨true, .revise, none, 4⟩ :
    CheckpointCache Rat).settingsFor? hourlyMeter = some ⟨3600, 60⟩ := rfl
  have valid : hourlyMeter.validate = .ok () := rfl
  obtain ⟨_, final, same, _, _, _, _, _, others⟩ := filled_of_arrivals ⟨true, .revise, none, 4⟩
    hourlyCatalog .epoch kept valid rfl isRising_risingReadings room overtaking
  refine ⟨?_, by decide +kernel⟩
  rw [same]
  exact others _ arrives

end Engine

end Metering
