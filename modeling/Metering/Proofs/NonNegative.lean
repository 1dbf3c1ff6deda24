import Metering.Proofs.Additivity
import Metering.Proofs.Freeze
import Metering.Proofs.Rising
import Metering.Proofs.Transparency
import Metering.Proofs.Traversal

/-!
# Energies below zero

The counter of a meter never falls, and neither do the counters that its
readings give. A lookup may lean on a checkpoint that is off the readings,
which a policy that freezes does not correct when a reading comes in late
(`CheckpointCache.Leans`). An energy is below zero only where such a lookup
reads too much at the start of the interval or too little at its end, and the
two ends are not both at checkpoints, whose counters never run backwards
(`first_le_last`). That takes a reading that is out of order and older than the
window, so that energies are never below zero where readings are timely, where
the cache is off, or where it revises and keeps up
(`Engine.energy_nonneg_or_strays`).
-/

namespace Metering

namespace CheckpointCache

section Lookups

variable {σ : Type} [Scalar σ]

/-- A lookup leans on a checkpoint that is off the readings: it starts from the checkpoint, the
readings give another counter for the instant of the checkpoint, and there is none in between. -/
def Leans (cache : CheckpointCache σ) (store : ReadingStore σ) (source : Source σ)
    (now time : Instant) : Prop :=
  ∃ checkpoint, cache.StartsFrom source now time checkpoint ∧ ¬ store.Agrees source.id checkpoint ∧
    ∀ reading, store.Carries source.id .cumulativeEnergy reading →
      ¬ (checkpoint.instant < reading.instant ∧ reading.instant ≤ time)

/-- A lookup rests on a checkpoint: it starts from one at its own instant. -/
def Rests (cache : CheckpointCache σ) (source : Source σ) (now time : Instant) : Prop :=
  ∃ checkpoint, cache.StartsFrom source now time checkpoint ∧ checkpoint.instant = time

variable {cache : CheckpointCache σ} {database : Database σ} {source : Source σ}
  {now time start stop : Instant}

/-- No lookup leans on anything without a cache. -/
theorem Leans.cacheEnabled (leans : cache.Leans database.readings source now time) :
    cache.config.cacheEnabled := by
  obtain ⟨_, ⟨settings, _, kept, _⟩, _⟩ := leans
  exact ((settingsFor?_eq_some_iff ..).1 kept).1

/-- No lookup over a sound cache leans on anything that is off the readings. -/
theorem IsSound.not_leans (sound : cache.IsSound database now) :
    ¬ cache.Leans database.readings source now time := by
  rintro ⟨checkpoint, starts, off, _⟩
  obtain ⟨own, _, _, backing⟩ := sound source.id checkpoint starts.mem.1
  exact off (own ▸ backing.agrees)

end Lookups

/-- A lookup exceeds the readings: it leans on a checkpoint that is off them, and reads more than
they give. -/
def Exceeds (cache : CheckpointCache Rat) (database : Database Rat) (source : Source Rat)
    (now time : Instant) : Prop :=
  cache.Leans database.readings source now time ∧
    ∀ given read, database.readings.valueAt source.id time .cumulativeEnergy = .ok given →
      ((cache.counterAt source time now).result database).map CounterRead.value = .ok read →
        given < read

/-- A lookup falls short of the readings: it leans on a checkpoint that is off them, and reads less
than they give. -/
def FallsShort (cache : CheckpointCache Rat) (database : Database Rat) (source : Source Rat)
    (now time : Instant) : Prop :=
  cache.Leans database.readings source now time ∧
    ∀ given read, database.readings.valueAt source.id time .cumulativeEnergy = .ok given →
      ((cache.counterAt source time now).result database).map CounterRead.value = .ok read →
        read < given

/-- The lookups at the ends of an interval may stray past each other: the first one exceeds the
readings or the last one falls short of them, and they do not both rest on checkpoints. -/
structure Strays (cache : CheckpointCache Rat) (database : Database Rat) (source : Source Rat)
    (now start stop : Instant) : Prop where
  /-- The first one exceeds the readings or the last one falls short of them. -/
  off : cache.Exceeds database source now start ∨ cache.FallsShort database source now stop
  /-- They do not both rest on checkpoints. -/
  apart : ¬ (cache.Rests source now start ∧ cache.Rests source now stop)

variable {cache : CheckpointCache Rat} {database : Database Rat} {source : Source Rat}
  {now time start stop : Instant} {first last : Rat}

/-- A lookup that does not lean on a checkpoint off the readings reads what they give. -/
theorem map_value_counterAt_of_not_leans (ordered : cache.IsOrdered) (whole : database.IsWhole)
    (wholeAnchor : source.createdAt.IsWholeMilli) (wholeTime : time.IsWholeMilli)
    (firm : ¬ cache.Leans database.readings source now time) :
    ((cache.counterAt source time now).result database).map CounterRead.value =
      database.readings.valueAt source.id time .cumulativeEnergy := by
  refine map_value_counterAt_of_startsFrom fun checkpoint starts => ?_
  obtain ⟨member, le⟩ := starts.mem
  have own : checkpoint.source = source.id := (ordered source.id).2 checkpoint member
  by_cases recent : ∃ reading, database.readings.Carries source.id .cumulativeEnergy reading ∧
      checkpoint.instant < reading.instant ∧ reading.instant ≤ time
  · obtain ⟨reading, held, later, within⟩ := recent
    rw [← own] at held ⊢
    exact Checkpoint.result_counterFrom_of_recent held later within
  · have agrees : database.readings.Agrees source.id checkpoint := by
      by_contra off
      exact firm ⟨checkpoint, starts, off, fun reading held between =>
        recent ⟨reading, held, between⟩⟩
    rw [← own] at agrees ⊢
    exact Checkpoint.result_counterFrom le agrees (whole.readings checkpoint.source)
      (starts.isWholeMilli wholeAnchor) wholeTime

/-- A lookup that does not exceed the readings reads at most what they give. -/
theorem exists_valueAt_ge (ordered : cache.IsOrdered) (whole : database.IsWhole)
    (wholeAnchor : source.createdAt.IsWholeMilli) (wholeTime : time.IsWholeMilli)
    (within : ¬ cache.Exceeds database source now time)
    (read : ((cache.counterAt source time now).result database).map CounterRead.value =
      .ok first) :
    ∃ given, database.readings.valueAt source.id time .cumulativeEnergy = .ok given ∧
      first ≤ given := by
  by_cases leans : cache.Leans database.readings source now time
  · by_contra more
    refine within ⟨leans, fun given other same readOther => ?_⟩
    have one : first = other := Except.ok.inj (read.symm.trans readOther)
    exact not_le.1 fun le => more ⟨given, same, one ▸ le⟩
  · rw [map_value_counterAt_of_not_leans ordered whole wholeAnchor wholeTime leans] at read
    exact ⟨first, read, le_refl first⟩

/-- A lookup that does not fall short of the readings reads at least what they give. -/
theorem exists_valueAt_le (ordered : cache.IsOrdered) (whole : database.IsWhole)
    (wholeAnchor : source.createdAt.IsWholeMilli) (wholeTime : time.IsWholeMilli)
    (within : ¬ cache.FallsShort database source now time)
    (read : ((cache.counterAt source time now).result database).map CounterRead.value =
      .ok last) :
    ∃ given, database.readings.valueAt source.id time .cumulativeEnergy = .ok given ∧
      given ≤ last := by
  by_cases leans : cache.Leans database.readings source now time
  · by_contra less
    refine within ⟨leans, fun given other same readOther => ?_⟩
    have one : last = other := Except.ok.inj (read.symm.trans readOther)
    exact not_le.1 fun le => less ⟨given, same, one ▸ le⟩
  · rw [map_value_counterAt_of_not_leans ordered whole wholeAnchor wholeTime leans] at read
    exact ⟨last, read, le_refl last⟩

/-- Two lookups that rest on checkpoints read counters that do not run backwards. -/
theorem first_le_last_of_rests (ordered : cache.IsOrdered) (le : start ≤ stop)
    (restsStart : cache.Rests source now start) (restsStop : cache.Rests source now stop)
    (read : ((cache.counterAt source start now).result database).map CounterRead.value = .ok first)
    (readLast : ((cache.counterAt source stop now).result database).map CounterRead.value =
      .ok last) : first ≤ last := by
  obtain ⟨earlier, starts, here⟩ := restsStart
  obtain ⟨later, startsLater, there⟩ := restsStop
  have same : earlier.energy = first :=
    Except.ok.inj ((starts.map_value_counterAt here).symm.trans read)
  have sameLast : later.energy = last :=
    Except.ok.inj ((startsLater.map_value_counterAt there).symm.trans readLast)
  rw [← same, ← sameLast]
  by_cases less : earlier.instant < later.instant
  · have rises := (ordered source.id).1 earlier starts.mem.1 later startsLater.mem.1 less
    exact of_decide_eq_true rises
  · rw [here, there, Instant.lt_iff] at less
    rw [Instant.le_iff] at le
    have together : earlier.instant = later.instant := by
      rw [here, there]
      exact Instant.ext (by omega)
    have one := (cache.seriesOf source.id).eq_of_instant_eq starts.mem.1 startsLater.mem.1 together
    rw [one]

/-- The counter at the end of an interval is at least the one at its start, unless the lookups may
stray past each other. -/
theorem first_le_last (ordered : cache.IsOrdered) (whole : database.IsWhole)
    (wholeAnchor : source.createdAt.IsWholeMilli) (wholeStart : start.IsWholeMilli)
    (wholeStop : stop.IsWholeMilli)
    (steady : database.readings.NeverFalls source.id .cumulativeEnergy) (le : start ≤ stop)
    (firm : ¬ cache.Strays database source now start stop)
    (read : ((cache.counterAt source start now).result database).map CounterRead.value = .ok first)
    (readLast : ((cache.counterAt source stop now).result database).map CounterRead.value =
      .ok last) : first ≤ last := by
  by_cases rests : cache.Rests source now start ∧ cache.Rests source now stop
  · exact first_le_last_of_rests ordered le rests.1 rests.2 read readLast
  · obtain ⟨low, lower, below⟩ := exists_valueAt_ge ordered whole wholeAnchor wholeStart
      (fun exceeds => firm ⟨Or.inl exceeds, rests⟩) read
    obtain ⟨high, upper, above⟩ := exists_valueAt_le ordered whole wholeAnchor wholeStop
      (fun short => firm ⟨Or.inr short, rests⟩) readLast
    have rises : low ≤ high := ReadingStore.valueAt_mono steady le lower upper
    exact le_trans below (le_trans rises above)

end CheckpointCache

namespace Database

variable {database : Database Rat} {counters : Counters Rat} {id : SourceId}
  {start stop : Instant}

/-- A sum of energies is not below zero if no leaf's counter is lower at the end. -/
theorem sumEnergies_nonneg {energy : Rat}
    (summed : database.sumEnergies counters (fun _ energy => .ok energy) id start stop =
      .ok energy)
    (rises : ∀ leaves, (Graph.flatten id).result database = .ok leaves → ∀ flat ∈ leaves,
      ∀ first last, counters flat.leaf start = .ok first → counters flat.leaf stop = .ok last →
        first ≤ last) : 0 ≤ energy := by
  obtain ⟨_, leaves, flattened, total⟩ := sumEnergies_eq_ok_iff.1 summed
  split at total
  · exact le_of_eq total
  · refine Except.foldlM_invariant (fun sofar => (0 : Rat) ≤ sofar)
      (fun sofar flat member next nonneg added => ?_) (le_refl (0 : Rat)) total
    obtain ⟨first, last, read, readLast, rfl⟩ := addEnergy_eq_ok_iff.1 added
    have gain : first ≤ last := rises leaves flattened flat member first last read readLast
    exact add_nonneg nonneg (sub_nonneg.2 gain)

end Database

namespace Engine

section Runs

variable {σ : Type} [Scalar σ] {engine : Engine σ (Database σ)}

/-- A reading that comes in leaves a cache ordered. -/
theorem isOrdered_ingest [Scalar.IsTransitive σ] (ordered : engine.cache.IsOrdered)
    (reading : Reading σ) : (engine.ingest Database.serve reading).2.cache.IsOrdered := by
  obtain ⟨_, outcome, _, _, came, same⟩ := exists_takeIn_eq
    (Possibility.any_answer Database.serve) engine (do
      let source ← resolveLeaf reading.source
      engine.cache.ingest source reading engine.now)
  change (engine.takeIn Database.serve _).2.cache.IsOrdered
  rw [same]
  rcases (Attempt.yields_bind_iff ..).1 came with ⟨_, _, rfl⟩ | ⟨_, source, _, _, _, rest⟩
  · exact ordered
  · exact ordered.taken (CheckpointCache.taken_of_yields rest)

/-- Every action leaves a cache ordered. -/
theorem isOrdered_act [Scalar.IsTransitive σ] (ordered : engine.cache.IsOrdered)
    (action : Action σ) : (engine.act action).2.cache.IsOrdered := by
  cases action with
  | ingest reading => exact isOrdered_ingest ordered reading
  | evict id => exact ordered.evict id
  | setNow now => exact ordered
  | ask query =>
    obtain ⟨found, events, same, _⟩ := exists_act_ask_eq engine query
    rw [same]
    exact ordered.commit found

end Runs

/-- What an engine keeps to whatever it is told. -/
structure Keeps {σ : Type} [Scalar σ] (engine final : Engine σ (Database σ)) : Prop where
  /-- The configuration stays. -/
  config : final.cache.config = engine.cache.config
  /-- The definitions stay. -/
  catalog : final.progress.world.catalog = engine.progress.world.catalog
  /-- The energy readings are from whole milliseconds. -/
  whole : final.progress.world.IsWhole
  /-- No counter runs backwards from one checkpoint to a later one. -/
  ordered : final.cache.IsOrdered

/-- Whatever an engine over valid definitions is told, with readings from whole milliseconds. -/
theorem keeps_run (actions : List (Action Rat)) {engine : Engine Rat (Database Rat)}
    (valid : engine.progress.world.catalog.IsValid) (whole : engine.progress.world.IsWhole)
    (ordered : engine.cache.IsOrdered)
    (wholeReadings : ∀ reading, Action.ingest reading ∈ actions → reading.instant.IsWholeMilli) :
    engine.Keeps (engine.run actions).2 := by
  induction actions generalizing engine with
  | nil => exact ⟨rfl, rfl, whole, ordered⟩
  | cons action rest ih =>
    have moves := movesTo_act valid action
    have catalog : (engine.act action).2.progress.world.catalog =
        engine.progress.world.catalog := by
      rw [moves.world, Database.catalog_after]
    have wholeAfter : (engine.act action).2.progress.world.IsWhole := by
      rw [moves.world]
      refine whole.after_of_readings fun reading same => wholeReadings reading ?_
      rw [same]
      exact List.mem_cons_self
    have later := ih (catalog ▸ valid) wholeAfter (isOrdered_act ordered action)
      fun reading member => wholeReadings reading (List.mem_cons_of_mem action member)
    exact ⟨later.config.trans moves.config, later.catalog.trans catalog, later.whole, later.ordered⟩

/-- An energy that an engine responds with is not below zero, if the counters of the leaves never
fall, unless the lookups of a leaf may stray past each other. -/
theorem energy_nonneg_of_not_strays {engine : Engine Rat (Database Rat)}
    (ordered : engine.cache.IsOrdered) (whole : engine.progress.world.IsWhole)
    {id : SourceId} {start stop : Instant} (wholeStart : start.IsWholeMilli)
    (wholeStop : stop.IsWholeMilli)
    (steady : ∀ leaf, engine.progress.world.catalog.Defines leaf →
      engine.progress.world.readings.NeverFalls leaf.id .cumulativeEnergy)
    {energy : Rat}
    (responds : (engine.act (.ask (.energy id start stop))).1 = .ok (some energy))
    (firm : ∀ leaves, engine.leaves id = .ok leaves → ∀ flat ∈ leaves,
      ¬ engine.cache.Strays engine.progress.world flat.leaf engine.now start stop) :
    0 ≤ energy := by
  obtain ⟨_, summed⟩ := (act_energy_eq_ok_iff ..).1 responds
  have le : start ≤ stop := Int.not_lt.1 (Database.sumEnergies_eq_ok_iff.1 summed).1
  refine Database.sumEnergies_nonneg summed
    fun leaves flattened flat member first last read readLast => ?_
  have told : engine.leaves id = .ok leaves := (leaves_eq engine id).trans flattened
  have defines := Graph.defines_of_flatten flattened flat member
  have neverFalls := steady flat.leaf defines
  have straight := firm leaves told flat member
  obtain ⟨name, found⟩ := defines
  exact CheckpointCache.first_le_last ordered whole (whole.anchors name flat.leaf found) wholeStart
    wholeStop neverFalls le straight read readLast

/-- After any run of an engine over valid definitions, with all instants on whole milliseconds and
readings whose counters never fall, an energy is not below zero unless the lookups of a leaf may
stray past each other: from a checkpoint that is off the readings, the counter at the start is read
higher than they give it or the one at the end lower, and the ends are not both at checkpoints. With
a clock that goes forward that takes a cache, a reading that is out of order and older than the
window, and, under a policy that revises, a reading that affects more grid instants than may be
brought up to date at once. -/
theorem energy_nonneg_or_strays {database : Database Rat} (valid : database.catalog.IsValid)
    (whole : database.IsWhole) (config : Config) (now : Instant) (actions : List (Action Rat))
    (wholeReadings : ∀ reading, Action.ingest reading ∈ actions → reading.instant.IsWholeMilli)
    {final : Engine Rat (Database Rat)} (runs : (run (new config database now) actions).2 = final)
    (steady : ∀ leaf, database.catalog.Defines leaf →
      final.progress.world.readings.NeverFalls leaf.id .cumulativeEnergy)
    {id : SourceId} {start stop : Instant} (wholeStart : start.IsWholeMilli)
    (wholeStop : stop.IsWholeMilli) {energy : Rat}
    (responds : (final.act (.ask (.energy id start stop))).1 = .ok (some energy)) :
    0 ≤ energy ∨
      (∃ leaves, final.leaves id = .ok leaves ∧ ∃ flat ∈ leaves,
        final.cache.Strays final.progress.world flat.leaf final.now start stop) ∧
      config.cacheEnabled ∧
      ¬ database.AllAlong Database.IsTimely now actions ∧
      (config.lateDataPolicy = .revise →
        ¬ database.AllAlong (Database.Admits config.maxBoundariesPerIngest) now actions) := by
  have sound : (new config database now : Engine Rat (Database Rat)).IsSound :=
    isSound_new valid config database.readings now
  have keeps : (new config database now : Engine Rat (Database Rat)).Keeps
      (run (new config database now) actions).2 :=
    keeps_run actions valid whole (CheckpointCache.isOrdered_new config) wholeReadings
  rw [runs] at keeps
  have steadyFinal : ∀ leaf, final.progress.world.catalog.Defines leaf →
      final.progress.world.readings.NeverFalls leaf.id .cumulativeEnergy := by
    rw [keeps.catalog]
    exact steady
  by_cases strays : ∃ leaves, final.leaves id = .ok leaves ∧ ∃ flat ∈ leaves,
      final.cache.Strays final.progress.world flat.leaf final.now start stop
  · obtain ⟨leaves, told, flat, member, stray⟩ := strays
    obtain ⟨time, leans⟩ : ∃ time,
        final.cache.Leans final.progress.world.readings flat.leaf final.now time :=
      stray.off.elim (fun exceeds => ⟨start, exceeds.1⟩) fun short => ⟨stop, short.1⟩
    have enabled : config.cacheEnabled := by
      have there := leans.cacheEnabled
      rwa [keeps.config] at there
    have unsound : ¬ final.IsSound := fun sound => sound.cache.not_leans leans
    refine Or.inr ⟨⟨leaves, told, flat, member, stray⟩, enabled, fun timely => ?_,
      fun revises admits => ?_⟩
    · exact unsound (runs ▸ (run_of_isTimely actions sound timely).1)
    · have keepsUp : (new config database now : Engine Rat (Database Rat)).KeepsUp
          config.maxBoundariesPerIngest := fun _ => ⟨revises, Nat.le_refl _⟩
      exact unsound (runs ▸ isSound_run_of_admits actions sound keepsUp admits)
  · refine Or.inl (energy_nonneg_of_not_strays keeps.ordered keeps.whole wholeStart wholeStop
      steadyFinal responds fun leaves told flat member stray => ?_)
    exact strays ⟨leaves, told, flat, member, stray⟩

/-- A day on which a reading comes in long after the one that follows it. -/
def lateActions : List (Action Rat) :=
  [.setNow (atMinute 1440), .ingest (hourlyReading 0 0), .ingest (hourlyReading 180 6),
    .ingest (hourlyReading 90 (3 / 2))]

/-- The engine at the end of that day under a policy that freezes. -/
def lateEngine : Engine Rat (Database Rat) :=
  (run (new .standard ⟨.empty, hourlyCatalog⟩ .epoch) lateActions).2

/-- The database of the hourly meter starts out on whole milliseconds. -/
theorem isWhole_hourlyCatalog : (⟨.empty, hourlyCatalog⟩ : Database Rat).IsWhole :=
  ⟨fun _ _ found => isWholeMilli_createdAt found, fun _ _ held => absurd held.1 List.not_mem_nil⟩

/-- The readings of that day are from whole milliseconds. -/
theorem wholeReadings_lateActions :
    ∀ reading, Action.ingest reading ∈ lateActions → reading.instant.IsWholeMilli := by
  intro reading member
  have one : reading = hourlyReading 0 0 ∨ reading = hourlyReading 180 6 ∨
      reading = hourlyReading 90 (3 / 2) := by simpa [lateActions] using member
  rcases one with rfl | rfl | rfl
  · exact isWholeMilli_atMinute 0
  · exact isWholeMilli_atMinute 180
  · exact isWholeMilli_atMinute 90

/-- The counter does not fall over the readings of that day. -/
theorem neverFalls_lateEngine : ∀ leaf, hourlyCatalog.Defines leaf →
    lateEngine.progress.world.readings.NeverFalls leaf.id .cumulativeEnergy := by
  rintro leaf ⟨_, found⟩
  rw [eq_hourlyMeter found]
  exact ReadingStore.neverFalls_of_getD (by decide +kernel)

/-- From a checkpoint that has been frozen to the late reading the counter of that day runs
backwards. -/
theorem energy_lateEngine_neg :
    (⟨.empty, hourlyCatalog⟩ : Database Rat).IsWhole ∧ hourlyCatalog.IsValid ∧
      Instant.epoch ≤ atMinute 1440 ∧
      (∀ reading, Action.ingest reading ∈ lateActions → reading.instant.IsWholeMilli) ∧
      (∀ leaf, hourlyCatalog.Defines leaf →
        lateEngine.progress.world.readings.NeverFalls leaf.id .cumulativeEnergy) ∧
      (atMinute 60).IsWholeMilli ∧ (atMinute 90).IsWholeMilli ∧ atMinute 60 ≤ atMinute 90 ∧
      (lateEngine.act (.ask (.energy "meter" (atMinute 60) (atMinute 90)))).1 =
        .ok (some (-1 / 2)) ∧ (-1 / 2 : Rat) < 0 :=
  ⟨isWhole_hourlyCatalog, isValid_hourlyCatalog, by decide, wholeReadings_lateActions,
    neverFalls_lateEngine, isWholeMilli_atMinute 60, isWholeMilli_atMinute 90, by decide,
    by decide +kernel, by norm_num⟩

/-- That energy is below zero because its lookups stray past each other. -/
theorem strays_lateEngine :
    ∃ leaves, lateEngine.leaves "meter" = .ok leaves ∧ ∃ flat ∈ leaves,
      lateEngine.cache.Strays lateEngine.progress.world flat.leaf lateEngine.now
        (atMinute 60) (atMinute 90) := by
  have responds : (lateEngine.act (.ask (.energy "meter" (atMinute 60) (atMinute 90)))).1 =
      .ok (some (-1 / 2)) := by decide +kernel
  rcases energy_nonneg_or_strays isValid_hourlyCatalog isWhole_hourlyCatalog .standard .epoch
    lateActions wholeReadings_lateActions rfl neverFalls_lateEngine (isWholeMilli_atMinute 60)
    (isWholeMilli_atMinute 90) responds with nonneg | ⟨strays, _⟩
  · exact absurd nonneg (by norm_num)
  · exact strays

end Engine

end Metering
