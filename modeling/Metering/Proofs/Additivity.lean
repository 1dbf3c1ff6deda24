import Metering.Proofs.Purity

/-!
# Adjacent periods add up

The energy of a source over an interval is the sum over its leaves of the
difference of two counters, so that the counter at an instant in between cancels
out (`Database.sumEnergies_add`). The counter may come from the readings in one
query and from a checkpoint that the first query has left behind in another, but
queries leave no trace in each other, and the energies that one engine responds
with, in whatever order it is asked, add up (`Engine.energies_add`).
-/

namespace Metering

namespace Database

section Sums

variable {σ : Type} [Scalar σ]

/-- Adds the energy of one more leaf to a sum. -/
def addEnergy (counters : Counters σ) (start stop : Instant) (total : σ) (flat : FlatLeaf σ) :
    Except QueryError σ := do
  let energy ← leafEnergy counters flat.leaf start stop
  return total + energy

/-- A sum grows by the difference of a leaf's counters, if it has both of them. -/
theorem addEnergy_eq_ok_iff {counters : Counters σ} {start stop : Instant} {total next : σ}
    {flat : FlatLeaf σ} :
    addEnergy counters start stop total flat = .ok next ↔
      ∃ first last, counters flat.leaf start = .ok first ∧ counters flat.leaf stop = .ok last ∧
        total + (last - first) = next := by
  unfold addEnergy leafEnergy
  cases counters flat.leaf start with
  | error error => simp
  | ok first =>
    cases counters flat.leaf stop with
    | error error => simp
    | ok last => simp [pure, Except.pure]

/-- A sum of energies has a value exactly if the interval does not end before it starts and the
source has leaves, which all have energies unless the interval is empty. -/
theorem sumEnergies_eq_ok_iff {database : Database σ} {counters : Counters σ} {id : SourceId}
    {start stop : Instant} {total : σ} :
    database.sumEnergies counters (fun _ energy => .ok energy) id start stop = .ok total ↔
      ¬ stop < start ∧ ∃ leaves, (Graph.flatten id).result database = .ok leaves ∧
        if start = stop then Scalar.zero = total
        else leaves.foldlM (addEnergy counters start stop) Scalar.zero = .ok total := by
  have forwards : (CheckpointCache.checkInterval start stop : Attempt σ Unit).result database =
      .ok () ↔ ¬ stop < start :=
    CheckpointCache.result_checkInterval_eq_ok_iff.trans Int.not_lt.symm
  unfold sumEnergies
  rw [Except.bind_eq_ok_iff]
  constructor
  · rintro ⟨_, checked, rest⟩
    obtain ⟨leaves, flattened, summed⟩ := Except.bind_eq_ok_iff.1 rest
    refine ⟨forwards.1 checked, leaves, flattened, ?_⟩
    split at summed
    · rename_i still
      rw [if_pos still]
      exact Except.ok.inj summed
    · rename_i moves
      rw [if_neg moves]
      exact summed
  · rintro ⟨ordered, leaves, flattened, summed⟩
    refine ⟨(), forwards.2 ordered, Except.bind_eq_ok_iff.2 ⟨leaves, flattened, ?_⟩⟩
    by_cases still : start = stop
    · rw [if_pos still] at summed ⊢
      exact congrArg Except.ok summed
    · rw [if_neg still] at summed ⊢
      exact summed

end Sums

variable {database : Database Rat} {counters : Counters Rat} {id : SourceId}
  {start middle stop : Instant}

/-- Along the leaves of a source the counters in between cancel out. -/
theorem foldlM_addEnergy_add {leaves : List (FlatLeaf Rat)} {before after first second : Rat}
    (summedFirst : leaves.foldlM (addEnergy counters start middle) before = .ok first)
    (summedSecond : leaves.foldlM (addEnergy counters middle stop) after = .ok second) :
    leaves.foldlM (addEnergy counters start stop) (before + after) = .ok (first + second) := by
  induction leaves generalizing before after with
  | nil =>
    have same : before = first := Except.ok.inj summedFirst
    have sameSecond : after = second := Except.ok.inj summedSecond
    rw [same, sameSecond]
    rfl
  | cons flat rest ih =>
    rw [List.foldlM_cons, Except.bind_eq_ok_iff] at summedFirst summedSecond
    obtain ⟨nextFirst, addedFirst, restFirst⟩ := summedFirst
    obtain ⟨nextSecond, addedSecond, restSecond⟩ := summedSecond
    obtain ⟨low, between, atStart, atMiddle, grownFirst⟩ := addEnergy_eq_ok_iff.1 addedFirst
    obtain ⟨again, high, atMiddleAgain, atStop, grownSecond⟩ := addEnergy_eq_ok_iff.1 addedSecond
    have one : between = again := Except.ok.inj (atMiddle.symm.trans atMiddleAgain)
    have grown : before + after + (high - low) = nextFirst + nextSecond := by
      rw [← grownFirst, ← grownSecond, one]
      ring
    have added : addEnergy counters start stop (before + after) flat =
        .ok (nextFirst + nextSecond) :=
      addEnergy_eq_ok_iff.2 ⟨low, high, atStart, atStop, grown⟩
    rw [List.foldlM_cons, added]
    exact ih restFirst restSecond

/-- The energies of a source over two intervals, of which the second starts where the first stops,
add up to the energy over both. -/
theorem sumEnergies_add {first second : Rat}
    (summedFirst : database.sumEnergies counters (fun _ energy => .ok energy) id start middle =
      .ok first)
    (summedSecond : database.sumEnergies counters (fun _ energy => .ok energy) id middle stop =
      .ok second) :
    database.sumEnergies counters (fun _ energy => .ok energy) id start stop =
      .ok (first + second) := by
  obtain ⟨forwards, leaves, flattened, total⟩ := sumEnergies_eq_ok_iff.1 summedFirst
  obtain ⟨onwards, others, flattenedAgain, totalSecond⟩ := sumEnergies_eq_ok_iff.1 summedSecond
  have same : others = leaves := Except.ok.inj (flattenedAgain.symm.trans flattened)
  by_cases still : start = middle
  · rw [if_pos still] at total
    have none_ : first = 0 := total.symm
    rw [none_, zero_add, still]
    exact summedSecond
  · by_cases stays : middle = stop
    · rw [if_pos stays] at totalSecond
      have none_ : second = 0 := totalSecond.symm
      rw [none_, add_zero, ← stays]
      exact summedFirst
    · rw [Instant.lt_iff, Int.not_lt] at forwards onwards
      have earlier : start.nanos ≠ middle.nanos := fun same => still (Instant.ext same)
      have later : start.nanos < stop.nanos := by omega
      have ordered : ¬ stop < start := by
        rw [Instant.lt_iff]
        omega
      have apart : start ≠ stop := Instant.ne_of_lt later
      rw [if_neg still] at total
      rw [if_neg stays, same] at totalSecond
      have summed := foldlM_addEnergy_add total totalSecond
      have nothing : (Scalar.zero + Scalar.zero : Rat) = Scalar.zero := zero_add _
      rw [nothing] at summed
      refine sumEnergies_eq_ok_iff.2 ⟨ordered, leaves, flattened, ?_⟩
      rw [if_neg apart]
      exact summed

end Database

namespace Engine

section Energy

variable {σ : Type} [Scalar σ]

/-- An engine responds with an energy exactly if there is time and the counters that it reads add up
to it. -/
theorem act_energy_eq_ok_iff (engine : Engine σ (Database σ)) (id : SourceId)
    (start stop : Instant) (energy : σ) :
    (engine.act (.ask (.energy id start stop))).1 = .ok (some energy) ↔
      engine.timeUp? = none ∧ engine.progress.world.sumEnergies engine.countersRead
        (fun _ energy => .ok energy) id start stop = .ok energy := by
  have reads : ∀ time ∈ (Query.energy id start stop).instants,
      engine.cache.Reads engine.progress.world engine.now engine.countersRead time :=
    fun time _ => engine.reads_countersRead time
  have wraps (outcome : Except QueryError σ) :
      outcome.map some = .ok (some energy) ↔ outcome = .ok energy := by
    cases outcome with
    | error error => simp only [Except.map, reduceCtorEq]
    | ok value => simp only [Except.map, Except.ok.injEq, Option.some_inj]
  rw [act_ask reads, wraps]
  cases engine.timeUp? with
  | some interruption =>
    have refused : ((Query.energy id start stop).guard >>= fun _ =>
        (.error interruption.toQueryError : Except QueryError σ)) ≠ .ok energy := by
      intro came
      obtain ⟨_, _, same⟩ := Except.bind_eq_ok_iff.1 came
      cases same
    exact iff_of_false refused fun inTime => absurd inTime.1 (Option.some_ne_none interruption)
  | none => exact ⟨fun came => ⟨rfl, came⟩, And.right⟩

end Energy

/-- The responses of an engine to queries that are asked one after another, each beside its
query. -/
def responses {σ : Type} [Scalar σ] (engine : Engine σ (Database σ)) (queries : List Query) :
    List (Query × Except QueryError (Option σ)) :=
  queries.zip (engine.run (queries.map Action.ask)).1

/-- What stands beside a query is its response alone. -/
theorem eq_of_mem_responses {engine : Engine Rat (Database Rat)}
    (whole : engine.progress.world.IsWhole) {queries : List Query}
    (wholeQueries : ∀ query ∈ queries, query.IsWhole) {query : Query}
    {response : Except QueryError (Option Rat)}
    (asked : (query, response) ∈ engine.responses queries) :
    (engine.act (.ask query)).1 = response := by
  unfold responses at asked
  rw [run_asks engine whole wholeQueries] at asked
  have each : queries.zip (queries.map fun query => (engine.act (.ask query)).1) =
      queries.map fun query => (query, (engine.act (.ask query)).1) := by
    rw [List.zip_map_right, List.zip_eq_zipWith, List.zipWith_self, List.map_map]
    rfl
  rw [each] at asked
  obtain ⟨other, _, same⟩ := List.mem_map.1 asked
  obtain ⟨rfl, responds⟩ := Prod.mk.inj same
  exact responds

/-- Among the responses of an engine to some queries, the energies of a source over two intervals,
of which the second starts where the first stops, add up to the energy over both of them, whatever
else is asked and in whatever order, over any readings and any checkpoints. -/
theorem energies_add (engine : Engine Rat (Database Rat)) (whole : engine.progress.world.IsWhole)
    {queries : List Query} (wholeQueries : ∀ query ∈ queries, query.IsWhole)
    {id : SourceId} {start middle stop : Instant} {first second : Rat}
    {response : Except QueryError (Option Rat)}
    (askedFirst : (.energy id start middle, .ok (some first)) ∈ engine.responses queries)
    (askedSecond : (.energy id middle stop, .ok (some second)) ∈ engine.responses queries)
    (askedBoth : (.energy id start stop, response) ∈ engine.responses queries) :
    response = .ok (some (first + second)) := by
  have respondsFirst := eq_of_mem_responses whole wholeQueries askedFirst
  have respondsSecond := eq_of_mem_responses whole wholeQueries askedSecond
  have respondsBoth := eq_of_mem_responses whole wholeQueries askedBoth
  obtain ⟨inTime, summedFirst⟩ := (act_energy_eq_ok_iff ..).1 respondsFirst
  obtain ⟨_, summedSecond⟩ := (act_energy_eq_ok_iff ..).1 respondsSecond
  have summed := Database.sumEnergies_add summedFirst summedSecond
  rw [← respondsBoth]
  exact (act_energy_eq_ok_iff ..).2 ⟨inTime, summed⟩

/-- An engine whose checkpoint is off the line of its readings is asked for two periods and for
both together between them. The second period starts from that checkpoint and the first one does
not. -/
theorem energies_frozenEngine :
    let first := Query.energy "meter" (atMinute 70) (atMinute 135)
    let second := Query.energy "meter" (atMinute 135) (atMinute 150)
    let both := Query.energy "meter" (atMinute 70) (atMinute 150)
    let responses := frozenEngine.responses [second, both, first]
    frozenEngine.progress.world.IsWhole ∧ (∀ query ∈ [second, both, first], query.IsWhole) ∧
    (first, .ok (some (35 / 12))) ∈ responses ∧ (second, .ok (some (1 / 4))) ∈ responses ∧
    ∃ response, (both, response) ∈ responses ∧ response = .ok (some (35 / 12 + 1 / 4)) := by
  intro first second both responses
  have wholeQueries : ∀ query ∈ [second, both, first], query.IsWhole :=
    List.forall_mem_cons.2 ⟨⟨isWholeMilli_atMinute 135, isWholeMilli_atMinute 150⟩,
      List.forall_mem_cons.2 ⟨⟨isWholeMilli_atMinute 70, isWholeMilli_atMinute 150⟩,
        List.forall_mem_singleton.2 ⟨isWholeMilli_atMinute 70, isWholeMilli_atMinute 135⟩⟩⟩
  have told : (frozenEngine.run ([second, both, first].map Action.ask)).1 =
      [.ok (some (1 / 4)), .ok (some (19 / 6)), .ok (some (35 / 12))] := by decide +kernel
  have each : responses = [(second, .ok (some (1 / 4))), (both, .ok (some (19 / 6))),
      (first, .ok (some (35 / 12)))] := congrArg [second, both, first].zip told
  have askedFirst : (first, .ok (some (35 / 12))) ∈ responses := each ▸ by simp
  have askedSecond : (second, .ok (some (1 / 4))) ∈ responses := each ▸ by simp
  have askedBoth : (both, .ok (some (19 / 6))) ∈ responses := each ▸ by simp
  exact ⟨isWhole_frozenEngine, wholeQueries, askedFirst, askedSecond, _, askedBoth,
    energies_add frozenEngine isWhole_frozenEngine wholeQueries askedFirst askedSecond askedBoth⟩

end Engine

end Metering
