import Metering.Engine.Queries
import Metering.Proofs.Graph
import Metering.Proofs.Lookup

/-!
# What queries come to

The counter, the energy and the carbon of a source and its mean power have a
value or an error that the definitions and the counters of the leaves settle
(`Database.counterAt`, `Database.sumEnergies`, `Database.averagePower`). Over a
cache a query comes to what the counters that its lookups read make of it. Over
a sound cache, with all instants on whole milliseconds, these are the counters
that the readings give. Whatever answers a query gets, it finds what lookups of
its leaves offer (`CheckpointCache.CanFind`).
-/

namespace Metering

variable {σ : Type} [Scalar σ]

/-- The counters of leaves at instants. -/
abbrev Counters (σ : Type) := Source σ → Instant → Except QueryError σ

namespace Database

/-! ## Queries without a cache -/

/-- The counters that the readings give. -/
def counters (database : Database σ) : Counters σ := fun leaf time =>
  database.readings.valueAt leaf.id time .cumulativeEnergy

/-- The counter of a source, which has to be a leaf. -/
def counterAt (database : Database σ) (counters : Counters σ) (id : SourceId) (time : Instant) :
    Except QueryError σ := do
  let source ← (Graph.resolve id).result database
  if !source.isLeaf then
    throw (source.invalid "counters are only kept for leaf sources")
  counters source time

/-- The energy of a leaf over an interval. -/
def leafEnergy (counters : Counters σ) (leaf : Source σ) (start stop : Instant) :
    Except QueryError σ := do
  let first ← counters leaf start
  let last ← counters leaf stop
  return last - first

/-- The sum over the leaves of what the energy of each counts for. -/
def sumEnergies (database : Database σ) (counters : Counters σ)
    (weigh : Source σ → σ → Except QueryError σ) (id : SourceId) (start stop : Instant) :
    Except QueryError σ := do
  (CheckpointCache.checkInterval start stop).result database
  let leaves ← (Graph.flatten id).result database
  if start = stop then
    return Scalar.zero
  leaves.foldlM (fun total (flat : FlatLeaf σ) => do
    let energy ← leafEnergy counters flat.leaf start stop
    let weighed ← weigh flat.leaf energy
    return total + weighed) Scalar.zero

/-- The mean power of a source over an interval. -/
def averagePower (database : Database σ) (counters : Counters σ) (id : SourceId)
    (start stop : Instant) : Except QueryError σ := do
  (CheckpointCache.checkInterval start stop).result database
  if start = stop then
    throw (.badInterval "average power needs a non-empty interval")
  let energy ← database.sumEnergies counters (fun _ energy => .ok energy) id start stop
  return energy / (Scalar.ofInt (stop.since start).millis /
    Scalar.ofInt CheckpointCache.millisPerHour)

/-- The instants of a database sit on whole milliseconds. -/
structure IsWhole (database : Database σ) : Prop where
  /-- The sources were created at whole milliseconds. -/
  anchors : ∀ id source, database.catalog.get? id = some source → source.createdAt.IsWholeMilli
  /-- The energy readings are from whole milliseconds. -/
  readings : ∀ id reading, database.readings.Carries id .cumulativeEnergy reading →
    reading.instant.IsWholeMilli

end Database

namespace Graph

variable {σ : Type} {possible : Possibility σ} {id : SourceId} {leaf : Source σ}

/-- A leaf is what a source can resolve to, or one of those that it can flatten to. -/
def Reaches (possible : Possibility σ) (id : SourceId) (leaf : Source σ) : Prop :=
  (∃ events, (resolve id).Yields possible events (.ok leaf) ∧ leaf.isLeaf) ∨
    ∃ events leaves, (flatten id).Yields possible events (.ok leaves) ∧
      ∃ flat ∈ leaves, flat.leaf = leaf

/-- The leaves that a source can flatten to can be reached from it. -/
theorem reaches_of_flatten {events : List CacheEvent} {leaves : List (FlatLeaf σ)}
    {flat : FlatLeaf σ} (came : (flatten id).Yields possible events (.ok leaves))
    (member : flat ∈ leaves) : Reaches possible id flat.leaf :=
  Or.inr ⟨events, leaves, came, flat, member, rfl⟩

/-- What can be reached over a database is a definition of its catalog. -/
theorem defines_of_reaches {database : Database σ} (reaches : Reaches (.told database) id leaf) :
    database.catalog.Defines leaf := by
  rcases reaches with ⟨_, resolved, _⟩ | ⟨_, leaves, flattened, flat, member, rfl⟩
  · exact ⟨id, (result_resolve_eq_ok_iff id leaf).1 (Attempt.result_of_yields resolved)⟩
  · exact defines_of_flatten (Attempt.result_of_yields flattened) flat member

end Graph

/-- The minutes of the first days sit on whole milliseconds. -/
theorem isWholeMilli_atMinute (minute : Nat) : (atMinute minute).IsWholeMilli := by
  refine ⟨(minute % 10000 : Nat) * 60000, ?_⟩
  change ((minute % 10000 : Nat) : Int) * 60000000000 =
    1000000 * ((minute % 10000 : Nat) * 60000)
  omega

/-- The hourly meter was created at a whole millisecond. -/
theorem isWholeMilli_createdAt {id : SourceId} {source : Source Rat}
    (found : hourlyCatalog.get? id = some source) : source.createdAt.IsWholeMilli := by
  rw [eq_hourlyMeter found]
  exact ⟨0, rfl⟩

namespace CheckpointCache

variable {cache : CheckpointCache σ} {database : Database σ} {now : Instant}

/-- Adds to a sum what the energy of one more leaf counts for. -/
def addLeaf (cache : CheckpointCache σ) (weigh : Source σ → σ → Except QueryError σ)
    (start stop now : Instant) (sofar : σ × List (Checkpoint σ)) (flat : FlatLeaf σ) :
    Attempt σ (σ × List (Checkpoint σ)) := do
  let (energy, found) ← cache.leafEnergy flat.leaf start stop now sofar.2
  let weighed ← Attempt.ofExcept (weigh flat.leaf energy)
  return (sofar.1 + weighed, found)

/-- A sum over leaves adds one after another. -/
theorem sumEnergies_eq (cache : CheckpointCache σ) (weigh : Source σ → σ → Except QueryError σ)
    (id : SourceId) (start stop now : Instant) :
    cache.sumEnergies weigh id start stop now =
      (do
        checkInterval start stop
        let leaves ← (Graph.flatten id).polled
        if start = stop then
          return ⟨Scalar.zero, []⟩
        let sum ← leaves.foldlM (cache.addLeaf weigh start stop now) (Scalar.zero, [])
        return ⟨sum.1, sum.2.reverse⟩) := rfl

/-! ## What queries ask for -/

omit [Scalar σ] in
/-- Checking an interval asks for nothing. -/
theorem uses_checkInterval (start stop : Instant) :
    (checkInterval start stop : Attempt σ Unit).Uses Request.IsLookup CacheEvent.IsOfLookup := by
  unfold checkInterval
  split
  · exact Attempt.uses_throw _
  · exact Attempt.uses_pure ()

omit [Scalar σ] in
/-- An interval is refused exactly if it ends before it starts. -/
theorem result_checkInterval_eq_ok_iff {start stop : Instant} :
    (checkInterval start stop : Attempt σ Unit).result database = .ok () ↔ start ≤ stop := by
  unfold checkInterval
  split
  · rename_i backwards
    exact iff_of_false (fun same => nomatch same) (Int.not_le.2 backwards)
  · rename_i forwards
    exact iff_of_true rfl (Int.not_lt.1 forwards)

/-- The energy of a leaf only needs lookups. -/
theorem uses_leafEnergy (leaf : Source σ) (start stop : Instant) (found : List (Checkpoint σ)) :
    (cache.leafEnergy leaf start stop now found).Uses Request.IsLookup CacheEvent.IsOfLookup := by
  unfold leafEnergy
  refine (uses_counterAt cache leaf start now).polled.bind fun first => ?_
  exact (uses_counterAt cache leaf stop now).polled.bind fun last => Attempt.uses_pure _

/-- A sum over leaves only needs lookups. -/
theorem uses_sumEnergies (weigh : Source σ → σ → Except QueryError σ) (id : SourceId)
    (start stop : Instant) :
    (cache.sumEnergies weigh id start stop now).Uses Request.IsLookup CacheEvent.IsOfLookup := by
  rw [sumEnergies_eq]
  refine (uses_checkInterval start stop).bind fun _ => ?_
  refine (Graph.uses_flatten id).polled.bind fun leaves => ?_
  split
  · exact Attempt.uses_pure _
  · refine Attempt.Uses.bind (Attempt.Uses.foldlM (fun sofar flat => ?_) _) fun _ =>
      Attempt.uses_pure _
    unfold addLeaf
    refine (uses_leafEnergy flat.leaf start stop sofar.2).bind fun _ => ?_
    exact (Attempt.uses_ofExcept _).bind fun _ => Attempt.uses_pure _

/-- A mean power only needs lookups. -/
theorem uses_averagePower (id : SourceId) (start stop : Instant) :
    (cache.averagePower id start stop now).Uses Request.IsLookup CacheEvent.IsOfLookup := by
  unfold averagePower
  refine (uses_checkInterval start stop).bind fun _ => ?_
  dsimp only
  split
  · exact (Attempt.uses_throw _).bind fun _ => (uses_sumEnergies ..).bind fun _ =>
      Attempt.uses_pure _
  · exact (uses_sumEnergies ..).bind fun _ => Attempt.uses_pure _

/-- A counter only needs lookups. -/
theorem uses_counterQuery (id : SourceId) (time : Instant) :
    (cache.counterQuery id time now).Uses Request.IsLookup CacheEvent.IsOfLookup := by
  unfold counterQuery
  refine (Graph.uses_resolve trivial).polled.bind fun source => ?_
  dsimp only
  split
  · exact (Attempt.uses_throw _).bind fun _ => (uses_counterAt ..).polled.bind fun _ =>
      Attempt.uses_pure _
  · exact (uses_counterAt ..).polled.bind fun _ => Attempt.uses_pure _

/-! ## What queries find -/

/-- A lookup of one of the leaves of a source at one of some instants can offer a checkpoint. -/
def CanFind (cache : CheckpointCache σ) (possible : Possibility σ) (now : Instant) (id : SourceId)
    (times : List Instant) (checkpoint : Checkpoint σ) : Prop :=
  ∃ leaf, Graph.Reaches possible id leaf ∧ ∃ time ∈ times, ∃ events read,
    (cache.counterAt leaf time now).Yields possible events (.ok read) ∧
      read.pending = some checkpoint

section Possible

variable {possible : Possibility σ} {events : List CacheEvent} {id : SourceId}
  {start stop time : Instant} {answer : Answer σ σ}

/-- What is found for a leaf was found before or is offered by a lookup at one of the two ends. -/
theorem canFind_of_leafEnergy {leaf : Source σ} (reaches : Graph.Reaches possible id leaf)
    {found final : List (Checkpoint σ)} {energy : σ}
    (before : ∀ checkpoint ∈ found, cache.CanFind possible now id [start, stop] checkpoint)
    (came : (cache.leafEnergy leaf start stop now found).Yields possible events
      (.ok (energy, final))) :
    ∀ checkpoint ∈ final, cache.CanFind possible now id [start, stop] checkpoint := by
  unfold leafEnergy at came
  obtain ⟨_, first, _, _, cameFirst, rest⟩ := (Attempt.yields_bind_ok_iff ..).1 came
  obtain ⟨_, last, _, _, cameLast, _, same⟩ := (Attempt.yields_bind_ok_iff ..).1 rest
  obtain ⟨_, rfl⟩ := Prod.mk.inj (Except.ok.inj same)
  intro checkpoint member
  rcases List.mem_append.1 member with offered | member
  · exact ⟨leaf, reaches, stop, List.mem_cons_of_mem start List.mem_cons_self, _, last, cameLast,
      Option.mem_toList.1 offered⟩
  · rcases List.mem_append.1 member with offered | member
    · exact ⟨leaf, reaches, start, List.mem_cons_self, _, first, cameFirst,
        Option.mem_toList.1 offered⟩
    · exact before checkpoint member

/-- What a sum over leaves finds is offered by lookups of its leaves. -/
theorem canFind_of_sumEnergies {weigh : Source σ → σ → Except QueryError σ}
    (came : (cache.sumEnergies weigh id start stop now).Yields possible events (.ok answer)) :
    ∀ checkpoint ∈ answer.found, cache.CanFind possible now id [start, stop] checkpoint := by
  rw [sumEnergies_eq] at came
  obtain ⟨_, _, _, _, _, rest⟩ := (Attempt.yields_bind_ok_iff ..).1 came
  obtain ⟨_, leaves, _, _, flattened, rest⟩ := (Attempt.yields_bind_ok_iff ..).1 rest
  split at rest
  · rw [← Except.ok.inj rest.2]
    exact fun checkpoint member => absurd member List.not_mem_nil
  · obtain ⟨_, sum, _, _, summed, _, same⟩ := (Attempt.yields_bind_ok_iff ..).1 rest
    have finds : ∀ checkpoint ∈ sum.2, cache.CanFind possible now id [start, stop] checkpoint := by
      refine Attempt.yields_foldlM_invariant
        (fun sofar : σ × List (Checkpoint σ) =>
          ∀ checkpoint ∈ sofar.2, cache.CanFind possible now id [start, stop] checkpoint)
        (fun sofar flat member _ next holds step => ?_)
        (fun checkpoint member => absurd member List.not_mem_nil) summed
      obtain ⟨_, ⟨energy, later⟩, _, _, came, rest⟩ := (Attempt.yields_bind_ok_iff ..).1 step
      obtain ⟨_, weighed, _, _, _, _, same⟩ := (Attempt.yields_bind_ok_iff ..).1 rest
      rw [← Except.ok.inj same]
      exact canFind_of_leafEnergy (Graph.reaches_of_flatten flattened member) holds came
    rw [← Except.ok.inj same]
    exact fun checkpoint member => finds checkpoint (List.mem_reverse.1 member)

/-- What a mean power finds is offered by lookups of its leaves. -/
theorem canFind_of_averagePower
    (came : (cache.averagePower id start stop now).Yields possible events (.ok answer)) :
    ∀ checkpoint ∈ answer.found, cache.CanFind possible now id [start, stop] checkpoint := by
  unfold averagePower at came
  obtain ⟨_, _, _, _, _, rest⟩ := (Attempt.yields_bind_ok_iff ..).1 came
  dsimp only at rest
  split at rest
  · obtain ⟨_, _, _, _, ⟨_, same⟩, _⟩ := (Attempt.yields_bind_ok_iff ..).1 rest
    cases same
  · obtain ⟨_, total, _, _, summed, _, same⟩ := (Attempt.yields_bind_ok_iff ..).1 rest
    have finds : ∀ checkpoint ∈ total.found, cache.CanFind possible now id [start, stop] checkpoint :=
      canFind_of_sumEnergies summed
    rw [← Except.ok.inj same]
    exact finds

/-- What a counter finds is offered by its lookup. -/
theorem canFind_of_counterQuery
    (came : (cache.counterQuery id time now).Yields possible events (.ok answer)) :
    ∀ checkpoint ∈ answer.found, cache.CanFind possible now id [time] checkpoint := by
  unfold counterQuery at came
  obtain ⟨_, source, _, _, resolved, rest⟩ := (Attempt.yields_bind_ok_iff ..).1 came
  dsimp only at rest
  split at rest
  · obtain ⟨_, _, _, _, ⟨_, same⟩, _⟩ := (Attempt.yields_bind_ok_iff ..).1 rest
    cases same
  · rename_i leaf
    rw [Bool.not_eq_true', Bool.not_eq_false] at leaf
    obtain ⟨_, read, _, _, looked, _, same⟩ := (Attempt.yields_bind_ok_iff ..).1 rest
    rw [← Except.ok.inj same]
    exact fun checkpoint member => ⟨source, Or.inl ⟨_, resolved, leaf⟩, time, List.mem_cons_self, _,
      read, looked, Option.mem_toList.1 member⟩

end Possible

/-- What lookups of definitions offer meets a condition. -/
def Offers (cache : CheckpointCache σ) (database : Database σ) (now : Instant)
    (meets : Checkpoint σ → Prop) : Prop :=
  ∀ leaf, database.catalog.Defines leaf → ∀ time read checkpoint,
    (cache.counterAt leaf time now).result database = .ok read →
      read.pending = some checkpoint → meets checkpoint

/-- What can be found over a database is an offer. -/
theorem Offers.meets {meets : Checkpoint σ → Prop} (offers : cache.Offers database now meets)
    {id : SourceId} {times : List Instant} {checkpoint : Checkpoint σ}
    (finds : cache.CanFind (.told database) now id times checkpoint) : meets checkpoint := by
  obtain ⟨leaf, reaches, time, _, _, read, came, pending⟩ := finds
  exact offers leaf (Graph.defines_of_reaches reaches) time read checkpoint
    (Attempt.result_of_yields came) pending

/-- What lookups offer is backed. -/
theorem offers_isBacked (cache : CheckpointCache σ) (valid : database.catalog.IsValid)
    (now : Instant) : cache.Offers database now (cache.IsBacked database now) :=
  fun _ defines _ _ _ came pending => isBacked_of_pending (valid.get?_id defines) came pending

/-- What lookups offer agrees with the readings. -/
theorem offers_agrees (cache : CheckpointCache σ) (database : Database σ) (now : Instant) :
    cache.Offers database now fun checkpoint =>
      database.readings.Agrees checkpoint.source checkpoint := by
  intro leaf _ time read checkpoint came pending
  obtain ⟨own, _, _, _, _, agrees⟩ := spec_of_pending came pending
  exact own.symm ▸ agrees


/-! ## What queries come to -/

/-- Lookups of definitions at an instant read some counters. -/
def Reads (cache : CheckpointCache σ) (database : Database σ) (now : Instant)
    (counters : Counters σ) (time : Instant) : Prop :=
  ∀ leaf, database.catalog.Defines leaf →
    ((cache.counterAt leaf time now).result database).map CounterRead.value = counters leaf time

/-- Over a sound cache lookups read what the readings give. -/
theorem IsSound.reads {cache : CheckpointCache Rat} {database : Database Rat}
    (sound : cache.IsSound database now) (whole : database.IsWhole) {time : Instant}
    (wholeTime : time.IsWholeMilli) : cache.Reads database now database.counters time := by
  rintro leaf ⟨id, found⟩
  exact sound.map_value_counterAt (whole.anchors id leaf found) (whole.readings leaf.id) wholeTime

variable {counters : Counters σ} {start stop : Instant}

/-- The energy of a leaf is the difference of the counters that its lookups read. -/
theorem result_leafEnergy {leaf : Source σ} (defines : database.catalog.Defines leaf)
    (first : cache.Reads database now counters start)
    (last : cache.Reads database now counters stop) (found : List (Checkpoint σ)) :
    ((cache.leafEnergy leaf start stop now found).result database).map Prod.fst =
      Database.leafEnergy counters leaf start stop := by
  unfold leafEnergy Database.leafEnergy
  simp only [Attempt.result_bind, Attempt.result_polled, ← first leaf defines,
    ← last leaf defines]
  cases (cache.counterAt leaf start now).result database with
  | error error => rfl
  | ok read => cases (cache.counterAt leaf stop now).result database <;> rfl

/-- A leaf adds to a sum what its counters make of it. -/
theorem result_addLeaf (weigh : Source σ → σ → Except QueryError σ) {flat : FlatLeaf σ}
    (defines : database.catalog.Defines flat.leaf) (first : cache.Reads database now counters start)
    (last : cache.Reads database now counters stop) (sofar : σ × List (Checkpoint σ)) :
    ((cache.addLeaf weigh start stop now sofar flat).result database).map Prod.fst = (do
      let energy ← Database.leafEnergy counters flat.leaf start stop
      let weighed ← weigh flat.leaf energy
      return sofar.1 + weighed) := by
  unfold addLeaf
  rw [← result_leafEnergy defines first last sofar.2, Attempt.result_bind]
  cases (cache.leafEnergy flat.leaf start stop now sofar.2).result database with
  | error error => rfl
  | ok found =>
    obtain ⟨energy, later⟩ := found
    simp only [Except.ok_bind, Except.map, Attempt.result_bind, Attempt.result_ofExcept]
    cases weigh flat.leaf energy <;> rfl

/-- A sum over leaves is what the counters make of it. -/
theorem result_sumEnergies (weigh : Source σ → σ → Except QueryError σ) (id : SourceId)
    (first : cache.Reads database now counters start)
    (last : cache.Reads database now counters stop) :
    ((cache.sumEnergies weigh id start stop now).result database).map Answer.value =
      database.sumEnergies counters weigh id start stop := by
  rw [sumEnergies_eq]
  unfold Database.sumEnergies
  simp only [Attempt.result_bind, Attempt.result_polled]
  cases (checkInterval start stop : Attempt σ Unit).result database with
  | error error => rfl
  | ok done =>
    simp only [Except.ok_bind]
    cases flattened : (Graph.flatten id : Attempt σ _).result database with
    | error error => rfl
    | ok leaves =>
      simp only [Except.ok_bind]
      split
      · rfl
      · have step := fun sofar flat (member : flat ∈ leaves) =>
          result_addLeaf weigh (Graph.defines_of_flatten flattened flat member) first last sofar
        rw [Attempt.result_bind, Attempt.result_foldlM]
        refine Eq.trans ?_ (Except.foldlM_map Prod.fst step (Scalar.zero, []))
        cases leaves.foldlM (fun sofar flat =>
          (cache.addLeaf weigh start stop now sofar flat).result database) (Scalar.zero, []) <;> rfl

/-- A mean power is what the counters make of it. -/
theorem result_averagePower (id : SourceId) (first : cache.Reads database now counters start)
    (last : cache.Reads database now counters stop) :
    ((cache.averagePower id start stop now).result database).map Answer.value =
      database.averagePower counters id start stop := by
  have summed := result_sumEnergies (fun _ energy => .ok energy) id first last
  unfold averagePower Database.averagePower
  simp only [Attempt.result_bind]
  cases (checkInterval start stop : Attempt σ Unit).result database with
  | error error => rfl
  | ok done =>
    simp only [Except.ok_bind]
    split
    · rfl
    · rw [← summed, Attempt.result_bind]
      unfold energy
      cases (cache.sumEnergies (fun _ energy => .ok energy) id start stop now).result database <;>
        rfl

/-- A counter is the one that its lookup reads. -/
theorem result_counterQuery (id : SourceId) {time : Instant}
    (reads : cache.Reads database now counters time) :
    ((cache.counterQuery id time now).result database).map Answer.value =
      database.counterAt counters id time := by
  unfold counterQuery Database.counterAt
  simp only [Attempt.result_bind, Attempt.result_polled]
  cases resolved : (Graph.resolve id : Attempt σ _).result database with
  | error error => rfl
  | ok source =>
    simp only [Except.ok_bind]
    split
    · rfl
    · have found := (Graph.result_resolve_eq_ok_iff id source).1 resolved
      rw [← reads source ⟨id, found⟩, Attempt.result_bind, Attempt.result_polled]
      cases (cache.counterAt source time now).result database <;> rfl

end CheckpointCache

end Metering
