import Metering.Proofs.Faults
import Metering.Proofs.Inquiries
import Metering.Proofs.Traversal

/-!
# A virtual source is the sum of its children

An engine adds up what each leaf gives along one flat list. The list of an
intact source is the lists of its children, one after another
(`Database.leavesOf_eq_flatMap`), and a total over lists one after another is the
total of the totals over them (`Except.total_flatMap`). So a quantity of a virtual
source is the total of that of its children, and the first leaf that fails is the
first one of the first child that fails (`Engine.quantityOf_virtual`).
-/

namespace Except

variable {ε α β : Type}

/-- The sum of what comes of the items of a list, up to the first one that fails. -/
def total (share : α → Except ε Rat) (list : List α) : Except ε Rat :=
  (list.mapM share).map List.sum

variable {share : α → Except ε Rat} {list : List α}

/-- Without items nothing is summed up. -/
theorem total_nil (share : α → Except ε Rat) : total share [] = .ok 0 := rfl

/-- A total starts with what comes of the first item. -/
theorem total_cons (share : α → Except ε Rat) (item : α) (rest : List α) :
    total share (item :: rest) =
      share item >>= fun value => (total share rest).map (value + ·) := by
  unfold total
  rw [List.mapM_cons]
  cases share item with
  | error error => rfl
  | ok value =>
    rw [ok_bind, ok_bind]
    cases rest.mapM share with
    | error error => rfl
    | ok values => exact congrArg Except.ok List.sum_cons

/-- A total over what a list is taken to. -/
theorem total_map (share : α → Except ε Rat) (change : β → α) (list : List β) :
    total share (list.map change) = total (fun item => share (change item)) list := by
  unfold total
  rw [List.mapM_map]
  rfl

/-- A single item comes to its own total. -/
theorem total_singleton (share : α → Except ε Rat) (item : α) :
    total share [item] = share item := by
  rw [total_cons, total_nil]
  cases share item with
  | error error => rfl
  | ok value => exact congrArg Except.ok (add_zero value)

/-- Adding up along a list from a start comes to the start and the total. -/
theorem foldlM_add_eq (share : α → Except ε Rat) (list : List α) (start : Rat) :
    list.foldlM (fun sofar item => share item >>= fun value => .ok (sofar + value)) start =
      (total share list).map (start + ·) := by
  induction list generalizing start with
  | nil => exact congrArg Except.ok (add_zero start).symm
  | cons item rest ih =>
    rw [List.foldlM_cons, total_cons]
    cases share item with
    | error error => rfl
    | ok value =>
      simp only [ok_bind, ih]
      cases total share rest with
      | error error => rfl
      | ok others => exact congrArg Except.ok (add_assoc start value others)

/-- Adding up along a list from nothing comes to the total. -/
theorem foldlM_add_zero (share : α → Except ε Rat) (list : List α) :
    list.foldlM (fun sofar item => share item >>= fun value => .ok (sofar + value)) 0 =
      total share list := by
  rw [foldlM_add_eq]
  cases total share list with
  | error error => rfl
  | ok value => exact congrArg Except.ok (zero_add value)

/-- The total over two lists is that over the first and that over the second. -/
theorem total_append (share : α → Except ε Rat) (first second : List α) :
    total share (first ++ second) =
      total share first >>= fun value => (total share second).map (value + ·) := by
  induction first with
  | nil =>
    rw [List.nil_append, total_nil, ok_bind]
    cases total share second with
    | error error => rfl
    | ok value => exact congrArg Except.ok (zero_add value).symm
  | cons item rest ih =>
    rw [List.cons_append, total_cons, total_cons, ih]
    cases share item with
    | error error => rfl
    | ok value =>
      rw [ok_bind, ok_bind]
      cases total share rest with
      | error error => rfl
      | ok others =>
        cases total share second with
        | error error => rfl
        | ok last => exact congrArg Except.ok (add_assoc value others last).symm

/-- The total over lists one after another is the total of the totals over each of them. -/
theorem total_flatMap (share : α → Except ε Rat) (parts : β → List α) (list : List β) :
    total share (list.flatMap parts) = total (fun item => total share (parts item)) list := by
  induction list with
  | nil => rfl
  | cons item rest ih => rw [List.flatMap_cons, total_append, total_cons, ih]

/-- A total over a list only depends on what comes of its items. -/
theorem total_congr {other : α → Except ε Rat} (same : ∀ item ∈ list, share item = other item) :
    total share list = total other list := by
  induction list with
  | nil => rfl
  | cons item rest ih =>
    rw [total_cons, total_cons, same item List.mem_cons_self,
      ih fun later member => same later (List.mem_cons_of_mem item member)]

/-- The total over items of which nothing comes is nothing. -/
theorem total_eq_zero (nothing : ∀ item ∈ list, share item = .ok 0) :
    total share list = .ok 0 := by
  induction list with
  | nil => rfl
  | cons item rest ih =>
    rw [total_cons, nothing item List.mem_cons_self,
      ih fun later member => nothing later (List.mem_cons_of_mem item member)]
    exact congrArg Except.ok (zero_add 0)

/-- There is a total exactly if something comes of each item. -/
theorem exists_total_eq_ok_iff :
    (∃ value, total share list = .ok value) ↔ ∀ item ∈ list, ∃ value, share item = .ok value := by
  rw [← exists_mapM_eq_ok_iff]
  unfold total
  cases list.mapM share with
  | error error => exact iff_of_false (fun ⟨_, same⟩ => nomatch same) fun ⟨_, same⟩ => nomatch same
  | ok values => exact iff_of_true ⟨_, rfl⟩ ⟨_, rfl⟩

/-- A total is the sum of what comes of each item. -/
theorem total_eq_ok {values : List Rat} (each : list.map share = values.map .ok) :
    total share list = .ok values.sum := by
  unfold total
  rw [mapM_eq_ok_iff.2 each]
  rfl

/-- A total fails with the error of the first item that fails. -/
theorem total_eq_error_iff {error : ε} :
    total share list = .error error ↔ IsFirstError error (list.map share) := by
  unfold total
  rw [map_eq_error_iff, mapM_eq_error_iff]

end Except

namespace Metering

variable {σ : Type}

/-! ## The leaves of the children -/

/-- Every leaf has a carbon intensity. -/
theorem Source.exists_carbonIntensity {leaf : Source σ} (isLeaf : leaf.isLeaf) :
    ∃ intensity, leaf.carbonIntensity? = some intensity := by
  unfold Source.isLeaf at isLeaf
  unfold Source.carbonIntensity?
  cases kind : leaf.kind with
  | leaf intensity => exact ⟨intensity, rfl⟩
  | aggregate children =>
    rw [kind] at isLeaf
    cases isLeaf

namespace Catalog

variable {catalog : Catalog σ} {id lower : SourceId} {source leaf : Source σ}
  {positions : List Nat}

/-- Everything that can be reached from a source is defined, and nothing of it is below itself. -/
structure IsIntact (catalog : Catalog σ) (id : SourceId) : Prop where
  /-- What can be reached is defined. -/
  defined : ∀ source, catalog.Reaches id source → (catalog.get? source).isSome
  /-- What can be reached is not below itself. -/
  acyclic : ∀ source, catalog.Reaches id source → ¬ catalog.IsAbove source source

/-- The children of an intact source are intact. -/
theorem IsIntact.below (intact : catalog.IsIntact id) (lists : catalog.Lists id lower) :
    catalog.IsIntact lower where
  defined source reaches := intact.defined source (.head lists reaches)
  acyclic source reaches := intact.acyclic source (.head lists reaches)

/-- A leaf is intact. -/
theorem isIntact_of_isLeaf (defined : catalog.get? id = some source) (isLeaf : source.isLeaf) :
    catalog.IsIntact id := by
  have childless : ∀ other, ¬ catalog.Lists id other := by
    rintro other ⟨again, definedAgain, member⟩
    obtain rfl := Option.some_inj.1 (definedAgain.symm.trans defined)
    rw [Source.children_of_isLeaf isLeaf] at member
    cases member
  have alone : ∀ other, catalog.Reaches id other → id = other := by
    intro other reaches
    rcases reaches.cases_head with same | ⟨child, lists, _⟩
    · exact same
    · exact absurd lists (childless child)
  constructor
  · intro other reaches
    rw [← alone other reaches, defined]
    rfl
  · intro other reaches above
    rw [← alone other reaches] at above
    obtain ⟨child, lists, _⟩ := Relation.TransGen.head'_iff.1 above
    exact childless child lists

/-- No path of an intact source is at fault. -/
theorem IsIntact.not_fault (intact : catalog.IsIntact id) (positions : List Nat)
    (error : QueryError) : ¬ catalog.Fault [] id positions error := by
  intro fault
  rcases exists_fault_iff.1 ⟨positions, error, fault⟩ with
    undefined | ⟨parent, other, reaches, lists, undefined⟩ | ⟨other, reaches, above⟩
  · exact absurd undefined (Option.isSome_iff_ne_none.1 (intact.defined id .refl))
  · exact absurd undefined
      (Option.isSome_iff_ne_none.1 (intact.defined other (reaches.tail lists)))
  · exact intact.acyclic other reaches above

/-- Children at some positions lead from a source to a leaf. -/
def LeadsToLeaf (catalog : Catalog σ) (id : SourceId) (positions : List Nat) (leaf : Source σ) :
    Prop :=
  ∃ ancestors, catalog.LeafAt [] id positions ⟨leaf, ancestors⟩

/-- A source leads to the same leaves at the end of any path. -/
theorem leadsToLeaf_iff (path : List SourceId) :
    catalog.LeadsToLeaf id positions leaf ↔
      ∃ ancestors, catalog.LeafAt path id positions ⟨leaf, ancestors⟩ := by
  constructor
  · rintro ⟨_, ⟨ancestors, leads, _⟩, found, isLeaf⟩
    exact ⟨path ++ ancestors, ⟨ancestors, leads, rfl⟩, found, isLeaf⟩
  · rintro ⟨_, ⟨ancestors, leads, _⟩, found, isLeaf⟩
    exact ⟨[] ++ ancestors, ⟨ancestors, leads, rfl⟩, found, isLeaf⟩

/-- A virtual source leads to the leaves that its children lead to. -/
theorem leadsToLeaf_iff_of_not_isLeaf (defined : catalog.get? id = some source)
    (virtual : source.isLeaf = false) :
    catalog.LeadsToLeaf id positions leaf ↔
      BelowChild source.children catalog.LeadsToLeaf positions leaf := by
  unfold LeadsToLeaf
  simp only [leafAt_iff_of_not_isLeaf defined virtual]
  constructor
  · rintro ⟨ancestors, position, child, rest, same, listed, below⟩
    exact ⟨position, child, rest, same, listed, (leadsToLeaf_iff [id]).2 ⟨ancestors, below⟩⟩
  · rintro ⟨position, child, rest, same, listed, below⟩
    obtain ⟨ancestors, leads⟩ := (leadsToLeaf_iff [id]).1 below
    exact ⟨ancestors, position, child, rest, same, listed, leads⟩

end Catalog

namespace Database

open Catalog

/-- The leaves that a source flattens to, without the paths to them. -/
def leavesOf (database : Database σ) (id : SourceId) : List (Source σ) :=
  match (Graph.flatten id).result database with
  | .ok flats => flats.map FlatLeaf.leaf
  | .error _ => []

variable {database : Database σ} {id : SourceId} {source leaf : Source σ}

/-- The leaves of a source that flattens. -/
theorem leavesOf_eq {flats : List (FlatLeaf σ)}
    (flattened : (Graph.flatten id).result database = .ok flats) :
    database.leavesOf id = flats.map FlatLeaf.leaf := by
  unfold leavesOf
  rw [flattened]

/-- Flattening an intact source tells its leaves in the order of the positions that lead to them. -/
theorem exists_flatten (named : database.catalog.IsNamed) (intact : database.catalog.IsIntact id) :
    ∃ visits : List (List Nat × FlatLeaf σ),
      (Graph.flatten id).result database = .ok (visits.map Prod.snd) ∧
      (visits.Pairwise fun earlier later => earlier.1 < later.1) ∧
      ∀ positions flat, (positions, flat) ∈ visits ↔
        database.catalog.LeafAt [] id positions flat := by
  obtain ⟨visits, outcome, ordered, exactly⟩ :=
    (Graph.surveys_resolve named (Nat.lt_succ_self _) id).exists_visits intact.not_fault
  refine ⟨visits, ?_, ordered, exactly⟩
  rw [Graph.result_flatten, outcome, List.append_nil]
  exact congrArg Except.ok (List.reverse_reverse _)

/-- The leaves of an intact source are all those that it leads to, in order. -/
theorem surveys_leavesOf (named : database.catalog.IsNamed)
    (intact : database.catalog.IsIntact id) {faultAt : List Nat → QueryError → Prop}
    (sound : ∀ positions error, ¬ faultAt positions error) (found : List (Source σ)) :
    Surveys (database.catalog.LeadsToLeaf id) faultAt found
      (.ok ((database.leavesOf id).reverse ++ found)) := by
  obtain ⟨visits, flattened, ordered, exactly⟩ := exists_flatten named intact
  have leaves : database.leavesOf id =
      (visits.map fun visit => (visit.1, visit.2.leaf)).map Prod.snd := by
    rw [leavesOf_eq flattened, List.map_map, List.map_map]
    rfl
  rw [leaves]
  refine .complete (List.pairwise_map.2 ordered) (fun positions leaf => ?_) sound
  rw [List.mem_map]
  constructor
  · rintro ⟨⟨there, flat⟩, member, same⟩
    obtain ⟨rfl, rfl⟩ := Prod.mk.inj same
    exact ⟨flat.ancestors, (exactly _ _).1 member⟩
  · rintro ⟨ancestors, leads⟩
    exact ⟨(positions, ⟨leaf, ancestors⟩), (exactly _ _).2 leads, rfl⟩

/-- Going from child to child and taking in the leaves of each, latest first. -/
theorem foldlM_leavesOf (database : Database σ) (children : List SourceId)
    (found : List (Source σ)) :
    children.foldlM (fun sofar child =>
        (.ok ((database.leavesOf child).reverse ++ sofar) : Except QueryError _)) found =
      .ok ((children.flatMap database.leavesOf).reverse ++ found) := by
  induction children generalizing found with
  | nil => rfl
  | cons child rest ih =>
    rw [List.foldlM_cons, Except.ok_bind, ih, List.flatMap_cons, List.reverse_append,
      List.append_assoc]

/-- The leaves of an intact virtual source are those of its children, one child after another. -/
theorem leavesOf_eq_flatMap (named : database.catalog.IsNamed)
    (intact : database.catalog.IsIntact id) (defined : database.catalog.get? id = some source)
    (virtual : source.isLeaf = false) :
    database.leavesOf id = source.children.flatMap database.leavesOf := by
  -- Both lists are a survey of what the source leads to, and nothing is at fault in either.
  let nowhere : SourceId → List Nat → QueryError → Prop := fun _ _ _ => False
  have sound : ∀ positions error, ¬ BelowChild source.children nowhere positions error := by
    rintro positions error ⟨_, _, _, _, _, impossible⟩
    exact impossible
  have own := surveys_leavesOf named intact sound []
  have leads : database.catalog.LeadsToLeaf id =
      BelowChild source.children database.catalog.LeadsToLeaf :=
    funext₂ fun positions leaf => propext (leadsToLeaf_iff_of_not_isLeaf defined virtual)
  have pass := surveys_foldlM (fun child member found =>
    surveys_leavesOf named (intact.below ⟨source, defined, member⟩)
      (fun positions error => (not_false : ¬ nowhere child positions error)) found) []
  rw [foldlM_leavesOf, ← leads] at pass
  have same := own.unique (fun positions error _ fault => absurd fault (sound positions error)) pass
  have reversed := Except.ok.inj same
  rw [List.append_nil, List.append_nil] at reversed
  exact List.reverse_injective reversed

/-- A leaf is its only leaf. -/
theorem leavesOf_of_isLeaf (defined : database.catalog.get? id = some leaf) (isLeaf : leaf.isLeaf) :
    database.leavesOf id = [leaf] := by
  have resolved := (Graph.result_resolve_eq_ok_iff id leaf).2 defined
  exact leavesOf_eq (Graph.result_flatten_of_isLeaf resolved isLeaf)

end Database

/-! ## What the leaves give -/

/-- The carbon of a leaf is its energy in megawatt hours times its own intensity. -/
theorem CheckpointCache.carbonOf_eq {leaf : Source Rat} {intensity : Rat}
    (known : leaf.carbonIntensity? = some intensity) :
    carbonOf leaf = fun energy => .ok (energy / 1000000 * intensity) := by
  funext energy
  unfold carbonOf
  rw [known]
  rfl

/-- What is added up over the leaves of a source. -/
inductive Quantity where
  /-- Power at an instant. -/
  | power (time : Instant)
  /-- Energy over an interval. -/
  | energy (start stop : Instant)
  /-- Carbon over an interval. -/
  | carbon (start stop : Instant)

namespace Quantity

/-- The inquiry for a quantity of a source. -/
def inquiry (id : SourceId) : Quantity → Inquiry σ σ
  | power time => .power id time
  | energy start stop => .query (.energy id start stop)
  | carbon start stop => .query (.carbon id start stop)

/-- The interval of a quantity does not end before it starts. -/
def IsWellFormed : Quantity → Prop
  | power _ => True
  | energy start stop => start ≤ stop
  | carbon start stop => start ≤ stop

end Quantity

namespace Database

variable {database : Database Rat} {counters : Counters Rat} {id : SourceId} {leaf : Source Rat}
  {leaves : List (FlatLeaf Rat)} {start stop : Instant}

/-- The energy that a leaf gives, which takes no counters over an interval without length. -/
def energyShare (counters : Counters Rat) (start stop : Instant) (leaf : Source Rat) :
    Except QueryError Rat :=
  if start = stop then .ok 0 else leafEnergy counters leaf start stop

/-- What a leaf gives to a quantity of the sources above it. -/
def share (database : Database Rat) (counters : Counters Rat) :
    Quantity → Source Rat → Except QueryError Rat
  | .power time, leaf => database.readings.valueAt leaf.id time .power
  | .energy start stop, leaf => energyShare counters start stop leaf
  | .carbon start stop, leaf => energyShare counters start stop leaf >>=
      CheckpointCache.carbonOf leaf

/-- The share of carbon is the share of energy times the intensity of the leaf. -/
theorem share_carbon {intensity : Rat} (known : leaf.carbonIntensity? = some intensity) :
    database.share counters (.carbon start stop) leaf =
      (database.share counters (.energy start stop) leaf).map
        fun energy => energy / 1000000 * intensity := by
  show energyShare counters start stop leaf >>= CheckpointCache.carbonOf leaf =
    (energyShare counters start stop leaf).map _
  rw [CheckpointCache.carbonOf_eq known]
  cases energyShare counters start stop leaf with
  | error error => rfl
  | ok energy => rfl

/-- A sum over leaves is the total of what they give, if no energy counts for nothing. -/
theorem sumEnergies_eq_total {weigh : Source Rat → Rat → Except QueryError Rat}
    (forwards : start ≤ stop) (flattened : (Graph.flatten id).result database = .ok leaves)
    (nothing : ∀ flat ∈ leaves, weigh flat.leaf 0 = .ok 0) :
    database.sumEnergies counters weigh id start stop =
      Except.total (fun leaf => energyShare counters start stop leaf >>= weigh leaf)
        (leaves.map FlatLeaf.leaf) := by
  unfold sumEnergies
  rw [CheckpointCache.result_checkInterval_eq_ok_iff.2 forwards, flattened, Except.ok_bind,
    Except.ok_bind]
  by_cases still : start = stop
  · rw [if_pos still]
    refine (Except.total_eq_zero fun leaf member => ?_).symm
    obtain ⟨flat, among, rfl⟩ := List.mem_map.1 member
    unfold energyShare
    rw [if_pos still, Except.ok_bind, nothing flat among]
  · have moving : energyShare counters start stop = fun leaf =>
        leafEnergy counters leaf start stop := funext fun leaf => if_neg still
    rw [if_neg still, moving, ← Except.foldlM_add_zero, List.foldlM_map]
    simp only [bind_assoc]
    rfl

/-- A power is the total of what the leaves give. -/
theorem result_power_eq_total {time : Instant}
    (flattened : (Graph.flatten id).result database = .ok leaves) :
    ((CheckpointCache.power id time).result database).map Answer.value =
      Except.total (database.share counters (.power time)) (leaves.map FlatLeaf.leaf) := by
  unfold CheckpointCache.power
  rw [← Except.foldlM_add_zero, List.foldlM_map]
  simp only [Attempt.result_bind, Attempt.result_polled, flattened, Except.ok_bind,
    Attempt.result_foldlM, Bracket.result_valueAt, Attempt.result_pure]
  show Except.map Answer.value (leaves.foldlM (fun total flat =>
    database.share counters (.power time) flat.leaf >>= fun value => .ok (total + value)) 0 >>=
      fun total => .ok ⟨total, []⟩) = _
  cases leaves.foldlM (fun total flat =>
    database.share counters (.power time) flat.leaf >>= fun value => .ok (total + value)) 0 with
  | error error => rfl
  | ok total => rfl

end Database

namespace Engine

variable {engine : Engine Rat (Database Rat)} {limits : Limits} {quantity : Quantity}
  {id : SourceId} {source : Source Rat}

/-- What an engine over a database answers when it is asked for a quantity of a source. -/
def quantityOf (engine : Engine Rat (Database Rat)) (limits : Limits) (quantity : Quantity)
    (id : SourceId) : Except QueryError Rat :=
  (engine.inquire Database.serve limits (quantity.inquiry id)).1

/-- What an engine answers is the total of what the leaves of an intact source give. -/
theorem quantityOf_eq_total (open_ : limits.check engine.progress.elapsed = none)
    (named : engine.progress.world.catalog.IsNamed)
    (wellFormed : quantity.IsWellFormed) (intact : engine.progress.world.catalog.IsIntact id) :
    engine.quantityOf limits quantity id =
      Except.total (engine.progress.world.share engine.countersRead quantity)
        (engine.progress.world.leavesOf id) := by
  obtain ⟨visits, flattened, _, exactly⟩ := Database.exists_flatten named intact
  unfold quantityOf
  rw [inquire_fst open_, Database.leavesOf_eq flattened]
  cases quantity with
  | power time => exact Database.result_power_eq_total flattened
  | energy start stop =>
    have summed := CheckpointCache.result_sumEnergies (fun _ energy => .ok energy) id
      (engine.reads_countersRead start) (engine.reads_countersRead stop)
    refine summed.trans ((Database.sumEnergies_eq_total wellFormed flattened
      fun _ _ => rfl).trans ?_)
    exact Except.total_congr fun leaf _ => bind_pure _
  | carbon start stop =>
    have summed := CheckpointCache.result_sumEnergies CheckpointCache.carbonOf id
      (engine.reads_countersRead start) (engine.reads_countersRead stop)
    refine summed.trans (Database.sumEnergies_eq_total wellFormed flattened fun flat member => ?_)
    obtain ⟨⟨positions, _⟩, among, rfl⟩ := List.mem_map.1 member
    obtain ⟨intensity, known⟩ := Source.exists_carbonIntensity ((exactly _ _).1 among).isLeaf
    rw [CheckpointCache.carbonOf_eq known]
    show Except.ok (0 / 1000000 * intensity) = .ok 0
    rw [zero_div, zero_mul]

/-- A quantity of a leaf is what it gives to the sources above it. -/
theorem quantityOf_leaf (open_ : limits.check engine.progress.elapsed = none)
    (named : engine.progress.world.catalog.IsNamed) (wellFormed : quantity.IsWellFormed)
    (defined : engine.progress.world.catalog.get? id = some source) (isLeaf : source.isLeaf) :
    engine.quantityOf limits quantity id =
      engine.progress.world.share engine.countersRead quantity source := by
  have intact := Catalog.isIntact_of_isLeaf defined isLeaf
  rw [quantityOf_eq_total open_ named wellFormed intact,
    Database.leavesOf_of_isLeaf defined isLeaf, Except.total_singleton]

/-- A quantity of an intact virtual source is the total of that of its children. -/
theorem quantityOf_eq_total_children (open_ : limits.check engine.progress.elapsed = none)
    (named : engine.progress.world.catalog.IsNamed) (wellFormed : quantity.IsWellFormed)
    (intact : engine.progress.world.catalog.IsIntact id)
    (defined : engine.progress.world.catalog.get? id = some source)
    (virtual : source.isLeaf = false) :
    engine.quantityOf limits quantity id =
      Except.total (engine.quantityOf limits quantity) source.children := by
  rw [quantityOf_eq_total open_ named wellFormed intact,
    Database.leavesOf_eq_flatMap named intact defined virtual, Except.total_flatMap]
  refine Except.total_congr fun child member => ?_
  have below := intact.below ⟨source, defined, member⟩
  exact (quantityOf_eq_total open_ named wellFormed below).symm

/-- A quantity of an intact source is the total of that of the leaves that it flattens to. -/
theorem exists_leaves_quantityOf (open_ : limits.check engine.progress.elapsed = none)
    (named : engine.progress.world.catalog.IsNamed)
    (intact : engine.progress.world.catalog.IsIntact id) :
    ∃ leaves, engine.leaves id = .ok leaves ∧
      (∀ flat ∈ leaves, engine.progress.world.catalog.get? flat.leaf.id = some flat.leaf ∧
        flat.leaf.isLeaf) ∧
      ∀ quantity : Quantity, quantity.IsWellFormed → engine.quantityOf limits quantity id =
        Except.total (fun flat : FlatLeaf Rat => engine.quantityOf limits quantity flat.leaf.id)
          leaves := by
  obtain ⟨visits, flattened, _, exactly⟩ := Database.exists_flatten named intact
  have each : ∀ flat ∈ visits.map Prod.snd,
      engine.progress.world.catalog.get? flat.leaf.id = some flat.leaf ∧ flat.leaf.isLeaf := by
    intro flat member
    obtain ⟨⟨positions, _⟩, among, rfl⟩ := List.mem_map.1 member
    have leafAt := (exactly _ _).1 among
    exact ⟨leafAt.defined, leafAt.isLeaf⟩
  refine ⟨visits.map Prod.snd, (leaves_eq engine id).trans flattened, each,
    fun quantity wellFormed => ?_⟩
  rw [quantityOf_eq_total open_ named wellFormed intact, Database.leavesOf_eq flattened,
    Except.total_map]
  refine Except.total_congr fun flat member => ?_
  obtain ⟨defined, isLeaf⟩ := each flat member
  exact (quantityOf_leaf open_ named wellFormed defined isLeaf).symm

/-- Over any readings and any checkpoints, a quantity of a virtual source is known exactly if it is
known for each of its children, and is then their sum, each counted as often as it is listed. Where
some are not known, it fails with the error of the first child that fails, which is that of the
first leaf that fails in the order in which the source flattens. The carbon of a leaf is its energy
in megawatt hours times its own intensity. -/
theorem quantityOf_virtual (open_ : limits.check engine.progress.elapsed = none)
    (named : engine.progress.world.catalog.IsNamed)
    (intact : engine.progress.world.catalog.IsIntact id)
    (defined : engine.progress.world.catalog.get? id = some source)
    (virtual : source.isLeaf = false) (wellFormed : quantity.IsWellFormed) :
    ((∃ value, engine.quantityOf limits quantity id = .ok value) ↔
      ∀ child ∈ source.children, ∃ value, engine.quantityOf limits quantity child = .ok value) ∧
    (∀ values : List Rat, source.children.map (engine.quantityOf limits quantity) = values.map .ok →
      engine.quantityOf limits quantity id = .ok values.sum) ∧
    (∀ error, engine.quantityOf limits quantity id = .error error ↔
      Except.IsFirstError error (source.children.map (engine.quantityOf limits quantity))) ∧
    ∃ leaves, engine.leaves id = .ok leaves ∧
      (∀ error, engine.quantityOf limits quantity id = .error error ↔
        Except.IsFirstError error
          (leaves.map fun flat => engine.quantityOf limits quantity flat.leaf.id)) ∧
      ∀ flat ∈ leaves, ∃ intensity, flat.leaf.carbonIntensity? = some intensity ∧
        ∀ start stop, start ≤ stop →
          engine.quantityOf limits (.carbon start stop) flat.leaf.id =
            (engine.quantityOf limits (.energy start stop) flat.leaf.id).map
              fun energy => energy / 1000000 * intensity := by
  obtain ⟨leaves, flattened, each, total⟩ := exists_leaves_quantityOf open_ named intact
  have failsWith (error : QueryError) : engine.quantityOf limits quantity id = .error error ↔
      Except.IsFirstError error
        (leaves.map fun flat => engine.quantityOf limits quantity flat.leaf.id) := by
    rw [total quantity wellFormed]
    exact Except.total_eq_error_iff
  have weighed : ∀ flat ∈ leaves, ∃ intensity, flat.leaf.carbonIntensity? = some intensity ∧
      ∀ start stop, start ≤ stop →
        engine.quantityOf limits (.carbon start stop) flat.leaf.id =
          (engine.quantityOf limits (.energy start stop) flat.leaf.id).map
            fun energy => energy / 1000000 * intensity := by
    intro flat member
    obtain ⟨definedLeaf, isLeaf⟩ := each flat member
    obtain ⟨intensity, known⟩ := Source.exists_carbonIntensity isLeaf
    refine ⟨intensity, known, fun start stop forwards => ?_⟩
    have carbon : (Quantity.carbon start stop).IsWellFormed := forwards
    have energy : (Quantity.energy start stop).IsWellFormed := forwards
    rw [quantityOf_leaf open_ named carbon definedLeaf isLeaf,
      quantityOf_leaf open_ named energy definedLeaf isLeaf]
    exact Database.share_carbon known
  have added := quantityOf_eq_total_children open_ named wellFormed intact defined virtual
  refine ⟨?_, fun values children => ?_, fun error => ?_, leaves, flattened, failsWith, weighed⟩
  · rw [added]
    exact Except.exists_total_eq_ok_iff
  · rw [added]
    exact Except.total_eq_ok children
  · rw [added]
    exact Except.total_eq_error_iff

/-- The house with two wings, whose meter counts three watt hours in the first hour. -/
def wingsHour : Engine Rat (Database Rat) :=
  .new .standard ⟨⟨Registry.empty.insert "meter" (.ofList [hourlyReading 0 0, hourlyReading 60 3])⟩,
    wingsEngine.progress.world.catalog⟩ (atMinute 1440)

/-- Everything in the house is defined, and nothing is below itself. -/
theorem isIntact_wingsHour : wingsHour.progress.world.catalog.IsIntact "house" := by
  have closed : ∀ parent child, wingsHour.progress.world.catalog.Lists parent child →
      (wingsHour.progress.world.catalog.get? child).isSome :=
    Catalog.forall_lists_of_entries (by decide)
  have falls : ∀ parent child, wingsHour.progress.world.catalog.Lists parent child →
      heightInHouse child < heightInHouse parent :=
    Catalog.forall_lists_of_entries (by decide)
  exact ⟨fun source => Catalog.isSome_of_reaches closed rfl,
    fun source _ => Catalog.not_isAbove_self heightInHouse falls⟩

/-- In the first hour the meter counts once for one wing and twice for the other, and three times
for the house. After that the house is out of range where the first wing is. -/
theorem quantityOf_wingsHour :
    let amount := wingsHour.quantityOf .none
    let hour := Quantity.energy (atMinute 0) (atMinute 60)
    let later := Quantity.energy (atMinute 60) (atMinute 90)
    ["left", "right"].map (amount hour) = [.ok 3, .ok 6] ∧
      amount hour "house" = .ok [3, 6].sum ∧
      Except.IsFirstError (.outOfRange "meter" (atMinute 90))
        (["left", "right"].map (amount later)) ∧
      amount later "house" = .error (.outOfRange "meter" (atMinute 90)) := by
  intro amount hour later
  have open_ : Limits.none.check wingsHour.progress.elapsed = none := rfl
  have named : wingsHour.progress.world.catalog.IsNamed := isBuilt_wingsEngine.isNamed
  have ordered : hour.IsWellFormed := (by decide : atMinute 0 ≤ atMinute 60)
  have orderedLater : later.IsWellFormed := (by decide : atMinute 60 ≤ atMinute 90)
  have children : ["left", "right"].map (amount hour) = [.ok 3, .ok 6] := by decide +kernel
  have fails : ["left", "right"].map (amount later) =
      [.error (.outOfRange "meter" (atMinute 90)), .error (.outOfRange "meter" (atMinute 90))] := by
    decide +kernel
  have first : Except.IsFirstError (.outOfRange "meter" (atMinute 90))
      (["left", "right"].map (amount later)) :=
    fails ▸ Except.isFirstError_error_cons_iff.2 rfl
  obtain ⟨_, sums, _⟩ :=
    quantityOf_virtual open_ named isIntact_wingsHour rfl rfl ordered
  obtain ⟨_, _, failsWith, _⟩ :=
    quantityOf_virtual open_ named isIntact_wingsHour rfl rfl orderedLater
  exact ⟨children, sums [3, 6] children, first, (failsWith _).2 first⟩

end Engine

end Metering
