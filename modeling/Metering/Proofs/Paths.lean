import Mathlib.Data.List.Chain
import Mathlib.Logic.Relation
import Metering.Graph
import Metering.Proofs.Catalog

/-!
# Paths through a catalog

A path from a source is told by the positions of the children that it takes
(`Catalog.Leads`), and paths are in the lexicographic order of their positions.
A path is at fault at its first step to a source that it has passed before or
that has no definition (`Catalog.Fault`). There is a path at fault exactly if
the source has no definition, a child that can be reached has none, or a source
that can be reached is below itself (`exists_fault_iff`).
-/

namespace Metering

namespace Source

variable {σ : Type} {source : Source σ}

/-- A leaf has no children. -/
theorem children_of_isLeaf (leaf : source.isLeaf) : source.children = [] := by
  unfold isLeaf at leaf
  unfold children
  cases kind : source.kind with
  | leaf carbonIntensity => rfl
  | aggregate children =>
    rw [kind] at leaf
    cases leaf

end Source

namespace Catalog

variable {σ : Type} {catalog : Catalog σ}

/-- Every definition is under its own id. -/
def IsNamed (catalog : Catalog σ) : Prop :=
  ∀ id source, catalog.get? id = some source → source.id = id

/-- The definition of a source lists another source as a child. -/
def Lists (catalog : Catalog σ) (parent child : SourceId) : Prop :=
  ∃ source, catalog.get? parent = some source ∧ child ∈ source.children

/-- One source is another or is reached from it through children. -/
abbrev Reaches (catalog : Catalog σ) : SourceId → SourceId → Prop :=
  Relation.ReflTransGen catalog.Lists

/-- One source is reached from another through children, in one step or more. -/
abbrev IsAbove (catalog : Catalog σ) : SourceId → SourceId → Prop :=
  Relation.TransGen catalog.Lists

/-- Children at some positions lead from a source past its descendants, itself first, to a last
one. -/
inductive Leads (catalog : Catalog σ) :
    SourceId → List Nat → List SourceId → SourceId → Prop
  /-- A source leads to itself. -/
  | here (id : SourceId) : Leads catalog id [] [] id
  /-- A source leads where the child at a position leads. -/
  | down {id child last : SourceId} {source : Source σ} {position : Nat} {positions : List Nat}
    {ancestors : List SourceId} (defined : catalog.get? id = some source)
    (listed : source.children[position]? = some child)
    (rest : Leads catalog child positions ancestors last) :
    Leads catalog id (position :: positions) (id :: ancestors) last

/-- Children at some positions lead from a source at the end of a path of distinct sources to a
leaf, which has the path and what is passed above it. -/
structure LeafAt (catalog : Catalog σ) (path : List SourceId) (id : SourceId)
    (positions : List Nat) (flat : FlatLeaf σ) : Prop where
  /-- The positions lead to the leaf. -/
  leads : ∃ ancestors, catalog.Leads id positions ancestors flat.leaf.id ∧
    flat.ancestors = path ++ ancestors
  /-- The catalog defines the leaf. -/
  defined : catalog.get? flat.leaf.id = some flat.leaf
  /-- It is a leaf. -/
  isLeaf : flat.leaf.isLeaf

/-- Children at some positions lead from a source at the end of a path, past sources that are all
distinct, to one where the way ends in an error. -/
inductive Fault (catalog : Catalog σ) (path : List SourceId) (id : SourceId)
    (positions : List Nat) : QueryError → Prop
  /-- The last source is one of those on the way. -/
  | cycle {ancestors : List SourceId} {last : SourceId}
    (leads : catalog.Leads id positions ancestors last) (distinct : (path ++ ancestors).Nodup)
    (again : last ∈ path ++ ancestors) :
    Fault catalog path id positions (.cycle (path ++ ancestors ++ [last]))
  /-- The last source has no definition; the error names the one that lists it. -/
  | missing {ancestors : List SourceId} {last : SourceId}
    (leads : catalog.Leads id positions ancestors last) (distinct : (path ++ ancestors).Nodup)
    (undefined : catalog.get? last = none) :
    Fault catalog path id positions (.sourceNotFound last (path ++ ancestors).getLast?)

/-- No path of a source that is at fault comes before the one that the error is about. -/
def FirstFault (catalog : Catalog σ) (id : SourceId) (error : QueryError) : Prop :=
  ∃ positions, catalog.Fault [] id positions error ∧
    ∀ earlier other, catalog.Fault [] id earlier other → ¬ earlier < positions

/-- An error is about what is wrong below a source: it has no definition, a child that can be
reached has none, or a path from it comes back to one of the sources that it passes. -/
inductive Explains (catalog : Catalog σ) (id : SourceId) : QueryError → Prop
  /-- The source has no definition. -/
  | missing (undefined : catalog.get? id = none) : Explains catalog id (.missing id)
  /-- A child has no definition. -/
  | dangling {parent child : SourceId} (reaches : catalog.Reaches id parent)
    (lists : catalog.Lists parent child) (undefined : catalog.get? child = none) :
    Explains catalog id (.sourceNotFound child (some parent))
  /-- A path of distinct sources ends with one that it has passed. -/
  | cycle {path : List SourceId} {last : SourceId} (starts : path.head? = some id)
    (follows : (path ++ [last]).IsChain catalog.Lists) (distinct : path.Nodup)
    (again : last ∈ path) : Explains catalog id (.cycle (path ++ [last]))

/-- A valid catalog has every definition under its own id. -/
theorem IsValid.isNamed [Scalar σ] (valid : catalog.IsValid) : catalog.IsNamed :=
  fun id source found => (valid id source found).1

/-- A catalog that was built definition by definition has every one under its own id. -/
theorem IsBuilt.isNamed [Scalar σ] (built : catalog.IsBuilt) : catalog.IsNamed :=
  built.isValid.isNamed

/-- What holds of the children of each entry holds of what the catalog lists. -/
theorem forall_lists_of_entries {holds : SourceId → SourceId → Prop}
    (each : ∀ pair ∈ catalog.sources.entries, ∀ child ∈ pair.2.children, holds pair.1 child)
    (parent child : SourceId) (lists : catalog.Lists parent child) : holds parent child := by
  obtain ⟨source, found, member⟩ := lists
  exact each _ ((Registry.mem_entries_iff ..).2 found) child member

/-! ## Where positions lead -/

variable {id child last : SourceId} {source : Source σ} {position : Nat}
  {positions : List Nat} {ancestors path : List SourceId} {error : QueryError}

/-- The position of a child in a definition leads to it. -/
theorem lists_of_getElem? (defined : catalog.get? id = some source)
    (listed : source.children[position]? = some child) : catalog.Lists id child :=
  ⟨source, defined, List.mem_of_getElem? listed⟩

/-- Positions lead past and to one place only. -/
theorem Leads.unique {otherAncestors : List SourceId} {other : SourceId}
    (leads : catalog.Leads id positions ancestors last)
    (leadsOther : catalog.Leads id positions otherAncestors other) :
    ancestors = otherAncestors ∧ last = other := by
  induction leads generalizing otherAncestors other with
  | here id =>
    cases leadsOther
    exact ⟨rfl, rfl⟩
  | down defined listed rest ih =>
    cases leadsOther with
    | down definedOther listedOther restOther =>
      obtain rfl := Option.some_inj.1 (defined.symm.trans definedOther)
      obtain rfl := Option.some_inj.1 (listed.symm.trans listedOther)
      obtain ⟨rfl, rfl⟩ := ih restOther
      exact ⟨rfl, rfl⟩

/-- Positions lead on from where others lead. -/
theorem Leads.trans {morePositions : List Nat} {moreAncestors : List SourceId} {other : SourceId}
    (leads : catalog.Leads id positions ancestors last)
    (more : catalog.Leads last morePositions moreAncestors other) :
    catalog.Leads id (positions ++ morePositions) (ancestors ++ moreAncestors) other := by
  induction leads with
  | here id => exact more
  | down defined listed rest ih => exact .down defined listed (ih more)

/-- A child leads to itself from its parent. -/
theorem Lists.exists_leads (lists : catalog.Lists id child) :
    ∃ position, catalog.Leads id [position] [id] child := by
  obtain ⟨source, defined, member⟩ := lists
  obtain ⟨position, listed⟩ := List.mem_iff_getElem?.1 member
  exact ⟨position, .down defined listed (.here child)⟩

/-- What is reached from a source is where some positions lead. -/
theorem Reaches.exists_leads (reaches : catalog.Reaches id last) :
    ∃ positions ancestors, catalog.Leads id positions ancestors last := by
  induction reaches with
  | refl => exact ⟨[], [], .here id⟩
  | tail before lists ih =>
    obtain ⟨positions, ancestors, leads⟩ := ih
    obtain ⟨position, step⟩ := lists.exists_leads
    exact ⟨_, _, leads.trans step⟩

/-- What is below a source is where some positions lead past it. -/
theorem IsAbove.exists_leads (above : catalog.IsAbove id last) :
    ∃ positions ancestors, catalog.Leads id positions ancestors last ∧ id ∈ ancestors := by
  obtain ⟨child, lists, reaches⟩ := Relation.TransGen.head'_iff.1 above
  obtain ⟨position, step⟩ := lists.exists_leads
  obtain ⟨positions, ancestors, rest⟩ := Reaches.exists_leads reaches
  exact ⟨_, _, step.trans rest, List.mem_cons_self⟩

/-- Positions lead along the lists of children. -/
theorem Leads.isChain (leads : catalog.Leads id positions ancestors last) :
    (ancestors ++ [last]).head? = some id ∧ (ancestors ++ [last]).IsChain catalog.Lists := by
  induction leads with
  | here id => exact ⟨rfl, List.isChain_singleton id⟩
  | down defined listed rest ih =>
    obtain ⟨starts, follows⟩ := ih
    refine ⟨rfl, List.IsChain.cons follows fun next found => ?_⟩
    obtain rfl := Option.some_inj.1 (starts.symm.trans found)
    exact lists_of_getElem? defined listed

/-- Every source that is passed has a definition. -/
theorem Leads.isSome_get? (leads : catalog.Leads id positions ancestors last) :
    ∀ passed ∈ ancestors, (catalog.get? passed).isSome := by
  induction leads with
  | here id => exact fun passed member => absurd member List.not_mem_nil
  | down defined listed rest ih =>
    refine List.forall_mem_cons.2 ⟨?_, ih⟩
    rw [defined]
    rfl

/-- Every source that is passed is reached, and the last one is below it. -/
theorem Leads.isAbove (leads : catalog.Leads id positions ancestors last) :
    catalog.Reaches id last ∧
      ∀ passed ∈ ancestors, catalog.Reaches id passed ∧ catalog.IsAbove passed last := by
  induction leads with
  | here id => exact ⟨.refl, fun passed member => absurd member List.not_mem_nil⟩
  | down defined listed rest ih =>
    obtain ⟨reaches, above⟩ := ih
    have step := lists_of_getElem? defined listed
    refine ⟨.head step reaches, fun passed member => ?_⟩
    rcases List.mem_cons.1 member with rfl | later
    · exact ⟨.refl, .head' step reaches⟩
    · exact ⟨.head step (above passed later).1, (above passed later).2⟩

/-- The last source that is passed lists the one that is led to. -/
theorem Leads.getLast? (leads : catalog.Leads id positions ancestors last) :
    ancestors = [] ∧ last = id ∨
      ∃ parent, ancestors.getLast? = some parent ∧ catalog.Reaches id parent ∧
        catalog.Lists parent last := by
  induction leads with
  | here id => exact Or.inl ⟨rfl, rfl⟩
  | down defined listed rest ih =>
    have step := lists_of_getElem? defined listed
    rcases ih with ⟨rfl, rfl⟩ | ⟨parent, found, reaches, lists⟩
    · exact Or.inr ⟨_, rfl, .refl, step⟩
    · refine Or.inr ⟨parent, ?_, .head step reaches, lists⟩
      rw [List.getLast?_cons, found]
      rfl

/-- What is below a defined source is defined if every child in the catalog is. -/
theorem isSome_of_reaches (closed : ∀ parent child, catalog.Lists parent child →
    (catalog.get? child).isSome) (defined : (catalog.get? id).isSome)
    (reaches : catalog.Reaches id last) : (catalog.get? last).isSome := by
  cases reaches with
  | refl => exact defined
  | tail _ lists => exact closed _ _ lists

/-- Nothing is below itself if some measure falls from each source to its children. -/
theorem not_isAbove_self (measure : SourceId → Nat)
    (falls : ∀ parent child, catalog.Lists parent child → measure child < measure parent) :
    ¬ catalog.IsAbove id id := by
  intro above
  have less : ∀ lower, catalog.IsAbove id lower → measure lower < measure id := by
    intro lower reached
    induction reached with
    | single lists => exact falls _ _ lists
    | tail _ lists ih => exact Nat.lt_trans (falls _ _ lists) ih
  exact Nat.lt_irrefl _ (less id above)

/-! ## Ways without repetition -/

/-- A path of sources that are defined and distinct. -/
structure IsWay (catalog : Catalog σ) (path : List SourceId) : Prop where
  /-- No source is passed twice. -/
  distinct : path.Nodup
  /-- Each source has a definition. -/
  defined : ∀ id ∈ path, (catalog.get? id).isSome

namespace IsWay

/-- No source is passed at first. -/
theorem nil : catalog.IsWay [] :=
  ⟨List.nodup_nil, fun _ member => absurd member List.not_mem_nil⟩

/-- A way goes on to a source that is defined and new. -/
theorem extend (way : catalog.IsWay path) (defined : catalog.get? id = some source)
    (apart : id ∉ path) : catalog.IsWay (path ++ [id]) := by
  refine ⟨List.concat_eq_append ▸ way.distinct.concat apart, fun passed member => ?_⟩
  rcases List.mem_append.1 member with before | last
  · exact way.defined passed before
  · rw [List.mem_singleton.1 last, defined]
    rfl

/-- A way was one before its last source, which was new to it. -/
theorem of_append (way : catalog.IsWay (path ++ [id])) : catalog.IsWay path ∧ id ∉ path := by
  obtain ⟨distinct, _, apart⟩ := List.nodup_append.1 way.distinct
  refine ⟨⟨distinct, fun passed member => way.defined passed (List.mem_append_left _ member)⟩, ?_⟩
  exact fun member => apart id member id (List.mem_singleton_self id) rfl

/-- A way is no longer than the catalog. -/
theorem length_le_size (way : catalog.IsWay path) : path.length ≤ catalog.sources.size := by
  have within : path ⊆ catalog.sources.entries.map Prod.fst := by
    intro id member
    obtain ⟨source, found⟩ := Option.isSome_iff_exists.1 (way.defined id member)
    exact List.mem_map.2 ⟨_, (Registry.mem_entries_iff ..).2 found, rfl⟩
  have fewer := (List.subperm_of_subset way.distinct within).length_le
  rwa [List.length_map] at fewer

end IsWay

/-! ## Leaves and faults below a path -/

variable {flat : FlatLeaf σ}

/-- An item is at positions that take one of some children first and go on from there. -/
def BelowChild {α : Type} (children : List SourceId) (below : SourceId → List Nat → α → Prop)
    (positions : List Nat) (item : α) : Prop :=
  ∃ position child rest, positions = position :: rest ∧ children[position]? = some child ∧
    below child rest item

/-- A leaf is its own only leaf, at no positions. -/
theorem leafAt_iff_of_isLeaf (defined : catalog.get? id = some source) (named : source.id = id)
    (leaf : source.isLeaf) :
    catalog.LeafAt path id positions flat ↔ positions = [] ∧ flat = ⟨source, path⟩ := by
  constructor
  · rintro ⟨⟨ancestors, leads, passed⟩, found, _⟩
    cases leads with
    | here =>
      obtain rfl := Option.some_inj.1 (found.symm.trans defined)
      rw [List.append_nil] at passed
      exact ⟨rfl, by rw [← passed]⟩
    | @down _ child _ other position _ _ definedOther listed _ =>
      obtain rfl := Option.some_inj.1 (definedOther.symm.trans defined)
      rw [Source.children_of_isLeaf leaf] at listed
      cases listed
  · rintro ⟨rfl, rfl⟩
    subst named
    exact ⟨⟨[], .here source.id, (List.append_nil path).symm⟩, defined, leaf⟩

/-- A virtual source has the leaves of its children. -/
theorem leafAt_iff_of_not_isLeaf (defined : catalog.get? id = some source)
    (virtual : source.isLeaf = false) :
    catalog.LeafAt path id positions flat ↔
      BelowChild source.children (catalog.LeafAt (path ++ [id])) positions flat := by
  constructor
  · rintro ⟨⟨ancestors, leads, passed⟩, found, leaf⟩
    cases leads with
    | here =>
      obtain rfl := Option.some_inj.1 (found.symm.trans defined)
      rw [virtual] at leaf
      cases leaf
    | down definedOther listed rest =>
      obtain rfl := Option.some_inj.1 (definedOther.symm.trans defined)
      exact ⟨_, _, _, rfl, listed, ⟨_, rest, passed.trans (List.append_cons ..)⟩, found, leaf⟩
  · rintro ⟨position, child, rest, rfl, listed, ⟨ancestors, leads, passed⟩, found, leaf⟩
    have whole : flat.ancestors = path ++ id :: ancestors :=
      passed.trans (List.append_cons ..).symm
    exact ⟨⟨id :: ancestors, .down defined listed leads, whole⟩, found, leaf⟩

/-- What is wrong below a child of a source is wrong below the source. -/
theorem Fault.down (defined : catalog.get? id = some source)
    (listed : source.children[position]? = some child)
    (fault : catalog.Fault (path ++ [id]) child positions error) :
    catalog.Fault path id (position :: positions) error := by
  cases fault with
  | @cycle ancestors last leads distinct again =>
    rw [← List.append_cons path id ancestors] at distinct again ⊢
    exact .cycle (.down defined listed leads) distinct again
  | @missing ancestors last leads distinct undefined =>
    rw [← List.append_cons path id ancestors] at distinct ⊢
    exact .missing (.down defined listed leads) distinct undefined

/-- A source that is defined and not on the path before it has the faults of its children. -/
theorem fault_iff (defined : catalog.get? id = some source) (apart : id ∉ path) :
    catalog.Fault path id positions error ↔
      BelowChild source.children (catalog.Fault (path ++ [id])) positions error := by
  constructor
  · intro fault
    cases fault with
    | cycle leads distinct again =>
      cases leads with
      | here => exact absurd (List.append_nil path ▸ again) apart
      | @down _ child _ other position rest ancestors definedOther listed leads =>
        obtain rfl := Option.some_inj.1 (definedOther.symm.trans defined)
        rw [List.append_cons path id ancestors] at distinct again ⊢
        exact ⟨position, child, rest, rfl, listed, .cycle leads distinct again⟩
    | missing leads distinct undefined =>
      cases leads with
      | here => cases undefined.symm.trans defined
      | @down _ child _ other position rest ancestors definedOther listed leads =>
        obtain rfl := Option.some_inj.1 (definedOther.symm.trans defined)
        rw [List.append_cons path id ancestors] at distinct ⊢
        exact ⟨position, child, rest, rfl, listed, .missing leads distinct undefined⟩
  · rintro ⟨position, child, rest, rfl, listed, fault⟩
    exact fault.down defined listed

/-- Positions are at fault in one way only. -/
theorem fault_unique (way : catalog.IsWay path) (positions : List Nat) (error other : QueryError)
    (fault : catalog.Fault path id positions error)
    (faultOther : catalog.Fault path id positions other) : error = other := by
  have onWay {ancestors : List SourceId} {last : SourceId}
      (leads : catalog.Leads id positions ancestors last) (again : last ∈ path ++ ancestors) :
      catalog.get? last ≠ none := by
    refine Option.isSome_iff_ne_none.1 ?_
    exact (List.mem_append.1 again).elim (way.defined last) (leads.isSome_get? last)
  cases fault with
  | cycle leads distinct again =>
    cases faultOther with
    | cycle leadsOther distinctOther againOther =>
      obtain ⟨rfl, rfl⟩ := leads.unique leadsOther
      rfl
    | missing leadsOther distinctOther undefinedOther =>
      obtain ⟨rfl, rfl⟩ := leads.unique leadsOther
      exact absurd undefinedOther (onWay leads again)
  | missing leads distinct undefined =>
    cases faultOther with
    | cycle leadsOther distinctOther againOther =>
      obtain ⟨rfl, rfl⟩ := leads.unique leadsOther
      exact absurd undefined (onWay leads againOther)
    | missing leadsOther distinctOther undefinedOther =>
      obtain ⟨rfl, rfl⟩ := leads.unique leadsOther
      rfl

/-- A source on the path is at fault where the path comes back to it. -/
theorem fault_of_mem (distinct : path.Nodup) (again : id ∈ path) :
    catalog.Fault path id [] (.cycle (path ++ [id])) := by
  have whole : (path ++ []).Nodup := (List.append_nil path).symm ▸ distinct
  have fault : catalog.Fault path id [] (.cycle (path ++ [] ++ [id])) :=
    .cycle (.here id) whole (List.mem_append_left [] again)
  rwa [List.append_nil] at fault

/-- A source without definition is at fault. -/
theorem fault_of_undefined (distinct : path.Nodup) (undefined : catalog.get? id = none) :
    catalog.Fault path id [] (.sourceNotFound id path.getLast?) := by
  have fault := Fault.missing (.here id) ((List.append_nil path).symm ▸ distinct) undefined
  rwa [List.append_nil] at fault

/-- Where positions lead, there is a path at fault unless all that is passed is distinct and what
is led to is defined. -/
theorem Leads.fault_or_distinct (leads : catalog.Leads id positions ancestors last)
    (distinct : path.Nodup) :
    (∃ faulty error, catalog.Fault path id faulty error) ∨
      (path ++ ancestors ++ [last]).Nodup ∧ (catalog.get? last).isSome := by
  induction leads generalizing path with
  | here id =>
    rw [List.append_nil]
    by_cases again : id ∈ path
    · exact Or.inl ⟨_, _, fault_of_mem distinct again⟩
    · cases found : catalog.get? id with
      | none => exact Or.inl ⟨_, _, fault_of_undefined distinct found⟩
      | some source => exact Or.inr ⟨List.concat_eq_append ▸ distinct.concat again, rfl⟩
  | @down id child last source position positions ancestors defined listed rest ih =>
    by_cases again : id ∈ path
    · exact Or.inl ⟨_, _, fault_of_mem distinct again⟩
    · have longer : (path ++ [id]).Nodup := List.concat_eq_append ▸ distinct.concat again
      rcases ih longer with ⟨faulty, error, fault⟩ | ⟨further, found⟩
      · exact Or.inl ⟨position :: faulty, error, fault.down defined listed⟩
      · refine Or.inr ⟨?_, found⟩
        rwa [List.append_assoc path, List.singleton_append] at further

/-- There is a path at fault exactly if the source has no definition, a child that can be reached
has none, or a source that can be reached is below itself. -/
theorem exists_fault_iff :
    (∃ positions error, catalog.Fault [] id positions error) ↔
      catalog.get? id = none ∨
      (∃ parent child, catalog.Reaches id parent ∧ catalog.Lists parent child ∧
        catalog.get? child = none) ∨
      ∃ other, catalog.Reaches id other ∧ catalog.IsAbove other other := by
  constructor
  · rintro ⟨positions, error, fault⟩
    cases fault with
    | cycle leads distinct again =>
      exact Or.inr (Or.inr ⟨_, leads.isAbove.1, (leads.isAbove.2 _ again).2⟩)
    | missing leads distinct undefined =>
      rcases leads.getLast? with ⟨rfl, rfl⟩ | ⟨parent, _, reaches, lists⟩
      · exact Or.inl undefined
      · exact Or.inr (Or.inl ⟨parent, _, reaches, lists, undefined⟩)
  · rintro (undefined | ⟨parent, child, reaches, lists, undefined⟩ | ⟨other, reaches, above⟩)
    · exact ⟨_, _, fault_of_undefined List.nodup_nil undefined⟩
    · obtain ⟨positions, ancestors, leads⟩ := Reaches.exists_leads (reaches.tail lists)
      rcases leads.fault_or_distinct List.nodup_nil with fault | ⟨_, found⟩
      · exact fault
      · rw [undefined] at found
        cases found
    · obtain ⟨positions, ancestors, leads⟩ := Reaches.exists_leads reaches
      obtain ⟨round, passed, back, again⟩ := IsAbove.exists_leads above
      rcases (leads.trans back).fault_or_distinct List.nodup_nil with fault | ⟨distinct, _⟩
      · exact fault
      · have member : other ∈ [] ++ (ancestors ++ passed) := List.mem_append_right ancestors again
        exact absurd (List.mem_singleton_self other)
          (List.disjoint_of_nodup_append distinct member)

/-- The error of a fault is about what is wrong below the source. -/
theorem Fault.explains (fault : catalog.Fault [] id positions error) :
    catalog.Explains id error := by
  cases fault with
  | @cycle ancestors last leads distinct again =>
    obtain ⟨starts, follows⟩ := leads.isChain
    have some_ : ancestors ≠ [] := List.ne_nil_of_mem again
    rw [List.head?_append_of_ne_nil _ some_] at starts
    exact .cycle starts follows distinct again
  | missing leads distinct undefined =>
    rcases leads.getLast? with ⟨rfl, rfl⟩ | ⟨parent, found, reaches, lists⟩
    · exact .missing undefined
    · rw [List.nil_append, found]
      exact .dangling reaches lists undefined

end Catalog

end Metering
