import Mathlib.Data.List.Lex
import Mathlib.Order.Basic
import Metering.Proofs.Graph
import Metering.Proofs.Paths
import Metering.Proofs.Perform

/-!
# Flattening follows every path

A traversal in the order of the children's positions tells all the leaves at
the ends of paths in that order, or the first fault on its way (`Surveys`).
Each child adds its own part at the end (`Surveys.append_child`), so the leaves
under a source are surveyed if the bound on the length of a path is more than
what is left of the catalog (`surveys_leavesUnder`); a higher bound makes no
difference. Without missing definitions and cycles there is no fault, and
flattening tells each path to a leaf once.
-/

namespace Metering

namespace Catalog

variable {α ε : Type}

/-- An outcome is all the items at some positions, in order, latest first and after those found
before; or it is the first fault. -/
inductive Surveys (itemAt : List Nat → α → Prop) (faultAt : List Nat → ε → Prop)
    (found : List α) : Except ε (List α) → Prop
  /-- Nothing is at fault. -/
  | complete {visits : List (List Nat × α)}
    (ordered : visits.Pairwise fun earlier later => earlier.1 < later.1)
    (exactly : ∀ positions item, (positions, item) ∈ visits ↔ itemAt positions item)
    (sound : ∀ positions error, ¬ faultAt positions error) :
    Surveys itemAt faultAt found (.ok ((visits.map Prod.snd).reverse ++ found))
  /-- Something is at fault and nothing before it is. -/
  | broken {positions : List Nat} {error : ε} (fault : faultAt positions error)
    (first : ∀ earlier other, faultAt earlier other → ¬ earlier < positions) :
    Surveys itemAt faultAt found (.error error)

namespace Surveys

variable {itemAt : List Nat → α → Prop} {faultAt : List Nat → ε → Prop} {found : List α}
  {outcome other : Except ε (List α)}

/-- There is one outcome if each position is at fault in one way only. -/
theorem unique (single : ∀ positions error other, faultAt positions error →
      faultAt positions other → error = other)
    (surveys : Surveys itemAt faultAt found outcome)
    (surveysOther : Surveys itemAt faultAt found other) : outcome = other := by
  cases surveys with
  | @complete visits ordered exactly sound =>
    cases surveysOther with
    | @complete visitsOther orderedOther exactlyOther soundOther =>
      have same : visits = visitsOther :=
        Timeline.eq_of_mem_iff_of_pairwise ordered orderedOther
          (fun left right less more => lt_asymm less more)
          (fun entry => (exactly _ _).trans (exactlyOther _ _).symm)
      rw [same]
    | broken fault first => exact absurd fault (sound _ _)
  | @broken positions error fault first =>
    cases surveysOther with
    | complete orderedOther exactlyOther soundOther => exact absurd fault (soundOther _ _)
    | @broken positionsOther errorOther faultOther firstOther =>
      rcases lt_trichotomy positions positionsOther with before | rfl | after
      · exact absurd before (firstOther _ _ fault)
      · rw [single _ _ _ fault faultOther]
      · exact absurd after (first _ _ faultOther)

/-- An error is the outcome if it is the first fault. -/
theorem eq_error_iff (single : ∀ positions error other, faultAt positions error →
      faultAt positions other → error = other)
    (surveys : Surveys itemAt faultAt found outcome) (error : ε) :
    outcome = .error error ↔ ∃ positions, faultAt positions error ∧
      ∀ earlier other, faultAt earlier other → ¬ earlier < positions := by
  constructor
  · rintro rfl
    cases surveys with
    | broken fault first => exact ⟨_, fault, first⟩
  · rintro ⟨positions, fault, first⟩
    exact surveys.unique single (.broken fault first)

/-- There is an error exactly if something is at fault. -/
theorem exists_error_iff (surveys : Surveys itemAt faultAt found outcome) :
    (∃ error, outcome = .error error) ↔ ∃ positions error, faultAt positions error := by
  cases surveys with
  | complete ordered exactly sound =>
    exact iff_of_false (fun ⟨error, differ⟩ => by cases differ)
      fun ⟨positions, error, fault⟩ => sound positions error fault
  | broken fault first => exact iff_of_true ⟨_, rfl⟩ ⟨_, _, fault⟩

/-- Without faults the items are told in order. -/
theorem exists_visits (surveys : Surveys itemAt faultAt found outcome)
    (sound : ∀ positions error, ¬ faultAt positions error) :
    ∃ visits : List (List Nat × α), outcome = .ok ((visits.map Prod.snd).reverse ++ found) ∧
      (visits.Pairwise fun earlier later => earlier.1 < later.1) ∧
      ∀ positions item, (positions, item) ∈ visits ↔ itemAt positions item := by
  cases surveys with
  | complete ordered exactly _ => exact ⟨_, rfl, ordered, exactly⟩
  | broken fault first => exact absurd fault (sound _ _)

end Surveys

/-! ## Child by child -/

/-- The last of some children has what is at positions that start with their number. -/
theorem belowChild_append_iff {children : List SourceId} {child : SourceId}
    {below : SourceId → List Nat → α → Prop} {positions : List Nat} {item : α} :
    BelowChild (children ++ [child]) below positions item ↔
      BelowChild children below positions item ∨
        ∃ rest, positions = children.length :: rest ∧ below child rest item := by
  constructor
  · rintro ⟨position, listed, rest, rfl, at_, holds⟩
    rcases Nat.lt_trichotomy position children.length with inside | rfl | outside
    · rw [List.getElem?_append_left inside] at at_
      exact Or.inl ⟨position, listed, rest, rfl, at_, holds⟩
    · rw [List.getElem?_concat_length] at at_
      obtain rfl := Option.some_inj.1 at_
      exact Or.inr ⟨rest, rfl, holds⟩
    · rw [List.getElem?_eq_none (by rw [List.length_append]; exact outside)] at at_
      cases at_
  · rintro (⟨position, listed, rest, rfl, at_, holds⟩ | ⟨rest, rfl, holds⟩)
    · have inside := (List.getElem?_eq_some_iff.1 at_).1
      exact ⟨position, listed, rest, rfl, (List.getElem?_append_left inside).trans at_, holds⟩
    · exact ⟨_, child, rest, rfl, List.getElem?_concat_length, holds⟩

/-- What is below some children comes before what is below a later one. -/
theorem BelowChild.lt {children : List SourceId} {below : SourceId → List Nat → α → Prop}
    {positions rest : List Nat} {item : α} (belongs : BelowChild children below positions item) :
    positions < children.length :: rest := by
  obtain ⟨position, child, others, rfl, listed, _⟩ := belongs
  exact List.Lex.rel (List.getElem?_eq_some_iff.1 listed).1

/-- One more child adds what is below it at the end, unless something is at fault before. -/
theorem Surveys.append_child {children : List SourceId} {child : SourceId}
    {itemAt : SourceId → List Nat → α → Prop} {faultAt : SourceId → List Nat → ε → Prop}
    {found : List α} {outcome : Except ε (List α)} {next : List α → Except ε (List α)}
    (surveys : Surveys (BelowChild children itemAt) (BelowChild children faultAt) found outcome)
    (step : ∀ final, Surveys (itemAt child) (faultAt child) final (next final)) :
    Surveys (BelowChild (children ++ [child]) itemAt) (BelowChild (children ++ [child]) faultAt)
      found (outcome >>= next) := by
  cases surveys with
  | @broken positions error fault first =>
    refine .broken (belowChild_append_iff.2 (Or.inl fault)) fun earlier other faultOther => ?_
    rcases belowChild_append_iff.1 faultOther with before | ⟨rest, rfl, _⟩
    · exact first earlier other before
    · exact lt_asymm fault.lt
  | @complete visits ordered exactly sound =>
    have last := step ((visits.map Prod.snd).reverse ++ found)
    rw [Except.ok_bind]
    generalize next ((visits.map Prod.snd).reverse ++ found) = outcome at last
    cases last with
    | @broken positions error fault first =>
      refine .broken (belowChild_append_iff.2 (Or.inr ⟨positions, rfl, fault⟩))
        fun earlier other faultOther less => ?_
      rcases belowChild_append_iff.1 faultOther with before | ⟨rest, rfl, belongs⟩
      · exact sound earlier other before
      · exact first rest other belongs (List.cons_lt_cons_self.1 less)
    | @complete more orderedMore exactlyMore soundMore =>
      let moved := more.map fun visit => (children.length :: visit.1, visit.2)
      have items : moved.map Prod.snd = more.map Prod.snd := by
        rw [List.map_map]
        rfl
      have whole : (more.map Prod.snd).reverse ++ ((visits.map Prod.snd).reverse ++ found) =
          ((visits ++ moved).map Prod.snd).reverse ++ found := by
        rw [List.map_append, items, List.reverse_append, List.append_assoc]
      rw [whole]
      refine .complete ?_ ?_ ?_
      · refine List.pairwise_append.2 ⟨ordered, List.pairwise_map.2 ?_, ?_⟩
        · exact orderedMore.imp List.cons_lt_cons_self.2
        · rintro ⟨positions, item⟩ member _ memberMoved
          obtain ⟨visit, _, rfl⟩ := List.mem_map.1 memberMoved
          exact ((exactly positions item).1 member).lt
      · intro positions item
        rw [List.mem_append, belowChild_append_iff, exactly]
        refine or_congr_right ⟨?_, ?_⟩
        · intro memberMoved
          obtain ⟨⟨rest, _⟩, member, same⟩ := List.mem_map.1 memberMoved
          obtain ⟨rfl, rfl⟩ := Prod.mk.inj same
          exact ⟨rest, rfl, (exactlyMore _ _).1 member⟩
        · rintro ⟨rest, rfl, belongs⟩
          exact List.mem_map.2 ⟨(rest, item), (exactlyMore _ _).2 belongs, rfl⟩
      · intro positions error fault
        rcases belowChild_append_iff.1 fault with before | ⟨rest, rfl, belongs⟩
        · exact sound positions error before
        · exact soundMore rest error belongs

/-- A pass along children surveys what is below them if each step surveys what is below one. -/
theorem surveys_foldlM {children : List SourceId} {itemAt : SourceId → List Nat → α → Prop}
    {faultAt : SourceId → List Nat → ε → Prop} {step : List α → SourceId → Except ε (List α)}
    (each : ∀ child ∈ children, ∀ found,
      Surveys (itemAt child) (faultAt child) found (step found child)) (found : List α) :
    Surveys (BelowChild children itemAt) (BelowChild children faultAt) found
      (children.foldlM step found) := by
  induction children using List.reverseRecOn with
  | nil =>
    have nowhere {β : Type} (below : SourceId → List Nat → β → Prop) (positions : List Nat)
        (item : β) : ¬ BelowChild [] below positions item := by
      rintro ⟨position, child, rest, _, listed, _⟩
      cases listed
    exact .complete List.Pairwise.nil
      (fun positions item => iff_of_false List.not_mem_nil (nowhere itemAt positions item))
      (nowhere faultAt)
  | append_singleton children child ih =>
    rw [List.foldlM_append]
    have before := ih fun other member => each other (List.mem_append_left [child] member)
    refine before.append_child fun final => ?_
    have single : [child].foldlM step final = step final child := by
      rw [List.foldlM_cons]
      exact bind_pure _
    rw [single]
    exact each child (List.mem_append_right children (List.mem_singleton_self child)) final

end Catalog

namespace Graph

open Catalog

variable {σ : Type} {database : Database σ} {id : SourceId}

/-- A leaf tells itself. -/
theorem surveys_of_isLeaf {path : List SourceId} {source : Source σ}
    (defined : database.catalog.get? id = some source) (owner : source.id = id)
    (leaf : source.isLeaf) (apart : id ∉ path) (found : List (FlatLeaf σ)) :
    Surveys (database.catalog.LeafAt path id) (database.catalog.Fault path id) found
      (.ok (⟨source, path⟩ :: found)) := by
  have ordered : [(([] : List Nat), (⟨source, path⟩ : FlatLeaf σ))].Pairwise
      fun earlier later => earlier.1 < later.1 := List.pairwise_singleton ..
  refine Surveys.complete ordered (fun positions flat => ?_) (fun positions error fault => ?_)
  · rw [leafAt_iff_of_isLeaf defined owner leaf, List.mem_singleton, Prod.mk.injEq]
  · have below := (fault_iff defined apart).1 fault
    rw [Source.children_of_isLeaf leaf] at below
    obtain ⟨position, child, rest, _, listed, _⟩ := below
    cases listed

/-- Descending to a child surveys what is below it if descending from its definition does, unless
the child is on the path or has no definition. -/
theorem surveys_descend {depth : Nat} {path : List SourceId} (way : database.catalog.IsWay path)
    {parent : SourceId} (ends : path.getLast? = some parent) {found : List (FlatLeaf σ)}
    {child : SourceId} (below : child ∉ path → ∀ source,
      database.catalog.get? child = some source →
        Surveys (database.catalog.LeafAt path child) (database.catalog.Fault path child) found
          ((leavesUnder depth path found source).result database)) :
    Surveys (database.catalog.LeafAt path child) (database.catalog.Fault path child) found
      (descend database depth path parent found child) := by
  unfold descend
  by_cases again : child ∈ path
  · rw [if_pos again]
    exact .broken (fault_of_mem way.distinct again) fun _ _ _ => List.not_lt_nil _
  · rw [if_neg again]
    cases defined : database.catalog.get? child with
    | none =>
      have fault := fault_of_undefined way.distinct defined
      rw [ends] at fault
      exact .broken fault fun _ _ _ => List.not_lt_nil _
    | some source => exact below again source defined

/-- The leaves under a source are surveyed if the bound on the length of a path is more than what
is left of the catalog. -/
theorem surveys_leavesUnder (named : database.catalog.IsNamed) (depth : Nat)
    {path : List SourceId} {source : Source σ} (way : database.catalog.IsWay path)
    (defined : database.catalog.get? id = some source) (apart : id ∉ path)
    (enough : database.catalog.sources.size < depth + path.length) (found : List (FlatLeaf σ)) :
    Surveys (database.catalog.LeafAt path id) (database.catalog.Fault path id) found
      ((leavesUnder depth path found source).result database) := by
  have longer := way.extend defined apart
  induction depth generalizing id path source found with
  | zero =>
    -- A way is no longer than the catalog, so the bound is never reached.
    have few := longer.length_le_size
    rw [List.length_append, List.length_singleton] at few
    omega
  | succ depth ih =>
    have owner : source.id = id := named id source defined
    cases leaf : source.isLeaf with
    | true =>
      rw [result_leavesUnder_of_isLeaf leaf]
      exact surveys_of_isLeaf defined owner leaf apart found
    | false =>
      have leaves : database.catalog.LeafAt path id = BelowChild source.children _ :=
        funext₂ fun positions flat => propext (leafAt_iff_of_not_isLeaf defined leaf)
      have faults : database.catalog.Fault path id = BelowChild source.children _ :=
        funext₂ fun positions error => propext (fault_iff defined apart)
      have ends : (path ++ [source.id]).getLast? = some source.id := List.getLast?_concat
      have room : database.catalog.sources.size < depth + (path ++ [id]).length := by
        rw [List.length_append, List.length_singleton]
        omega
      rw [faults, leaves, result_leavesUnder_of_not_isLeaf leaf, owner]
      rw [owner] at ends
      refine surveys_foldlM (fun child _ found => ?_) found
      exact surveys_descend longer ends fun new definition definedChild =>
        ih longer definedChild new room found (longer.extend definedChild new)

/-- Resolving a source and descending from it surveys what is under it, with any bound on the length
of a path that is more than the number of definitions. -/
theorem surveys_resolve (named : database.catalog.IsNamed) {depth : Nat}
    (enough : database.catalog.sources.size < depth) (id : SourceId) :
    Surveys (database.catalog.LeafAt [] id) (database.catalog.Fault [] id) []
      ((resolve id >>= leavesUnder depth [] []).result database) := by
  rw [Attempt.result_bind, result_resolve]
  cases found : database.catalog.get? id with
  | none =>
    have fault := fault_of_undefined List.nodup_nil found
    exact .broken fault fun _ _ _ => List.not_lt_nil _
  | some source => exact surveys_leavesUnder named depth .nil found List.not_mem_nil enough []

/-- Flattening a source tells what is under it in order, with a bound on the length of a path that
is enough for the catalog. -/
theorem result_flatten (database : Database σ) (id : SourceId) :
    (flatten id).result database =
      ((resolve id >>= leavesUnder (database.catalog.sources.size + 1) [] []).result database).map
        List.reverse := by
  have count : (Attempt.definitionCount : Attempt σ Nat).result database =
      .ok database.catalog.sources.size := rfl
  unfold flatten
  simp only [Attempt.result_bind, count, Except.ok_bind]
  cases (resolve id).result database with
  | error error => rfl
  | ok root =>
    simp only [Except.ok_bind]
    cases (leavesUnder (database.catalog.sources.size + 1) [] [] root).result database with
    | error error => rfl
    | ok found => rfl

/-- Flattening comes to the same with any bound on the length of a path that is enough for the
catalog. -/
theorem result_flatten_of_lt (named : database.catalog.IsNamed) {depth : Nat}
    (enough : database.catalog.sources.size < depth) (id : SourceId) :
    (flatten id).result database =
      ((resolve id >>= leavesUnder depth [] []).result database).map List.reverse := by
  have same := (surveys_resolve named (Nat.lt_succ_self _) id).unique (fault_unique .nil)
    (surveys_resolve named enough id)
  rw [result_flatten, same]

/-- Flattening fails exactly if a path is at fault. -/
theorem exists_result_flatten_eq_error_iff (named : database.catalog.IsNamed) (id : SourceId) :
    (∃ error, (flatten id).result database = .error error) ↔
      ∃ positions error, database.catalog.Fault [] id positions error := by
  rw [result_flatten, ← (surveys_resolve named (Nat.lt_succ_self _) id).exists_error_iff]
  exact exists_congr fun error => Except.map_eq_error_iff

/-- Flattening fails with an error exactly if it is that of the first path at fault. -/
theorem result_flatten_eq_error_iff (named : database.catalog.IsNamed) (id : SourceId)
    (error : QueryError) :
    (flatten id).result database = .error error ↔ database.catalog.FirstFault id error := by
  rw [result_flatten, Except.map_eq_error_iff]
  exact (surveys_resolve named (Nat.lt_succ_self _) id).eq_error_iff (fault_unique .nil) error

end Graph

namespace Engine

open Catalog

variable {σ : Type} {engine : Engine σ (Database σ)}

/-- What an engine over a database answers when it is asked for the leaves of a source. -/
def leaves (engine : Engine σ (Database σ)) (id : SourceId) :
    Except QueryError (List (FlatLeaf σ)) :=
  (engine.perform Database.serve .none (Graph.flatten id)).1

/-- The leaves that an engine tells are those of its database. -/
theorem leaves_eq (engine : Engine σ (Database σ)) (id : SourceId) :
    engine.leaves id = (Graph.flatten id).result engine.progress.world := by
  have open_ : Limits.none.check engine.progress.elapsed = none := rfl
  have lookups : (Graph.flatten id : Attempt σ (List (FlatLeaf σ))).Uses Request.IsLookup
      fun _ => False := Graph.uses_flatten id
  unfold leaves
  rw [perform_eq open_ lookups]

/-- Where every source that can be reached is defined and none of them is below itself, flattening
tells each path to a leaf once, in the order of the children's positions: the leaf that is reached,
and the virtual sources that are passed on the way to it. -/
theorem leaves_of_acyclic (named : engine.progress.world.catalog.IsNamed) {id : SourceId}
    (defined : ∀ source, engine.progress.world.catalog.Reaches id source →
      (engine.progress.world.catalog.get? source).isSome)
    (acyclic : ∀ source, engine.progress.world.catalog.Reaches id source →
      ¬ engine.progress.world.catalog.IsAbove source source) :
    ∃ visits : List (List Nat × FlatLeaf σ),
      engine.leaves id = .ok (visits.map Prod.snd) ∧
      (visits.Pairwise fun earlier later => earlier.1 < later.1) ∧
      ∀ positions flat, (positions, flat) ∈ visits ↔
        engine.progress.world.catalog.Leads id positions flat.ancestors flat.leaf.id ∧
          engine.progress.world.catalog.get? flat.leaf.id = some flat.leaf ∧ flat.leaf.isLeaf := by
  have sound : ¬ ∃ positions error,
      engine.progress.world.catalog.Fault [] id positions error := by
    rw [exists_fault_iff]
    rintro (undefined | ⟨parent, child, reaches, lists, undefined⟩ | ⟨source, reaches, above⟩)
    · exact absurd undefined (Option.isSome_iff_ne_none.1 (defined id .refl))
    · exact absurd undefined (Option.isSome_iff_ne_none.1 (defined child (reaches.tail lists)))
    · exact acyclic source reaches above
  obtain ⟨visits, outcome, ordered, exactly⟩ :=
    (Graph.surveys_resolve named (Nat.lt_succ_self _) id).exists_visits
      fun positions error fault => sound ⟨positions, error, fault⟩
  refine ⟨visits, ?_, ordered, fun positions flat => (exactly positions flat).trans ?_⟩
  · rw [leaves_eq, Graph.result_flatten, outcome, List.append_nil]
    exact congrArg Except.ok (List.reverse_reverse _)
  · constructor
    · rintro ⟨⟨ancestors, leads, rfl⟩, found, leaf⟩
      exact ⟨leads, found, leaf⟩
    · rintro ⟨leads, found, leaf⟩
      exact ⟨⟨flat.ancestors, leads, rfl⟩, found, leaf⟩

/-- A house with two wings, of which one has the hourly meter twice. -/
def wingsEngine : Engine Rat (Database Rat) :=
  .new .standard ⟨.empty, ⟨[
    ("house", ⟨"house", .aggregate ["left", "right"], .consumption, .epoch, none⟩),
    ("left", ⟨"left", .aggregate ["meter"], .consumption, .epoch, none⟩),
    ("meter", hourlyMeter),
    ("right", ⟨"right", .aggregate ["meter", "meter"], .consumption, .epoch, none⟩)],
    by decide⟩⟩ .epoch

/-- The catalog of the house is built from its definitions. -/
theorem isBuilt_wingsEngine : wingsEngine.progress.world.catalog.IsBuilt :=
  have same : Catalog.ofList wingsEngine.progress.world.catalog.toList =
    .ok wingsEngine.progress.world.catalog := rfl
  isBuilt_ofList same

/-- The house is above its wings, and they are above the meter. -/
def heightInHouse (id : SourceId) : Nat :=
  if id = "house" then 2 else if id = "meter" then 0 else 1

/-- The meter is told three times, once through one wing and twice through the other. -/
theorem leaves_wingsEngine :
    let catalog := wingsEngine.progress.world.catalog
    catalog.IsNamed ∧ (∀ source, catalog.Reaches "house" source → (catalog.get? source).isSome) ∧
    (∀ source, catalog.Reaches "house" source → ¬ catalog.IsAbove source source) ∧
    (∃ visits : List (List Nat × FlatLeaf Rat),
      wingsEngine.leaves "house" = .ok (visits.map Prod.snd) ∧
      (visits.Pairwise fun earlier later => earlier.1 < later.1) ∧
      ∀ positions flat, (positions, flat) ∈ visits ↔
        catalog.Leads "house" positions flat.ancestors flat.leaf.id ∧
          catalog.get? flat.leaf.id = some flat.leaf ∧ flat.leaf.isLeaf) ∧
    (wingsEngine.leaves "house").map (List.map FlatLeaf.ancestors) =
      .ok [["house", "left"], ["house", "right"], ["house", "right"]] := by
  intro catalog
  have named : catalog.IsNamed := isBuilt_wingsEngine.isNamed
  have closed : ∀ parent child, catalog.Lists parent child → (catalog.get? child).isSome :=
    forall_lists_of_entries (by decide)
  have falls : ∀ parent child, catalog.Lists parent child →
      heightInHouse child < heightInHouse parent :=
    forall_lists_of_entries (by decide)
  have defined : ∀ source, catalog.Reaches "house" source → (catalog.get? source).isSome :=
    fun source => isSome_of_reaches closed rfl
  have acyclic : ∀ source, catalog.Reaches "house" source → ¬ catalog.IsAbove source source :=
    fun source _ => not_isAbove_self heightInHouse falls
  exact ⟨named, defined, acyclic, leaves_of_acyclic named defined acyclic, rfl⟩

/-- Over a catalog in which each source is under its own id, flattening comes to the same however
far it may go beyond the number of definitions. It fails exactly if the source has no definition, a
child that can be reached has none, or a source that can be reached is below itself. It fails with
the error of the first path at fault in the order of the children's positions, and the error is
about what is wrong there. -/
theorem leaves_fail_exactly (named : engine.progress.world.catalog.IsNamed) (id : SourceId) :
    (∀ depth, engine.progress.world.catalog.sources.size < depth →
      engine.leaves id = ((Graph.resolve id >>= Graph.leavesUnder depth [] []).result
        engine.progress.world).map List.reverse) ∧
    ((∃ error, engine.leaves id = .error error) ↔
      engine.progress.world.catalog.get? id = none ∨
      (∃ parent child, engine.progress.world.catalog.Reaches id parent ∧
        engine.progress.world.catalog.Lists parent child ∧
        engine.progress.world.catalog.get? child = none) ∨
      ∃ source, engine.progress.world.catalog.Reaches id source ∧
        engine.progress.world.catalog.IsAbove source source) ∧
    (∀ error, engine.leaves id = .error error ↔
      engine.progress.world.catalog.FirstFault id error) ∧
    ∀ error, engine.leaves id = .error error →
      engine.progress.world.catalog.Explains id error := by
  have failsWith (error : QueryError) : engine.leaves id = .error error ↔
      engine.progress.world.catalog.FirstFault id error := by
    rw [leaves_eq]
    exact Graph.result_flatten_eq_error_iff named id error
  refine ⟨fun depth enough => ?_, ?_, failsWith, fun error failed => ?_⟩
  · rw [leaves_eq]
    exact Graph.result_flatten_of_lt named enough id
  · rw [leaves_eq, ← exists_fault_iff]
    exact Graph.exists_result_flatten_eq_error_iff named id
  · obtain ⟨positions, fault, _⟩ := (failsWith error).1 failed
    exact fault.explains

/-- Two sources that list each other, one of them after the hourly meter. -/
def circleEngine : Engine Rat (Database Rat) :=
  .new .standard ⟨.empty, ⟨[
    ("inner", ⟨"inner", .aggregate ["outer"], .consumption, .epoch, none⟩),
    ("meter", hourlyMeter),
    ("outer", ⟨"outer", .aggregate ["meter", "inner"], .consumption, .epoch, none⟩)],
    by decide⟩⟩ .epoch

/-- Flattening a source of the circle fails where the path comes back to it. -/
theorem leaves_circleEngine :
    let catalog := circleEngine.progress.world.catalog
    catalog.IsNamed ∧ catalog.FirstFault "outer" (.cycle ["outer", "inner", "outer"]) ∧
      catalog.Explains "outer" (.cycle ["outer", "inner", "outer"]) := by
  intro catalog
  have listed : Catalog.ofList catalog.toList = .ok catalog := rfl
  have named : catalog.IsNamed := (isBuilt_ofList listed).isNamed
  have failed : circleEngine.leaves "outer" = .error (.cycle ["outer", "inner", "outer"]) := rfl
  obtain ⟨_, _, exactly, explains⟩ := leaves_fail_exactly named "outer"
  exact ⟨named, (exactly _).1 failed, explains _ failed⟩

end Engine

end Metering
