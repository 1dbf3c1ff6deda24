import Mathlib.Data.Finset.Basic
import Mathlib.Data.Finset.Dedup
import Metering.Proofs.Traversal

/-!
# Flattening by a walk

The leaves of a source are found by a walk along its paths that keeps the
virtual sources it has entered, each with the number of its children that it
has taken, and beside them the set of the sources that a path must not come
back to. One turn of the walk takes a child or leaves a source, and the walk is
over when it has left the source that it began with. It asks for definitions
alone (`uses_flattenBy`).

The set is always that of the sources that were entered and not left
(`Walk.IsOnWay.steps`). A virtual source that is entered is left again with what
is below it found, or the walk comes to an error there (`Walk.returns`). So the
walk comes to its end, and to what flattening comes to (`result_flattenBy`).
-/

namespace Metering

/-- A request for a definition. -/
def Request.IsDefinition {σ : Type} : Request σ → Prop
  | .definition _ => True
  | _ => False

/-- Asking for a definition is looking something up. -/
theorem Request.isLookup_of_isDefinition {σ : Type} (request : Request σ)
    (definition : request.IsDefinition) : request.IsLookup := by
  cases request with
  | definition source => trivial
  | _ => exact definition.elim

namespace Graph

/-- A source that a walk has entered. -/
structure Frame (σ : Type) where
  /-- The source. -/
  source : Source σ
  /-- How many of its children have been taken. -/
  taken : Nat

/-- The ids of the sources that were entered, from the first one on. -/
def pathOf {σ : Type} (frames : List (Frame σ)) : List SourceId :=
  (frames.map fun frame => frame.source.id).reverse

/-- A walk along the paths of a source. -/
structure Walk (σ : Type) where
  /-- The virtual sources that were entered and not left, latest first. -/
  frames : List (Frame σ)
  /-- The sources that a path must not come back to. -/
  onPath : Finset SourceId
  /-- The leaves that were found, latest first. -/
  found : List (FlatLeaf σ)

variable {σ : Type}

namespace Walk

/-- The walk that has entered one source. -/
def start (root : Source σ) : Walk σ := ⟨[⟨root, 0⟩], {root.id}, []⟩

/-- Goes on with the definition of a child: a leaf is found, and a virtual source is entered. -/
def meet (walk : Walk σ) (source : Source σ) : Walk σ :=
  if source.isLeaf then
    { walk with found := ⟨source, pathOf walk.frames⟩ :: walk.found }
  else
    { walk with frames := ⟨source, 0⟩ :: walk.frames, onPath := insert source.id walk.onPath }

/-- One turn of a walk: it takes the next child of the source that it entered last, or leaves that
source if there is none. -/
def step (walk : Walk σ) : Attempt σ (Walk σ) :=
  match walk.frames with
  | [] => return walk
  | frame :: above =>
    match frame.source.children[frame.taken]? with
    | none => return { walk with frames := above, onPath := walk.onPath.erase frame.source.id }
    | some child =>
      let walk := { walk with frames := { frame with taken := frame.taken + 1 } :: above }
      if child ∈ walk.onPath then
        throw (.cycle (pathOf walk.frames ++ [child]))
      else do
        let source ← resolveChild child frame.source.id
        return walk.meet source

/-- Some turns of a walk. -/
def steps : Nat → Walk σ → Attempt σ (Walk σ)
  | 0, walk => return walk
  | count + 1, walk => do
    let next ← walk.step
    steps count next

/-- The leaves that a walk has found, in the order of their paths, once it is over. -/
def told? (walk : Walk σ) : Option (List (FlatLeaf σ)) :=
  if walk.frames.isEmpty then some walk.found.reverse else none

end Walk

/-- The leaves of a source with the path to each, if a walk of some turns comes to its end. -/
def flattenBy (count : Nat) (id : SourceId) : Attempt σ (Option (List (FlatLeaf σ))) := do
  let root ← resolve id
  if root.isLeaf then
    return some [⟨root, []⟩]
  else
    let walk ← (Walk.start root).steps count
    return walk.told?

/-! ## What a walk asks for -/

section Uses

variable {counted : CacheEvent → Prop}

/-- A turn of a walk asks for the definition of a child. -/
theorem Walk.uses_step (walk : Walk σ) : walk.step.Uses Request.IsDefinition counted := by
  unfold step
  split
  · exact Attempt.uses_pure walk
  · split
    · exact Attempt.uses_pure _
    · dsimp only
      split
      · exact Attempt.uses_throw _
      · exact (uses_resolveChild _ trivial).bind fun source => Attempt.uses_pure _

/-- The turns of a walk ask for definitions. -/
theorem Walk.uses_steps (count : Nat) (walk : Walk σ) :
    (walk.steps count).Uses Request.IsDefinition counted := by
  induction count generalizing walk with
  | zero => exact Attempt.uses_pure walk
  | succ count ih => exact walk.uses_step.bind ih

/-- Flattening by a walk asks for definitions and never for their number. -/
theorem uses_flattenBy (count : Nat) (id : SourceId) :
    (flattenBy count id : Attempt σ _).Uses Request.IsDefinition counted := by
  unfold flattenBy
  refine (uses_resolve trivial).bind fun root => ?_
  split
  · exact Attempt.uses_pure _
  · exact (Walk.uses_steps ..).bind fun walk => Attempt.uses_pure _

end Uses

/-! ## What a walk keeps to -/

/-- The source that was entered last is the last one of the path. -/
theorem pathOf_cons (frame : Frame σ) (frames : List (Frame σ)) :
    pathOf (frame :: frames) = pathOf frames ++ [frame.source.id] := List.reverse_cons

/-- A path has as many sources as were entered. -/
theorem length_pathOf (frames : List (Frame σ)) : (pathOf frames).length = frames.length := by
  unfold pathOf
  rw [List.length_reverse, List.length_map]

namespace Walk

variable {catalog : Catalog σ} {frame : Frame σ} {above : List (Frame σ)}
  {onPath : Finset SourceId} {found : List (FlatLeaf σ)} {walk : Walk σ}

/-- The sources that a walk has entered and not left are defined and distinct, and they are those
that a path must not come back to. -/
structure IsOnWay (catalog : Catalog σ) (walk : Walk σ) : Prop where
  /-- A path must not come back to what was entered and not left. -/
  onPath_eq : walk.onPath = (pathOf walk.frames).toFinset
  /-- What was entered and not left is defined, and nothing was entered twice. -/
  way : catalog.IsWay (pathOf walk.frames)

namespace IsOnWay

/-- What a path must not come back to is on it. -/
theorem mem_onPath_iff (onWay : walk.IsOnWay catalog) (id : SourceId) :
    id ∈ walk.onPath ↔ id ∈ pathOf walk.frames := by
  rw [onWay.onPath_eq, List.mem_toFinset]

/-- No more sources are entered at a time than the catalog has. -/
theorem length_le_size (onWay : walk.IsOnWay catalog) :
    walk.frames.length ≤ catalog.sources.size :=
  length_pathOf walk.frames ▸ onWay.way.length_le_size

/-- A walk that begins has entered one source. -/
theorem start {root : Source σ} (defined : catalog.get? root.id = some root) :
    (start root).IsOnWay catalog :=
  ⟨rfl, Catalog.IsWay.nil.extend defined List.not_mem_nil⟩

/-- Taking a child, or finding a leaf, leaves the path as it is. -/
theorem take (onWay : (⟨frame :: above, onPath, found⟩ : Walk σ).IsOnWay catalog) (taken : Nat)
    (more : List (FlatLeaf σ)) :
    (⟨{ frame with taken := taken } :: above, onPath, more⟩ : Walk σ).IsOnWay catalog :=
  ⟨onWay.onPath_eq, onWay.way⟩

/-- The definition of a child that is new to the path keeps a walk on its way. -/
theorem meet (onWay : walk.IsOnWay catalog) {source : Source σ}
    (defined : catalog.get? source.id = some source) (apart : source.id ∉ walk.onPath) :
    (walk.meet source).IsOnWay catalog := by
  unfold Walk.meet
  split
  · exact ⟨onWay.onPath_eq, onWay.way⟩
  · constructor
    · rw [pathOf_cons, List.toFinset_append, ← onWay.onPath_eq, Finset.insert_eq,
        Finset.union_comm]
      rfl
    · rw [pathOf_cons]
      exact onWay.way.extend defined (mt (onWay.mem_onPath_iff _).2 apart)

/-- Leaving the source that was entered last shortens the path by that source. -/
theorem leave (onWay : (⟨frame :: above, onPath, found⟩ : Walk σ).IsOnWay catalog) :
    (⟨above, onPath.erase frame.source.id, found⟩ : Walk σ).IsOnWay catalog := by
  obtain ⟨same, way⟩ := onWay
  dsimp only at same way
  rw [pathOf_cons] at same way
  obtain ⟨shorter, apart⟩ := way.of_append
  refine ⟨?_, shorter⟩
  ext id
  simp only [same, Finset.mem_erase, List.mem_toFinset, List.mem_append, List.mem_singleton]
  constructor
  · exact fun ⟨differ, member⟩ => member.resolve_right differ
  · exact fun member => ⟨fun equal => apart (equal ▸ member), Or.inl member⟩

end IsOnWay

variable {database : Database σ}

/-- A leaf that is met is found. -/
theorem meet_of_isLeaf {source : Source σ} (leaf : source.isLeaf) (walk : Walk σ) :
    walk.meet source = { walk with found := ⟨source, pathOf walk.frames⟩ :: walk.found } :=
  if_pos leaf

/-- A virtual source that is met is entered. -/
theorem meet_of_not_isLeaf {source : Source σ} (virtual : source.isLeaf = false) (walk : Walk σ) :
    walk.meet source =
      ⟨⟨source, 0⟩ :: walk.frames, insert source.id walk.onPath, walk.found⟩ :=
  if_neg (Bool.eq_false_iff.1 virtual)

/-- What a turn of a walk comes to over a database. -/
theorem result_step_cons (frame : Frame σ) (above : List (Frame σ)) (onPath : Finset SourceId)
    (found : List (FlatLeaf σ)) :
    (step ⟨frame :: above, onPath, found⟩).result database =
      match frame.source.children[frame.taken]? with
      | none => .ok ⟨above, onPath.erase frame.source.id, found⟩
      | some child =>
        if child ∈ onPath then
          .error (.cycle (pathOf (frame :: above) ++ [child]))
        else
          match database.catalog.get? child with
          | none => .error (.sourceNotFound child (some frame.source.id))
          | some source =>
            .ok ((⟨{ frame with taken := frame.taken + 1 } :: above, onPath, found⟩ : Walk σ).meet
              source) := by
  unfold step
  dsimp only
  cases frame.source.children[frame.taken]? with
  | none => rfl
  | some child =>
    dsimp only
    by_cases again : child ∈ onPath
    · rw [if_pos again, if_pos again]
      rfl
    · rw [if_neg again, if_neg again, Attempt.result_bind, result_resolveChild]
      cases database.catalog.get? child with
      | none => rfl
      | some source => rfl

/-- Turns are one turn and the turns after it. -/
theorem result_steps_succ (count : Nat) (walk : Walk σ) :
    (walk.steps (count + 1)).result database =
      walk.step.result database >>= fun next => (next.steps count).result database :=
  Attempt.result_bind ..

/-- A turn keeps a walk on its way if each definition is under its own id. -/
theorem IsOnWay.step (named : database.catalog.IsNamed) {next : Walk σ}
    (onWay : walk.IsOnWay database.catalog) (came : walk.step.result database = .ok next) :
    next.IsOnWay database.catalog := by
  obtain ⟨_ | ⟨frame, above⟩, onPath, found⟩ := walk
  · exact Except.ok.inj came ▸ onWay
  · rw [result_step_cons] at came
    split at came
    · exact Except.ok.inj came ▸ onWay.leave
    · split at came
      · cases came
      · rename_i apart
        split at came
        · cases came
        · rename_i source defined
          have owner := named _ source defined
          rw [← owner] at apart defined
          exact Except.ok.inj came ▸ (onWay.take _ _).meet defined apart

/-- However many turns it takes, a walk stays on its way. -/
theorem IsOnWay.steps (named : database.catalog.IsNamed) {count : Nat} {last : Walk σ}
    (onWay : walk.IsOnWay database.catalog) (came : (walk.steps count).result database = .ok last) :
    last.IsOnWay database.catalog := by
  induction count generalizing walk with
  | zero => exact Except.ok.inj came ▸ onWay
  | succ count ih =>
    rw [result_steps_succ, Except.bind_eq_ok_iff] at came
    obtain ⟨next, turn, rest⟩ := came
    exact ih (onWay.step named turn) rest

/-! ## Where a walk comes to -/

/-- More turns go on from where fewer turns come to. -/
theorem result_steps_add (count more : Nat) (walk : Walk σ) :
    (walk.steps (count + more)).result database =
      (walk.steps count).result database >>= fun next => (next.steps more).result database := by
  induction count generalizing walk with
  | zero => rw [Nat.zero_add]; rfl
  | succ count ih =>
    rw [Nat.succ_add, result_steps_succ, result_steps_succ]
    cases walk.step.result database with
    | error error => rfl
    | ok next => exact ih next

/-- A walk that is over goes nowhere. -/
theorem result_steps_of_frames_eq_nil (ended : walk.frames = []) (count : Nat) :
    (walk.steps count).result database = .ok walk := by
  induction count with
  | zero => rfl
  | succ count ih =>
    have stays : walk.step.result database = .ok walk := by
      unfold step
      rw [ended]
      rfl
    rw [result_steps_succ, stays, Except.ok_bind, ih]

/-- A walk comes to an outcome after some number of turns. -/
def ComesTo (database : Database σ) (walk : Walk σ) (outcome : Except QueryError (Walk σ)) : Prop :=
  ∃ count, (walk.steps count).result database = outcome

/-- A walk comes to what a turn comes to. -/
theorem ComesTo.of_step {outcome : Except QueryError (Walk σ)}
    (came : walk.step.result database = outcome) : walk.ComesTo database outcome := by
  refine ⟨1, ?_⟩
  rw [result_steps_succ, came]
  exact bind_pure outcome

/-- A walk comes to what comes of where it has come to. -/
theorem ComesTo.bind {α : Type} {outcome : Except QueryError α} {place : α → Walk σ}
    {rest : α → Except QueryError (Walk σ)} (comes : walk.ComesTo database (outcome.map place))
    (goesOn : ∀ value, (place value).ComesTo database (rest value)) :
    walk.ComesTo database (outcome >>= rest) := by
  obtain ⟨count, came⟩ := comes
  cases outcome with
  | error error => exact ⟨count, came⟩
  | ok value =>
    obtain ⟨more, after⟩ := goesOn value
    refine ⟨count + more, ?_⟩
    rw [result_steps_add, came]
    exact after

/-- A walk comes to what it comes to after a turn. -/
theorem ComesTo.after_step {next : Walk σ} {outcome : Except QueryError (Walk σ)}
    (goesOn : next.ComesTo database outcome) (came : walk.step.result database = .ok next) :
    walk.ComesTo database outcome := by
  obtain ⟨count, after⟩ := goesOn
  refine ⟨count + 1, ?_⟩
  rw [result_steps_succ, came]
  exact after

/-! ## From entering a source to leaving it -/

/-- A virtual source that was entered is left again with what is below it found, if a path may be
longer by some bound. -/
def Returns (database : Database σ) (depth : Nat) : Prop :=
  ∀ ⦃source : Source σ⦄ ⦃above : List (Frame σ)⦄ ⦃onPath : Finset SourceId⦄
    ⦃found : List (FlatLeaf σ)⦄, source.isLeaf = false →
    (⟨⟨source, 0⟩ :: above, onPath, found⟩ : Walk σ).IsOnWay database.catalog →
    database.catalog.sources.size < depth + above.length →
    ComesTo database ⟨⟨source, 0⟩ :: above, onPath, found⟩
      (((leavesUnder depth (pathOf above) found source).result database).map fun final =>
        ⟨above, onPath.erase source.id, final⟩)

/-- Taking a child finds what descending to it finds. -/
theorem Returns.comesTo_child {depth : Nat} (returns : Returns database depth)
    (named : database.catalog.IsNamed) {child : SourceId}
    (onWay : (⟨frame :: above, onPath, found⟩ : Walk σ).IsOnWay database.catalog)
    (listed : frame.source.children[frame.taken]? = some child)
    (enough : database.catalog.sources.size < depth + (above.length + 1)) :
    ComesTo database ⟨frame :: above, onPath, found⟩
      ((descend database depth (pathOf (frame :: above)) frame.source.id found child).map
        fun final => ⟨{ frame with taken := frame.taken + 1 } :: above, onPath, final⟩) := by
  have turn : (Walk.step ⟨frame :: above, onPath, found⟩).result database = _ :=
    result_step_cons ..
  rw [listed] at turn
  dsimp only at turn
  unfold descend
  by_cases again : child ∈ pathOf (frame :: above)
  · rw [if_pos ((onWay.mem_onPath_iff child).2 again)] at turn
    rw [if_pos again]
    exact .of_step turn
  · have apart : child ∉ onPath := mt (onWay.mem_onPath_iff child).1 again
    rw [if_neg apart] at turn
    rw [if_neg again]
    cases defined : database.catalog.get? child with
    | none =>
      rw [defined] at turn
      exact .of_step turn
    | some source =>
      rw [defined] at turn
      dsimp only at turn ⊢
      obtain rfl : source.id = child := named child source defined
      have met := (onWay.take (frame.taken + 1) found).meet defined apart
      cases leaf : source.isLeaf with
      | true =>
        -- A way is no longer than the catalog, so the bound leaves room for a leaf.
        have few : above.length + 1 ≤ _ := onWay.length_le_size
        obtain ⟨less, rfl⟩ : ∃ less, depth = less + 1 := ⟨depth - 1, by omega⟩
        rw [meet_of_isLeaf leaf] at turn
        rw [result_leavesUnder_of_isLeaf leaf]
        exact .of_step turn
      | false =>
        rw [meet_of_not_isLeaf leaf] at turn met
        have back := returns leaf met enough
        dsimp only at back
        rw [Finset.erase_insert apart] at back
        exact back.after_step turn

/-- Taking the rest of the children of a source and leaving it finds what descending to one after
another finds. -/
theorem Returns.comesTo_children {depth : Nat} (returns : Returns database depth)
    (named : database.catalog.IsNamed) {children : List SourceId}
    (onWay : (⟨frame :: above, onPath, found⟩ : Walk σ).IsOnWay database.catalog)
    (left : frame.source.children.drop frame.taken = children)
    (enough : database.catalog.sources.size < depth + (above.length + 1)) :
    ComesTo database ⟨frame :: above, onPath, found⟩
      ((children.foldlM (descend database depth (pathOf (frame :: above)) frame.source.id)
        found).map fun final => ⟨above, onPath.erase frame.source.id, final⟩) := by
  induction children generalizing frame found with
  | nil =>
    have last : frame.source.children[frame.taken]? = none :=
      List.getElem?_eq_none (List.drop_eq_nil_iff.1 left)
    have turn : (Walk.step ⟨frame :: above, onPath, found⟩).result database = _ :=
      result_step_cons ..
    rw [last] at turn
    exact .of_step turn
  | cons child rest ih =>
    have listed : frame.source.children[frame.taken]? = some child := by
      rw [← List.head?_drop, left]
      rfl
    have others : frame.source.children.drop (frame.taken + 1) = rest := by
      rw [← List.tail_drop, left]
      rfl
    rw [List.foldlM_cons, Except.map_bind]
    exact (returns.comesTo_child named onWay listed enough).bind fun final =>
      ih (onWay.take _ final) others

/-- Entering a virtual source and walking on leaves it again with what is below it found, if a path
may be longer than what is left of the catalog. -/
theorem returns (named : database.catalog.IsNamed) (depth : Nat) : Returns database depth := by
  induction depth with
  | zero =>
    intro source above onPath found _ onWay enough
    have few : above.length + 1 ≤ _ := onWay.length_le_size
    omega
  | succ depth ih =>
    intro source above onPath found virtual onWay enough
    have all : source.children.drop 0 = source.children := List.drop_zero
    rw [result_leavesUnder_of_not_isLeaf virtual, ← pathOf_cons ⟨source, 0⟩ above]
    exact ih.comesTo_children named onWay all (by omega)

/-- A walk that begins with a virtual source comes to its end, with what is below that source
found. -/
theorem comesTo_start (named : database.catalog.IsNamed) {root : Source σ}
    (defined : database.catalog.get? root.id = some root) (virtual : root.isLeaf = false) :
    (start root).ComesTo database
      (((leavesUnder (database.catalog.sources.size + 1) [] [] root).result database).map
        fun final => ⟨[], ∅, final⟩) := by
  have comes := returns named _ virtual (.start defined) (Nat.lt_succ_self _)
  rw [Finset.erase_singleton] at comes
  exact comes

/-- A walk that comes to its end or to an error has either come to that after some turns, or it has
more turns to make. -/
theorem ComesTo.result_steps {α : Type} {outcome : Except QueryError α} {place : α → Walk σ}
    (comes : walk.ComesTo database (outcome.map place))
    (ended : ∀ value, (place value).frames = []) :
    (∀ count, (walk.steps count).result database = outcome.map place ∨
      ∃ next, (walk.steps count).result database = .ok next ∧ next.frames ≠ []) ∧
    ∃ enough, ∀ count, enough ≤ count →
      (walk.steps count).result database = outcome.map place := by
  obtain ⟨enough, came⟩ := comes
  have stays (count : Nat) (least : enough ≤ count) :
      (walk.steps count).result database = outcome.map place := by
    obtain ⟨more, rfl⟩ := Nat.exists_eq_add_of_le least
    rw [result_steps_add, came]
    cases outcome with
    | error error => rfl
    | ok value => exact result_steps_of_frames_eq_nil (ended value) more
  refine ⟨fun count => ?_, enough, stays⟩
  rcases Nat.le_total enough count with least | fewer
  · exact Or.inl (stays count least)
  · obtain ⟨more, rfl⟩ := Nat.exists_eq_add_of_le fewer
    rw [result_steps_add] at came
    cases turns : (walk.steps count).result database with
    | error error =>
      rw [turns] at came
      exact Or.inl came
    | ok next =>
      by_cases ended : next.frames = []
      · rw [turns, Except.ok_bind, result_steps_of_frames_eq_nil ended] at came
        exact Or.inl came
      · exact Or.inr ⟨next, rfl, ended⟩

end Walk

/-! ## What flattening by a walk comes to -/

variable {database : Database σ}

/-- Flattening a leaf by a walk tells the leaf at once. -/
theorem result_flattenBy_of_isLeaf {id : SourceId} {root : Source σ}
    (defined : database.catalog.get? id = some root) (leaf : root.isLeaf) (count : Nat) :
    (flattenBy count id).result database = .ok (some [⟨root, []⟩]) := by
  unfold flattenBy
  rw [Attempt.result_bind, result_resolve, defined, Option.elim_some, Except.ok_bind, if_pos leaf]
  rfl

/-- Flattening a virtual source by a walk tells what was found if the walk is over. -/
theorem result_flattenBy_of_not_isLeaf {id : SourceId} {root : Source σ}
    (defined : database.catalog.get? id = some root) (virtual : root.isLeaf = false)
    (count : Nat) :
    (flattenBy count id).result database =
      (((Walk.start root).steps count).result database).map Walk.told? := by
  unfold flattenBy
  rw [Attempt.result_bind, result_resolve, defined, Option.elim_some, Except.ok_bind,
    if_neg (Bool.eq_false_iff.1 virtual), Attempt.result_bind]
  cases ((Walk.start root).steps count).result database with
  | error error => rfl
  | ok walk => rfl

/-- Flattening by a walk comes to what flattening comes to, or the walk has more turns to make, and
from some number of turns on it has none. -/
theorem result_flattenBy (named : database.catalog.IsNamed) (id : SourceId) :
    (∀ count, (flattenBy count id).result database = ((flatten id).result database).map some ∨
      (flattenBy count id).result database = .ok none) ∧
    ∃ enough, ∀ count, enough ≤ count →
      (flattenBy count id).result database = ((flatten id).result database).map some := by
  rw [result_flatten, Attempt.result_bind, result_resolve]
  cases defined : database.catalog.get? id with
  | none =>
    have fails (count : Nat) : (flattenBy count id).result database = .error (.missing id) := by
      unfold flattenBy
      rw [Attempt.result_bind, result_resolve, defined]
      rfl
    exact ⟨fun count => Or.inl (fails count), 0, fun count _ => fails count⟩
  | some root =>
    rw [Option.elim_some, Except.ok_bind]
    cases leaf : root.isLeaf with
    | true =>
      have tells := result_flattenBy_of_isLeaf defined leaf
      rw [result_leavesUnder_of_isLeaf leaf]
      exact ⟨fun count => Or.inl (tells count), 0, fun count _ => tells count⟩
    | false =>
      have owner := named id root defined
      obtain ⟨each, enough, ends⟩ :=
        (Walk.comesTo_start named (owner.symm ▸ defined) leaf).result_steps fun _ => rfl
      generalize (leavesUnder (database.catalog.sources.size + 1) [] [] root).result database =
        outcome at each ends ⊢
      have tells (count : Nat) (came : ((Walk.start root).steps count).result database =
          outcome.map fun final => ⟨[], ∅, final⟩) :
          (flattenBy count id).result database = (outcome.map List.reverse).map some := by
        rw [result_flattenBy_of_not_isLeaf defined leaf, came]
        cases outcome with
        | error error => rfl
        | ok final => rfl
      refine ⟨fun count => (each count).imp (tells count) ?_, enough, fun count least =>
        tells count (ends count least)⟩
      rintro ⟨next, came, underWay⟩
      rw [result_flattenBy_of_not_isLeaf defined leaf, came]
      exact congrArg Except.ok (if_neg (mt List.isEmpty_iff.1 underWay))

end Graph

namespace Engine

variable {σ : Type} {engine : Engine σ (Database σ)}

/-- An engine over a database tells the leaves that a walk finds. -/
theorem leaves_eq_flattenBy (named : engine.progress.world.catalog.IsNamed) (id : SourceId) :
    ∃ enough, ∀ count, enough ≤ count →
      (engine.perform Database.serve .none (Graph.flattenBy count id)).1 =
        (engine.leaves id).map some := by
  have open_ : Limits.none.check engine.progress.elapsed = none := rfl
  obtain ⟨_, enough, tells⟩ := Graph.result_flattenBy named id
  refine ⟨enough, fun count least => ?_⟩
  have lookups : (Graph.flattenBy count id : Attempt σ _).Uses Request.IsLookup fun _ => False :=
    Plan.Uses.imp (Graph.uses_flattenBy count id) Request.isLookup_of_isDefinition fun _ never =>
      never
  rw [perform_eq open_ lookups, leaves_eq, tells count least]

/-- A walk through the house takes five children and leaves three sources, so it is over after
eight turns. -/
example : (Graph.flattenBy 7 "house").result wingsEngine.progress.world = .ok none ∧
    (Graph.flattenBy 8 "house").result wingsEngine.progress.world =
      (wingsEngine.leaves "house").map some := ⟨rfl, rfl⟩

end Engine

end Metering
