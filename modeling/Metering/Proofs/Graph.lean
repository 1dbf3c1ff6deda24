import Metering.Graph
import Metering.Proofs.Catalog

/-!
# The leaves of a source

Over a database in memory the leaves that a source flattens to are definitions
of the catalog (`defines_of_flatten`). A source that does not flatten fails for
its definitions and not for its readings (`not_outOfRange_of_flatten`).
-/

namespace Metering

variable {σ : Type} {counted : CacheEvent → Prop} {database : Database σ}

namespace Graph

/-- A source comes to its definition, or to the error that it has none. -/
theorem result_resolve (id : SourceId) :
    (resolve id).result database = (database.catalog.get? id).elim (.error (.missing id)) .ok := by
  have definition : (Attempt.definition id : Attempt σ (Option (Source σ))).result database =
      .ok (database.catalog.get? id) := rfl
  unfold resolve
  rw [Attempt.result_bind, definition, Except.ok_bind]
  cases database.catalog.get? id with
  | none => rfl
  | some source => rfl

/-- A child comes to its definition, or to an error that names the source that lists it. -/
theorem result_resolveChild (child parent : SourceId) :
    (resolveChild child parent).result database =
      (database.catalog.get? child).elim (.error (.sourceNotFound child (some parent))) .ok := by
  have definition : (Attempt.definition child : Attempt σ (Option (Source σ))).result database =
      .ok (database.catalog.get? child) := rfl
  unfold resolveChild
  rw [Attempt.result_bind, definition, Except.ok_bind]
  cases database.catalog.get? child with
  | none => rfl
  | some source => rfl

/-- What a definition that has to exist is. -/
theorem result_resolve_eq_ok_iff (id : SourceId) (source : Source σ) :
    (resolve id).result database = .ok source ↔ database.catalog.get? id = some source := by
  rw [result_resolve]
  cases database.catalog.get? id with
  | none => simp
  | some found => simp

/-- Resolving a source asks for its definition. -/
theorem uses_resolve {allowed : Request σ → Prop} {id : SourceId}
    (permitted : allowed (.definition id)) :
    (resolve id : Attempt σ (Source σ)).Uses allowed counted := by
  unfold resolve
  refine (Attempt.uses_request permitted).bind fun found => ?_
  cases found with
  | none => exact Attempt.uses_throw _
  | some source => exact Attempt.uses_pure source

/-- Resolving a child asks for its definition. -/
theorem uses_resolveChild {allowed : Request σ → Prop} {child : SourceId} (parent : SourceId)
    (permitted : allowed (.definition child)) :
    (resolveChild child parent : Attempt σ (Source σ)).Uses allowed counted := by
  unfold resolveChild
  refine (Attempt.uses_request permitted).bind fun found => ?_
  cases found with
  | none => exact Attempt.uses_throw _
  | some source => exact Attempt.uses_pure source

/-- Descending to the leaves only looks things up. -/
theorem uses_leavesUnder (depth : Nat) (path : List SourceId) (found : List (FlatLeaf σ))
    (source : Source σ) :
    (leavesUnder depth path found source).Uses Request.IsLookup counted := by
  induction depth generalizing path found source with
  | zero => exact Attempt.uses_throw _
  | succ depth ih =>
    unfold leavesUnder
    cases source.kind with
    | leaf carbonIntensity => exact Attempt.uses_pure _
    | aggregate children =>
      refine Attempt.Uses.foldlM (fun found child => ?_) found
      have resolves : (resolveChild child source.id : Attempt σ _).Uses Request.IsLookup counted :=
        uses_resolveChild source.id trivial
      dsimp only
      split
      · exact (Attempt.uses_throw _).bind fun _ => resolves.bind fun _ => ih ..
      · exact resolves.bind fun _ => ih ..

/-- Flattening a source only looks things up. -/
theorem uses_flatten (id : SourceId) :
    (flatten id : Attempt σ (List (FlatLeaf σ))).Uses Request.IsLookup counted := by
  unfold flatten
  refine (uses_resolve trivial).bind fun root => ?_
  refine (Attempt.uses_request trivial).bind fun count => ?_
  exact (uses_leavesUnder ..).bind fun _ => Attempt.uses_pure _

/-! ## What is found below a source -/

/-- What descending to a child from the end of a path comes to over a database. -/
def descend (database : Database σ) (depth : Nat) (path : List SourceId) (parent : SourceId)
    (found : List (FlatLeaf σ)) (child : SourceId) : Except QueryError (List (FlatLeaf σ)) :=
  if child ∈ path then
    .error (.cycle (path ++ [child]))
  else
    match database.catalog.get? child with
    | none => .error (.sourceNotFound child (some parent))
    | some source => (leavesUnder depth path found source).result database

/-- A leaf is found at its path. -/
theorem result_leavesUnder_of_isLeaf {source : Source σ} (leaf : source.isLeaf) (depth : Nat)
    (path : List SourceId) (found : List (FlatLeaf σ)) :
    (leavesUnder (depth + 1) path found source).result database =
      .ok (⟨source, path⟩ :: found) := by
  unfold Source.isLeaf at leaf
  unfold leavesUnder
  cases kind : source.kind with
  | leaf carbonIntensity => rfl
  | aggregate children =>
    rw [kind] at leaf
    cases leaf

/-- Below a virtual source is what is found by descending to one child after another. -/
theorem result_leavesUnder_of_not_isLeaf {source : Source σ} (virtual : source.isLeaf = false)
    (depth : Nat) (path : List SourceId) (found : List (FlatLeaf σ)) :
    (leavesUnder (depth + 1) path found source).result database =
      source.children.foldlM (descend database depth (path ++ [source.id]) source.id) found := by
  unfold Source.isLeaf at virtual
  unfold leavesUnder Source.children
  cases kind : source.kind with
  | leaf carbonIntensity =>
    rw [kind] at virtual
    cases virtual
  | aggregate children =>
    dsimp only
    rw [Attempt.result_foldlM]
    congr 1
    funext found child
    unfold descend
    by_cases again : child ∈ path ++ [source.id]
    · rw [if_pos again, if_pos (List.contains_iff_mem.2 again), Attempt.result_bind,
        Attempt.result_throw, Except.error_bind]
    · rw [if_neg again, if_neg (mt List.contains_iff_mem.1 again), Attempt.result_bind,
        result_resolveChild]
      cases database.catalog.get? child with
      | none => rfl
      | some definition => rfl

/-- The leaves under a definition are definitions if those found before are. -/
theorem defines_of_leavesUnder (depth : Nat) {path : List SourceId}
    {found final : List (FlatLeaf σ)} {source : Source σ}
    (defines : database.catalog.Defines source)
    (before : ∀ flat ∈ found, database.catalog.Defines flat.leaf)
    (came : (leavesUnder depth path found source).result database = .ok final) :
    ∀ flat ∈ final, database.catalog.Defines flat.leaf := by
  induction depth generalizing path found final source with
  | zero => cases came
  | succ depth ih =>
    cases leaf : source.isLeaf with
    | true =>
      rw [result_leavesUnder_of_isLeaf leaf, Except.ok.injEq] at came
      subst came
      exact List.forall_mem_cons.2 ⟨defines, before⟩
    | false =>
      rw [result_leavesUnder_of_not_isLeaf leaf] at came
      refine Except.foldlM_invariant
        (fun sofar => ∀ flat ∈ sofar, database.catalog.Defines flat.leaf)
        (fun sofar child _ next holds step => ?_) before came
      unfold descend at step
      split at step
      · cases step
      · split at step
        · cases step
        · rename_i definition defined
          exact ih ⟨child, defined⟩ holds step

/-- The leaves of a source are definitions of the catalog. -/
theorem defines_of_flatten {id : SourceId} {leaves : List (FlatLeaf σ)}
    (came : (flatten id).result database = .ok leaves) :
    ∀ flat ∈ leaves, database.catalog.Defines flat.leaf := by
  unfold flatten at came
  rw [Attempt.result_bind] at came
  cases resolved : (resolve id).result database with
  | error error =>
    rw [resolved] at came
    cases came
  | ok root =>
    have count : (Attempt.definitionCount : Attempt σ Nat).result database =
        .ok database.catalog.sources.size := rfl
    rw [resolved, Except.ok_bind, Attempt.result_bind, count, Except.ok_bind,
      Attempt.result_bind] at came
    cases under : (leavesUnder (database.catalog.sources.size + 1) [] [] root).result database with
    | error error =>
      rw [under] at came
      cases came
    | ok found =>
      rw [under] at came
      injection came with same
      have each := defines_of_leavesUnder _ ⟨id, (result_resolve_eq_ok_iff id root).1 resolved⟩
        (fun flat member => absurd member List.not_mem_nil) under
      intro flat member
      rw [← same] at member
      exact each flat (List.mem_reverse.1 member)

/-- A descent that fails is not out of range. -/
theorem not_outOfRange_of_leavesUnder (depth : Nat) {path : List SourceId}
    {found : List (FlatLeaf σ)} {source : Source σ} {error : QueryError}
    (failed : (leavesUnder depth path found source).result database = .error error)
    (id : SourceId) (time : Instant) : error ≠ .outOfRange id time := by
  induction depth generalizing path found source error with
  | zero =>
    obtain rfl : .cycle (path ++ [source.id]) = error := Except.error.inj failed
    exact nofun
  | succ depth ih =>
    cases leaf : source.isLeaf with
    | true =>
      rw [result_leavesUnder_of_isLeaf leaf] at failed
      cases failed
    | false =>
      rw [result_leavesUnder_of_not_isLeaf leaf] at failed
      refine Except.foldlM_error_invariant (· ≠ .outOfRange id time)
        (fun sofar child _ other step => ?_) failed
      unfold descend at step
      split at step
      · obtain rfl := Except.error.inj step
        exact nofun
      · split at step
        · obtain rfl := Except.error.inj step
          exact nofun
        · exact ih step

/-- A source that does not flatten is not out of range. -/
theorem not_outOfRange_of_flatten {id : SourceId} {error : QueryError}
    (failed : (flatten id).result database = .error error) (leaf : SourceId) (time : Instant) :
    error ≠ .outOfRange leaf time := by
  have count : (Attempt.definitionCount : Attempt σ Nat).result database =
      .ok database.catalog.sources.size := rfl
  unfold flatten at failed
  rw [Attempt.result_bind, result_resolve] at failed
  cases defined : database.catalog.get? id with
  | none =>
    rw [defined] at failed
    obtain rfl := Except.error.inj failed
    exact nofun
  | some root =>
    rw [defined, Option.elim_some, Except.ok_bind, Attempt.result_bind, count, Except.ok_bind,
      Attempt.result_bind] at failed
    cases under : (leavesUnder (database.catalog.sources.size + 1) [] [] root).result database with
    | ok found =>
      rw [under] at failed
      cases failed
    | error other =>
      rw [under] at failed
      obtain rfl := Except.error.inj failed
      exact not_outOfRange_of_leavesUnder _ under leaf time

end Graph

end Metering
