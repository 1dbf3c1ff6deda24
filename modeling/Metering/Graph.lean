import Metering.Plan

/-!
# The graph of sources

A virtual source lists its children, which may be virtual in turn and may be
listed more than once. Flattening a source gives one entry for each path from
it to a leaf, in the order in which the children are declared.
-/

namespace Metering

/-- A leaf at the end of a path of virtual sources. -/
structure FlatLeaf (σ : Type) where
  /-- The leaf. -/
  leaf : Source σ
  /-- The virtual sources above it, from the root down. -/
  ancestors : List SourceId
deriving Repr

namespace Graph

variable {σ : Type}

/-- The definition of a source that has to exist. -/
def resolve (id : SourceId) : Attempt σ (Source σ) := do
  match ← Attempt.definition id with
  | some source => return source
  | none => throw (.missing id)

/-- The definition of a child that has to exist. -/
def resolveChild (child parent : SourceId) : Attempt σ (Source σ) := do
  match ← Attempt.definition child with
  | some source => return source
  | none => throw (.sourceNotFound child (some parent))

/-- The leaves under a source at the end of a path, after the leaves found so far, latest first.
The path holds no source twice, so no path is longer than the number of definitions, which is what
the first argument bounds. -/
def leavesUnder : Nat → List SourceId → List (FlatLeaf σ) → Source σ →
    Attempt σ (List (FlatLeaf σ))
  | 0, path, _, source => throw (.cycle (path ++ [source.id]))
  | depth + 1, path, found, source =>
    match source.kind with
    | .leaf _ => return ⟨source, path⟩ :: found
    | .aggregate children =>
      let extended := path ++ [source.id]
      children.foldlM (fun found child => do
        if extended.contains child then
          throw (.cycle (extended ++ [child]))
        let source ← resolveChild child source.id
        leavesUnder depth extended found source) found

/-- The leaves of a source with the path to each, in the order of their paths. -/
def flatten (id : SourceId) : Attempt σ (List (FlatLeaf σ)) := do
  let root ← resolve id
  let count ← Attempt.definitionCount
  let found ← leavesUnder (count + 1) [] [] root
  return found.reverse

end Graph

end Metering
