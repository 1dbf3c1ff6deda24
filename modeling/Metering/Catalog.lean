import Metering.Registry
import Metering.Source

/-!
# The catalog of sources

A catalog admits only definitions that are valid by themselves and keeps each
under its own id, so that a later definition replaces an earlier one.
-/

namespace Metering

/-- The definitions of all sources. -/
structure Catalog (σ : Type) where
  /-- Definitions by id. -/
  sources : Registry (Source σ)

namespace Catalog

variable {σ : Type}

/-- The catalog without sources. -/
def empty : Catalog σ := ⟨.empty⟩

/-- The definition of a source. -/
def get? (catalog : Catalog σ) (id : SourceId) : Option (Source σ) := catalog.sources.get? id

/-- The definitions in the order of their ids. -/
def toList (catalog : Catalog σ) : List (Source σ) := catalog.sources.values

/-- Removes a definition. -/
def remove (catalog : Catalog σ) (id : SourceId) : Catalog σ := ⟨catalog.sources.erase id⟩

variable [Scalar σ]

/-- Adds or replaces a definition, refused when it is not valid. -/
def upsert (catalog : Catalog σ) (source : Source σ) : Except StoreError (Catalog σ) :=
  match source.validate with
  | .ok () => .ok ⟨catalog.sources.insert source.id source⟩
  | .error cause => .error (.rejected cause)

/-- The catalog of a list of definitions, refused at the first that is not valid. -/
def ofList (sources : List (Source σ)) : Except StoreError (Catalog σ) :=
  sources.foldlM upsert empty

end Catalog

end Metering
