import Metering.Document
import Metering.Json.Parser

/-!
# Fixtures

A fixture is a document of sources and readings. The readings are taken in one
after another, in the order of the file, so that those out of order arrive late.
-/

namespace Metering.Command

/-- Sources and readings to load. -/
structure Fixture (σ : Type) where
  /-- The definitions. -/
  sources : List (Source σ)
  /-- The readings in the order in which they arrive. -/
  readings : List (Reading σ)

namespace Fixture

variable {σ : Type}

/-- The fixture of a document. -/
def ofJson? (value? : Json (Numeral σ) → Option σ) (document : Json (Numeral σ)) :
    Option (Fixture σ) := do
  let members ← document.members? ["sources", "readings"]
  let sources ← Json.defaulted? (Json.list? (Source.ofJson? value?)) [] "sources" members
  let readings ← Json.defaulted? (Json.list? (Reading.ofJson? value?)) [] "readings" members
  return ⟨sources, readings⟩

/-- The fixture of a text. -/
def parse? (text : String) : Option (Fixture Float) :=
  (Json.parse? text).bind (ofJson? Json.scalar?)

end Fixture

end Metering.Command
