/-!
# Sources and fields by name

Every meter, real or virtual, is a source with an id. A reading of a source
carries up to two fields, and every lookup is for one of them.
-/

namespace Metering

/-- The id of a source. -/
abbrev SourceId := String

/-- Which value of a reading a lookup is about. -/
inductive Field where
  /-- Momentary power in watts. -/
  | power
  /-- The energy counter in watt hours. -/
  | cumulativeEnergy
deriving DecidableEq, Repr

/-- The name of a field in data and in messages. -/
def Field.name : Field → String
  | .power => "power"
  | .cumulativeEnergy => "cumulative_energy"

/-- The field with a name. -/
def Field.ofName? (name : String) : Option Field :=
  [Field.power, Field.cumulativeEnergy].find? fun field => field.name == name

end Metering
