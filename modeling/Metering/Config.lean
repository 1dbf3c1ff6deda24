/-!
# Configuration

The configuration of an engine says whether checkpoints are kept at all, what
late data does to finalized ones, how long a query may take, and how many
instants of a grid one reading may bring up to date.
-/

namespace Metering

/-- What a reading that arrives late does to finalized checkpoints. -/
inductive LateDataPolicy where
  /-- They never change. -/
  | freeze
  /-- They are worked out again, whatever their age. -/
  | revise
deriving DecidableEq, Repr

/-- The name of a policy in data. -/
def LateDataPolicy.name : LateDataPolicy → String
  | .freeze => "freeze"
  | .revise => "revise"

/-- The policy with a name. -/
def LateDataPolicy.ofName? (name : String) : Option LateDataPolicy :=
  [LateDataPolicy.freeze, LateDataPolicy.revise].find? fun policy => policy.name == name

/-- The configuration of an engine. -/
structure Config where
  /-- Whether checkpoints are kept for the sources that ask for them. -/
  cacheEnabled : Bool
  /-- What late data does to finalized checkpoints. -/
  lateDataPolicy : LateDataPolicy
  /-- How many seconds a query may take, if there is a limit. -/
  queryTimeoutSeconds : Option Nat
  /-- The most instants of a grid that one reading brings up to date. -/
  maxBoundariesPerIngest : Nat
deriving DecidableEq, Repr

namespace Config

/-- The configuration where nothing is said. -/
def standard : Config := ⟨true, .freeze, none, 10000⟩

/-- The standard configuration without checkpoints. -/
def uncached : Config := { standard with cacheEnabled := false }

/-- How many milliseconds a query may take, if there is a limit. -/
def queryTimeoutMillis (config : Config) : Option Nat :=
  config.queryTimeoutSeconds.map fun seconds => seconds * 1000

end Config

end Metering
