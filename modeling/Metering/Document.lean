import Metering.Bracket
import Metering.Config
import Metering.Json.Basic
import Metering.Source
import Metering.Time.Text

/-!
# Definitions and readings as documents

Sources, readings and configurations are read from JSON objects and written as
such. Unknown members are passed over, known ones must not be repeated, and an
absent member has its default where it has one. The members of a source's kind
stand beside the others, and the kind that a source is not of has no say.
-/

namespace Metering

namespace Json

variable {ν σ : Type}

/-- An instant. -/
def instant? (value : Json ν) : Option Instant := value.string?.bind Instant.ofText?

/-- An instant as a string. -/
def ofInstant (instant : Instant) : Json ν := .string instant.text

/-- A whole number that fits a 64-bit word. -/
def ofNat (value : Nat) : Json (Numeral σ) := .number (.natural value)

/-- A measured value. -/
def ofScalar (value : σ) : Json (Numeral σ) := .number (.real value)

end Json

/-! ## Readings -/

namespace Reading

variable {σ : Type}

/-- A reading as a document. -/
def toJson (reading : Reading σ) : Json (Numeral σ) :=
  .object (Json.optional "cumulative_energy" Json.ofScalar reading.energy ++
    Json.optional "power" Json.ofScalar reading.power ++
    [("source", .string reading.source), ("timestamp", Json.ofInstant reading.instant)])

/-- The reading of a document, whose values are read by a function. -/
def ofJson? (value? : Json (Numeral σ) → Option σ) (document : Json (Numeral σ)) :
    Option (Reading σ) := do
  let members ← document.members? ["source", "timestamp", "power", "cumulative_energy"]
  let source ← Json.required? Json.string? "source" members
  let instant ← Json.required? Json.instant? "timestamp" members
  let power ← Json.defaulted? (Json.nullable? value?) none "power" members
  let energy ← Json.defaulted? (Json.nullable? value?) none "cumulative_energy" members
  return ⟨source, instant, power, energy⟩

end Reading

/-- The bracket of a document, taken as it stands. -/
def Bracket.ofJson? {σ : Type} (value? : Json (Numeral σ) → Option σ)
    (document : Json (Numeral σ)) : Option (Bracket σ) := do
  let members ← document.members? ["field", "before", "after", "target"]
  let field ← Json.required? (Json.choice? Field.ofName?) "field" members
  let before ← Json.required? (Reading.ofJson? value?) "before" members
  let after ← Json.required? (Reading.ofJson? value?) "after" members
  let target ← Json.required? Json.instant? "target" members
  return ⟨field, before, after, target⟩

/-! ## Sources -/

namespace CacheSettings

variable {σ : Type}

/-- Cache settings as a document. -/
def toJson (settings : CacheSettings) : Json (Numeral σ) :=
  .object [("checkpoint_interval_secs", Json.ofNat settings.intervalSeconds),
    ("window_secs", Json.ofNat settings.windowSeconds)]

/-- The cache settings of a document. -/
def ofJson? (document : Json (Numeral σ)) : Option CacheSettings := do
  let members ← document.members? ["checkpoint_interval_secs", "window_secs"]
  let intervalSeconds ← Json.required? Json.natural? "checkpoint_interval_secs" members
  let windowSeconds ← Json.required? Json.natural? "window_secs" members
  return ⟨intervalSeconds, windowSeconds⟩

end CacheSettings

namespace Source

variable {σ : Type}

/-- A source as a document. -/
def toJson (source : Source σ) : Json (Numeral σ) :=
  let cache := Json.optional "cache" CacheSettings.toJson source.cache
  let common : List (String × Json (Numeral σ)) :=
    [("created_at", Json.ofInstant source.createdAt),
      ("direction", .string source.direction.name), ("id", .string source.id)]
  match source.kind with
  | .leaf carbonIntensity =>
    .object (cache ++ [("carbon_intensity", Json.ofScalar carbonIntensity)] ++ common ++
      [("type", .string "leaf")])
  | .aggregate children =>
    .object (cache ++ [("children", .array (children.map Json.string))] ++ common ++
      [("type", .string "virtual")])

/-- Which kind of source a document declares, by its name or its position. -/
def isLeafType? : Json (Numeral σ) → Option Bool
  | .string "leaf" => some true
  | .string "virtual" => some false
  | .number (.natural 0) => some true
  | .number (.natural 1) => some false
  | _ => none

/-- The kind of source among the members of a document. -/
def kindOfMembers? (value? : Json (Numeral σ) → Option σ)
    (members : List (String × Json (Numeral σ))) : Option (SourceKind σ) := do
  if ← Json.required? isLeafType? "type" members then
    let members ← (Json.object members).members? ["carbon_intensity"]
    return .leaf (← Json.required? value? "carbon_intensity" members)
  else
    let members ← (Json.object members).members? ["children"]
    return .aggregate (← Json.required? (Json.list? Json.string?) "children" members)

/-- The source of a document, whose carbon intensity is read by a function. Members that are passed
over still have to be readable, though not those of the cache settings. -/
def ofJson? (value? : Json (Numeral σ) → Option σ) (document : Json (Numeral σ)) :
    Option (Source σ) := do
  let members ← document.members? ["id", "type", "direction", "created_at", "cache"]
  let id ← Json.required? Json.string? "id" members
  let kind ← kindOfMembers? value? members
  let direction ←
    Json.defaulted? (Json.choice? Direction.ofName?) .consumption "direction" members
  let createdAt ← Json.defaulted? Json.instant? .epoch "created_at" members
  let cache ← Json.defaulted? (Json.nullable? CacheSettings.ofJson?) none "cache" members
  if Json.membersAreReadable (members.filter fun pair => pair.1 ≠ "cache") then
    some ⟨id, kind, direction, createdAt, cache⟩
  else
    none

end Source

/-! ## Configurations -/

namespace Config

variable {σ : Type}

/-- A configuration as a document. -/
def toJson (config : Config) : Json (Numeral σ) :=
  .object [("cache_enabled", .bool config.cacheEnabled),
    ("late_data_policy", .string config.lateDataPolicy.name),
    ("max_boundaries_per_ingest", Json.ofNat config.maxBoundariesPerIngest),
    ("query_timeout_secs", (config.queryTimeoutSeconds.map Json.ofNat).getD .null)]

/-- The configuration of a document, standard where it says nothing. -/
def ofJson? (document : Json (Numeral σ)) : Option Config := do
  let members ← document.members? ["cache_enabled", "late_data_policy", "query_timeout_secs",
    "max_boundaries_per_ingest"]
  let cacheEnabled ←
    Json.defaulted? Json.bool? standard.cacheEnabled "cache_enabled" members
  let lateDataPolicy ← Json.defaulted? (Json.choice? LateDataPolicy.ofName?)
    standard.lateDataPolicy "late_data_policy" members
  let queryTimeoutSeconds ← Json.defaulted? (Json.nullable? Json.natural?)
    standard.queryTimeoutSeconds "query_timeout_secs" members
  let maxBoundaries ← Json.defaulted? Json.natural? standard.maxBoundariesPerIngest
    "max_boundaries_per_ingest" members
  return ⟨cacheEnabled, lateDataPolicy, queryTimeoutSeconds, maxBoundaries⟩

end Config

end Metering
