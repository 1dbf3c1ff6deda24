import Metering.Command.Arguments
import Metering.Command.Settings.Layer
import Metering.Document
import Metering.Json.Parser

/-!
# Layered settings

Settings come in layers: what holds where nothing is said, then a file, then
the environment. A later layer replaces single values and leaves the others.
Values are taken generously: a number or a word may stand for a truth value,
and the other way round, and a list may stand for a table, its items in the
order of the names that the table may have.
-/

namespace Metering.Command

namespace Settings

/-- The settings where nothing is said. -/
def standard : Setting :=
  .object [("engine", Config.standard.toJson),
    ("logging", .object [("level", .string "warn"), ("json", .bool false)])]

/-! ## The environment -/

/-- A decimal number with a point, an exponent or neither, or the name of one that is not. -/
def real? (text : String) : Option Float :=
  let (sign, magnitude) :=
    match text.toList with
    | '-' :: rest => (-1.0, rest)
    | '+' :: rest => (1.0, rest)
    | rest => (1.0, rest)
  let name := (String.ofList magnitude).toLower
  if name = "inf" || name = "infinity" then
    some (sign * (1.0 / 0.0))
  else if name = "nan" then
    some (0.0 / 0.0)
  else
    (decimal? magnitude).map fun value => sign * value
where
  /-- Digits with at most one point among them and perhaps an exponent. -/
  decimal? (input : List Char) : Option Float :=
    let whole := input.takeWhile Char.isDigit
    let (fraction, rest) :=
      match input.dropWhile Char.isDigit with
      | '.' :: rest => (rest.takeWhile Char.isDigit, rest.dropWhile Char.isDigit)
      | rest => ([], rest)
    match Json.exponentPart? rest with
    | some (power, []) =>
      if whole.isEmpty && fraction.isEmpty then
        none
      else
        let digits := Json.extendDigits (Json.extendDigits 0 whole) fraction
        let exponent := power.getD 0 - (fraction.length : Int)
        some (((NumberLiteral.mk false digits exponent false).magnitudeFloat?).getD (1.0 / 0.0))
    | _ => none

/-- A whole number of a signed 64-bit word. -/
def whole? (text : String) : Option Setting :=
  let (isNegative, digits) :=
    match text.toList with
    | '-' :: rest => (true, rest)
    | '+' :: rest => (false, rest)
    | rest => (false, rest)
  if digits.isEmpty || !digits.all Char.isDigit then
    none
  else
    let value := Instant.digitsValue digits
    if isNegative && 0 < value && value ≤ Numeral.signedLimit then
      some (.number (.negative value))
    else if value < Numeral.signedLimit && (!isNegative || value = 0) then
      some (.number (.natural value))
    else
      none

/-- The setting of a variable's text: a truth value or a number where it looks like one. -/
def ofText (text : String) : Setting :=
  if text.toLower = "true" then
    .bool true
  else if text.toLower = "false" then
    .bool false
  else
    ((whole? text).or ((real? text).map fun value => .number (.real value))).getD (.string text)

/-- The dotted name of a variable, if it is one of the program's. -/
def variableName? (name : String) : Option String :=
  let name := name.toLower
  let start := environmentStart.toLower
  if name.startsWith start then
    some (String.intercalate "." ((String.ofList (name.toList.drop start.length)).splitOn "__"))
  else
    none

/-- The settings of the environment. -/
def ofEnvironment (environment : List (String × String)) : List (String × Setting) :=
  environment.filterMap fun (name, text) =>
    (variableName? name).map fun name => (name, ofText text)

/-! ## Files -/

/-- A file's number: beyond a signed 64-bit word it is not whole. -/
def numberOfFile : Numeral Float → Option (Numeral Float)
  | .natural value =>
    some (if value < Numeral.signedLimit then .natural value else .real (Float.ofNat value))
  | numeral => some numeral

/-- The settings of a file, refused unless it holds one table that can be read to its ends. Of a
repeated name the last value counts. -/
def ofFile? (text : String) : Option (List (String × Setting)) :=
  match Json.parse? text with
  | some document =>
    match document.isReadable, document.withoutRepeats.mapNumbers numberOfFile with
    | true, .object members => some members
    | _, _ => none
  | none => none

/-! ## Values -/

/-- A setting as a truth value. -/
def bool? : Setting → Option Bool
  | .bool truth => some truth
  | .number (.natural value) => some (value ≠ 0)
  | .number (.negative _) => some true
  | .number (.real value) => some (value != 0)
  | .string text =>
    if ["1", "true", "on", "yes"].contains text.toLower then
      some true
    else if ["0", "false", "off", "no"].contains text.toLower then
      some false
    else
      none
  | _ => none

/-- A setting as a 64-bit word. -/
def natural? : Setting → Option Nat
  | .bool truth => some (if truth then 1 else 0)
  | .number (.natural value) => some value
  | .number (.real value) => some value.round.toUInt64.toNat
  | .string text =>
    if ["true", "on", "yes"].contains text.toLower then
      some 1
    else if ["false", "off", "no"].contains text.toLower then
      some 0
    else
      word? text
  | _ => none

/-- A setting as one of a set of names in lower case, given as a text or as the only name of a
table. -/
def choice? {α : Type} (ofName? : String → Option α) : Setting → Option α
  | .string name => ofName? name.toLower
  | .object [(name, _)] => ofName? name.toLower
  | _ => none

/-- Whether a setting can be shown as a text. -/
def isText : Setting → Bool
  | .string _ => true
  | .bool _ => true
  | .number _ => true
  | _ => false

/-- The configuration among the settings of an engine. -/
def config? (table : List (String × Setting)) : Option Config := do
  let cacheEnabled ←
    Json.defaulted? bool? Config.standard.cacheEnabled "cache_enabled" table
  let lateDataPolicy ← Json.defaulted? (choice? LateDataPolicy.ofName?)
    Config.standard.lateDataPolicy "late_data_policy" table
  let queryTimeoutSeconds ← Json.defaulted? (Json.nullable? natural?)
    Config.standard.queryTimeoutSeconds "query_timeout_secs" table
  let maxBoundaries ← Json.defaulted? natural? Config.standard.maxBoundariesPerIngest
    "max_boundaries_per_ingest" table
  return ⟨cacheEnabled, lateDataPolicy, queryTimeoutSeconds, maxBoundaries⟩

/-- Whether the settings of the log have the right kinds of values. -/
def isLoggingValid (table : List (String × Setting)) : Bool :=
  ((Json.member? "level" table).all isText) &&
    ((Json.member? "json" table).all fun value => (bool? value).isSome)

/-- The members of a table, or of a list whose items stand for names in their order. -/
def fields? (names : List String) : Setting → Option (List (String × Setting))
  | .object members => some members
  | .array items => some (names.zip items)
  | _ => none

/-- The names of an engine's settings in their order. -/
def engineNames : List String :=
  ["cache_enabled", "late_data_policy", "query_timeout_secs", "max_boundaries_per_ingest"]

/-- The names of the log's settings in their order. -/
def loggingNames : List String := ["level", "json"]

/-- The configuration of a file's text and an environment. -/
def load? (file : Option String) (environment : List (String × String)) : Option Config := do
  let fromFile ←
    match file with
    | some text => ofFile? text
    | none => some []
  let settings ← lay (← lay standard fromFile) (ofEnvironment environment)
  let engine ← Json.required? (fields? engineNames) "engine" (membersOf settings)
  let logging ← Json.required? (fields? loggingNames) "logging" (membersOf settings)
  let config ← config? engine
  if isLoggingValid logging then some config else none

end Settings

end Metering.Command
