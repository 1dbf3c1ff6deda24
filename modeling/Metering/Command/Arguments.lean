import Metering.Command.Options
import Metering.Field
import Metering.Time.Text

/-!
# The command line

A command line names a fixture and perhaps a configuration and a time, and
then one query with its own options. Some options of the first kind can be
given by the environment instead.
-/

namespace Metering.Command

/-- A source and an interval of time. -/
structure Interval where
  /-- The source. -/
  source : SourceId
  /-- When the interval starts. -/
  start : Instant
  /-- When the interval ends. -/
  stop : Instant
deriving Repr

/-- A query on the command line. -/
inductive Question where
  /-- Power at an instant. -/
  | power (source : SourceId) (time : Instant)
  /-- Energy over an interval. -/
  | energy (interval : Interval)
  /-- Carbon over an interval. -/
  | carbon (interval : Interval)
  /-- Mean power over an interval. -/
  | averagePower (interval : Interval)
  /-- Energy over an interval in buckets of some seconds. -/
  | profile (interval : Interval) (stepSeconds : Nat)
  /-- The leaves of a source. -/
  | flatten (source : SourceId)
  /-- All sources. -/
  | sources
  /-- The counters of the checkpoint cache. -/
  | cacheStats
deriving Repr

/-- What a command line asks for. -/
structure Invocation where
  /-- The path of the configuration, if one is named. -/
  configPath : Option String
  /-- The path of the fixture. -/
  fixturePath : String
  /-- The time to take for now, if one is given. -/
  now : Option Instant
  /-- The query. -/
  question : Question
deriving Repr

/-! ## Values of options -/

/-- The greatest 64-bit word. -/
def maxWord : Nat := 18446744073709551615

/-- A 64-bit word in decimal, perhaps after a plus sign. -/
def word? (text : String) : Option Nat :=
  let digits :=
    match text.toList with
    | '+' :: rest => rest
    | digits => digits
  if digits.isEmpty || !digits.all Char.isDigit then
    none
  else
    let value := Instant.digitsValue digits
    if value ≤ maxWord then some value else none

/-- Whether a text is an instant. -/
def isInstant (text : String) : Bool := (Instant.ofText? text).isSome

/-- Whether a text is a 64-bit word. -/
def isWord (text : String) : Bool := (word? text).isSome

/-- Any text. -/
def isText (_ : String) : Bool := true

/-! ## Options -/

/-- Asks for help. -/
def helpOption : OptionSpec := ⟨"help", some 'h', .help⟩

/-- The options before the query. -/
def mainOptions : List OptionSpec :=
  [⟨"config", some 'c', .value isText⟩, ⟨"fixture", some 'f', .value isText⟩,
    ⟨"now", none, .value isInstant⟩, ⟨"log-level", none, .value isText⟩,
    ⟨"log-json", none, .switch⟩, helpOption, ⟨"version", some 'V', .help⟩]

/-- Names a source. -/
def sourceOption : OptionSpec := ⟨"source", some 's', .value isText⟩

/-- The options of a query over an interval. -/
def intervalOptions : List OptionSpec :=
  [sourceOption, ⟨"start", none, .value isInstant⟩, ⟨"end", none, .value isInstant⟩, helpOption]

/-- The options of a query, by its name. -/
def queryOptions? : String → Option (List OptionSpec)
  | "power" => some [sourceOption, ⟨"at", none, .value isInstant⟩, helpOption]
  | "energy" => some intervalOptions
  | "carbon" => some intervalOptions
  | "average-power" => some intervalOptions
  | "profile" => some (⟨"step-secs", none, .value isWord⟩ :: intervalOptions)
  | "flatten" => some [sourceOption, helpOption]
  | "sources" => some [helpOption]
  | "cache-stats" => some [helpOption]
  | _ => none

/-! ## Questions -/

/-- An instant among the chosen options. -/
def chosenInstant? (chosen : Chosen) (name : String) : Option Instant :=
  (chosen.lookup name).bind Instant.ofText?

/-- The interval among the chosen options. -/
def chosenInterval? (chosen : Chosen) : Option Interval := do
  let source ← chosen.lookup "source"
  let start ← chosenInstant? chosen "start"
  let stop ← chosenInstant? chosen "end"
  return ⟨source, start, stop⟩

/-- Seconds in a bucket of a profile where nothing is said. -/
def standardStepSeconds : Nat := 3600

/-- The query of a name and the options chosen for it, none when an option is missing. -/
def question? (name : String) (chosen : Chosen) : Option Question :=
  match name with
  | "power" => do
    let source ← chosen.lookup "source"
    let time ← chosenInstant? chosen "at"
    return .power source time
  | "energy" => (chosenInterval? chosen).map .energy
  | "carbon" => (chosenInterval? chosen).map .carbon
  | "average-power" => (chosenInterval? chosen).map .averagePower
  | "profile" =>
    (chosenInterval? chosen).map fun interval =>
      .profile interval (((chosen.lookup "step-secs").bind word?).getD standardStepSeconds)
  | "flatten" => (chosen.lookup "source").map .flatten
  | "sources" => some .sources
  | "cache-stats" => some .cacheStats
  | _ => none

/-! ## The whole line -/

/-- The word that asks for help in the place of a query. -/
def helpWord : String := "help"

/-- What asking for help on some words comes to: they name one query, or the word for help itself,
or nothing. -/
def helpOn : List String → ArgumentIssue
  | [] => .help
  | [name] => if name = helpWord || (queryOptions? name).isSome then .help else .misuse
  | _ => .misuse

/-- The start of the environment variables that have a say. -/
def environmentStart : String := "METERLINE_"

/-- The value of an option, from the line or else from the environment. -/
def chosenOrSet (environment : List (String × String)) (chosen : Chosen)
    (name variableEnd : String) : Option String :=
  (chosen.lookup name).or (environment.lookup (environmentStart ++ variableEnd))

/-- Whether the environment's word on structured logging is one of the two it may be. -/
def isLogSwitchValid (environment : List (String × String)) (chosen : Chosen) : Bool :=
  match chosenOrSet environment chosen "log-json" "LOG_JSON" with
  | some value => value = "true" || value = "false"
  | none => true

/-- Reads a command line together with the environment. The query and its options are read before
the last value in front of them is judged, so that help is given in spite of that value. -/
def readInvocation (environment : List (String × String)) (arguments : List String) :
    Except ArgumentIssue Invocation := do
  let (chosen, rest) ← readOptions mainOptions (.ok []) arguments
  match rest with
  | [] => throw .misuse
  | name :: rest =>
    if name = helpWord then
      throw (helpOn rest)
    match queryOptions? name with
    | none => throw .misuse
    | some options =>
      let (own, left) ← readOptions options (.ok []) rest
      let chosen ← chosen
      match left, question? name (← own),
          chosenOrSet environment chosen "fixture" "FIXTURE" with
      | [], some question, some fixturePath =>
        if isLogSwitchValid environment chosen then
          return ⟨chosenOrSet environment chosen "config" "CONFIG", fixturePath,
            chosenInstant? chosen "now", question⟩
        else
          throw .misuse
      | _, _, _ => throw .misuse

end Metering.Command
