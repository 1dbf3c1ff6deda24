import Metering.Command.Report
import Metering.Json.Printer
import Std.Time.DateTime.Timestamp

/-!
# The program

The program reads its arguments, its environment and the two files they name,
prints the report on standard output or a message on standard error, and ends
with the exit code of the answer.
-/

namespace Metering.Program

/-- How the program is called. -/
def usage : String :=
  "usage: metering --fixture FILE [--config FILE] [--now TIME]\n" ++
  "         [--log-level LEVEL] [--log-json]\n" ++
  "         power --source ID --at TIME\n" ++
  "       | energy | carbon | average-power --source ID --start TIME --end TIME\n" ++
  "       | profile --source ID --start TIME --end TIME [--step-secs N]\n" ++
  "       | flatten --source ID | sources | cache-stats"

/-- The names of the variables that have a say on the arguments. -/
def argumentVariables : List String := ["CONFIG", "FIXTURE", "LOG_LEVEL", "LOG_JSON"]

/-- The names of the variables that have a say on the settings. -/
def settingVariables : List String :=
  ["ENGINE__CACHE_ENABLED", "ENGINE__LATE_DATA_POLICY", "ENGINE__QUERY_TIMEOUT_SECS",
    "ENGINE__MAX_BOUNDARIES_PER_INGEST", "LOGGING__LEVEL", "LOGGING__JSON"]

/-- The variables that have a say, as far as they are set. -/
def environment : IO (List (String × String)) := do
  let names := (argumentVariables ++ settingVariables).map (Command.environmentStart ++ ·)
  let found ← names.mapM fun name => do
    let value ← IO.getEnv name
    return value.map fun text => (name, text)
  return found.filterMap (·)

/-- The text of a file, none if it cannot be read. -/
def textOf (path : String) : IO (Option String) := do
  try
    return some (← IO.FS.readFile path)
  catch _ =>
    return none

/-- The time of day. -/
def clock : IO Instant := do
  let now ← Std.Time.Timestamp.now
  return (Instant.ofNanos? now.toNanosecondsSinceUnixEpoch.val).getD .epoch

/-- Carries out an invocation. -/
def carryOut (environment : List (String × String)) (invocation : Command.Invocation) :
    IO UInt32 := do
  let configText ←
    match invocation.configPath with
    | some path => textOf path
    | none => pure none
  let fixtureText ← textOf invocation.fixturePath
  match Command.run invocation ⟨environment, configText, fixtureText, ← clock⟩ with
  | .ok report =>
    IO.println (report.pretty Json.numeralText 0)
    return 0
  | .error failure =>
    IO.eprintln ("error: " ++ failure.message)
    return failure.exitCode.toUInt32

end Metering.Program

/-- Runs the program. -/
def main (arguments : List String) : IO UInt32 := do
  let environment ← Metering.Program.environment
  match Metering.Command.readInvocation environment arguments with
  | .ok invocation => Metering.Program.carryOut environment invocation
  | .error .help =>
    IO.println Metering.Program.usage
    return 0
  | .error .misuse =>
    IO.eprintln Metering.Program.usage
    return 2
