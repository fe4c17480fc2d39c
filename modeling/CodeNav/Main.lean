/-
Module: CodeNav.Main
Purpose: The program: settings are gathered, checked, and reported with the address to serve.
Main exports:
  main
-/
import CodeNav.CommandLine
import CodeNav.Service.Launch
import CodeNav.Settings.Load

namespace CodeNav.Program

/-- The text of a file, if it can be read. -/
def readText? (path : String) : IO (Option String) := do
  try
    return some (← IO.FS.readFile path)
  catch _ =>
    return none

/-- The variables of the process that have a meaning. -/
def readVariables : IO (List (String × String)) := do
  let found ← Settings.variableNames.mapM fun name => do
    return (← IO.getEnv name).map fun value => (name, value)
  return found.filterMap id

/-- The files of a directory that settings for an environment may come from. -/
def readFiles (directory environment : String) : IO (List (String × String)) := do
  let found ← (Settings.candidateFiles environment).mapM fun name => do
    return (← readText? (Files.join directory name)).map fun text => (name, text)
  return found.filterMap id

/-- Reports a fault and ends. -/
def fail (message : String) (code : UInt32) : IO UInt32 := do
  IO.eprintln ("Error: " ++ message)
  return code

/-- Reports the address and the endpoints that settings lead to. -/
def report (settings : Settings) : IO UInt32 := do
  match (Service.launch settings (fun _ _ => return .notStarted .missing) .empty .empty).1 with
  | .error failure => fail failure.message 1
  | .ok _ =>
    let address := ListenAddress.ofHost settings.server.host settings.server.port
    IO.println ("HTTP requests on http://" ++ address)
    IO.println "  GET  /ping"
    IO.println "  GET  /metrics"
    IO.println "  POST /upload?repository=<repo>&commit=<sha>"
    IO.println "  POST /exists?repository=<repo>&commit=<sha>&file=<path>"
    IO.println "  POST /request?repository=<repo>&commit=<sha>"
    return 0

/-- Gathers and checks the settings that arguments ask for. -/
def run (arguments : Arguments) : IO UInt32 := do
  let bindings ← readVariables
  let directory := (arguments.directory.or (← IO.getEnv "LSIF_CONFIG_DIR")).getD "config"
  let environment := arguments.environment.getD (Settings.environmentOf bindings)
  let files ← readFiles directory environment
  match Settings.load environment ⟨fun name => files.lookup name, bindings⟩ with
  | .error fault => fail fault.message 1
  | .ok settings =>
    let port := arguments.port.getD settings.server.port
    let settings := { settings with server := { settings.server with port } }
    match settings.validate with
    | .error fault => fail fault.message 1
    | .ok () => report settings

/-- Does what arguments ask for; the result is the exit status. -/
def start (arguments : List String) : IO UInt32 := do
  match Invocation.parse arguments with
  | .error fault => fail fault.message 2
  | .ok .help => do
    IO.println Arguments.usage
    return 0
  | .ok (.run arguments) => run arguments

end CodeNav.Program

/-- The program. -/
def main (arguments : List String) : IO UInt32 :=
  CodeNav.Program.start arguments
