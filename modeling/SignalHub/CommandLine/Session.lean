import SignalHub.CommandLine.Arguments
import SignalHub.Http.Route
import SignalHub.Memory
import SignalHub.Net.Address
import SignalHub.Settings.Directory
import SignalHub.Settings.Display
import SignalHub.Settings.Load
import SignalHub.Version
/-!
# Commands

A command reads the settings, prints what it has to say and ends with an exit code, unless it runs
the hub: then it says where the hub listens.

Results:
* `Outcome`: what a command comes to.
* `perform`: what a command line comes to.
-/
namespace SignalHub.CommandLine

/-- What a command comes to; `out` is what it has printed. -/
inductive Outcome where
  | exit (code : Nat) (out err : String)
  /-- The hub runs until it is told to stop. -/
  | serving (s : Settings) (router : Http.Router) (address : Net.Address) (out : String)
  deriving DecidableEq

/-- Where a command line is run. -/
structure Surroundings where
  directory : Directory
  vars : List (String × String)
  memory : Memory := .ample

/-- What is printed about misuse. -/
def usage : String :=
  "Usage: telemetry-hub [OPTIONS] [COMMAND]\n\nFor more information, try '--help'.\n"

/-- What is printed as help. -/
def helpText : String :=
  "In-memory telemetry hub\n\nUsage: telemetry-hub [OPTIONS] [COMMAND]\n\nCommands:\n" ++
    "  serve    Start the telemetry server (default)\n" ++
    "  config   Configuration management commands\n" ++
    "  version  Show version information\n" ++
    "  help     Print this message or the help of the given subcommand(s)\n\nOptions:\n" ++
    "  -c, --config <CONFIG>  Configuration file path [default: config.toml]\n" ++
    "  -h, --help             Print help\n" ++
    "  -V, --version          Print version\n"

/-- The end of a command that failed. -/
def failure (out message : String) : Outcome := .exit 1 out ("Error: " ++ message ++ "\n")

/-- Loads the settings of a command. -/
def load (s : Surroundings) (path : String) : Except LoadError Settings :=
  loadSettings s.directory s.vars path

/-- The end of a command that could not load its settings. -/
def loadFailure (out : String) : LoadError → Outcome
  | .noSuchPlace => .exit 101 out (LoadError.noSuchPlace.message ++ "\n")
  | e => failure out e.message

/-- Shows the settings in effect. -/
def showSettings (s : Surroundings) (path : String) : Outcome :=
  let out := "Loading configuration...\n"
  match load s path with
  | .error e => loadFailure out e
  | .ok settings =>
    let out := out ++ "Current Configuration:\n\n"
    match settings.toToml? with
    | some text => .exit 0 (out ++ text ++ "\n") ""
    | none => failure out "out-of-range value for u64 type"

/-- The main settings in a few lines. -/
def summary (s : Settings) : List String :=
  ["Listen: " ++ s.server.host ++ ":" ++ toString s.server.port.toNat,
   "Capacity: " ++ toString s.storage.traceCapacity.toNat ++ " spans, " ++
     toString s.storage.logCapacity.toNat ++ " logs, " ++
     toString s.storage.metricCapacity.toNat ++ " metrics",
   "Query limit: " ++ toString s.storage.defaultLimit.toNat ++ " (max " ++
     toString s.storage.maxLimit.toNat ++ ")",
   "Metrics: " ++ (if s.metrics.enabled then s.metrics.endpoint else "disabled")]

/-- Checks the settings file, which must be there. -/
def checkSettings (s : Surroundings) (path : String) : Outcome :=
  let out := "Validating configuration...\n"
  if s.directory.holds path then
    match load s path with
    | .error e => loadFailure out e
    | .ok settings =>
      .exit 0
        (out ++ "✓ Configuration is valid\n\nSummary:\n" ++
          String.join ((summary settings).map fun line => "  " ++ line ++ "\n")) ""
  else failure out ("Configuration file not found: " ++ path)

/-- The exit code of a hub without memory: it gives up by itself if it could never have it, and is
stopped if it is refused. -/
def memoryCode : MemoryError → Nat
  | .tooLarge => 101
  | .refused _ => 134

/-- Makes the hub ready to run: its settings, the memory of its archives, its routes, the address it
listens at. -/
def serve (s : Surroundings) (path : String) : Outcome :=
  match load s path with
  | .error e => loadFailure "" e
  | .ok settings =>
    let out := "Starting telemetry hub...\n"
    match s.memory.reserve settings.storage with
    | .error e => .exit (memoryCode e) out (e.message ++ "\n")
    | .ok _ =>
      match Http.Router.make settings.metrics, Net.Address.parse? settings.server.host with
      | .error _, _ => .exit 101 out ("Invalid route: " ++ settings.metrics.endpoint ++ "\n")
      | .ok _, none => failure out "invalid IP address syntax"
      | .ok router, some address => .serving settings router address out

/-- What a command line comes to. -/
def perform (s : Surroundings) (args : List String) : Outcome :=
  match parseArguments args with
  | .misuse => .exit 2 "" usage
  | .help => .exit 0 helpText ""
  | .versionOption => .exit 0 ("telemetry-hub " ++ version ++ "\n") ""
  | .run .version _ => .exit 0 ("Telemetry Hub v" ++ version ++ "\n") ""
  | .run .showSettings path => showSettings s path
  | .run .checkSettings path => checkSettings s path
  | .run .serve path => serve s path

end SignalHub.CommandLine
