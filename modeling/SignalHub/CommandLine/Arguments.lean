/-!
# Arguments of the command line

An argument is an option or a command. The settings file may be named before a command or after it,
once in each place, and the last place counts. Arguments are read from the left, and the first that
is a request of its own (for the version or for help) or that is misused decides.

Results:
* `Request`: what a command line asks for.
* `parseArguments`: what arguments ask for.
-/
namespace SignalHub.CommandLine

/-- A command. -/
inductive Command where
  /-- Runs the hub. -/
  | serve
  /-- Shows the settings in effect. -/
  | showSettings
  /-- Checks the settings file. -/
  | checkSettings
  | version
  deriving DecidableEq, Repr

/-- What a command line asks for. -/
inductive Request where
  | run (c : Command) (settingsPath : String)
  /-- The version, asked for by an option. -/
  | versionOption
  | help
  | misuse
  deriving DecidableEq, Repr

/-- How far a command has been named. -/
inductive Level where
  /-- Nothing has been named. -/
  | start
  /-- A command about settings, but not which. -/
  | settings
  | command (c : Command)
  deriving DecidableEq, Repr

/-- The command that has been named; nothing named means to run the hub. -/
def Level.command? : Level → Option Command
  | .start => some .serve
  | .settings => none
  | .command c => some c

/-- The level that a word leads to. -/
def Level.next? : Level → String → Option Level
  | .start, "serve" => some (.command .serve)
  | .start, "config" => some .settings
  | .start, "version" => some (.command .version)
  | .settings, "show" => some (.command .showSettings)
  | .settings, "validate" => some (.command .checkSettings)
  | _, _ => none

/-- The settings file if none is named. -/
def standardPath : String := "config.toml"

/-- What an argument is. -/
inductive Argument where
  /-- Only words may follow. -/
  | endOfOptions
  /-- The option that names the settings file, with its value if that is attached. -/
  | path (value : Option String)
  | version
  | help
  | unknown
  | word (w : String)
  deriving DecidableEq, Repr

/-- An option by a name of one letter, with what is attached to it. -/
def shortOption (name : Char) (attached : List Char) : Argument :=
  match name, attached with
  | 'c', [] => .path none
  | 'c', '=' :: value => .path (some (String.ofList value))
  | 'c', value => .path (some (String.ofList value))
  | 'V', _ => .version
  | 'h', _ => .help
  | _, _ => .unknown

/-- An option by its long name, with what is attached to it. -/
def longOption (name : List Char) (value : Option String) : Argument :=
  if name = "config".toList then .path value
  else if name = "version".toList ∧ value = none then .version
  else if name = "help".toList ∧ value = none then .help
  else .unknown

/-- What a text is as an argument. -/
def Argument.ofText (s : String) : Argument :=
  match s.toList with
  | ['-', '-'] => .endOfOptions
  | '-' :: '-' :: cs =>
    let name := cs.takeWhile (· != '=')
    match cs.drop name.length with
    | _ :: value => longOption name (some (String.ofList value))
    | [] => longOption name none
  | '-' :: c :: cs => shortOption c cs
  | _ => .word s

/-- Whether a text may be the value of an option. -/
def isValue (s : String) : Bool :=
  match Argument.ofText s with
  | .word w => w != ""
  | _ => false

/-- What is asked for when the arguments end. -/
def conclude (level : Level) (path : String) : Request :=
  match level.command? with
  | some c => .run c path
  | none => .misuse

/-- What is asked for after the word `help`, which may name a command. -/
def askHelp (level : Level) : List String → Request
  | [] => .help
  | w :: rest =>
    match level.next? w with
    | some level => askHelp level rest
    | none => .misuse

/-- Reads arguments. `named` says whether the settings file has been named at this level. -/
def readArguments (level : Level) (named : Bool) (path : String) : List String → Request
  | [] => conclude level path
  | s :: rest =>
    match Argument.ofText s, rest with
    | .endOfOptions, [] => conclude level path
    | .endOfOptions, _ => .misuse
    | .help, _ => .help
    | .unknown, _ => .misuse
    | .version, _ => if level = .start then .versionOption else .misuse
    | .path (some value), rest =>
      if named || value == "" then .misuse else readArguments level true value rest
    | .path none, [] => .misuse
    | .path none, value :: rest =>
      if named || !isValue value then .misuse else readArguments level true value rest
    | .word w, rest =>
      match level.next? w with
      | some level => readArguments level false path rest
      | none =>
        match level with
        | .command _ => .misuse
        | _ => if w = "help" then askHelp level rest else .misuse

/-- What arguments ask for. -/
def parseArguments (args : List String) : Request := readArguments .start false standardPath args

end SignalHub.CommandLine
