import SignalHub.Decimal.Reading
import SignalHub.Json.Parser
import SignalHub.Settings.Directory
import SignalHub.Settings.Given
import SignalHub.Text.Integer
import SignalHub.Text.LowerCase
import SignalHub.Toml.Parser
/-!
# Where settings come from

A settings file is TOML or JSON, by the extension of its name. A name that is no file is tried with
each extension appended to its last component. Variables of the environment whose names begin with
the hub's mark set single settings: `MARK__SECTION__NAME`. Their values are typed by how they look.

YAML, INI, RON and JSON5 are out of scope. The hub can read them too, by the extensions `yaml`,
`yml`, `ini`, `ron` and `json5`; here a file with one of these is one of no format, and nothing that
is said of such a file says anything about the hub.

Results:
* `locate`: the settings file that a path means.
* `SettingsFile.read`: the value in a file.
* `readVariable`: what a variable sets.
-/
namespace SignalHub

/-- A format of settings files, of those in scope. -/
inductive Format where
  | toml
  | json
  deriving DecidableEq, Repr

namespace Format

/-- The extension of a format. -/
def extension : Format → String
  | .toml => "toml"
  | .json => "json"

/-- All formats in scope, in the order in which they are tried. -/
def all : List Format := [.toml, .json]

/-- The value that a text stands for in a format. -/
def parse (f : Format) (content : String) : Option Json :=
  match f with
  | .toml => (Toml.parse content).toOption
  | .json => (Json.parseOnly content).toOption

end Format

/-- The extension of a file name: what follows its last point, unless that stands first. -/
def extension? (name : String) : Option String :=
  let tail := name.toList.reverse.takeWhile (· != '.')
  if name.length ≤ tail.length + 1 then none else some (String.ofList tail.reverse)

/-- The format of a file, by its name. -/
def Format.ofName? (name : String) : Option Format :=
  Format.all.find? fun f => extension? name == some f.extension

/-- A settings file; `path` is relative to the directory at hand. -/
structure SettingsFile where
  path : String
  format : Format
  content : String

/-- The value in a settings file, unless it is malformed. -/
def SettingsFile.read (f : SettingsFile) : Option Json := f.format.parse f.content

/-- The paths that a path may mean besides itself. -/
def alternatives (path : String) : List (String × Format) :=
  let parts := Path.components path
  match parts.getLast? with
  | none => []
  | some name =>
    if name = ".." ∨ Path.isAbsolute path then []
    else
      Format.all.map fun f =>
        (Path.ofComponents (parts.dropLast ++ [name ++ "." ++ f.extension]), f)

/-- The settings file that a path means, if there is one. A file of no format is none, and it hides
those with an extension appended. A path that means a YAML, INI, RON or JSON5 file is out of
scope. -/
def locate (d : Directory) (path : String) : Option SettingsFile :=
  match d.content? path with
  | some content =>
    let parts := Path.components path
    (Format.ofName? (parts.getLastD "")).map fun f => ⟨Path.ofComponents parts, f, content⟩
  | none =>
    (alternatives path).findSome? fun (p, f) =>
      (d.content? p).map fun content => ⟨p, f, content⟩

namespace Environment

/-- What the names of the hub's variables begin with, in lower case. -/
def mark : List Char := "telemetry_hub__".toList

/-- Puts points where two underscores stand. -/
def joinParts : List Char → List Char
  | '_' :: '_' :: rest => '.' :: joinParts rest
  | c :: rest => c :: joinParts rest
  | [] => []

/-- A value typed by how it looks: a truth value, an integer, a double, or a text. -/
def typed (s : String) : Scalar :=
  let w := Text.lower s
  if w = "true" then .bool true
  else if w = "false" then .bool false
  else
    match Text.readSigned Word.half (Word.half - 1) s, Decimal.parse? s with
    | .ok i, _ => .num (.int i)
    | _, some f => .num (.float f)
    | _, none => .text s

/-- What a variable sets, if it is one of the hub's. -/
def readVariable (name value : String) : Option (String × Scalar) :=
  let cs := (Text.lower name).toList
  if mark.isPrefixOf cs then
    some (String.ofList (joinParts (cs.drop mark.length)), typed value)
  else none

/-- The layer that variables make. -/
def layer (vars : List (String × String)) : List (String × Given) :=
  vars.filterMap fun v =>
    (readVariable v.1 v.2).map fun e => (e.1, .scalar e.2 (some .environment))

end Environment

end SignalHub
