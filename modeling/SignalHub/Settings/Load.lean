import SignalHub.Settings.Layer
import SignalHub.Settings.Loose
import SignalHub.Settings.Source
import SignalHub.Settings.Validity
/-!
# Loading settings

Settings are a file's, with variables of the environment laid over it, with defaults for what
neither sets. A file that is not there sets nothing.

Results:
* `loadLayers`: what the file and the variables set.
* `loadSettings`: valid settings, or what is wrong with them.
* `LoadError.message`: the wording of what is wrong.
-/
namespace SignalHub

/-- Why settings cannot be loaded. -/
inductive LoadError where
  /-- The file is malformed. -/
  | malformed (file : SettingsFile)
  /-- The file holds no table. -/
  | noTable (file : SettingsFile) (found : Given)
  /-- A name stands for an item that a list cannot have. -/
  | noSuchPlace
  /-- A value does not suit. -/
  | unsuitable (e : LooseError)
  | invalid (e : SettingsError)

/-- What is said of a value of the wrong type. -/
def typeMessage (found expected : String) : String :=
  "invalid type: " ++ found ++ ", expected " ++ expected

/-- What is said of where a value came from. -/
def originMessage : Option Origin → String
  | some origin => " in " ++ origin.label
  | none => ""

/-- The wording of the error. -/
def LooseError.message (e : LooseError) : String :=
  let key := " for key `" ++ Place.Step.pathText e.path ++ "`"
  match e.cause with
  | .wrongType found expected =>
    typeMessage (found.describe settingWords) expected ++ key ++ originMessage found.origin?
  | .tooLarge n expected =>
    typeMessage (numberWord "64-bit unsigned integer" (toString n)) expected ++ key
  | .notSection found expected => typeMessage (found.describe sectionWords) expected

/-- The wording of the error. -/
def LoadError.message : LoadError → String
  | .malformed f => f.path ++ " is not well-formed " ++ f.format.extension
  | .noTable f found =>
    typeMessage (found.describe settingWords) "a map" ++ originMessage found.origin? ++
      originMessage (some (.file f.path))
  | .noSuchPlace => "an index is out of range"
  | .unsuitable e => e.message
  | .invalid e => e.message

/-- The layer of the settings file, if there is one. -/
def fileLayer (file : Option SettingsFile) : Except LoadError (List (String × Given)) :=
  match file with
  | none => .ok []
  | some f =>
    match f.read.map (Given.ofJson (.file f.path)) with
    | some (.table members _) => .ok members
    | some found => .error (.noTable f found)
    | none => .error (.malformed f)

/-- What the file and the variables set. -/
def loadLayers (file : Option SettingsFile) (vars : List (String × String)) :
    Except LoadError Given := do
  let below ← fileLayer file
  match Layer.putAll? (.table [] none) (below ++ Environment.layer vars) with
  | some layers => pure layers
  | none => throw .noSuchPlace

/-- Loads settings from the file that a path means and from variables. -/
def loadSettings (d : Directory) (vars : List (String × String)) (path : String) :
    Except LoadError Settings := do
  let layers ← loadLayers (locate d path) vars
  let settings ← (Settings.ofLoose layers).mapError .unsuitable
  settings.validate.mapError .invalid
  pure settings

end SignalHub
