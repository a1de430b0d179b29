import SignalHub.Json.Node
import SignalHub.Text.Quoted
/-!
# What can be wrong with well-formed JSON

A `Problem` says why a well-formed value does not suit; a `DecodeError` is such a problem with the
path to the place it arose, or a fault of the text.

Results:
* `Problem.message`: the wording of a problem.
* `pathText`: the wording of a path.
-/
namespace SignalHub.Json

/-- What was met where something else was wanted. -/
inductive Found where
  | null
  | bool (value : Bool)
  | int (value : Int)
  | float
  | str (value : String)
  | list
  | map
  deriving Repr

/-- The wording of what was met. The number of a double is left out. -/
def Found.text : Found → String
  | .null => "null"
  | .bool b => "boolean `" ++ (if b then "true" else "false") ++ "`"
  | .int i => "integer `" ++ toString i ++ "`"
  | .float => "floating point"
  | .str s => "string " ++ Text.quoted s
  | .list => "sequence"
  | .map => "map"

/-- Why a well-formed value does not suit. -/
inductive Problem where
  | missingField (name : String)
  | duplicateField (name : String)
  | wrongType (found : Found) (expected : String)
  | outOfRange (value : Int) (expected : String)
  | unknownVariant (name : String) (known : List String)
  | wrongLength (length : Nat) (expected : String)
  | notOneKey
  deriving Repr

/-- Names in backquotes, separated by commas. -/
def backquoted (names : List String) : String :=
  ", ".intercalate (names.map fun n => "`" ++ n ++ "`")

/-- The wording of a problem. -/
def Problem.message : Problem → String
  | .missingField name => "missing field `" ++ name ++ "`"
  | .duplicateField name => "duplicate field `" ++ name ++ "`"
  | .wrongType found expected => "invalid type: " ++ found.text ++ ", expected " ++ expected
  | .outOfRange value expected =>
    "invalid value: integer `" ++ toString value ++ "`, expected " ++ expected
  | .unknownVariant name known =>
    "unknown variant `" ++ name ++ "`, expected one of " ++ backquoted known
  | .wrongLength length expected =>
    "invalid length " ++ toString length ++ ", expected " ++ expected
  | .notOneKey => "invalid value: map, expected map with a single key"

/-- A step down into a value. -/
inductive Step where
  | index (i : Nat)
  | key (name : String)
  deriving Repr, DecidableEq

/-- The wording of a path: indices in brackets, names after points. -/
def pathText : List Step → String
  | [] => ""
  | .index i :: rest => "[" ++ toString i ++ "]" ++ pathText rest
  | .key k :: rest => "." ++ k ++ pathText rest

/-- The wording of a path that begins with a name or an index, without a leading point. -/
def pathLabel : List Step → String
  | .key k :: rest => k ++ pathText rest
  | path => pathText path

/-- Why decoding failed. -/
inductive DecodeError where
  | fault (f : Fault)
  | data (path : List Step) (problem : Problem)
  deriving Repr

/-- The error seen from one step further up. -/
def DecodeError.under (s : Step) : DecodeError → DecodeError
  | .fault f => .fault f
  | .data path p => .data (s :: path) p

/-- A result of decoding. -/
abbrev Decoded := Except DecodeError

/-- Runs a decoder one step further down. -/
def inside {α : Type} (s : Step) (r : Decoded α) : Decoded α := r.mapError (·.under s)

/-- A problem here. -/
def problem {α : Type} (p : Problem) : Decoded α := .error (.data [] p)

/-- A check of the text as a check of decoding. -/
def orFault {α : Type} (r : Except Fault α) : Decoded α := r.mapError .fault

end SignalHub.Json
