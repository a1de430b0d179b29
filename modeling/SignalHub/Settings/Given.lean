import SignalHub.Decimal.Shortest
import SignalHub.Json.Basic
import SignalHub.Text.Quoted
import SignalHub.Word
/-!
# Settings as they were given

A value of settings is kept together with where it came from, so that a message can say it. A table
into which others were merged came from no single place.

Results:
* `Given.ofJson`: a value that came from one place.
* `Given.describe`: what a value is called in a message.
-/
namespace SignalHub

/-- Where a value came from. -/
inductive Origin where
  | file (path : String)
  | environment
  deriving DecidableEq, Repr

/-- What an origin is called. -/
def Origin.label : Origin → String
  | .file path => path
  | .environment => "the environment"

/-- A value that is neither a list nor a table. -/
inductive Scalar where
  | null
  | bool (b : Bool)
  | num (n : Number)
  | text (s : String)

/-- A value and where it came from, if that is one place. -/
inductive Given where
  | scalar (value : Scalar) (origin : Option Origin)
  | list (items : List Given) (origin : Option Origin)
  | table (members : List (String × Given)) (origin : Option Origin)

namespace Given

mutual

/-- A value that came from one place. -/
def ofJson (origin : Origin) : Json → Given
  | .null => .scalar .null (some origin)
  | .bool b => .scalar (.bool b) (some origin)
  | .num n => .scalar (.num n) (some origin)
  | .str s => .scalar (.text s) (some origin)
  | .arr items => .list (ofItems origin items) (some origin)
  | .obj members => .table (ofMembers origin members) (some origin)

/-- Values of a list that came from one place. -/
def ofItems (origin : Origin) : List Json → List Given
  | [] => []
  | j :: rest => ofJson origin j :: ofItems origin rest

/-- Members of a table that came from one place. -/
def ofMembers (origin : Origin) : List (String × Json) → List (String × Given)
  | [] => []
  | (k, j) :: rest => (k, ofJson origin j) :: ofMembers origin rest

end

/-- Where a value came from. -/
def origin? : Given → Option Origin
  | .scalar _ origin => origin
  | .list _ origin => origin
  | .table _ origin => origin

/-- The members of a table; another value has none. -/
def members : Given → List (String × Given)
  | .table members _ => members
  | _ => []

/-- The items of a list; another value has none. -/
def items : Given → List Given
  | .list items _ => items
  | _ => []

/-- The origin of a table; that of another value does not count. -/
def tableOrigin? : Given → Option Origin
  | .table _ origin => origin
  | _ => none

/-- The origin of a list; that of another value does not count. -/
def listOrigin? : Given → Option Origin
  | .list _ origin => origin
  | _ => none

end Given

/-- A number as it counts in settings: beyond the signed 64-bit integers it is a double. -/
def Number.narrow : Number → Number
  | .int i => if -Word.half ≤ i ∧ i < Word.half then .int i else .float (Float.ofInt i)
  | .float f => .float f

/-- How numbers are called in messages. -/
structure NumberWords where
  int : Int → String
  float : Float → String

/-- What a scalar is called in a message. -/
def Scalar.describe (words : NumberWords) : Scalar → String
  | .null => "unit value"
  | .bool b => "boolean `" ++ (if b then "true" else "false") ++ "`"
  | .num n =>
    match n.narrow with
    | .int i => words.int i
    | .float f => words.float f
  | .text s => "string " ++ Text.quoted s

/-- What a value is called in a message. -/
def Given.describe (words : NumberWords) : Given → String
  | .scalar v _ => v.describe words
  | .list _ _ => "sequence"
  | .table _ _ => "map"

/-- A number in backquotes after what it is called. -/
def numberWord (name digits : String) : String := name ++ " `" ++ digits ++ "`"

/-- How numbers are called that stand for a setting or for all settings. -/
def settingWords : NumberWords where
  int i := numberWord "64-bit integer" (toString i)
  float f := numberWord "floating point" (Decimal.positional f)

/-- How numbers are called that stand for a section. -/
def sectionWords : NumberWords where
  int i := numberWord "integer" (toString i)
  float f := numberWord "floating point" (Decimal.withPoint f)

end SignalHub
