import SignalHub.Text.Integer
import SignalHub.Text.LowerCase
import SignalHub.Word
/-!
# Places among settings

`a.b` is the place of `b` in the table `a`, `a[2]` that of the third item of the list `a`; items are
counted from the end by negative indices. Letters count without regard to case.

Results:
* `Place.parse`: the place that a name stands for.
* `Place.Step.pathText`: steps in text.
-/
namespace SignalHub

/-- A step down to a place. -/
inductive Place.Step where
  | name (s : String)
  | index (i : Int)
  deriving DecidableEq, Repr

/-- A step that follows another one, in text. -/
def Place.Step.text : Place.Step → String
  | .name s => "." ++ s
  | .index i => "[" ++ toString i ++ "]"

/-- Steps in text. -/
def Place.Step.pathText : List Place.Step → String
  | .name s :: rest => s ++ String.join (rest.map Place.Step.text)
  | steps => String.join (steps.map Place.Step.text)

/-- A place: the steps to what holds it, and the last step. -/
structure Place where
  path : List Place.Step
  last : Place.Step
  deriving DecidableEq, Repr

namespace Place

/-- A character that may stand in a part of a place. -/
def isPartChar (c : Char) : Bool := c.isAlphanum || c == ' ' || c == '_' || c == '-'

/-- A name at the front, and the rest. -/
def readName (cs : List Char) : Option (Step × List Char) :=
  let part := cs.takeWhile isPartChar
  if part.isEmpty then none
  else some (.name (String.ofList part), cs.dropWhile isPartChar)

/-- A blank that may stand around an index. -/
def isBlank (c : Char) : Bool := c == ' ' || c == '\t'

/-- An integer at the front, and the rest. -/
def readInteger (cs : List Char) : Option (Int × List Char) :=
  let (sign, digits) : List Char × List Char :=
    match cs with
    | '-' :: rest => (['-'], rest)
    | _ => ([], cs)
  match Text.readSigned Word.half (Word.half - 1)
      (String.ofList (sign ++ digits.takeWhile Char.isDigit)) with
  | .ok i => some (i, digits.dropWhile Char.isDigit)
  | .error _ => none

/-- An index after its opening bracket, and the rest. -/
def readIndex (cs : List Char) : Option (Step × List Char) :=
  match readInteger (cs.dropWhile isBlank) with
  | some (i, rest) =>
    match rest.dropWhile isBlank with
    | ']' :: rest => some (.index i, rest)
    | _ => none
  | none => none

/-- More steps, each announced by a point or a bracket. -/
def readSteps : Nat → List Char → Option (List Step)
  | _, [] => some []
  | 0, _ => none
  | fuel + 1, '.' :: rest => do
    let (s, rest) ← readName rest
    let ss ← readSteps fuel rest
    pure (s :: ss)
  | fuel + 1, '[' :: rest => do
    let (s, rest) ← readIndex rest
    let ss ← readSteps fuel rest
    pure (s :: ss)
  | _, _ => none

/-- The place with these steps, of which the first is given. -/
def ofSteps : Step → List Step → Place
  | s, [] => ⟨[], s⟩
  | s, t :: rest =>
    let p := ofSteps t rest
    ⟨s :: p.path, p.last⟩

/-- The place that a name stands for; a name that spells no place stands for itself. -/
def parse (s : String) : Place :=
  let name := Text.lower s
  let steps := do
    let (first, rest) ← readName name.toList
    let more ← readSteps rest.length rest
    pure (ofSteps first more)
  steps.getD ⟨[], .name name⟩

end Place

end SignalHub
