import SignalHub.Text.Utf8
/-!
# Patterns of paths

A pattern is a path in which a segment may end in a parameter, `:name`, which stands for the rest
of the segment, or in `*name`, which stands for the rest of the path.

What a parameter is called makes no difference to what a pattern matches. Two patterns that match
alike cannot stand side by side, nor can two that match alike up to a place where one has a
parameter for a segment and the other one for the rest of the path.

Results:
* `Pattern.parse`: a pattern in text.
* `Pattern.conflicts`: whether two patterns cannot stand side by side.
-/
namespace SignalHub.Http

/-- A part of a pattern. -/
inductive Part where
  | literal (b : UInt8)
  | param (name : List UInt8)
  | rest (name : List UInt8)
  deriving DecidableEq, Repr

/-- A pattern of paths. -/
abbrev Pattern := List Part

/-- Why a pattern cannot be used. -/
inductive PatternError where
  /-- It does not begin with a slash. -/
  | relative
  /-- A parameter has no name. -/
  | unnamed
  /-- A segment has two parameters. -/
  | twoInSegment
  /-- A parameter for the rest of the path is not a segment of its own at the end. -/
  | misplacedRest
  /-- It has too many parameters. -/
  | tooMany
  /-- It cannot stand beside an existing one. -/
  | conflict
  /-- There is a handler for the same path and method. -/
  | taken
  deriving DecidableEq, Repr

/-- The name of a parameter, which goes to the end of the segment. -/
def paramName (bs : List UInt8) : Except PatternError (List UInt8) :=
  let name := bs.takeWhile (· != 0x2F)
  if name = [] then .error .unnamed
  else if name.any fun b => b == 0x3A || b == 0x2A then .error .twoInSegment
  else .ok name

/-- The parts of a pattern; `segmentStart` says whether a segment begins here. -/
def Pattern.parts (segmentStart : Bool) : Nat → List UInt8 → Except PatternError Pattern
  | 0, _ => .ok []
  | _, [] => .ok []
  | fuel + 1, b :: bs =>
    if b = 0x3A then do
      let name ← paramName bs
      let ps ← Pattern.parts false fuel (bs.drop name.length)
      pure (.param name :: ps)
    else if b = 0x2A then do
      let name ← paramName bs
      if segmentStart ∧ name.length = bs.length then pure [.rest name]
      else .error .misplacedRest
    else do
      let ps ← Pattern.parts (b == 0x2F) fuel bs
      pure (.literal b :: ps)

/-- How many parameters for a segment a pattern may have. -/
def maxParams : Nat := 25

/-- Whether a part stands for the rest of a segment. -/
def Part.isParam : Part → Bool
  | .param _ => true
  | _ => false

/-- A pattern in text. -/
def Pattern.parse (s : String) : Except PatternError Pattern :=
  match Text.bytes s with
  | 0x2F :: bs => do
    let pattern ← Pattern.parts false (bs.length + 1) (0x2F :: bs)
    if pattern.countP Part.isParam ≤ maxParams then pure pattern else .error .tooMany
  | _ => .error .relative

/-- Whether a part is a literal byte. -/
def Part.isLiteral : Part → Bool
  | .literal _ => true
  | _ => false

/-- Whether two parts match alike and may have more after them. -/
def Part.alike : Part → Part → Bool
  | .literal b, .literal c => b == c
  | .param _, .param _ => true
  | _, _ => false

/-- Whether two patterns cannot stand side by side. -/
def Pattern.conflicts : Pattern → Pattern → Bool
  | p :: ps, q :: qs => if p.alike q then conflicts ps qs else !p.isLiteral && !q.isLiteral
  | [], [] => true
  | _, _ => false

end SignalHub.Http
