import SignalHub.Http.Pattern
/-!
# Which pattern matches a path

Patterns are followed together. They share the literal text that all of them begin with, their
stem, and part behind it: first those are followed that go on as the path does, and only if they
miss it, those that have a parameter there. A parameter for the segment may be empty, one for the
rest of the path is not.

A search that has nowhere to go from a last slash is given up as a whole: a path with a slash too
many or too few is not left to a pattern that would have taken it, had there been no better one.

Results:
* `Branch.search`: what becomes of a path among patterns.
* `Branch.match?`: the pattern that a path falls to.
-/
namespace SignalHub.Http

/-- The literal text that a pattern begins with. -/
def Pattern.lead : Pattern → List UInt8
  | .literal b :: ps => b :: lead ps
  | _ => []

/-- What two texts begin with alike. -/
def commonStart : List UInt8 → List UInt8 → List UInt8
  | b :: bs, c :: cs => if b = c then b :: commonStart bs cs else []
  | _, _ => []

/-- The end of a pattern, and what the pattern leads to. -/
structure Branch (α : Type) where
  pattern : Pattern
  target : α

/-- What becomes of a path. -/
inductive Match (α : Type) where
  /-- It falls to this pattern, whose parameters have these values. -/
  | found (target : α) (values : List (List UInt8))
  /-- These patterns miss it, but others may match. -/
  | missed
  /-- No pattern is to match it. -/
  | refused

namespace Match

/-- The value of one more parameter, in front of the others. -/
def prepend {α : Type} (value : List UInt8) : Match α → Match α
  | .found a values => .found a (value :: values)
  | .missed => .missed
  | .refused => .refused

/-- Another search, if these patterns miss the path. -/
def orElse {α : Type} : Match α → Match α → Match α
  | .missed, m => m
  | m, _ => m

/-- What was found, if anything. -/
def found? {α : Type} : Match α → Option (α × List (List UInt8))
  | .found a values => some (a, values)
  | _ => none

end Match

namespace Branch

variable {α : Type}

/-- The text that separates segments. -/
def slash : List UInt8 := [0x2F]

/-- The branch behind its first parts. -/
def skip (n : Nat) (b : Branch α) : Branch α := { b with pattern := b.pattern.drop n }

/-- The literal text that all branches begin with. -/
def stem : List (Branch α) → List UInt8
  | [] => []
  | b :: bs => bs.foldl (fun s b => commonStart s b.pattern.lead) b.pattern.lead

/-- Where a branch leads to if it has come to its end. -/
def ended? (b : Branch α) : Option α := if b.pattern = [] then some b.target else none

/-- The branches that go on with a literal byte. -/
def literally (c : UInt8) (branches : List (Branch α)) : List (Branch α) :=
  branches.filter fun b => b.pattern.head? == some (.literal c)

/-- The branches that go on with a parameter for the segment, behind that. -/
def behindParam (branches : List (Branch α)) : List (Branch α) :=
  (branches.filter fun b => b.pattern.head?.any Part.isParam).map (skip 1)

/-- Where a branch leads to that goes on with a parameter for the rest of the path. -/
def rest? (b : Branch α) : Option α :=
  match b.pattern with
  | .rest _ :: _ => some b.target
  | _ => none

/-- What becomes of a path that ends where all branches have come behind their stem. -/
def atEnd (stem : List UInt8) (branches : List (Branch α)) : Match α :=
  match branches.findSome? ended? with
  | some a => .found a []
  | none => if stem = slash then .refused else .missed

/-- What becomes of a path that leaves the stem of the branches. -/
def offStem (stem : List UInt8) (branches : List (Branch α)) (path : List UInt8) : Match α :=
  let oneSlashShort := stem = path ++ slash ∧ (branches.findSome? ended?).isSome
  if path = slash ∨ oneSlashShort then .refused else .missed

/-- What becomes of a path whose last segment is the value of a parameter; `branches` are behind
that. -/
def lastSegment (value : List UInt8) (branches : List (Branch α)) : Match α :=
  match branches.findSome? ended? with
  | some a => .found a [value]
  | none =>
    let oneSlashShort :=
      stem branches = slash ∧ ((branches.map (skip 1)).findSome? ended?).isSome
    if oneSlashShort then .refused else .missed

/-- What becomes of a path at a parameter of the branches, of which `follow` follows those that go
on behind it. -/
def atParam (follow : List (Branch α) → List UInt8 → Match α) (branches : List (Branch α))
    (path : List UInt8) : Match α :=
  match branches.findSome? rest?, behindParam branches with
  | some a, _ => .found a [path]
  | none, [] => if path = slash then .refused else .missed
  | none, behind =>
    let value := path.takeWhile (· != 0x2F)
    match path.dropWhile (· != 0x2F), behind.filter (·.pattern ≠ []) with
    | [], _ => lastSegment value behind
    | more, [] => if more = slash then .refused else .missed
    | more, longer => (follow longer more).prepend value

/-- What becomes of a path among branches. Behind the first stem each one takes at least a byte, so
that the length of the path bounds the number of steps. -/
def search : Nat → List (Branch α) → List UInt8 → Match α
  | 0, _, _ => .missed
  | steps + 1, branches, path =>
    let s := stem branches
    let behind := branches.map (skip s.length)
    if s.isPrefixOf path then
      match path.drop s.length with
      | [] => atEnd s behind
      | c :: cs =>
        let literal : Match α :=
          match literally c behind with
          | [] => .missed
          | next => search steps next (c :: cs)
        literal.orElse (atParam (search steps) behind (c :: cs))
    else offStem s behind path

/-- The pattern that a path falls to, and the values of its parameters. -/
def match? (branches : List (Branch α)) (path : List UInt8) :
    Option (α × List (List UInt8)) :=
  (search (path.length + 2) branches path).found?

end Branch

end SignalHub.Http
