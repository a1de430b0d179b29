import SignalHub.Json.Codec
/-!
# Values that carry the name of their alternative

A tagged value is an object of two members, one that names the alternative and one that holds its
content, or a list of the two. If the content comes first it is set aside until the name is known.

Results:
* `Codec.tagged`: the codec of a tagged value.
-/
namespace SignalHub.Json.Codec

/-- One alternative of a tagged value: its name, and how its content is read. -/
abbrev Alternative (α : Type) := String × (Source → Node → Decoded α)

/-- Skips members up to one of the two names; yields whether it is the tag, its value and the
members after it. -/
def nextMember (tag content : String) :
    List (Node × Node) → Decoded (Option (Bool × Node × List (Node × Node)))
  | [] => .ok none
  | (k, v) :: rest => do
    let name ← orFault (Node.nameKept k)
    if name = tag then pure (some (true, v, rest))
    else if name = content then pure (some (false, v, rest))
    else do
      orFault v.skip
      nextMember tag content rest

/-- Neither name may come again. -/
def noMore (tag content : String) (members : List (Node × Node)) (fault : Option Fault) :
    Decoded Unit := do
  match ← nextMember tag content members with
  | some (true, _, _) => problem (.duplicateField tag)
  | some (false, _, _) => problem (.duplicateField content)
  | none => orFault (Node.passed fault)

/-- Reads a tagged value from members. -/
def decodeTagged {α : Type} (tag content : String) (alternatives : List (Alternative α))
    (src : Source) (members : List (Node × Node)) (fault : Option Fault) : Decoded α := do
  match ← nextMember tag content members with
  | none => do
    orFault (Node.passed fault)
    problem (.missingField tag)
  | some (true, v, rest) => do
    let read ← inside (.key tag) (decodeChoice alternatives src v)
    match ← nextMember tag content rest with
    | some (true, _, _) => problem (.duplicateField tag)
    | none => do
      orFault (Node.passed fault)
      problem (.missingField content)
    | some (false, w, rest') => do
      let a ← inside (.key content) (read src w)
      noMore tag content rest' fault
      pure a
  | some (false, v, rest) => do
    let j ← orFault (v.settle (Node.maxDepth - 1))
    match ← nextMember tag content rest with
    | some (false, _, _) => problem (.duplicateField content)
    | none => do
      orFault (Node.passed fault)
      problem (.missingField tag)
    | some (true, w, rest') => do
      let read ← inside (.key tag) (decodeChoice alternatives src w)
      let a ← read .kept (Node.ofJson j)
      noMore tag content rest' fault
      pure a

/-- Reads a tagged value from a list. -/
def decodePair {α : Type} (label : String) (alternatives : List (Alternative α)) (src : Source)
    (items : List Node) (fault : Option Fault) : Decoded α := do
  match items with
  | [] => do
    orFault (Node.passed fault)
    problem (.wrongLength 0 label)
  | t :: rest => do
    let read ← inside (.index 0) (decodeName alternatives t)
    match rest with
    | [] => do
      orFault (Node.passed fault)
      problem (.wrongLength 1 label)
    | c :: _ => do
      let a ← inside (.index 1) (read src c)
      decodeRest src 2 items fault
      pure a

/-- A tagged value. -/
def tagged {α : Type} (label tag content : String) (alternatives : List (Alternative α))
    (encode : α → String × Json) : Codec α where
  decode src n := match n with
    | .object members fault => decodeTagged tag content alternatives src members fault
    | .list items fault => decodePair label alternatives src items fault
    | _ => mismatch n label
  encode a := let (name, j) := encode a; .obj [(tag, .str name), (content, j)]

end SignalHub.Json.Codec
