import SignalHub.Json.Problem
import SignalHub.Fields
import SignalHub.Word
/-!
# Codecs

A `Codec α` reads an `α` from a node and writes one as a value. A node comes from one of three
sources, which differ in how they treat enumerations and lists that are too long: a text read from
the left, a part of a text that was set aside until its kind was known, or a value.

Results:
* `Codec.text`, `Codec.bool`, `Codec.word`, `Codec.int64`, `Codec.double`: the scalars.
* `Codec.option`, `Codec.list`, `Codec.choice`, `Codec.struct`: the combinations.
-/
namespace SignalHub.Json

/-- Where a node comes from. -/
inductive Source where
  /-- A text that is being read. -/
  | text
  /-- A part of a text, kept for later. -/
  | kept
  /-- A value. -/
  | value
  deriving DecidableEq, Repr

/-- How a type is read and written. -/
structure Codec (α : Type) where
  decode : Source → Node → Decoded α
  encode : α → Json

/-- What a node is met as. A scalar is read in full first. -/
def found : Node → Decoded Found
  | .absent => .error (.fault .cutOff)
  | .broken _ f => .error (.fault f)
  | .null => .ok .null
  | .bool b => .ok (.bool b)
  | .num r => do
    match ← orFault r.kept with
    | .int i => pure (.int i)
    | .float _ => pure .float
  | .str r => do
    let s ← orFault r.kept
    pure (.str s)
  | .list _ _ => .ok .list
  | .object _ _ => .ok .map

/-- Reports a node of the wrong type. -/
def mismatch {α : Type} (n : Node) (expected : String) : Decoded α := do
  let f ← found n
  problem (.wrongType f expected)

namespace Codec

/-- Text. -/
def text : Codec String where
  decode _ n := match n with
    | .str r => orFault r.kept
    | _ => mismatch n "a string"
  encode := .str

/-- Truth values. -/
def bool : Codec Bool where
  decode _ n := match n with
    | .bool b => .ok b
    | _ => mismatch n "a boolean"
  encode := .bool

/-- Integers between `low` and `high`. -/
def decodeInt (low high : Int) (expected : String) (n : Node) : Decoded Int :=
  match n with
  | .num r => do
    match ← orFault r.kept with
    | .int i => if low ≤ i ∧ i ≤ high then pure i else problem (.outOfRange i expected)
    | .float _ => problem (.wrongType .float expected)
  | _ => mismatch n expected

/-- Unsigned 64-bit integers, named in messages as given. -/
def word (expected : String) : Codec UInt64 where
  decode _ n := (decodeInt 0 Word.top expected n).map fun i => UInt64.ofNat i.toNat
  encode w := Json.nat w.toNat

/-- Unsigned 16-bit integers. -/
def word16 : Codec UInt16 where
  decode _ n := (decodeInt 0 Word.top16 "u16" n).map fun i => UInt16.ofNat i.toNat
  encode w := Json.nat w.toNat

/-- Signed 64-bit integers. -/
def int64 : Codec Int64 where
  decode _ n := (decodeInt (-Word.half) (Word.half - 1) "i64" n).map Int64.ofInt
  encode i := .num (.int i.toInt)

/-- Doubles; integers are converted. -/
def double : Codec Float where
  decode _ n := match n with
    | .num r => do
      match ← orFault r.kept with
      | .int i => pure (Float.ofInt i)
      | .float f => pure f
    | _ => mismatch n "f64"
  encode f := .num (.float f)

/-- Values that may be null. What begins as `null` does must be `null`. -/
def option {α : Type} (c : Codec α) : Codec (Option α) where
  decode src n := match n with
    | .null => .ok none
    | .broken true f => orFault (.error f)
    | _ => (c.decode src n).map some
  encode a := Json.ofOption c.encode a

/-- Items in reading order, the index of the first given. -/
def decodeItems {α : Type} (c : Codec α) (src : Source) : Nat → List Node → Decoded (List α)
  | _, [] => .ok []
  | i, n :: rest => do
    let a ← inside (.index i) (c.decode src n)
    let as ← decodeItems c src (i + 1) rest
    pure (a :: as)

/-- Lists. -/
def list {α : Type} (c : Codec α) : Codec (List α) where
  decode src n := match n with
    | .list items fault => do
      let as ← decodeItems c src 0 items
      orFault (Node.passed fault)
      pure as
    | _ => mismatch n "a sequence"
  encode as := .arr (as.map c.encode)

/-- The alternative of that name. -/
def variant {α : Type} (alternatives : List (String × α)) (name : String) : Decoded α :=
  match alternatives.lookup name with
  | some a => .ok a
  | none => problem (.unknownVariant name (alternatives.map (·.1)))

/-- Nothing, written as null; in a part that was set aside also as an empty object. -/
def decodeUnit (src : Source) (n : Node) : Decoded Unit :=
  match n, src with
  | .null, _ => .ok ()
  | .object [] none, .kept => .ok ()
  | _, _ => mismatch n "unit"

/-- The name of an alternative, where only a name will do. -/
def decodeName {α : Type} (alternatives : List (String × α)) (n : Node) : Decoded α :=
  match n with
  | .str r => do
    let name ← orFault r.kept
    variant alternatives name
  | _ => mismatch n "variant identifier"

/-- An alternative as the name of a member that is null. -/
def decodeNamed {α : Type} (alternatives : List (String × α)) (src : Source) (k v : Node) :
    Decoded α := do
  let name ← orFault (Node.nameKept k)
  let a ← variant alternatives name
  inside (.key name) (decodeUnit src v)
  pure a

/-- An enumeration: the name of an alternative, or an object whose only member has that name. -/
def decodeChoice {α : Type} (alternatives : List (String × α)) (src : Source) (n : Node) :
    Decoded α :=
  match src, n with
  | _, .str r => do
    let name ← orFault r.kept
    variant alternatives name
  | .text, .object ((k, v) :: rest) fault => do
    let a ← decodeNamed alternatives src k v
    if rest.isEmpty then orFault (Node.passed fault) else orFault (.error .malformed)
    pure a
  | .text, .object [] fault => orFault (.error (fault.getD .malformed))
  | .text, .absent => orFault (.error .cutOff)
  | .text, _ => orFault (.error .malformed)
  | _, .object [(k, v)] _ => decodeNamed alternatives src k v
  | _, .object _ _ => problem .notOneKey
  | _, _ => mismatch n "string or map"

/-- An enumeration, written by the name of the alternative. -/
def choice {α : Type} (alternatives : List (String × α)) (name : α → String) : Codec α where
  decode := decodeChoice alternatives
  encode a := .str (name a)

/-- What comes after the last wanted item of a list of which `wanted` were wanted. -/
def decodeRest (src : Source) (wanted : Nat) (items : List Node) (fault : Option Fault) :
    Decoded Unit :=
  if items.length ≤ wanted then orFault (Node.passed fault)
  else
    match src with
    | .text => orFault (.error .malformed)
    | .kept =>
      problem (.wrongLength items.length
        (if wanted = 1 then "1 element in sequence"
          else toString wanted ++ " elements in sequence"))
    | .value => problem (.wrongLength items.length "fewer elements in array")

/-- Reads members in order. A known name is read by its rule, once; the value of an unknown one is
skipped. -/
def checkMembers (rule : String → Option (Node → Decoded Unit)) :
    List String → List (Node × Node) → Decoded Unit
  | _, [] => .ok ()
  | seen, (k, v) :: rest => do
    let name ← orFault (Node.nameKept k)
    match rule name with
    | none => do
      orFault v.skip
      checkMembers rule seen rest
    | some check =>
      if name ∈ seen then problem (.duplicateField name)
      else do
        inside (.key name) (check v)
        checkMembers rule (name :: seen) rest

/-- The value of the first member of that name. -/
def memberNode? (name : String) : List (Node × Node) → Option Node
  | [] => none
  | (k, v) :: rest =>
    match k with
    | .str ⟨.ok s, _⟩ => if s = name then some v else memberNode? name rest
    | _ => memberNode? name rest

/-- How a structure is called when its length is wrong. -/
def lengthLabel (label : String) (size : Nat) : String :=
  label ++ " with " ++ toString size ++ (if size = 1 then " element" else " elements")

/-- Reads a structure from the members of an object. -/
def decodeMembers {σ α : Type} (fields : Fields Codec σ α) (src : Source)
    (members : List (Node × Node)) (fault : Option Fault) : Decoded α := do
  checkMembers (fun name => fields.find? name fun f n => (f.codec.decode src n).map fun _ => ())
    [] members
  orFault (Node.passed fault)
  fields.build fun _ f =>
    match memberNode? f.name members, f.default? with
    | some n, _ => inside (.key f.name) (f.codec.decode src n)
    | none, some a => .ok a
    | none, none => problem (.missingField f.name)

/-- Reads a structure from a list of its fields. -/
def decodeElements {σ α : Type} (label : String) (fields : Fields Codec σ α) (src : Source)
    (items : List Node) (fault : Option Fault) : Decoded α := do
  let a ← fields.build fun i f =>
    match items[i]?, fault, f.default? with
    | some n, _, _ => inside (.index i) (f.codec.decode src n)
    | none, some e, _ => orFault (.error e)
    | none, none, some a => .ok a
    | none, none, none => problem (.wrongLength i (lengthLabel label fields.size))
  decodeRest src fields.size items fault
  pure a

/-- A structure: an object of its fields, or a list of them in declaration order. -/
def struct {σ : Type} (label : String) (fields : Fields Codec σ σ) : Codec σ where
  decode src n := match n with
    | .object members fault => decodeMembers fields src members fault
    | .list items fault => decodeElements label fields src items fault
    | _ => mismatch n label
  encode s := .obj (fields.mapList fun f => (f.name, f.codec.encode (f.get s)))

end Codec

end SignalHub.Json
