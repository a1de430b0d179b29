import SignalHub.Json.Basic
/-!
# JSON text as it was read

A `Node` is what reading a JSON text from the left yields, up to the place where the text breaks
off or goes wrong. The fault stays inside the node, at that place, so whoever looks at the node in
reading order meets it exactly when it matters: a reader that finds an unsuitable value earlier
reports that instead.

Texts and numbers have two readings. One that is *kept* must be usable; one that is *skipped*
need only be well formed. A lone surrogate or a number beyond all doubles is well formed but
unusable.

Results:
* `Node.skip`: the first fault met when the node is skipped.
* `Node.settle`: the first fault met when the node is kept for later, nested at most so deep.
* `Node.toJson`: the value of a node without faults.
-/
namespace SignalHub

/-- Why a text is no JSON. -/
inductive Fault where
  /-- The text ended too early. -/
  | cutOff
  /-- Something stands where it must not. -/
  | malformed
  deriving DecidableEq, Repr

/-- What a text or number yields when it is kept, and what is wrong with it when it is skipped. -/
structure Reading (α : Type) where
  kept : Except Fault α
  skipped : Option Fault

/-- A JSON text as it was read. -/
inductive Node where
  /-- The text ended before a value. -/
  | absent
  /-- Something that begins no value, or a bare word that is none of the three; `likeNull` says that
  the word begins as `null` does. -/
  | broken (likeNull : Bool) (fault : Fault)
  | null
  | bool (value : Bool)
  | num (reading : Reading Number)
  | str (reading : Reading String)
  /-- Items, and what is wrong after the last one. -/
  | list (items : List Node) (fault : Option Fault)
  /-- Names and values, and what is wrong after the last one. A name is a node too: if it is no
  text the object goes no further. -/
  | object (members : List (Node × Node)) (fault : Option Fault)

namespace Node

/-- No fault is success. -/
def passed : Option Fault → Except Fault Unit
  | none => .ok ()
  | some f => .error f

/-- The reading of a name that is to be kept. -/
def nameKept : Node → Except Fault String
  | .str r => r.kept
  | .absent => .error .cutOff
  | _ => .error .malformed

/-- The fault of a name that is skipped. -/
def nameSkipped : Node → Except Fault Unit
  | .str r => passed r.skipped
  | .absent => .error .cutOff
  | _ => .error .malformed

mutual

/-- The first fault met when the node is skipped. -/
def skip : Node → Except Fault Unit
  | .absent => .error .cutOff
  | .broken _ f => .error f
  | .null | .bool _ => .ok ()
  | .num r => passed r.skipped
  | .str r => passed r.skipped
  | .list items f => do skipItems items; passed f
  | .object members f => do skipMembers members; passed f

/-- Skips items in reading order. -/
def skipItems : List Node → Except Fault Unit
  | [] => .ok ()
  | n :: rest => do skip n; skipItems rest

/-- Skips members in reading order. -/
def skipMembers : List (Node × Node) → Except Fault Unit
  | [] => .ok ()
  | (k, v) :: rest => do nameSkipped k; skip v; skipMembers rest

end

mutual

/-- The value of a node, or the first fault met on the way. At most `depth` lists and objects may
be nested in one another. -/
def settle (depth : Nat) : Node → Except Fault Json
  | .absent => .error .cutOff
  | .broken _ f => .error f
  | .null => .ok .null
  | .bool b => .ok (.bool b)
  | .num r => r.kept.map .num
  | .str r => r.kept.map .str
  | .list items f =>
    match depth with
    | 0 => .error .malformed
    | depth + 1 => do
      let js ← settleItems depth items
      passed f
      pure (.arr js)
  | .object members f =>
    match depth with
    | 0 => .error .malformed
    | depth + 1 => do
      let js ← settleMembers depth members
      passed f
      pure (.obj js)

/-- The values of items in reading order. -/
def settleItems (depth : Nat) : List Node → Except Fault (List Json)
  | [] => .ok []
  | n :: rest => do
    let j ← settle depth n
    let js ← settleItems depth rest
    pure (j :: js)

/-- The members in reading order. -/
def settleMembers (depth : Nat) : List (Node × Node) → Except Fault (List (String × Json))
  | [] => .ok []
  | (k, v) :: rest => do
    let name ← nameKept k
    let j ← settle depth v
    let js ← settleMembers depth rest
    pure ((name, j) :: js)

end

/-- A usable reading. -/
def usable {α : Type} (a : α) : Reading α := ⟨.ok a, none⟩

mutual

/-- A value as a node without faults. -/
def ofJson : Json → Node
  | .null => .null
  | .bool b => .bool b
  | .num n => .num (usable n)
  | .str s => .str (usable s)
  | .arr items => .list (ofItems items) none
  | .obj members => .object (ofMembers members) none

/-- Values as nodes. -/
def ofItems : List Json → List Node
  | [] => []
  | j :: rest => ofJson j :: ofItems rest

/-- Members as nodes. -/
def ofMembers : List (String × Json) → List (Node × Node)
  | [] => []
  | (k, j) :: rest => (.str (usable k), ofJson j) :: ofMembers rest

end

/-- How deep values may be nested in a text that is kept. -/
def maxDepth : Nat := 127

/-- The value of a node; nested at most `maxDepth` deep. -/
def toJson (n : Node) : Except Fault Json := settle maxDepth n

end Node

end SignalHub
