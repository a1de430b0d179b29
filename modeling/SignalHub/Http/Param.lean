import SignalHub.Fields
import SignalHub.Json.Problem
import SignalHub.Text.Integer
import SignalHub.Text.Percent
import SignalHub.Word
/-!
# Query parameters

A query string is a form. The fields of a structure are read from it by name: a known name may come
once, an unknown one as often as it likes, and a field that is left out has its default.

Results:
* `Param`: how the text of a parameter is read and written.
* `Params.read`: a structure from a query string.
* `Params.write`: a structure as a query string.
-/
namespace SignalHub.Http

/-- What is wrong with a query string. -/
inductive ParamError where
  | integer (e : Text.IntegerError)
  | notBool
  | problem (p : Json.Problem)
  deriving Repr

/-- The wording of the error. -/
def ParamError.message : ParamError → String
  | .integer e => e.message
  | .notBool => "provided string was not `true` or `false`"
  | .problem p => p.message

/-- How the text of a parameter is read; a parameter may be left out when written. -/
structure Param (α : Type) where
  read : String → Except ParamError α
  write : α → Option String

namespace Param

/-- Text. -/
def text : Param String := ⟨.ok, some⟩

/-- Truth values. -/
def bool : Param Bool where
  read s :=
    if s = "true" then .ok true else if s = "false" then .ok false else .error .notBool
  write b := some (if b then "true" else "false")

/-- Signed 64-bit integers. -/
def int64 : Param Int64 where
  read s := ((Text.readSigned Word.half (Word.half - 1) s).map Int64.ofInt).mapError .integer
  write i := some (toString i.toInt)

/-- Unsigned 64-bit integers. -/
def word : Param UInt64 where
  read s := ((Text.readUnsigned Word.top s).map UInt64.ofNat).mapError .integer
  write w := some (toString w.toNat)

/-- Names of alternatives. -/
def choice {α : Type} (alternatives : List (String × α)) (name : α → String) : Param α where
  read s :=
    match alternatives.lookup s with
    | some a => .ok a
    | none => .error (.problem (.unknownVariant s (alternatives.map (·.1))))
  write a := some (name a)

/-- Parameters that may be left out. -/
def option {α : Type} (p : Param α) : Param (Option α) where
  read s := (p.read s).map some
  write a := a.bind p.write

end Param

namespace Params

/-- Reads the pairs in order; a known name is read by its rule, once. -/
def check (rule : String → Option (String → Except ParamError Unit)) :
    List String → List (String × String) → Except ParamError Unit
  | _, [] => .ok ()
  | seen, (k, v) :: rest =>
    match rule k with
    | none => check rule seen rest
    | some read =>
      if k ∈ seen then .error (.problem (.duplicateField k))
      else do
        read v
        check rule (k :: seen) rest

/-- A structure from names and values. -/
def ofPairs {σ α : Type} (fields : Fields Param σ α) (pairs : List (String × String)) :
    Except ParamError α := do
  check (fun name => fields.find? name fun f s => (f.codec.read s).map fun _ => ()) [] pairs
  fields.build fun _ f =>
    match pairs.lookup f.name, f.default? with
    | some s, _ => f.codec.read s
    | none, some a => .ok a
    | none, none => .error (.problem (.missingField f.name))

/-- A structure from a query string. -/
def read {σ α : Type} (fields : Fields Param σ α) (query : List UInt8) : Except ParamError α :=
  ofPairs fields (Text.formPairs query)

/-- The names and values of a structure's parameters. -/
def toPairs {σ α : Type} (fields : Fields Param σ α) (s : σ) : List (String × String) :=
  (fields.mapList fun f => (f.codec.write (f.get s)).map fun v => (f.name, v)).filterMap id

/-- A structure as a query string. -/
def write {σ α : Type} (fields : Fields Param σ α) (s : σ) : List UInt8 :=
  Text.formText (toPairs fields s)

end Params

end SignalHub.Http
