import SignalHub.Json.Basic
import SignalHub.Toml.Moment
/-!
# Values in TOML

A table whose first name is the mark of moments stands for a moment: the value of that name is its
text, and what else the table holds does not matter. A value comes out as JSON with all moments as
texts in normal form.

Results:
* `Value.toJson`: what a value stands for.
-/
namespace SignalHub.Toml

/-- A value of a document. -/
inductive Value where
  | text (s : String)
  /-- A date, a time or both, in normal form. -/
  | moment (s : String)
  | bool (b : Bool)
  | num (n : Number)
  | list (items : List Value)
  | table (members : List (String × Value))

/-- The name under which a table holds a moment. -/
def momentMark : String := "$__toml_private_datetime"

/-- What the value under the mark of moments stands for. -/
def Value.readMarked : Value → Except Fault Json
  | .text s =>
    match momentOf? s with
    | some m => .ok (.str m)
    | none => .error .unexpected
  | _ => .error .unexpected

mutual

/-- What a value stands for. -/
def Value.toJson : Value → Except Fault Json
  | .text s => .ok (.str s)
  | .moment s => .ok (.str s)
  | .bool b => .ok (.bool b)
  | .num n => .ok (.num n)
  | .list items => (itemsJson items).map .arr
  | .table members => tableJson members

/-- What a table stands for. -/
def tableJson : List (String × Value) → Except Fault Json
  | [] => .ok (.obj [])
  | (k, v) :: rest =>
    if k = momentMark then v.readMarked
    else do
      let j ← v.toJson
      let members ← membersJson rest
      pure (.obj ((k, j) :: members))

/-- What the members of a table stand for. -/
def membersJson : List (String × Value) → Except Fault (List (String × Json))
  | [] => .ok []
  | (k, v) :: rest => do
    let j ← v.toJson
    let members ← membersJson rest
    pure ((k, j) :: members)

/-- What the items of a list stand for. -/
def itemsJson : List Value → Except Fault (List Json)
  | [] => .ok []
  | v :: rest => do
    let j ← v.toJson
    let items ← itemsJson rest
    pure (j :: items)

end

end SignalHub.Toml
