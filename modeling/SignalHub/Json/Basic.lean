import SignalHub.Text.Order
/-!
# JSON values

`Json` is a complete JSON value. An integer within 64 bits, signed or not, is kept exactly; every
other number is a double.

Results:
* `Json.member?`: looking up a member.
* `Json.canonical`: members sorted by name, the last of equal names kept.
-/
namespace SignalHub

/-- A JSON number. -/
inductive Number where
  | int (value : Int)
  | float (value : Float)

/-- A JSON value. -/
inductive Json where
  | null
  | bool (value : Bool)
  | num (value : Number)
  | str (value : String)
  | arr (items : List Json)
  | obj (members : List (String × Json))

instance : Inhabited Json := ⟨.null⟩

namespace Json

/-- A natural number as JSON. -/
def nat (n : Nat) : Json := .num (.int n)

/-- An optional value as JSON; absent is null. -/
def ofOption {α : Type} (f : α → Json) : Option α → Json
  | none => .null
  | some a => f a

/-- The value of the first member of that name. -/
def lookup (name : String) : List (String × Json) → Option Json
  | [] => none
  | (k, v) :: rest => if k = name then some v else lookup name rest

/-- The member of that name, if the value is an object that has one. -/
def member? (name : String) : Json → Option Json
  | .obj members => lookup name members
  | _ => none

/-- Keeps the last of neighbouring members that have one name. -/
def keepLast : List (String × Json) → List (String × Json)
  | (k, v) :: (k', v') :: rest =>
    if k = k' then keepLast ((k', v') :: rest) else (k, v) :: keepLast ((k', v') :: rest)
  | members => members

/-- Members sorted by name, of equal names the last one. -/
def sortMembers (members : List (String × Json)) : List (String × Json) :=
  keepLast (members.mergeSort fun a b => !Text.precedes b.1 a.1)

mutual

/-- The same value with the members of every object sorted by name. -/
def canonical : Json → Json
  | .arr items => .arr (canonicalItems items)
  | .obj members => .obj (sortMembers (canonicalMembers members))
  | j => j

/-- Canonical forms of a list of values. -/
def canonicalItems : List Json → List Json
  | [] => []
  | j :: rest => canonical j :: canonicalItems rest

/-- Members with canonical values, in the order given. -/
def canonicalMembers : List (String × Json) → List (String × Json)
  | [] => []
  | (k, j) :: rest => (k, canonical j) :: canonicalMembers rest

end

end Json

end SignalHub
