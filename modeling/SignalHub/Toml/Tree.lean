import SignalHub.Toml.Value
/-!
# Tables of a TOML document

A document assigns values to dotted names, below the table that the last header names. A table may
be named by one header only, and what has been assigned cannot be assigned again. Tables on the way
to a name come into being by themselves; whether a header or an assignment made them decides how
they may be extended later:

* an assignment may go on through tables that no header has named, but ends only in a table that
  assignments made, or in the table of its header;
* a header may name a table that longer headers have made; the table then comes after those that are
  there already.

Results:
* `descend`: goes down to a table and changes it.
* `assign`, `openTable`, `openItem`: an assignment, a header, a header of a list of tables.
* `Item.toValue`: what a name stands for, as a value.
-/
namespace SignalHub.Toml

/-- How a table came into being. -/
inductive Origin where
  /-- A header names it. -/
  | header
  /-- It is on the way to a table that a header names. -/
  | implied
  /-- It is on the way to an assigned name. -/
  | dotted
  deriving DecidableEq, Repr

/-- What a name stands for. -/
inductive Item where
  | value (v : Value)
  | table (origin : Origin) (entries : List (String × Item))
  /-- A list of tables, oldest first. -/
  | tables (before : List (List (String × Item))) (last : List (String × Item))

/-- Names and what they stand for, in order. -/
abbrev Entries := List (String × Item)

/-- Sets what a name stands for. -/
def Entries.put (name : String) (item : Item) : Entries → Entries
  | [] => [(name, item)]
  | (k, i) :: rest => if k = name then (name, item) :: rest else (k, i) :: put name item rest

/-- Changes a table. -/
abbrev Change := Origin → Entries → Except Fault Entries

/-- Goes down from a table by names and changes the table that is reached. `making` is the origin of
tables that come into being on the way; an assignment does not go through tables that a header
names. -/
def descend (making : Origin) (change : Change) : List String → Change
  | [], origin, es => change origin es
  | k :: path, _, es =>
    match es.lookup k with
    | none => do
      let sub ← descend making change path making []
      pure (es ++ [(k, .table making sub)])
    | some (.value _) => .error (.redefined k)
    | some (.table origin sub) =>
      if making = .dotted ∧ origin = .header then .error (.redefined k)
      else do
        let sub ← descend making change path origin sub
        pure (Entries.put k (.table origin sub) es)
    | some (.tables before last) => do
      let last ← descend making change path .header last
      pure (Entries.put k (.tables before last) es)

/-- Assigns a value to a name that has none; `isShort` says that the name is not dotted. -/
def setNew (isShort : Bool) (name : String) (v : Value) : Change := fun origin es =>
  if (origin == .dotted) == isShort then .error (.redefined name)
  else
    match es.lookup name with
    | none => .ok (es ++ [(name, .value v)])
    | some _ => .error (.redefined name)

/-- Assigns a value to a dotted name: a path and its last part. -/
def assign (path : List String) (name : String) (v : Value) : Change :=
  descend .dotted (setNew path.isEmpty name v) path

/-- A header names a table. -/
def nameTable (name : String) : Change := fun _ es =>
  match es.lookup name with
  | none => .ok (es ++ [(name, .table .header [])])
  | some (.table .implied sub) => .ok (es.filter (·.1 ≠ name) ++ [(name, .table .header sub)])
  | some _ => .error (.redefined name)

/-- A header adds a table to a list. -/
def addTable (name : String) : Change := fun _ es =>
  match es.lookup name with
  | none => .ok (es ++ [(name, .tables [] [])])
  | some (.tables before last) => .ok (Entries.put name (.tables (before ++ [last]) []) es)
  | some _ => .error (.redefined name)

/-- The header of a table. -/
def openTable (path : List String) (name : String) : Change :=
  descend .implied (nameTable name) path

/-- The header of a table in a list. -/
def openItem (path : List String) (name : String) : Change :=
  descend .implied (addTable name) path

mutual

/-- What an item stands for. -/
def Item.toValue : Item → Value
  | .value v => v
  | .table _ es => .table (entriesValue es)
  | .tables before last => .list (tablesValue before ++ [.table (entriesValue last)])

/-- What names stand for. -/
def entriesValue : List (String × Item) → List (String × Value)
  | [] => []
  | (k, i) :: rest => (k, i.toValue) :: entriesValue rest

/-- What a list of tables stands for. -/
def tablesValue : List (List (String × Item)) → List Value
  | [] => []
  | es :: rest => .table (entriesValue es) :: tablesValue rest

end

end SignalHub.Toml
