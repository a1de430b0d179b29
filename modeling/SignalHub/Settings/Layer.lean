import SignalHub.Settings.Given
import SignalHub.Settings.Place
/-!
# Layers of settings

Settings are laid over one another: a table is merged into the table below it, name by name, and
any other value replaces what is below it. Names count without regard to case and are kept in
lower case. The names at the top of a layer are places.

Results:
* `overlay`: a value laid over another one.
* `putAt?`: a value laid over what is at a place.
* `putAll?`: a layer laid over another one.
* `lookup_setMember`: what a table holds after a member has been set.
-/
namespace SignalHub.Layer

/-- Sets the member of that name. -/
def setMember (name : String) (g : Given) : List (String × Given) → List (String × Given)
  | [] => [(name, g)]
  | (k, v) :: rest => if k = name then (name, g) :: rest else (k, v) :: setMember name g rest

@[simp] theorem lookup_setMember (name k : String) (g : Given) (members : List (String × Given)) :
    (setMember name g members).lookup k = if name = k then some g else members.lookup k := by
  induction members with
  | nil => by_cases h : name = k <;> simp [setMember, List.lookup_cons, h, beq_false_of_ne, eq_comm]
  | cons m rest ih =>
    obtain ⟨k', v⟩ := m
    by_cases h : k' = name
    · subst h
      by_cases h : k = k' <;> simp [setMember, List.lookup_cons, h, beq_false_of_ne, eq_comm]
    · by_cases h' : k = k'
      · subst h'
        simp [setMember, h, Ne.symm h]
      · simp [setMember, List.lookup_cons, h, h', ih, beq_false_of_ne]

/-- A value with a member set; if it is no table, it becomes one from no place. -/
def withMember (name : String) (inner : Given) (below : Given) : Given :=
  .table (setMember name inner below.members) below.tableOrigin?

/-- What stands under a name. -/
def inner? (name : String) (below : Given) : Option Given := below.members.lookup name

mutual

/-- A value laid over another one. -/
def overlay (below : Given) : Given → Given
  | .table members _ => overlayMembers below members
  | g => g

/-- Members laid over a value. -/
def overlayMembers (below : Given) : List (String × Given) → Given
  | [] => below
  | (k, g) :: rest =>
    let name := Text.lower k
    let under := (inner? name below).getD (.table [] none)
    overlayMembers (withMember name (overlay under g) below) rest

end

/-- What a list or a table holds where nothing has been set. -/
def nothing : Given := .scalar .null none

/-- More items than a list can have. -/
def tooManyItems : Nat := 4294967296

/-- The position that an index means in a list of that length, if there can be one. -/
def position? (length : Nat) (i : Int) : Option Nat :=
  if 0 ≤ i then if i < tooManyItems then some i.toNat else none
  else if i.natAbs ≤ length then some (length - i.natAbs) else none

/-- Sets an item of a list; missing items before it are null. -/
def setItem (i : Nat) (g : Given) (items : List Given) : List Given :=
  if i < items.length then items.set i g
  else items ++ List.replicate (i - items.length) nothing ++ [g]

/-- A value with an item changed; if it is no list, it becomes one from no place. That fails if the
index means no position. -/
def changeItem? (i : Int) (change : Given → Option Given) (below : Given) : Option Given := do
  let items := below.items
  let k ← position? items.length i
  let g ← change (items[k]?.getD nothing)
  pure (.list (setItem k g items) below.listOrigin?)

/-- Changes what is at the end of a path; what is missing on the way comes into being. -/
def changeAt? (change : Given → Option Given) : List Place.Step → Given → Option Given
  | [], g => change g
  | .name k :: path, g => do
    let inner ← changeAt? change path ((inner? k g).getD nothing)
    pure (withMember k inner g)
  | .index i :: path, g => changeItem? i (changeAt? change path) g

/-- Lays a value over what is at the last step of a place. -/
def putLast? (v : Given) (last : Place.Step) (parent : Given) : Option Given :=
  match last with
  | .name k =>
    some (overlayMembers (.table parent.members parent.tableOrigin?) [(k, v)])
  | .index i => changeItem? i (fun _ => some v) parent

/-- Lays a value over what is at a place, unless there is no such place. -/
def putAt? (root : Given) (p : Place) (v : Given) : Option Given :=
  changeAt? (putLast? v p.last) p.path root

/-- Lays a layer over another one: names at its top are places. -/
def putAll? (root : Given) (layer : List (String × Given)) : Option Given :=
  layer.foldlM (fun root e => putAt? root (.parse e.1) e.2) root

end SignalHub.Layer
