import SignalHub.Json.Codec
import SignalHub.Text.Order
/-!
# Attributes

Attributes are texts under distinct names. They are kept sorted by name, so two sets of attributes
with the same entries are equal.

Results:
* `Attributes.insert`: adds an entry; an entry of that name is replaced.
* `Attributes.ofEntries`: of entries with one name the last counts.
* `Attributes.codec`: attributes as an object of texts.
-/
namespace SignalHub

open Text (precedes)

/-- Texts under distinct names, sorted by name. -/
structure Attributes where
  entries : List (String × String)
  sorted : entries.Pairwise fun a b => precedes a.1 b.1
  deriving DecidableEq

namespace Attributes

/-- No attributes. -/
def empty : Attributes := ⟨[], .nil⟩

instance : Inhabited Attributes := ⟨empty⟩

/-- Puts an entry in its place; an entry of that name is replaced. -/
def place (name value : String) : List (String × String) → List (String × String)
  | [] => [(name, value)]
  | (k, v) :: rest =>
    if precedes name k then (name, value) :: (k, v) :: rest
    else if name = k then (name, value) :: rest
    else (k, v) :: place name value rest

theorem precedes_of_mem_place {name value k : String} {entries : List (String × String)}
    (hk : precedes k name) (h : ∀ e ∈ entries, precedes k e.1) :
    ∀ e ∈ place name value entries, precedes k e.1 := by
  induction entries with
  | nil => simpa [place] using hk
  | cons e rest ih =>
    obtain ⟨k', v'⟩ := e
    have hk' := h (k', v') List.mem_cons_self
    have hrest := fun e he => h e (List.mem_cons_of_mem _ he)
    simp only [place]
    intro e he
    split at he
    · rcases List.mem_cons.1 he with rfl | he
      · exact hk
      · exact h e he
    · split at he
      · rcases List.mem_cons.1 he with rfl | he
        · exact hk
        · exact hrest e he
      · rcases List.mem_cons.1 he with rfl | he
        · exact hk'
        · exact ih hrest e he

theorem pairwise_place {name value : String} {entries : List (String × String)}
    (h : entries.Pairwise fun a b => precedes a.1 b.1) :
    (place name value entries).Pairwise fun a b => precedes a.1 b.1 := by
  induction entries with
  | nil => simp [place]
  | cons e rest ih =>
    obtain ⟨k, v⟩ := e
    rw [List.pairwise_cons] at h
    simp only [place]
    split
    · rename_i hlt
      refine List.pairwise_cons.2 ⟨?_, List.pairwise_cons.2 h⟩
      intro e he
      rcases List.mem_cons.1 he with rfl | he
      · exact hlt
      · exact Text.precedes_trans hlt (h.1 e he)
    · rename_i hlt
      split
      · rename_i heq
        subst heq
        exact List.pairwise_cons.2 h
      · rename_i hne
        refine List.pairwise_cons.2 ⟨precedes_of_mem_place ?_ h.1, ih h.2⟩
        cases hk : precedes k name with
        | true => rfl
        | false => exact absurd (Text.eq_of_not_precedes (Bool.eq_false_iff.2 hlt) hk) hne

/-- Adds an entry; an entry of that name is replaced. -/
def insert (a : Attributes) (name value : String) : Attributes :=
  ⟨place name value a.entries, pairwise_place a.sorted⟩

/-- The attributes with these entries; of entries with one name the last counts. -/
def ofEntries (entries : List (String × String)) : Attributes :=
  entries.foldl (fun a e => a.insert e.1 e.2) empty

open Json in
/-- Reads the members of an object as entries. -/
def decodeEntries (src : Source) : List (Node × Node) → Decoded (List (String × String))
  | [] => .ok []
  | (k, v) :: rest => do
    let name ← orFault (Node.nameKept k)
    let value ← inside (.key name) (Codec.text.decode src v)
    let entries ← decodeEntries src rest
    pure ((name, value) :: entries)

open Json in
/-- Attributes as an object of texts. -/
def codec : Codec Attributes where
  decode src n := match n with
    | .object members fault => do
      let entries ← decodeEntries src members
      orFault (Node.passed fault)
      pure (ofEntries entries)
    | _ => mismatch n "a map"
  encode a := .obj (a.entries.map fun e => (e.1, .str e.2))

end Attributes

end SignalHub
