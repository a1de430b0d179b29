import SignalHub.Text.Order
import SignalHub.Window
/-!
# Archives

An archive is the store of one signal: a ring buffer of its newest records, and the index of all
services that ever sent one. A name stays in the index when the last record of its service is
dropped.

Results:
* `mem_insertName`, `mem_mergeNames`: what inserting a name adds, and what merging names does.
* `Archive.add`: keeps a record and its service's name.
-/
namespace SignalHub

open Text (precedes)

/-- Puts a name into an ascending list of distinct names. -/
def insertName (name : String) : List String → List String
  | [] => [name]
  | n :: rest =>
    if precedes name n then name :: n :: rest
    else if name = n then n :: rest
    else n :: insertName name rest

@[simp] theorem mem_insertName {a name : String} {names : List String} :
    a ∈ insertName name names ↔ a = name ∨ a ∈ names := by
  induction names with
  | nil => simp [insertName]
  | cons n rest ih =>
    simp only [insertName]
    split
    · simp
    · split
      · rename_i h; subst h; simp
      · simp only [List.mem_cons, ih]
        constructor
        · rintro (h | h | h) <;> simp [h]
        · rintro (h | h | h) <;> simp [h]

theorem pairwise_insertName {name : String} {names : List String}
    (h : names.Pairwise fun a b => precedes a b) :
    (insertName name names).Pairwise fun a b => precedes a b := by
  induction names with
  | nil => simp [insertName]
  | cons n rest ih =>
    rw [List.pairwise_cons] at h
    simp only [insertName]
    split
    · rename_i hlt
      refine List.pairwise_cons.2 ⟨?_, List.pairwise_cons.2 h⟩
      intro e he
      rcases List.mem_cons.1 he with rfl | he
      · exact hlt
      · exact Text.precedes_trans hlt (h.1 e he)
    · split
      · exact List.pairwise_cons.2 h
      · rename_i hlt hne
        refine List.pairwise_cons.2 ⟨?_, ih h.2⟩
        intro e he
        rcases mem_insertName.1 he with rfl | he
        · cases hk : precedes n e with
          | true => rfl
          | false => exact absurd (Text.eq_of_not_precedes (Bool.eq_false_iff.2 hlt) hk) hne
        · exact h.1 e he

/-- Both ascending lists of names as one. -/
def mergeNames (a b : List String) : List String := b.foldl (fun names n => insertName n names) a

@[simp] theorem mem_mergeNames {name : String} {a b : List String} :
    name ∈ mergeNames a b ↔ name ∈ a ∨ name ∈ b := by
  induction b generalizing a with
  | nil => simp [mergeNames]
  | cons n b ih =>
    rw [mergeNames, List.foldl_cons, ← mergeNames, ih, mem_insertName, List.mem_cons, or_assoc,
      or_left_comm]

theorem pairwise_mergeNames {a b : List String} (h : a.Pairwise fun a b => precedes a b) :
    (mergeNames a b).Pairwise fun a b => precedes a b := by
  induction b generalizing a with
  | nil => exact h
  | cons n b ih => exact ih (pairwise_insertName h)

/-- The newest records of one signal and the names of all services that sent any. -/
structure Archive (α : Type) where
  window : Window α
  /-- Ascending. -/
  services : List String

namespace Archive

variable {α : Type}

/-- An empty archive. -/
def empty (capacity : Nat) : Archive α := ⟨.empty capacity, []⟩

/-- Keeps a record of a service. -/
def add (a : Archive α) (service : String) (r : α) : Archive α :=
  { window := a.window.append r
    services := if service ∈ a.services then a.services else insertName service a.services }

/-- Whether the service ever sent a record. -/
def knows (a : Archive α) (service : String) : Bool := service ∈ a.services

/-- How much an archive holds and has dropped. -/
structure Stats where
  retained : Nat
  capacity : Nat
  position : Nat
  evicted : Nat
  deriving DecidableEq, Repr

/-- How much the archive holds and has dropped. -/
def stats (a : Archive α) : Stats :=
  ⟨a.window.size, a.window.capacity, a.window.next, a.window.evicted⟩

end Archive

end SignalHub
