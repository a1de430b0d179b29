import Mathlib.Data.List.Forall2
import SignalHub.Fields
/-!
# What holds of all fields

What is said of each declared field is found again in the field of a name, and decides what the
structure is that is put together from the fields.

Results:
* `Fields.All`: something holds of each field.
* `Fields.All.of_find?`: what is found by name is said of a field of that name.
* `Fields.build_of_all`: if each field finds its projection, the structure comes out again.
* `Fields.onCodecs`: the same fields with other codecs.
-/
namespace SignalHub

theorem bind_eq_ok_iff {ε α β : Type} {x : Except ε α} {k : α → Except ε β} {b : β} :
    (x >>= k) = .ok b ↔ ∃ a, x = .ok a ∧ k a = .ok b := by
  cases x with
  | error e => exact ⟨nofun, nofun⟩
  | ok a => exact ⟨fun h => ⟨a, rfl, h⟩, fun ⟨_, ha, hk⟩ => Except.ok.inj ha ▸ hk⟩

/-- What is read after something that has been read. -/
theorem bind_eq_ok {ε α β : Type} {x : Except ε α} {k : α → Except ε β} {a : α} {b : β}
    (hx : x = .ok a) (hk : k a = .ok b) : (x >>= k) = .ok b :=
  bind_eq_ok_iff.2 ⟨a, hx, hk⟩

theorem eq_ok_of_toOption {ε α : Type} {x : Except ε α} {a : α} (h : x.toOption = some a) :
    x = .ok a := by
  cases x with
  | error e => cases h
  | ok b => exact congrArg _ (Option.some.inj h)

namespace Fields

variable {C : Type → Type} {σ α : Type}

/-- Whether something holds of each field. -/
def All {α : Type} (P : {β : Type} → Field C σ β → Prop) : Fields C σ α → Prop
  | .done _ => True
  | .more init last => init.All P ∧ P last

variable {P Q : {β : Type} → Field C σ β → Prop} {fs : Fields C σ α}

theorem All.imp (hpq : ∀ {β : Type} (f : Field C σ β), P f → Q f) (h : fs.All P) : fs.All Q := by
  induction fs with
  | done a => trivial
  | more init last ih => exact ⟨ih h.1, hpq last h.2⟩

theorem All.and (h : fs.All P) (h' : fs.All Q) : fs.All fun f => P f ∧ Q f := by
  induction fs with
  | done a => trivial
  | more init last ih => exact ⟨ih h.1 h'.1, h.2, h'.2⟩

theorem all_mem_mapList {ρ : Type} (say : {β : Type} → Field C σ β → ρ) (fs : Fields C σ α) :
    fs.All fun f => say f ∈ fs.mapList say := by
  induction fs with
  | done a => trivial
  | more init last ih =>
    refine ⟨ih.imp fun f hf => ?_, ?_⟩
    · exact List.mem_append_left _ hf
    · exact List.mem_append_right _ (List.mem_singleton_self _)

theorem all_mem_names (fs : Fields C σ α) : fs.All fun f => f.name ∈ fs.names :=
  all_mem_mapList (fun f => f.name) fs

/-- What is found by name is said of a field of that name. -/
theorem All.of_find? {ρ : Type} (h : fs.All P) {name : String}
    {say : {β : Type} → Field C σ β → ρ} {r : ρ} (hr : fs.find? name say = some r) :
    ∃ (β : Type) (f : Field C σ β), P f ∧ f.name = name ∧ say f = r := by
  induction fs with
  | done a => cases hr
  | more init last ih =>
    rw [find?] at hr
    split at hr
    · rename_i hinit
      cases hr
      exact ih h.1 hinit
    · split at hr
      · rename_i hname
        cases hr
        exact ⟨_, last, h.2, hname, rfl⟩
      · cases hr

theorem exists_find? {ρ : Type} {name : String} (say : {β : Type} → Field C σ β → ρ)
    (h : name ∈ fs.names) : ∃ r, fs.find? name say = some r := by
  induction fs with
  | done a => cases h
  | more init last ih =>
    rw [find?]
    cases hinit : init.find? name say with
    | some r => exact ⟨r, rfl⟩
    | none =>
      rcases List.mem_append.1 h with h | h
      · obtain ⟨r, hr⟩ := ih h
        rw [hinit] at hr
        cases hr
      · exact ⟨say last, if_pos (List.mem_singleton.1 h).symm⟩

theorem map_mapList {ρ ρ' : Type} (g : ρ → ρ') (say : {β : Type} → Field C σ β → ρ)
    (fs : Fields C σ α) : (fs.mapList say).map g = fs.mapList fun f => g (say f) := by
  induction fs with
  | done a => rfl
  | more init last ih => rw [mapList, List.map_append, ih, mapList, List.map_singleton]

/-- What is said of each field holds if it holds of each said of a field. -/
theorem forall_mem_mapList {ρ : Type} {Q : ρ → Prop} (say : {β : Type} → Field C σ β → ρ)
    (h : fs.All fun f => Q (say f)) : ∀ r ∈ fs.mapList say, Q r := by
  induction fs with
  | done a => exact fun _ hr => by cases hr
  | more init last ih =>
    intro r hr
    rcases List.mem_append.1 hr with hr | hr
    · exact ih h.1 r hr
    · rw [List.mem_singleton.1 hr]
      exact h.2

/-- What is said of each field in two ways is related if it is for each field. -/
theorem forall₂_mapList {ρ ρ' : Type} {R : ρ → ρ' → Prop} (say : {β : Type} → Field C σ β → ρ)
    (say' : {β : Type} → Field C σ β → ρ') (h : fs.All fun f => R (say f) (say' f)) :
    List.Forall₂ R (fs.mapList say) (fs.mapList say') := by
  induction fs with
  | done a => exact .nil
  | more init last ih => exact List.rel_append (ih h.1) (.cons h.2 .nil)

/-- A structure is put together from the values of its fields. -/
theorem build_more_ok {β ε : Type} (init : Fields C σ (α → β))
    (last : Field C σ α) (f : {γ : Type} → Nat → Field C σ γ → Except ε γ) (b : β) :
    (more init last).build f = .ok b ↔
      ∃ g a, init.build f = .ok g ∧ f init.size last = .ok a ∧ g a = b := by
  simp only [build, bind, Except.bind, pure, Except.pure]
  cases init.build f with
  | error e => simp
  | ok g => cases f init.size last <;> simp

/-- If each field finds its projection, what is put together is the structure again. -/
theorem build_of_all {ε : Type} {s : σ} {f : {β : Type} → Field C σ β → Except ε β}
    (h : fs.All fun g => f g = .ok (g.get s)) : fs.build (fun _ g => f g) = .ok (fs.rebuild s) := by
  induction fs with
  | done a => rfl
  | more init last ih =>
    rw [build, ih h.1, h.2]
    rfl

/-! ## Codecs -/

variable {D : Type → Type}

/-- The same fields with other codecs. -/
def onCodecs {α : Type} (φ : {β : Type} → C β → D β) : Fields C σ α → Fields D σ α
  | .done a => .done a
  | .more init last => .more (init.onCodecs φ) ⟨last.name, φ last.codec, last.default?, last.get⟩

theorem all_onCodecs {φ : {β : Type} → C β → D β} {P : {β : Type} → Field D σ β → Prop} :
    (fs.onCodecs φ).All P ↔ fs.All fun f => P ⟨f.name, φ f.codec, f.default?, f.get⟩ := by
  induction fs with
  | done a => exact Iff.rfl
  | more init last ih => exact and_congr ih Iff.rfl

theorem names_onCodecs {φ : {β : Type} → C β → D β} : (fs.onCodecs φ).names = fs.names := by
  induction fs with
  | done a => rfl
  | more init last ih => exact congrArg (· ++ [last.name]) ih

end Fields

end SignalHub
