/-!
# Declared fields

The fields of a structure `σ` are declared once, in order, each with its name, a codec from some
family `C`, an optional default and the projection that reads it. Every exchange format uses the
same declaration: JSON, query strings, settings files.

Results:
* `Fields.rebuild`: the structure put together again from its projections.
* `Fields.build`: the structure put together field by field, in declaration order.
-/
namespace SignalHub

/-- One field of `σ`. -/
structure Field (C : Type → Type) (σ α : Type) where
  name : String
  codec : C α
  default? : Option α
  get : σ → α

/-- Fields of `σ` in declaration order, and how their values make an `α`. -/
inductive Fields (C : Type → Type) (σ : Type) : Type → Type 1 where
  | done {α : Type} (a : α) : Fields C σ α
  | more {α β : Type} (init : Fields C σ (α → β)) (last : Field C σ α) : Fields C σ β

namespace Fields

variable {C : Type → Type} {σ : Type}

/-- Adds a field that must be present. -/
def required {α β : Type} (init : Fields C σ (α → β)) (name : String) (codec : C α)
    (get : σ → α) : Fields C σ β :=
  .more init ⟨name, codec, none, get⟩

/-- Adds a field that may be left out. -/
def defaulted {α β : Type} (init : Fields C σ (α → β)) (name : String) (codec : C α)
    (get : σ → α) (default : α) : Fields C σ β :=
  .more init ⟨name, codec, some default, get⟩

/-- The number of fields. -/
def size {α : Type} : Fields C σ α → Nat
  | .done _ => 0
  | .more init _ => init.size + 1

/-- What `f` says of each field, in declaration order. -/
def mapList {α ρ : Type} (f : {β : Type} → Field C σ β → ρ) : Fields C σ α → List ρ
  | .done _ => []
  | .more init last => init.mapList f ++ [f last]

/-- The names in declaration order. -/
def names {α : Type} (fs : Fields C σ α) : List String := fs.mapList fun f => f.name

/-- What `f` says of the field of that name. -/
def find? {α ρ : Type} (name : String) (f : {β : Type} → Field C σ β → ρ) :
    Fields C σ α → Option ρ
  | .done _ => none
  | .more init last =>
    match init.find? name f with
    | some r => some r
    | none => if last.name = name then some (f last) else none

/-- Puts the structure together from the values that `f` finds, in declaration order. `f` is told
the field's index. -/
def build {α : Type} {m : Type → Type} [Monad m] (f : {β : Type} → Nat → Field C σ β → m β) :
    Fields C σ α → m α
  | .done a => pure a
  | .more init last => do
    let g ← init.build f
    let b ← f init.size last
    pure (g b)

/-- Puts the structure together from the projections of `s`. -/
def rebuild {α : Type} (s : σ) : Fields C σ α → α
  | .done a => a
  | .more init last => init.rebuild s (last.get s)

end Fields

end SignalHub
