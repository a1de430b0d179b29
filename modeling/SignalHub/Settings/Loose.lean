import SignalHub.Settings.Basic
import SignalHub.Settings.Given
import SignalHub.Settings.Place
import SignalHub.Text.Integer
import SignalHub.Text.LowerCase
/-!
# Loosely typed settings

Settings come from files and from environment variables, so a setting is often given as a value of
another type. Numbers, truth values and texts are converted into one another as far as that makes
sense; lists and tables are not, and neither is null.

Results:
* `Loose.toBool`, `Loose.toWord`, `Loose.toText`: the conversions.
* `Loose.codecs`: how each type of setting is read.
* `Settings.ofLoose`: settings from a table of sections.
-/
namespace SignalHub

/-- Why a value does not suit. -/
inductive Unsuitable where
  /-- It cannot be converted. -/
  | wrongType (found : Given) (expected : String)
  /-- It is an integer beyond the range. -/
  | tooLarge (n : Nat) (expected : String)
  /-- It stands for a section but holds no settings. -/
  | notSection (found : Given) (expected : String)

/-- An unsuitable value, and where it stands. -/
structure LooseError where
  path : List Place.Step
  cause : Unsuitable

/-- How a value is converted. -/
structure Conversion (α : Type) where
  read : Given → Except LooseError α

namespace Loose

/-- Refuses a value of another type. -/
def refuse {α : Type} (found : Given) (expected : String) : Except LooseError α :=
  .error ⟨[], .wrongType found expected⟩

/-- The error of a value to which a step leads. -/
def under {α : Type} (s : Place.Step) (r : Except LooseError α) : Except LooseError α :=
  r.mapError fun e => { e with path := s :: e.path }

/-- A truth value. Numbers are true unless they are zero. -/
def toBool (g : Given) : Except LooseError Bool :=
  match g with
  | .scalar (.bool b) _ => .ok b
  | .scalar (.num n) _ =>
    match n.narrow with
    | .int i => .ok (i != 0)
    | .float f => .ok (f != 0)
  | .scalar (.text s) origin =>
    let w := Text.lower s
    if w ∈ ["1", "true", "on", "yes"] then .ok true
    else if w ∈ ["0", "false", "off", "no"] then .ok false
    else refuse (.scalar (.text w) origin) "a boolean"
  | g => refuse g "a boolean"

/-- An unsigned 64-bit integer. Doubles are rounded, a half away from zero, and those out of range
count as the nearest end of the range. -/
def toWord (g : Given) : Except LooseError UInt64 :=
  match g with
  | .scalar (.bool b) _ => .ok (if b then 1 else 0)
  | .scalar (.num n) _ =>
    match n.narrow with
    | .int i =>
      if 0 ≤ i then .ok (UInt64.ofNat i.toNat)
      else refuse g "an unsigned 64 bit or less integer"
    | .float f => .ok f.round.toUInt64
  | .scalar (.text s) _ =>
    let w := Text.lower s
    if w ∈ ["true", "on", "yes"] then .ok 1
    else if w ∈ ["false", "off", "no"] then .ok 0
    else
      match Text.readUnsigned Word.top s with
      | .ok n => .ok (UInt64.ofNat n)
      | .error _ => refuse g "an integer"
  | g => refuse g "an integer"

/-- An unsigned 16-bit integer. -/
def toPort (g : Given) : Except LooseError UInt16 := do
  let w ← toWord g
  if w.toNat ≤ Word.top16 then pure (UInt16.ofNat w.toNat)
  else .error ⟨[], .tooLarge w.toNat "an unsigned 16 bit integer"⟩

/-- A text. Numbers and truth values are written out. -/
def toText (g : Given) : Except LooseError String :=
  match g with
  | .scalar (.text s) _ => .ok s
  | .scalar (.bool b) _ => .ok (if b then "true" else "false")
  | .scalar (.num n) _ =>
    match n.narrow with
    | .int i => .ok (toString i)
    | .float f => .ok (Decimal.positional f)
  | g => refuse g "a string"

/-- How each type of setting is read. -/
def codecs : SettingCodecs Conversion where
  text := ⟨toText⟩
  bool := ⟨toBool⟩
  port := ⟨toPort⟩
  size := ⟨toWord⟩
  seconds := ⟨toWord⟩

/-- A field from the value that stands for it, if there is one; a step leads there. -/
def field {σ α : Type} (label : String) (whole : Given) (f : Field Conversion σ α)
    (s : Place.Step) : Option Given → Except LooseError α
  | some g => under s (f.codec.read g)
  | none =>
    match f.default? with
    | some a => .ok a
    | none => .error ⟨[], .notSection whole label⟩

/-- Reads a section from a table by name, or from a list by place. What is left out has its default,
and what is unknown does not matter. -/
def readSection {σ : Type} (label : String) (fields : Fields Conversion σ σ) (g : Given) :
    Except LooseError σ :=
  match g with
  | .table members _ =>
    fields.build fun _ f => field label g f (.name f.name) (members.lookup f.name)
  | .list items _ => fields.build fun i f => field label g f (.index i) items[i]?
  | .scalar _ _ => .error ⟨[], .notSection g label⟩

end Loose

/-- Settings from a table of sections. -/
def Settings.ofLoose : Given → Except LooseError Settings :=
  Loose.readSection "struct Config"
    (Settings.fields Loose.codecs fun label fs => ⟨Loose.readSection label fs⟩)

end SignalHub
