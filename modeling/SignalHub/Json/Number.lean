import SignalHub.Json.Node
import SignalHub.Word
/-!
# Numbers in JSON text

A number is an optional minus sign, a whole part without leading zeros, an optional fraction and
an optional exponent. Its digits are gathered into a 64-bit significand as long as they fit; whole
digits after that only raise the exponent, and fraction digits after that are ignored. Without
fraction and exponent the number is the exact integer if it fits into 64 bits; otherwise it is the
significand as a double, scaled by a power of ten in one step per 308 decimal places.

Results:
* `lexNumber`: the parts of a number and what follows it.
* `Numeral.value`: the number they stand for.
-/
namespace SignalHub.Json

/-- The parts of a number in text; digits as values. -/
structure Numeral where
  negative : Bool
  whole : List Nat
  fraction : Option (List Nat)
  /-- Whether the exponent is negative, and its digits. -/
  exponent : Option (Bool × List Nat)
  deriving DecidableEq, Repr

/-- The value of a digit. -/
def digitOf? (b : UInt8) : Option Nat :=
  if 0x30 ≤ b ∧ b ≤ 0x39 then some (b.toNat - 0x30) else none

/-- The digits in front, and the rest. -/
def takeDigits : List UInt8 → List Nat × List UInt8
  | [] => ([], [])
  | b :: rest =>
    match digitOf? b with
    | some d => let (ds, rest') := takeDigits rest; (d :: ds, rest')
    | none => ([], b :: rest)

/-- Where a number stops short: at the end of the text or at an unsuitable byte. -/
def stopAt : List UInt8 → Fault
  | [] => .cutOff
  | _ => .malformed

/-- At least one digit. -/
def someDigits (bs : List UInt8) : Except Fault (List Nat × List UInt8) :=
  match takeDigits bs with
  | ([], rest) => .error (stopAt rest)
  | found => .ok found

/-- The whole part: a zero alone, or digits that begin with another one. -/
def lexWhole (bs : List UInt8) : Except Fault (List Nat × List UInt8) := do
  match ← someDigits bs with
  | (0 :: _ :: _, _) => .error .malformed
  | found => .ok found

/-- The fraction, if a point follows. -/
def lexFraction : List UInt8 → Except Fault (Option (List Nat) × List UInt8)
  | 0x2E :: rest => do
    let (ds, rest') ← someDigits rest
    pure (some ds, rest')
  | bs => .ok (none, bs)

/-- The exponent's sign. -/
def lexSign : List UInt8 → Bool × List UInt8
  | 0x2B :: rest => (false, rest)
  | 0x2D :: rest => (true, rest)
  | bs => (false, bs)

/-- The exponent, if its letter follows. -/
def lexExponent : List UInt8 → Except Fault (Option (Bool × List Nat) × List UInt8)
  | b :: rest =>
    if b = 0x65 ∨ b = 0x45 then do
      let (negative, digits) := lexSign rest
      let (ds, rest') ← someDigits digits
      pure (some (negative, ds), rest')
    else .ok (none, b :: rest)
  | [] => .ok (none, [])

/-- A number at the front, and the rest. -/
def lexNumber (bs : List UInt8) : Except Fault (Numeral × List UInt8) := do
  let (negative, bs) : Bool × List UInt8 := match bs with
    | 0x2D :: rest => (true, rest)
    | _ => (false, bs)
  let (whole, bs) ← lexWhole bs
  let (fraction, bs) ← lexFraction bs
  let (exponent, bs) ← lexExponent bs
  pure (⟨negative, whole, fraction, exponent⟩, bs)

/-- Gathers digits onto a significand while it fits; the digits that did not fit are left. -/
def gather (significand : Nat) : List Nat → Nat × List Nat
  | [] => (significand, [])
  | d :: ds =>
    if significand * 10 + d ≤ Word.top then gather (significand * 10 + d) ds
    else (significand, d :: ds)

/-- A power of ten as a double. -/
def pow10 (n : Nat) : Float := Float.ofScientific 1 false n

/-- Divides by a power of ten, at most 308 places at a time, until nothing is left. -/
def scaleDown (f : Float) (places : Nat) : Float :=
  if places ≤ 308 then f / pow10 places
  else if f == 0 then f
  else scaleDown (f / pow10 308) (places - 308)
  termination_by places

/-- The largest exponent that an exponent part may spell. -/
def exponentBound : Nat := Word.half32 - 1

/-- A significand as a double, scaled by a power of ten. A result beyond all doubles is no
number. -/
def scale (significand : Nat) (exponent : Int) : Except Fault Float :=
  let f := Float.ofNat significand
  if exponent < 0 then .ok (scaleDown f (-exponent).toNat)
  else if exponent ≤ 308 then
    let g := f * pow10 exponent.toNat
    if g.isInf then .error .malformed else .ok g
  else if f == 0 then .ok f
  else .error .malformed

/-- Keeps an exponent within 32 bits. -/
def clampExponent (e : Int) : Int :=
  max (-(Word.half32 : Int)) (min (exponentBound : Int) e)

/-- The magnitude of a number with a fraction, an exponent or too many digits. `exponent` is what
the digits gathered so far have earned. -/
def magnitude (significand : Nat) (exponent : Int) :
    Option (Bool × List Nat) → Except Fault Float
  | none => scale significand exponent
  | some (negative, ds) =>
    let e := ds.foldl (fun n d => n * 10 + d) 0
    if e ≤ exponentBound then
      scale significand (clampExponent (if negative then exponent - e else exponent + e))
    else if significand ≠ 0 ∧ ¬ negative then .error .malformed
    else .ok 0

/-- The number that a numeral stands for. -/
def Numeral.value (n : Numeral) : Except Fault Number :=
  let (s, left) := gather 0 n.whole
  let signed (f : Float) : Number := .float (if n.negative then -f else f)
  match left, n.fraction, n.exponent with
  | [], none, none =>
    if ¬ n.negative then .ok (.int s)
    else if s = 0 ∨ Word.half < s then .ok (signed (Float.ofNat s))
    else .ok (.int (-s))
  | _, none, e => (magnitude s left.length e).map signed
  | _, some ds, e =>
    let (s', left') := gather s ds
    (magnitude s' (left.length - (ds.length - left'.length : Nat)) e).map signed

end SignalHub.Json
