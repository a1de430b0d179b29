import SignalHub.Word
/-!
# Shortest decimals

The shortest decimal of a finite double is the one with the fewest digits that still lies among
the reals that round to the double; of two with equally many digits the nearer one, on a tie the
one whose last digit is even.

A double is taken apart as `m · 2^q`. The reals that round to it form an interval whose ends
belong to it iff `m` is even. For 1, 2, … 17 digits the two neighbours of the double on that
decimal grid are tried, in exact arithmetic.

Results:
* `Binary.ofFloat`: a finite double as `m · 2^q`.
* `shortest`: its shortest decimal `digits · 10^exponent`.
* `positional`, `withPoint`: it in text, without an exponent.
-/
namespace SignalHub.Decimal

/-- The magnitude `significand · 2^exponent` of a finite double. `narrow` says that the next
smaller double is nearer than the next larger one. -/
structure Binary where
  significand : Nat
  exponent : Int
  narrow : Bool
  deriving DecidableEq, Repr

/-- How many fractions a double can have. -/
def fractionBound : Nat := 4503599627370496

/-- Takes a finite double apart, without its sign. -/
def Binary.ofFloat (f : Float) : Binary :=
  let bits : Nat := f.toBits.toNat
  let biased : Nat := bits / fractionBound % 2048
  let fraction : Nat := bits % fractionBound
  if biased = 0 then ⟨fraction, -1074, false⟩
  else ⟨fraction + fractionBound, (biased : Int) - 1075, fraction == 0 && 1 < biased⟩

/-- A decimal `digits · 10^exponent`. -/
structure Scaled where
  digits : Nat
  exponent : Int
  deriving DecidableEq, Repr

/-- `base ^ e` if `e` is positive, else 1. -/
def powUp (base : Nat) (e : Int) : Nat := Nat.pow base e.toNat

/-- The four times finer interval around a double: its lower end, the double, its upper end, in
units of a quarter of the last binary place. -/
def Binary.quarters (b : Binary) : Nat × Nat × Nat :=
  (4 * b.significand - (if b.narrow then 1 else 2), 4 * b.significand, 4 * b.significand + 2)

/-- The exponent of the leading decimal digit of a positive double. -/
def Binary.leading (b : Binary) : Int :=
  let n := b.significand * Nat.pow 10 340 * powUp 2 b.exponent / powUp 2 (-b.exponent)
  ((Nat.toDigits 10 n).length : Int) - 341

/-- The neighbours of the double on the grid of step `10^k`, tried. -/
def tryGrid (b : Binary) (k : Int) : Option Nat :=
  let e := b.exponent - 2
  -- `c · 10^k` against `x · 2^e`, both brought to whole numbers
  let right := powUp 2 e * powUp 10 (-k)
  let left := powUp 10 k * powUp 2 (-e)
  let (lo, mid, hi) := b.quarters
  let inside (c : Nat) : Bool :=
    if b.significand % 2 = 0 then lo * right ≤ c * left && c * left ≤ hi * right
    else lo * right < c * left && c * left < hi * right
  let c := mid * right / left
  match inside c, inside (c + 1) with
  | true, true =>
    let below := mid * right - c * left
    let above := (c + 1) * left - mid * right
    if below < above || (below == above && c % 2 == 0) then some c else some (c + 1)
  | true, false => some c
  | false, true => some (c + 1)
  | false, false => none

/-- Drops trailing zeros. -/
def dropZeros : Nat → Nat → Int → Scaled
  | 0, n, e => ⟨n, e⟩
  | fuel + 1, n, e => if n % 10 = 0 then dropZeros fuel (n / 10) (e + 1) else ⟨n, e⟩

/-- Tries grids of more and more digits. -/
def searchGrids (b : Binary) (leading : Int) : Nat → Nat → Scaled
  | 0, _ => ⟨0, 0⟩
  | fuel + 1, digits =>
    let k := leading - digits + 1
    match tryGrid b k with
    | some c => if c = 0 then searchGrids b leading fuel (digits + 1) else dropZeros 18 c k
    | none => searchGrids b leading fuel (digits + 1)

/-- The shortest decimal of the magnitude of a finite double. -/
def shortest (f : Float) : Scaled :=
  let b := Binary.ofFloat f
  if b.significand = 0 then ⟨0, 0⟩ else searchGrids b b.leading 18 1

/-- Whether a double is negative, minus zero included. -/
def isNegative (f : Float) : Bool := Word.half ≤ f.toBits.toNat

/-- As many zeros. -/
def zeros (n : Nat) : String := String.ofList (List.replicate n '0')

/-- The digits with a point in front of which `places` of them stand. -/
def pointed (digits : List Char) (places : Int) : String :=
  if places ≤ 0 then "0." ++ zeros (-places).toNat ++ String.ofList digits
  else
    String.ofList (digits.take places.toNat) ++ "." ++ String.ofList (digits.drop places.toNat)

/-- A double written without an exponent; whole numbers have no point. -/
def positional (f : Float) : String :=
  if f.isNaN then "NaN"
  else
    let sign := if isNegative f then "-" else ""
    if f.isInf then sign ++ "inf"
    else
      let d := shortest f
      let digits := Nat.toDigits 10 d.digits
      if 0 ≤ d.exponent then sign ++ String.ofList digits ++ zeros d.exponent.toNat
      else sign ++ pointed digits (digits.length + d.exponent)

/-- A double written without an exponent; whole numbers have a point and a zero. -/
def withPoint (f : Float) : String :=
  let s := positional f
  if f.isFinite ∧ !s.toList.contains '.' then s ++ ".0" else s

end SignalHub.Decimal
