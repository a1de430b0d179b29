/-!
# Reading decimals

A decimal in text is an optional sign, digits with an optional point, and an optional exponent. Its
value is the double nearest to it; beyond all doubles that is an infinity.

Results:
* `Numeral.value`: the double nearest to a decimal.
* `parse?`: the double that a text spells, infinities and not-a-number included.
-/
namespace SignalHub.Decimal

/-- The number that digits spell. -/
def ofDigits (ds : List Nat) : Nat := ds.foldl (fun n d => n * 10 + d) 0

/-- The value of a decimal digit. -/
def digitValue? (c : Char) : Option Nat := if c.isDigit then some (c.toNat - '0'.toNat) else none

/-- A decimal in text; digits as values. -/
structure Numeral where
  negative : Bool
  whole : List Nat
  fraction : List Nat
  exponent : Int
  deriving DecidableEq, Repr

/-- A double with its sign. -/
def signed (negative : Bool) (f : Float) : Float := if negative then -f else f

/-- Infinity. -/
def infinity : Float := 1.0 / 0.0

/-- Not a number. -/
def notANumber : Float := 0.0 / 0.0

/-- The double nearest to `digits · 10^exponent`. Magnitudes far beyond the range of doubles are
decided by the place of the leading digit alone. -/
def nearest (digits : Nat) (exponent : Int) : Float :=
  let leading : Int := (Nat.toDigits 10 digits).length + exponent
  if digits = 0 ∨ leading < -330 then 0
  else if 310 < leading then infinity
  else Float.ofScientific digits (exponent < 0) exponent.natAbs

/-- The double nearest to a decimal. -/
def Numeral.value (n : Numeral) : Float :=
  signed n.negative (nearest (ofDigits (n.whole ++ n.fraction)) (n.exponent - n.fraction.length))

/-- The sign in front, if there is one: whether it is a minus. -/
def takeSign : List Char → Bool × List Char
  | '+' :: rest => (false, rest)
  | '-' :: rest => (true, rest)
  | cs => (false, cs)

/-- The digits in front, and the rest. -/
def takeDigits (cs : List Char) : List Nat × List Char :=
  ((cs.takeWhile Char.isDigit).filterMap digitValue?, cs.dropWhile Char.isDigit)

/-- The fraction, if a point stands in front. -/
def takeFraction : List Char → List Nat × List Char
  | '.' :: rest => takeDigits rest
  | cs => ([], cs)

/-- The exponent that the whole rest of a text spells. -/
def exponent? : List Char → Option Int
  | [] => some 0
  | c :: rest =>
    if c = 'e' ∨ c = 'E' then
      let (negative, rest) := takeSign rest
      match takeDigits rest with
      | ([], _) => none
      | (ds, []) => some (if negative then -(ofDigits ds : Int) else ofDigits ds)
      | _ => none
    else none

/-- The decimal that a text spells after its sign. -/
def numeral? (negative : Bool) (cs : List Char) : Option Numeral :=
  let (whole, rest) := takeDigits cs
  let (fraction, rest) := takeFraction rest
  if whole.isEmpty && fraction.isEmpty then none
  else (exponent? rest).map fun e => ⟨negative, whole, fraction, e⟩

/-- The double that a text spells. -/
def parse? (s : String) : Option Float :=
  let (negative, cs) := takeSign s.toList
  let word := String.ofList (cs.map Char.toLower)
  if word = "inf" ∨ word = "infinity" then some (signed negative infinity)
  else if word = "nan" then some notANumber
  else (numeral? negative cs).map Numeral.value

end SignalHub.Decimal
