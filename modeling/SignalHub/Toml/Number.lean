import SignalHub.Decimal.Reading
import SignalHub.Json.Basic
import SignalHub.Toml.Text
import SignalHub.Word
/-!
# Numbers in TOML

A number is decimal, with an optional sign, without leading zeros, with an optional fraction and an
optional exponent; or an unsigned integer in another base; or an infinity or not-a-number by name.
Single underscores may stand between digits. Integers have 63 bits and a sign.

Results:
* `readDigits`: digits in some base with underscores between them.
* `readNumber`: a number.
-/
namespace SignalHub.Toml

/-- More digits after the first. -/
def moreDigits (value? : Char → Option Nat) : Reader (List Nat)
  | [] => .ok ([], [])
  | [c] =>
    match value? c with
    | some d => .ok ([d], [])
    | none => if c = '_' then .error .unexpected else .ok ([], [c])
  | c :: c' :: rest =>
    match value? c with
    | some d => after d (moreDigits value? (c' :: rest))
    | none =>
      if c = '_' then
        match value? c' with
        | some d => after d (moreDigits value? rest)
        | none => .error .unexpected
      else .ok ([], c :: c' :: rest)

/-- At least one digit. -/
def readDigits (value? : Char → Option Nat) : Reader (List Nat)
  | [] => .error .unexpected
  | c :: rest =>
    match value? c with
    | some d => after d (moreDigits value? rest)
    | none => .error .unexpected

/-- The value of a digit of a base. -/
def digitBelow? (base : Nat) (c : Char) : Option Nat := (hexValue? c).filter (· < base)

/-- The number that digits of a base spell. -/
def ofBase (base : Nat) (ds : List Nat) : Nat := ds.foldl (fun n d => n * base + d) 0

/-- An integer if it is within range. -/
def bounded (i : Int) : Except Fault Number :=
  if -Word.half ≤ i ∧ i < Word.half then .ok (.int i) else .error .outOfRange

/-- An unsigned integer in a base. -/
def readBase (base : Nat) : Reader Number := fun cs => do
  let (ds, rest) ← readDigits (digitBelow? base) cs
  let n ← bounded (ofBase base ds)
  pure (n, rest)

/-- A whole part: a zero, or digits that begin with another one. -/
def readWhole : Reader (List Nat)
  | '0' :: rest => .ok ([0], rest)
  | cs => readDigits Decimal.digitValue? cs

/-- A fraction, if there is one. -/
def readFraction : Reader (Option (List Nat))
  | '.' :: rest => do
    let (ds, rest) ← readDigits Decimal.digitValue? rest
    pure (some ds, rest)
  | cs => .ok (none, cs)

/-- An exponent, if there is one. -/
def readExponent : Reader (Option Int)
  | [] => .ok (none, [])
  | c :: rest =>
    if c = 'e' ∨ c = 'E' then do
      let (negative, rest) := Decimal.takeSign rest
      let (ds, rest) ← readDigits Decimal.digitValue? rest
      let e := Decimal.ofDigits ds
      pure (some (if negative then -(e : Int) else e), rest)
    else .ok (none, c :: rest)

/-- A double, unless it lies above all doubles. -/
def finite (n : Decimal.Numeral) : Except Fault Number :=
  if n.value == Decimal.infinity then .error .outOfRange else .ok (.float n.value)

/-- A decimal number after its sign. -/
def readDecimal (negative : Bool) : Reader Number := fun cs => do
  let (whole, rest) ← readWhole cs
  let (fraction, rest) ← readFraction rest
  let (exponent, rest) ← readExponent rest
  let n ← match fraction, exponent with
    | none, none =>
      let n : Nat := Decimal.ofDigits whole
      bounded (if negative then -(n : Int) else n)
    | _, _ => finite ⟨negative, whole, fraction.getD [], exponent.getD 0⟩
  pure (n, rest)

/-- A number after its sign. -/
def readSigned (negative : Bool) : Reader Number
  | 'i' :: 'n' :: 'f' :: rest => .ok (.float (Decimal.signed negative Decimal.infinity), rest)
  | 'n' :: 'a' :: 'n' :: rest => .ok (.float (Decimal.signed negative Decimal.notANumber), rest)
  | cs => readDecimal negative cs

/-- A number. -/
def readNumber : Reader Number
  | '0' :: 'x' :: rest => readBase 16 rest
  | '0' :: 'o' :: rest => readBase 8 rest
  | '0' :: 'b' :: rest => readBase 2 rest
  | '+' :: rest => readSigned false rest
  | '-' :: rest => readSigned true rest
  | cs => readSigned false cs

end SignalHub.Toml
