/-!
# Decimal integers in text

An integer is an optional sign and at least one digit. Digits are read from the left and the first
fault decides: a character that is no digit, or a value that has left the range.

Results:
* `IntegerError.message`: the wording of each fault.
-/
namespace SignalHub.Text

/-- Why a text is no integer of the wanted range. -/
inductive IntegerError where
  | empty
  | invalidDigit
  | tooLarge
  | tooSmall
  deriving DecidableEq, Repr

/-- The wording of the fault. -/
def IntegerError.message : IntegerError → String
  | .empty => "cannot parse integer from empty string"
  | .invalidDigit => "invalid digit found in string"
  | .tooLarge => "number too large to fit in target type"
  | .tooSmall => "number too small to fit in target type"

/-- The value of a decimal digit. -/
def digit? (c : Char) : Option Nat :=
  if '0' ≤ c ∧ c ≤ '9' then some (c.toNat - '0'.toNat) else none

/-- Reads digits onto `acc`; leaving the range above `bound` is the fault `beyond`. -/
def readDigits (bound : Nat) (beyond : IntegerError) : Nat → List Char → Except IntegerError Nat
  | acc, [] => .ok acc
  | acc, c :: rest =>
    match digit? c with
    | none => .error .invalidDigit
    | some d =>
      if acc * 10 + d ≤ bound then readDigits bound beyond (acc * 10 + d) rest else .error beyond

/-- Reads at least one digit. -/
def readMagnitude (bound : Nat) (beyond : IntegerError) : List Char → Except IntegerError Nat
  | [] => .error .invalidDigit
  | cs => readDigits bound beyond 0 cs

/-- Reads an integer between 0 and `bound`; a plus sign may stand in front. -/
def readUnsigned (bound : Nat) (s : String) : Except IntegerError Nat :=
  match s.toList with
  | [] => .error .empty
  | '+' :: rest => readMagnitude bound .tooLarge rest
  | cs => readMagnitude bound .tooLarge cs

/-- Reads an integer between `-low` and `high`; a sign may stand in front. -/
def readSigned (low high : Nat) (s : String) : Except IntegerError Int :=
  match s.toList with
  | [] => .error .empty
  | '+' :: rest => (readMagnitude high .tooLarge rest).map Int.ofNat
  | '-' :: rest => (readMagnitude low .tooSmall rest).map fun n => -Int.ofNat n
  | cs => (readMagnitude high .tooLarge cs).map Int.ofNat

end SignalHub.Text
