import SignalHub.Json.Basic
import SignalHub.Decimal.Shortest
/-!
# Writing JSON text

`Json.render` writes a value without blanks, members in their order. Texts are escaped byte by
byte; doubles have the fewest digits that read back, with a point for magnitudes from `1e-5` up to
`1e16` and an exponent elsewhere, and are null if they are not finite.

Results:
* `Json.render`: the text of a value.
-/
namespace SignalHub.Json

/-- A double as JSON text. -/
def floatText (f : Float) : String :=
  if f.isNaN || f.isInf then "null"
  else
    let sign := if Decimal.isNegative f then "-" else ""
    let d := Decimal.shortest f
    let digits := Nat.toDigits 10 d.digits
    let places : Int := digits.length + d.exponent
    if d.digits = 0 then sign ++ "0.0"
    else if 0 ≤ d.exponent ∧ places ≤ 16 then
      sign ++ String.ofList digits ++ Decimal.zeros d.exponent.toNat ++ ".0"
    else if -5 < places ∧ places ≤ 16 then sign ++ Decimal.pointed digits places
    else
      let head := if digits.length = 1 then String.ofList digits else Decimal.pointed digits 1
      sign ++ head ++ "e" ++ toString (places - 1)

/-- A number as JSON text. -/
def numberText : Number → String
  | .int i => toString i
  | .float f => floatText f

/-- A lower-case hexadecimal digit. -/
def hexByte (n : UInt8) : UInt8 := if n < 10 then 0x30 + n else 0x57 + n

/-- A byte of a quoted text. -/
def escapeByte (b : UInt8) : List UInt8 :=
  if b = 0x22 then [0x5C, 0x22]
  else if b = 0x5C then [0x5C, 0x5C]
  else if b = 0x08 then [0x5C, 0x62]
  else if b = 0x0C then [0x5C, 0x66]
  else if b = 0x0A then [0x5C, 0x6E]
  else if b = 0x0D then [0x5C, 0x72]
  else if b = 0x09 then [0x5C, 0x74]
  else if b < 0x20 then [0x5C, 0x75, 0x30, 0x30, hexByte (b / 16), hexByte (b % 16)]
  else [b]

/-- A quoted text. -/
def renderText (s : String) : List UInt8 := 0x22 :: (Text.bytes s).flatMap escapeByte ++ [0x22]

mutual

/-- The text of a value. -/
def render : Json → List UInt8
  | .null => Text.bytes "null"
  | .bool b => Text.bytes (if b then "true" else "false")
  | .num n => Text.bytes (numberText n)
  | .str s => renderText s
  | .arr [] => [0x5B, 0x5D]
  | .arr (j :: rest) => 0x5B :: render j ++ renderItems rest
  | .obj [] => [0x7B, 0x7D]
  | .obj ((k, j) :: rest) => 0x7B :: renderText k ++ 0x3A :: render j ++ renderMembers rest

/-- The items after the first, and the closing bracket. -/
def renderItems : List Json → List UInt8
  | [] => [0x5D]
  | j :: rest => 0x2C :: render j ++ renderItems rest

/-- The members after the first, and the closing brace. -/
def renderMembers : List (String × Json) → List UInt8
  | [] => [0x7D]
  | (k, j) :: rest => 0x2C :: renderText k ++ 0x3A :: render j ++ renderMembers rest

end

end SignalHub.Json
