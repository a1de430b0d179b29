import SignalHub.Text.Utf8
/-!
# Percent encoding

In a URL a byte may be written as `%` and two hexadecimal digits. A `%` that is not followed by two
of them stands for itself. In a form, names and values are encoded in that way, blanks as `+`.

Results:
* `percentDecode`: the bytes that percent-encoded bytes stand for.
* `formPairs`: the names and values of a form, in order.
* `formText`: names and values as a form.
-/
namespace SignalHub.Text

/-- The value of a hexadecimal digit. -/
def hexValue? (b : UInt8) : Option UInt8 :=
  if 0x30 ≤ b ∧ b ≤ 0x39 then some (b - 0x30)
  else if 0x41 ≤ b ∧ b ≤ 0x46 then some (b - 0x37)
  else if 0x61 ≤ b ∧ b ≤ 0x66 then some (b - 0x57)
  else none

/-- The bytes that percent-encoded bytes stand for. -/
def percentDecode : List UInt8 → List UInt8
  | 0x25 :: a :: b :: rest =>
    match hexValue? a, hexValue? b with
    | some x, some y => (x * 16 + y) :: percentDecode rest
    | _, _ => 0x25 :: percentDecode (a :: b :: rest)
  | b :: rest => b :: percentDecode rest
  | [] => []

/-- Blanks for plus signs. -/
def plusToBlank (bs : List UInt8) : List UInt8 := bs.map fun b => if b = 0x2B then 0x20 else b

/-- The text that an encoded name or value stands for. -/
def formDecode (bs : List UInt8) : String := lossy (percentDecode (plusToBlank bs))

/-- The parts between separators. -/
def splitAt (sep : UInt8) : List UInt8 → List (List UInt8)
  | [] => [[]]
  | b :: rest =>
    if b = sep then [] :: splitAt sep rest
    else
      match splitAt sep rest with
      | [] => [[b]]
      | part :: parts => (b :: part) :: parts

/-- What stands before the first separator, and what after it. -/
def splitFirst (sep : UInt8) : List UInt8 → List UInt8 × Option (List UInt8)
  | [] => ([], none)
  | b :: rest =>
    if b = sep then ([], some rest)
    else let (head, tail) := splitFirst sep rest; (b :: head, tail)

/-- The name and value of one piece of a form. -/
def formPair (piece : List UInt8) : String × String :=
  let (name, value) := splitFirst 0x3D piece
  (formDecode name, formDecode (value.getD []))

/-- The names and values of a form, in order; empty pieces count for nothing. -/
def formPairs (bs : List UInt8) : List (String × String) :=
  ((splitAt 0x26 bs).filter (!·.isEmpty)).map formPair

/-- An upper-case hexadecimal digit. -/
def upperHex (n : UInt8) : UInt8 := if n < 10 then 0x30 + n else 0x37 + n

/-- Whether a byte stands for itself in a form. -/
def isFormSafe (b : UInt8) : Bool :=
  (0x30 ≤ b && b ≤ 0x39) || (0x41 ≤ b && b ≤ 0x5A) || (0x61 ≤ b && b ≤ 0x7A) ||
    b == 0x2A || b == 0x2D || b == 0x2E || b == 0x5F

/-- A byte of a name or value in a form. -/
def formByte (b : UInt8) : List UInt8 :=
  if b = 0x20 then [0x2B]
  else if isFormSafe b then [b]
  else [0x25, upperHex (b / 16), upperHex (b % 16)]

/-- A name or value in a form. -/
def formEncode (s : String) : List UInt8 := (bytes s).flatMap formByte

/-- A name with its value in a form. -/
def formPiece (p : String × String) : List UInt8 := formEncode p.1 ++ 0x3D :: formEncode p.2

/-- Names and values as a form. -/
def formText (pairs : List (String × String)) : List UInt8 :=
  ((pairs.map formPiece).intersperse [0x26]).flatten

end SignalHub.Text
