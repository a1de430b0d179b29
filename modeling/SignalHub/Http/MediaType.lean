import SignalHub.Text.Utf8
/-!
# Media types

A media type is a type and a subtype, separated by a slash, and parameters. A subtype may end in a
suffix after a plus sign.

Results:
* `MediaType.parse?`: a media type with well-formed parameters.
* `isJson`: whether a media type announces JSON.
-/
namespace SignalHub.Http

/-- A media type in lower case. -/
structure MediaType where
  type : List UInt8
  /-- What stands before the last plus sign, if it does not come first. -/
  subtype : List UInt8
  suffix : Option (List UInt8)
  deriving DecidableEq, Repr

/-- Whether a byte may stand in a token. -/
def isTokenByte (b : UInt8) : Bool :=
  (0x30 ≤ b && b ≤ 0x39) || (0x41 ≤ b && b ≤ 0x5A) || (0x61 ≤ b && b ≤ 0x7A) ||
    [0x21, 0x23, 0x24, 0x25, 0x26, 0x27, 0x2A, 0x2B, 0x2D, 0x2E, 0x5E, 0x5F, 0x60, 0x7C,
      0x7E].contains b

/-- Whether a byte may stand between quotes. -/
def isQuotableByte (b : UInt8) : Bool := 31 < b && b != 127

/-- A letter in lower case. -/
def lowerByte (b : UInt8) : UInt8 := if 0x41 ≤ b && b ≤ 0x5A then b + 0x20 else b

/-- A token at the front, and the rest. -/
def takeToken (bs : List UInt8) : List UInt8 × List UInt8 :=
  (bs.takeWhile isTokenByte, bs.dropWhile isTokenByte)

/-- What follows a quoted value: blanks, then the end or a semicolon. -/
def afterQuoted : List UInt8 → Option (List UInt8)
  | [] => some []
  | b :: rest => if b = 0x3B then some rest else if b = 0x20 then afterQuoted rest else none

/-- What follows the rest of a quoted value that holds at least `started` one byte. -/
def afterQuote (started : Bool) : List UInt8 → Option (List UInt8)
  | [] => none
  | b :: rest =>
    if b = 0x22 ∧ started then afterQuoted rest
    else if isQuotableByte b then afterQuote true rest
    else none

/-- What follows a value. -/
def afterValue : List UInt8 → Option (List UInt8)
  | 0x22 :: rest => afterQuote false rest
  | bs =>
    match takeToken bs with
    | (_, []) => some []
    | (_ :: _, 0x3B :: rest) => some rest
    | _ => none

/-- Whether parameters are well formed. -/
def areParams : Nat → List UInt8 → Bool
  | 0, _ => false
  | fuel + 1, bs =>
    match bs.dropWhile (· == 0x20) with
    | [] => true
    | bs =>
      match takeToken bs with
      | (_ :: _, 0x3D :: rest) =>
        match afterValue rest with
        | some rest' => areParams fuel rest'
        | none => false
      | _ => false

/-- Splits a subtype at its last plus sign, unless that comes first. -/
def splitSuffix (bs : List UInt8) : List UInt8 × Option (List UInt8) :=
  let suffix := (bs.reverse.takeWhile (· != 0x2B)).reverse
  let head := bs.take (bs.length - suffix.length - 1)
  if suffix.length = bs.length ∨ head = [] then (bs, none) else (head, some suffix)

/-- A media type with well-formed parameters. -/
def MediaType.parse? (bs : List UInt8) : Option MediaType :=
  match takeToken bs with
  | (t :: ts, 0x2F :: rest) =>
    let (sub, params) := takeToken rest
    let (subtype, suffix) := splitSuffix (sub.map lowerByte)
    let whole : MediaType := ⟨(t :: ts).map lowerByte, subtype, suffix⟩
    match sub, params with
    | _, [] => some whole
    | _ :: _, 0x3B :: params => if areParams (params.length + 1) params then some whole else none
    | _, _ => none
  | _ => none

/-- Whether a media type announces JSON. One that is not ASCII announces nothing. -/
def isJson (contentType : String) : Bool :=
  let bs := Text.bytes contentType
  match MediaType.parse? bs with
  | some m =>
    bs.all (· < 0x80) && m.type == Text.bytes "application" &&
      (m.subtype == Text.bytes "json" || m.suffix == some (Text.bytes "json"))
  | none => false

end SignalHub.Http
