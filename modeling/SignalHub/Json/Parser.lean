import SignalHub.Json.Number
/-!
# Reading JSON text

`parse` reads the first value of a text into a `Node`, together with what follows the value, if
the value is complete. Every step takes fuel; a text of `n` bytes never needs more than `n + 1`.

Results:
* `lexText`: the pieces of a quoted text.
* `keepText`: the string they spell, surrogate pairs joined.
* `parse`: the first value of a text.
-/
namespace SignalHub.Json

/-- Skips blanks, tabs and line ends. -/
def skipBlanks : List UInt8 → List UInt8
  | [] => []
  | b :: rest =>
    if b = 0x20 ∨ b = 0x0A ∨ b = 0x0D ∨ b = 0x09 then skipBlanks rest else b :: rest

/-- A piece of a quoted text: a byte, or a UTF-16 unit written by its number. -/
inductive Piece where
  | byte (b : UInt8)
  | unit (n : Nat)
  deriving DecidableEq, Repr

/-- The value of a hexadecimal digit. -/
def hexDigit? (b : UInt8) : Option Nat :=
  if 0x30 ≤ b ∧ b ≤ 0x39 then some (b.toNat - 0x30)
  else if 0x41 ≤ b ∧ b ≤ 0x46 then some (b.toNat - 0x41 + 10)
  else if 0x61 ≤ b ∧ b ≤ 0x66 then some (b.toNat - 0x61 + 10)
  else none

/-- The number that four hexadecimal digits spell. -/
def hexUnit? (a b c d : UInt8) : Option Nat := do
  let a ← hexDigit? a
  let b ← hexDigit? b
  let c ← hexDigit? c
  let d ← hexDigit? d
  pure (((a * 16 + b) * 16 + c) * 16 + d)

/-- The byte that a one-letter escape stands for. -/
def escaped? (b : UInt8) : Option UInt8 :=
  match b with
  | 0x22 => some 0x22
  | 0x5C => some 0x5C
  | 0x2F => some 0x2F
  | 0x62 => some 0x08
  | 0x66 => some 0x0C
  | 0x6E => some 0x0A
  | 0x72 => some 0x0D
  | 0x74 => some 0x09
  | _ => none

/-- The pieces of a text after its opening quote, then the rest after the closing one, or the
fault that ends the text. -/
def lexText : List UInt8 → List Piece × Except Fault (List UInt8)
  | [] => ([], .error .cutOff)
  | 0x22 :: rest => ([], .ok rest)
  | 0x5C :: 0x75 :: a :: b :: c :: d :: rest =>
    match hexUnit? a b c d with
    | some n => let (ps, e) := lexText rest; (.unit n :: ps, e)
    | none => ([], .error .malformed)
  | 0x5C :: 0x75 :: _ => ([], .error .cutOff)
  | [0x5C] => ([], .error .cutOff)
  | 0x5C :: b :: rest =>
    match escaped? b with
    | some c => let (ps, e) := lexText rest; (.byte c :: ps, e)
    | none => ([], .error .malformed)
  | b :: rest =>
    if b < 0x20 then ([], .error .malformed)
    else let (ps, e) := lexText rest; (.byte b :: ps, e)

/-- Whether a unit is the first half of a pair. -/
def isHighSurrogate (n : Nat) : Bool := 0xD800 ≤ n && n < 0xDC00

/-- Whether a unit is the second half of a pair. -/
def isLowSurrogate (n : Nat) : Bool := 0xDC00 ≤ n && n < 0xE000

/-- The character that two halves stand for. -/
def joinSurrogates (high low : Nat) : Char :=
  Char.ofNat (0x10000 + (high - 0xD800) * 0x400 + (low - 0xDC00))

/-- The bytes that the pieces spell. Halves of a pair must stand together; a first half at the end
of the pieces is as wrong as what ends them. -/
def spell (ending : Except Fault Unit) : List Piece → Except Fault (List UInt8)
  | [] => ending.map fun _ => []
  | .byte b :: rest => (spell ending rest).map (b :: ·)
  | .unit n :: .unit m :: rest =>
    if isLowSurrogate n then .error .malformed
    else if isHighSurrogate n then
      if isLowSurrogate m then
        (spell ending rest).map (String.utf8EncodeChar (joinSurrogates n m) ++ ·)
      else .error .malformed
    else (spell ending (.unit m :: rest)).map (String.utf8EncodeChar (Char.ofNat n) ++ ·)
  | .unit n :: rest =>
    if isLowSurrogate n then .error .malformed
    else if isHighSurrogate n then
      match rest, ending with
      | [], .error f => .error f
      | _, _ => .error .malformed
    else (spell ending rest).map (String.utf8EncodeChar (Char.ofNat n) ++ ·)

/-- The string that pieces spell. -/
def keepText (ps : List Piece) (ending : Except Fault Unit) : Except Fault String := do
  let bs ← spell ending ps
  match Text.ofBytes? bs with
  | some s => pure s
  | none => .error .malformed

/-- Success as an option. -/
def ending {α : Type} (e : Except Fault α) : Except Fault Unit := e.map fun _ => ()

/-- The fault of a result. -/
def faultOf {α : Type} : Except Fault α → Option Fault
  | .ok _ => none
  | .error f => some f

/-- A text after its opening quote. -/
def parseText (bs : List UInt8) : Node × Option (List UInt8) :=
  let (ps, e) := lexText bs
  (.str ⟨keepText ps (ending e), faultOf e⟩, e.toOption)

/-- A number. Skipping one that is cut off finds it malformed. -/
def parseNumber (bs : List UInt8) : Node × Option (List UInt8) :=
  match lexNumber bs with
  | .ok (n, rest) => (.num ⟨n.value, none⟩, some rest)
  | .error f => (.num ⟨.error f, some .malformed⟩, none)

/-- Whether a node is null. -/
def isNull : Node → Bool
  | .null => true
  | _ => false

/-- A bare word of which the first letter has been read. -/
def parseWord (n : Node) : List UInt8 → List UInt8 → Node × Option (List UInt8)
  | [], rest => (n, some rest)
  | _ :: _, [] => (.broken (isNull n) .cutOff, none)
  | w :: ws, b :: rest =>
    if w = b then parseWord n ws rest else (.broken (isNull n) .malformed, none)

mutual

/-- The first value, and what follows it if it is complete. -/
def parseValue : Nat → List UInt8 → Node × Option (List UInt8)
  | 0, _ => (.absent, none)
  | fuel + 1, bs =>
    match skipBlanks bs with
    | [] => (.absent, none)
    | b :: rest =>
      if b = 0x22 then parseText rest
      else if b = 0x5B then
        match skipBlanks rest with
        | 0x5D :: rest' => (.list [] none, some rest')
        | rest' =>
          let (items, fault, left) := parseItems fuel rest'
          (.list items fault, left)
      else if b = 0x7B then
        match skipBlanks rest with
        | 0x7D :: rest' => (.object [] none, some rest')
        | rest' =>
          let (members, fault, left) := parseMembers fuel rest'
          (.object members fault, left)
      else if b = 0x6E then parseWord .null [0x75, 0x6C, 0x6C] rest
      else if b = 0x74 then parseWord (.bool true) [0x72, 0x75, 0x65] rest
      else if b = 0x66 then parseWord (.bool false) [0x61, 0x6C, 0x73, 0x65] rest
      else if b = 0x2D ∨ (digitOf? b).isSome then parseNumber (b :: rest)
      else (.broken false .malformed, none)

/-- Items up to the closing bracket. -/
def parseItems : Nat → List UInt8 → List Node × Option Fault × Option (List UInt8)
  | 0, _ => ([], some .cutOff, none)
  | fuel + 1, bs =>
    match parseValue fuel bs with
    | (n, none) => ([n], none, none)
    | (n, some rest) =>
      match skipBlanks rest with
      | 0x2C :: rest' =>
        let (ns, fault, left) := parseItems fuel rest'
        (n :: ns, fault, left)
      | 0x5D :: rest' => ([n], none, some rest')
      | rest' => ([n], some (stopAt rest'), none)

/-- Members up to the closing brace. -/
def parseMembers : Nat → List UInt8 → List (Node × Node) × Option Fault × Option (List UInt8)
  | 0, _ => ([], some .cutOff, none)
  | fuel + 1, bs =>
    match parseValue fuel bs with
    | (.str r, some rest) =>
      match skipBlanks rest with
      | 0x3A :: rest' =>
        match parseValue fuel rest' with
        | (v, none) => ([(.str r, v)], none, none)
        | (v, some rest'') =>
          match skipBlanks rest'' with
          | 0x2C :: left =>
            let (ms, fault, left') := parseMembers fuel left
            ((.str r, v) :: ms, fault, left')
          | 0x7D :: left => ([(.str r, v)], none, some left)
          | left => ([(.str r, v)], some (stopAt left), none)
      | [] => ([(.str r, .absent)], none, none)
      | _ => ([(.str r, .broken false .malformed)], none, none)
    | (k, _) => ([(k, .absent)], none, none)

end

/-- The first value of a text, and what follows it if it is complete. -/
def parse (bs : List UInt8) : Node × Option (List UInt8) := parseValue (2 * bs.length + 2) bs

/-- What may follow the only value of a text: blanks. -/
def endOfText : Option (List UInt8) → Except Fault Unit
  | none => .error .cutOff
  | some rest => if (skipBlanks rest).isEmpty then .ok () else .error .malformed

/-- A text that holds one value and nothing else. -/
def parseOnly (s : String) : Except Fault Json := do
  let (n, rest) := parse (Text.bytes s)
  let j ← n.toJson
  endOfText rest
  pure j.canonical

end SignalHub.Json
