/-!
# Internet addresses

An address has four bytes, written in decimal between points, or eight groups of 16 bits, written in
hexadecimal between colons. A run of zero groups may be left out once, between two colons, and the
last two groups may be written like an address of four bytes.

Results:
* `Address.parse?`: the address that a text spells.
-/
namespace SignalHub.Net

/-- An internet address. -/
inductive Address where
  | v4 (bytes : List UInt8)
  | v6 (groups : List UInt16)
  deriving DecidableEq, Repr

namespace Address

/-- The value of a hexadecimal digit. -/
def digit? (c : Char) : Option Nat :=
  if '0' ≤ c ∧ c ≤ '9' then some (c.toNat - '0'.toNat)
  else if 'a' ≤ c ∧ c ≤ 'f' then some (c.toNat - 'a'.toNat + 10)
  else if 'A' ≤ c ∧ c ≤ 'F' then some (c.toNat - 'A'.toNat + 10)
  else none

/-- The digits of a base in front, as values, and the rest. -/
def takeDigits (base : Nat) (cs : List Char) : List Nat × List Char :=
  let isDigit (c : Char) : Bool := (digit? c).any (· < base)
  ((cs.takeWhile isDigit).filterMap digit?, cs.dropWhile isDigit)

/-- The number that digits of a base spell. -/
def ofDigits (base : Nat) (ds : List Nat) : Nat := ds.foldl (fun n d => n * base + d) 0

/-- A byte in decimal, without leading zeros, and the rest. -/
def readByte (cs : List Char) : Option (UInt8 × List Char) :=
  let (ds, rest) := takeDigits 10 cs
  let n := ofDigits 10 ds
  if ds = [] ∨ 3 < ds.length ∨ 255 < n ∨ (1 < ds.length ∧ ds.head? = some 0) then none
  else some (UInt8.ofNat n, rest)

/-- More bytes, each after a point. -/
def moreBytes : Nat → List Char → Option (List UInt8 × List Char)
  | 0, cs => some ([], cs)
  | n + 1, '.' :: rest => do
    let (b, rest) ← readByte rest
    let (bs, rest) ← moreBytes n rest
    pure (b :: bs, rest)
  | _, _ => none

/-- Four bytes, and the rest. -/
def readBytes (cs : List Char) : Option (List UInt8 × List Char) := do
  let (b, rest) ← readByte cs
  let (bs, rest) ← moreBytes 3 rest
  pure (b :: bs, rest)

/-- A group in hexadecimal, and the rest. -/
def readGroup (cs : List Char) : Option (UInt16 × List Char) :=
  let (ds, rest) := takeDigits 16 cs
  if ds = [] ∨ 4 < ds.length then none else some (UInt16.ofNat (ofDigits 16 ds), rest)

/-- Two groups of four bytes. -/
def groupsOf : List UInt8 → List UInt16
  | a :: b :: rest => UInt16.ofNat (a.toNat * 256 + b.toNat) :: groupsOf rest
  | _ => []

/-- What stands after the colon that separates a group from the one before it. -/
def afterColon (isFirst : Bool) (cs : List Char) : Option (List Char) :=
  if isFirst then some cs
  else match cs with
    | ':' :: rest => some rest
    | _ => none

/-- At most `limit` groups, whether they end in four bytes, and the rest. -/
def readGroups (isFirst : Bool) : Nat → List Char → List UInt16 × Bool × List Char
  | 0, cs => ([], false, cs)
  | limit + 1, cs =>
    match afterColon isFirst cs with
    | none => ([], false, cs)
    | some rest =>
      match if limit = 0 then none else readBytes rest with
      | some (bs, rest) => (groupsOf bs, true, rest)
      | none =>
        match readGroup rest with
        | none => ([], false, cs)
        | some (g, rest) =>
          let (gs, ends, rest) := readGroups false limit rest
          (g :: gs, ends, rest)

/-- Eight groups, and the rest. -/
def readV6 (cs : List Char) : Option (List UInt16 × List Char) :=
  let (front, ends, rest) := readGroups true 8 cs
  if front.length = 8 then some (front, rest)
  else if ends then none
  else
    match rest with
    | ':' :: ':' :: rest =>
      let (back, _, rest) := readGroups true (7 - front.length) rest
      some (front ++ List.replicate (8 - front.length - back.length) 0 ++ back, rest)
    | _ => none

/-- The address that a text spells. -/
def parse? (s : String) : Option Address :=
  match readBytes s.toList with
  | some (bs, []) => some (.v4 bs)
  | _ =>
    match readV6 s.toList with
    | some (gs, []) => some (.v6 gs)
    | _ => none

end Address

end SignalHub.Net
