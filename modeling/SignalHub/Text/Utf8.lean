/-!
# Bytes and text

Text is exchanged as UTF-8 bytes. `bytes` spells a string, `ofBytes?` reads one back and refuses
bytes that spell none, and `lossy` reads any bytes, putting U+FFFD where a maximal invalid part
stands.

Results:
* `ofBytes?_bytes`: what `bytes` spells, `ofBytes?` reads.
-/
namespace SignalHub.Text

/-- The bytes that spell a string. -/
def bytes (s : String) : List UInt8 := s.toByteArray.data.toList

/-- The string that the bytes spell, if they spell one. -/
def ofBytes? (bs : List UInt8) : Option String := String.fromUTF8? ⟨bs.toArray⟩

theorem ofBytes?_bytes (s : String) : ofBytes? (bytes s) = some s := by
  have h : (⟨(bytes s).toArray⟩ : ByteArray) = s.toByteArray := by simp [bytes]
  simp only [ofBytes?, h, String.fromUTF8?]
  rw [dif_pos s.isValidUTF8]
  rfl

theorem bytes_append (s t : String) : bytes (s ++ t) = bytes s ++ bytes t := by
  simp [bytes]

/-- The number of bytes that follow a leading byte and the bounds of the first of them. -/
def followers (b : UInt8) : Option (Nat × UInt8 × UInt8) :=
  if b < 0xC2 then none
  else if b < 0xE0 then some (1, 0x80, 0xBF)
  else if b == 0xE0 then some (2, 0xA0, 0xBF)
  else if b == 0xED then some (2, 0x80, 0x9F)
  else if b < 0xF0 then some (2, 0x80, 0xBF)
  else if b == 0xF0 then some (3, 0x90, 0xBF)
  else if b < 0xF4 then some (3, 0x80, 0xBF)
  else if b == 0xF4 then some (3, 0x80, 0x8F)
  else none

/-- At most `n` continuation bytes from the front, the first within `lo` and `hi`. -/
def continuation : Nat → UInt8 → UInt8 → List UInt8 → List UInt8
  | n + 1, lo, hi, b :: rest =>
    if lo ≤ b ∧ b ≤ hi then b :: continuation n 0x80 0xBF rest else []
  | _, _, _, _ => []

/-- The character that a leading byte and all its continuation bytes spell. -/
def assemble (b : UInt8) (tail : List UInt8) : Char :=
  let mask : Nat := match tail.length with
    | 1 => 0x1F
    | 2 => 0x0F
    | _ => 0x07
  Char.ofNat (tail.foldl (fun n c => n * 64 + c.toNat % 64) (b.toNat &&& mask))

/-- Reads any bytes; each maximal part that begins no character becomes U+FFFD. -/
def lossyChars : List UInt8 → List Char
  | [] => []
  | b :: rest =>
    if b < 0x80 then Char.ofNat b.toNat :: lossyChars rest
    else
      match followers b with
      | none => '\uFFFD' :: lossyChars rest
      | some (n, lo, hi) =>
        let tail := continuation n lo hi rest
        let c := if tail.length = n then assemble b tail else '\uFFFD'
        c :: lossyChars (rest.drop tail.length)
  termination_by bs => bs.length
  decreasing_by all_goals simp only [List.length_cons, List.length_drop]; omega

/-- Reads any bytes as text, invalid parts replaced. -/
def lossy (bs : List UInt8) : String := String.ofList (lossyChars bs)

end SignalHub.Text
