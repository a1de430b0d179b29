import SignalHub.Json.Parser
import SignalHub.Json.Printer
import SignalHub.Proofs.Declarations
import SignalHub.Proofs.Forms
import SignalHub.Proofs.Numerals
/-!
# Texts and numbers of JSON read back

A text is written byte by byte, each as itself, as a letter after a backslash or by its number, and
is read piece by piece: every byte gives one piece, whatever follows it, and the pieces spell the
bytes again. A number is written without a fraction and without an exponent, so it reads back as the
integer that it is if nothing follows that would go on with it.

Results:
* `parseText_escape`: a quoted text reads back.
* `lexNumber_parts`: the parts of a written number are found again.
* `parseNumber_toString`: an integer within range reads back.
-/
namespace SignalHub.Json

variable {b : UInt8} {bs rest : List UInt8}

/-! ## Texts -/

/-- The bytes that are written as a letter after a backslash. -/
def lettered : List UInt8 := [0x22, 0x5C, 0x08, 0x0C, 0x0A, 0x0D, 0x09]

/-- The piece as which a byte is read. -/
def pieceOf (b : UInt8) : Piece :=
  if b < 0x20 ∧ b ∉ lettered then .unit b.toNat else .byte b

theorem escapeByte_lettered : ∀ b ∈ lettered, ∃ x, escapeByte b = [0x5C, x] ∧ escaped? x = some b ∧
    x ≠ 0x75 := by
  simp [lettered, escapeByte, escaped?]

theorem hexUnit?_control : ∀ n < 32, hexUnit? 0x30 0x30 (hexByte (.ofNat n / 16))
    (hexByte (.ofNat n % 16)) = some n := by
  decide

theorem escapeByte_of_not_mem (h : b ∉ lettered) : escapeByte b =
    if b < 0x20 then [0x5C, 0x75, 0x30, 0x30, hexByte (b / 16), hexByte (b % 16)] else [b] := by
  simp only [lettered, List.mem_cons, List.not_mem_nil, or_false, not_or] at h
  simp [escapeByte, h]

/-- What is written for a byte is read as one piece. -/
theorem lexText_escapeByte (b : UInt8) (rest : List UInt8) :
    lexText (escapeByte b ++ rest) = (pieceOf b :: (lexText rest).1, (lexText rest).2) := by
  by_cases hletter : b ∈ lettered
  · obtain ⟨x, hx, hescaped, hu⟩ := escapeByte_lettered b hletter
    rw [hx, pieceOf, if_neg fun h => h.2 hletter]
    simp [lexText, hescaped, hu]
  · rw [escapeByte_of_not_mem hletter]
    split
    · rename_i hcontrol
      have hunit := hexUnit?_control b.toNat hcontrol
      rw [UInt8.ofNat_toNat] at hunit
      rw [pieceOf, if_pos ⟨hcontrol, hletter⟩]
      simp [lexText, hunit]
    · rename_i hplain
      have hquote : b ≠ 0x22 := by
        rintro rfl
        exact hletter (by decide)
      have hbackslash : b ≠ 0x5C := by
        rintro rfl
        exact hletter (by decide)
      rw [pieceOf, if_neg fun h => hplain h.1]
      simp [lexText, hplain, hbackslash]

theorem lexText_flatMap (bs rest : List UInt8) :
    lexText (bs.flatMap escapeByte ++ 0x22 :: rest) = (bs.map pieceOf, .ok rest) := by
  induction bs with
  | nil => rfl
  | cons b bs ih => rw [List.flatMap_cons, List.append_assoc, lexText_escapeByte, ih, List.map_cons]

theorem utf8EncodeChar_control : ∀ n < 32, String.utf8EncodeChar (Char.ofNat n) = [.ofNat n] := by
  decide

/-- The piece of a byte spells the byte. -/
theorem spell_pieceOf (ending : Except Fault Unit) (b : UInt8) (ps : List Piece) :
    spell ending (pieceOf b :: ps) = (spell ending ps).map (b :: ·) := by
  rw [pieceOf]
  split
  · rename_i h
    have hlt : b.toNat < 32 := h.1
    have hlow : isLowSurrogate b.toNat = false := by
      simp only [isLowSurrogate, Bool.and_eq_false_iff, decide_eq_false_iff_not]
      omega
    have hhigh : isHighSurrogate b.toNat = false := by
      simp only [isHighSurrogate, Bool.and_eq_false_iff, decide_eq_false_iff_not]
      omega
    have hchar := utf8EncodeChar_control b.toNat hlt
    rw [UInt8.ofNat_toNat] at hchar
    cases ps with
    | nil => simp [spell, hlow, hhigh, hchar]
    | cons p ps => cases p <;> simp [spell, hlow, hhigh, hchar]
  · rw [spell]

theorem spell_map_pieceOf (bs : List UInt8) : spell (.ok ()) (bs.map pieceOf) = .ok bs := by
  induction bs with
  | nil => rfl
  | cons b bs ih =>
    rw [List.map_cons, spell_pieceOf, ih]
    rfl

/-- A quoted text reads back. -/
theorem parseText_escape (s : String) (rest : List UInt8) :
    parseText ((Text.bytes s).flatMap escapeByte ++ 0x22 :: rest) =
      (.str (Node.usable s), some rest) := by
  have hkeep : keepText ((Text.bytes s).map pieceOf) (ending (.ok rest)) = .ok s := by
    rw [show ending (.ok rest) = .ok () from rfl, keepText, spell_map_pieceOf]
    simp only [bind, Except.bind, Text.ofBytes?_bytes]
    rfl
  simp only [parseText, lexText_flatMap, hkeep]
  rfl

/-! ## Numbers -/

open Text (digitValues Canonical canonical_toDigits)

/-- The bytes of digits. -/
def digitBytes (cs : List Char) : List UInt8 := cs.map fun c => .ofNat c.toNat

/-- Whether digits do not go on here. -/
def Breaks (rest : List UInt8) : Prop := ∀ b ∈ rest.head?, digitOf? b = none

/-- Whether a number does not go on here. -/
def Closes (rest : List UInt8) : Prop :=
  ∀ b ∈ rest.head?, digitOf? b = none ∧ b ≠ 0x2E ∧ b ≠ 0x65 ∧ b ≠ 0x45

theorem Closes.breaks (h : Closes rest) : Breaks rest := fun b hb => (h b hb).1

theorem digit_cases : ∀ n < 58, 48 ≤ n → String.utf8EncodeChar (Char.ofNat n) = [.ofNat n] ∧
    digitOf? (.ofNat n) = some (n - 48) ∧ UInt8.ofNat n ≠ 0x2D := by
  decide

theorem digit_bytes {c : Char} (hc : c.isDigit) :
    String.utf8EncodeChar c = [.ofNat c.toNat] ∧
      digitOf? (.ofNat c.toNat) = some (c.toNat - '0'.toNat) ∧ UInt8.ofNat c.toNat ≠ 0x2D := by
  simp only [Char.isDigit, Bool.and_eq_true, decide_eq_true_eq] at hc
  have hcases := digit_cases c.toNat (Nat.lt_succ_of_le hc.2) hc.1
  rwa [Char.ofNat_toNat] at hcases

theorem flatMap_digits {cs : List Char} (hcs : ∀ c ∈ cs, c.isDigit) :
    cs.flatMap String.utf8EncodeChar = digitBytes cs := by
  induction cs with
  | nil => rfl
  | cons c cs ih =>
    rw [List.flatMap_cons, (digit_bytes (hcs c List.mem_cons_self)).1,
      ih fun c hc => hcs c (List.mem_cons_of_mem _ hc)]
    rfl

theorem bytes_toString (n : Nat) : Text.bytes (toString n) = digitBytes (Nat.toDigits 10 n) := by
  rw [Text.bytes_eq_flatMap, Text.toList_toString, flatMap_digits (canonical_toDigits n).1]

/-- The minus of a negative number. -/
def minusBytes (negative : Bool) : List UInt8 := if negative then [0x2D] else []

theorem bytes_toString_int (i : Int) : Text.bytes (toString i) =
    minusBytes (decide (i < 0)) ++ digitBytes (Nat.toDigits 10 i.natAbs) := by
  cases i with
  | ofNat n =>
    have hsign : ¬ Int.ofNat n < 0 := Int.not_lt.2 (Int.natCast_nonneg n)
    rw [decide_eq_false hsign]
    exact bytes_toString n
  | negSucc n =>
    rw [decide_eq_true (Int.negSucc_lt_zero n)]
    refine (Text.bytes_append "-" _).trans ?_
    exact congrArg (0x2D :: ·) (bytes_toString (n + 1))

theorem takeDigits_digitBytes {cs : List Char} (hcs : ∀ c ∈ cs, c.isDigit) (hrest : Breaks rest) :
    takeDigits (digitBytes cs ++ rest) = (digitValues cs, rest) := by
  induction cs with
  | nil =>
    cases rest with
    | nil => rfl
    | cons b rest =>
      rw [digitBytes, List.map_nil, List.nil_append, takeDigits, hrest b rfl]
      rfl
  | cons c cs ih =>
    have hc := (digit_bytes (hcs c List.mem_cons_self)).2.1
    have htail := ih fun c hc => hcs c (List.mem_cons_of_mem _ hc)
    rw [digitBytes, List.map_cons, List.cons_append, takeDigits, hc]
    rw [digitBytes] at htail
    simp only [htail]
    rfl

theorem lexWhole_canonical {cs : List Char} (h : Canonical cs) (hrest : Breaks rest) :
    lexWhole (digitBytes cs ++ rest) = .ok (digitValues cs, rest) := by
  have htake := takeDigits_digitBytes h.1 hrest
  obtain ⟨hdigits, c, tail, rfl, hzero⟩ := h
  have hsome : someDigits (digitBytes (c :: tail) ++ rest) =
      .ok (digitValues (c :: tail), rest) := by
    rw [someDigits, htake]
    rfl
  refine bind_eq_ok hsome ?_
  split
  · rename_i heq
    obtain ⟨hvalues, -⟩ := Prod.mk.inj heq
    cases tail with
    | nil => exact absurd (congrArg List.length hvalues) (by simp [digitValues])
    | cons c' tail =>
      have hvalue : c.toNat - 48 = 0 := (List.cons.inj hvalues).1
      have hc := hdigits c List.mem_cons_self
      simp only [Char.isDigit, Bool.and_eq_true, decide_eq_true_eq] at hc
      have hlow : 48 ≤ c.toNat := hc.1
      have hnat : c.toNat = '0'.toNat := Nat.le_antisymm (Nat.le_of_sub_eq_zero hvalue) hlow
      cases hzero (Char.toNat_inj.1 hnat)
  · rfl

theorem lexFraction_closes (hrest : Closes rest) : lexFraction rest = .ok (none, rest) := by
  cases rest with
  | nil => rfl
  | cons b rest =>
    rw [lexFraction]
    intro _ heq
    exact (hrest b rfl).2.1 (List.head_eq_of_cons_eq heq)

theorem lexExponent_closes (hrest : Closes rest) : lexExponent rest = .ok (none, rest) := by
  cases rest with
  | nil => rfl
  | cons b rest =>
    obtain ⟨-, -, hlower, hupper⟩ := hrest b rfl
    rw [lexExponent, if_neg (by simp [hlower, hupper])]

/-- A number begins with a minus or a digit. -/
theorem exists_cons_parts {cs : List Char} (negative : Bool) (h : Canonical cs) (bs : List UInt8) :
    ∃ b tail, minusBytes negative ++ (digitBytes cs ++ bs) = b :: tail ∧
      (b = 0x2D ∨ (digitOf? b).isSome) := by
  cases negative with
  | true => exact ⟨0x2D, _, rfl, .inl rfl⟩
  | false =>
    obtain ⟨c, tail, rfl, -⟩ := h.2
    have hdigit := (digit_bytes (h.1 c List.mem_cons_self)).2.1
    refine ⟨.ofNat c.toNat, digitBytes tail ++ bs, rfl, .inr ?_⟩
    rw [hdigit]
    rfl

/-- A number is read part by part. -/
theorem lexNumber_parts {cs : List Char} {bs bs' : List UInt8} {fraction : Option (List Nat)}
    {exponent : Option (Bool × List Nat)} (negative : Bool) (h : Canonical cs) (hbs : Breaks bs)
    (hfraction : lexFraction bs = .ok (fraction, bs'))
    (hexponent : lexExponent bs' = .ok (exponent, rest)) :
    lexNumber (minusBytes negative ++ (digitBytes cs ++ bs)) =
      .ok (⟨negative, digitValues cs, fraction, exponent⟩, rest) := by
  unfold lexNumber
  split
  rename_i sign unsigned hsplit
  have hsign : sign = negative ∧ unsigned = digitBytes cs ++ bs := by
    cases negative with
    | true =>
      cases hsplit
      exact ⟨rfl, rfl⟩
    | false =>
      obtain ⟨c, tail, hcs, -⟩ := h.2
      have hne := (digit_bytes (h.1 c (hcs ▸ List.mem_cons_self))).2.2
      split at hsplit
      · rename_i hminus
        rw [hcs, digitBytes, List.map_cons] at hminus
        exact absurd (List.head_eq_of_cons_eq hminus) hne
      · cases hsplit
        exact ⟨rfl, rfl⟩
  obtain ⟨rfl, rfl⟩ := hsign
  exact bind_eq_ok (lexWhole_canonical h hbs) (bind_eq_ok hfraction (bind_eq_ok hexponent rfl))

theorem le_foldl (ds : List Nat) (n : Nat) : n ≤ ds.foldl (fun n d => n * 10 + d) n := by
  induction ds generalizing n with
  | nil => exact Nat.le_refl n
  | cons d ds ih => exact Nat.le_trans (by omega) (ih (n * 10 + d))

/-- Digits are gathered as long as what they come to fits. -/
theorem gather_eq {ds : List Nat} {n : Nat}
    (h : ds.foldl (fun n d => n * 10 + d) n ≤ Word.top) :
    gather n ds = (ds.foldl (fun n d => n * 10 + d) n, []) := by
  induction ds generalizing n with
  | nil => rfl
  | cons d ds ih =>
    have hle : n * 10 + d ≤ Word.top := Nat.le_trans (le_foldl ds _) h
    rw [gather, if_pos hle, ih h]
    rfl

/-- Whether an integer is read exactly. -/
def Exact (i : Int) : Prop := -(Word.half : Int) ≤ i ∧ i ≤ Word.top

theorem value_int {i : Int} (hi : Exact i) :
    Numeral.value ⟨decide (i < 0), digitValues (Nat.toDigits 10 i.natAbs), none, none⟩ =
      .ok (.int i) := by
  have hvalue := Text.foldl_digitValues_toDigits i.natAbs
  have hfits : i.natAbs ≤ Word.top := by
    simp only [Exact, Word.half, Word.top] at hi ⊢
    omega
  have hgather : gather 0 (digitValues (Nat.toDigits 10 i.natAbs)) = (i.natAbs, []) := by
    rw [gather_eq (by rw [hvalue]; exact hfits), hvalue]
  rw [Numeral.value, hgather]
  cases i with
  | ofNat n =>
    have hsign : ¬ Int.ofNat n < 0 := Int.not_lt.2 (Int.natCast_nonneg n)
    rw [decide_eq_false hsign]
    rfl
  | negSucc n =>
    have hint : ¬ (n + 1 = 0 ∨ Word.half < n + 1) := by
      have hlow := hi.1
      omega
    rw [decide_eq_true (Int.negSucc_lt_zero n)]
    simp only [Int.natAbs_negSucc, Nat.succ_eq_add_one, if_neg hint]
    rfl

/-- An integer within range reads back. -/
theorem parseNumber_toString {i : Int} (hi : Exact i) (hrest : Closes rest) :
    parseNumber (Text.bytes (toString i) ++ rest) = (.num (Node.usable (.int i)), some rest) := by
  have hnumber := lexNumber_parts (decide (i < 0)) (canonical_toDigits i.natAbs) hrest.breaks
    (lexFraction_closes hrest) (lexExponent_closes hrest)
  rw [bytes_toString_int, List.append_assoc, parseNumber, hnumber]
  simp only [value_int hi]
  rfl

end SignalHub.Json
