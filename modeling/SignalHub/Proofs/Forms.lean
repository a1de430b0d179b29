import SignalHub.Text.Percent
/-!
# Forms read back

What is written as a form reads as it was, whatever text it is: a name or value is spelled in UTF-8,
each byte is written as itself, as a plus sign or by two digits, and none of what is written is
taken for a separator.

Results:
* `Text.lossy_bytes`: text that is spelled in UTF-8 is read without a replacement.
* `Text.formDecode_formEncode`: an encoded name or value stands for the text that it was.
* `Text.formPairs_formText`: the names and values of a form that was written.
-/
namespace SignalHub.Text

/-! ## Text as bytes -/

theorem followers_two : ∀ n < 32, 2 ≤ n → followers (.ofNat (n + 192)) = some (1, 0x80, 0xBF) := by
  decide

theorem followers_three : ∀ n < 16, followers (.ofNat (n + 224)) =
    some (2, if n = 0 then 0xA0 else 0x80, if n = 13 then 0x9F else 0xBF) := by
  decide

theorem followers_four : ∀ n < 5, followers (.ofNat (n + 240)) =
    some (3, if n = 0 then 0x90 else 0x80, if n = 4 then 0x8F else 0xBF) := by
  decide

theorem not_lt_of_leading : ∀ n < 64, ¬ (UInt8.ofNat (n + 192) < 0x80) := by decide

theorem toNat_continuing {k : Nat} (hk : k < 64) : (UInt8.ofNat (k + 128)).toNat = k + 128 := by
  rw [UInt8.toNat_ofNat', Nat.mod_eq_of_lt]
  omega

theorem continuation_cons {lo hi : UInt8} {k : Nat} (hk : k < 64) (hlo : lo.toNat ≤ k + 128)
    (hhi : k + 128 ≤ hi.toNat) (n : Nat) (rest : List UInt8) :
    continuation (n + 1) lo hi (.ofNat (k + 128) :: rest) =
      .ofNat (k + 128) :: continuation n 0x80 0xBF rest := by
  rw [continuation, if_pos]
  rw [UInt8.le_iff_toNat_le, UInt8.le_iff_toNat_le, toNat_continuing hk]
  exact ⟨hlo, hhi⟩

/-- A byte that only continues a character. -/
theorem continuation_cons_plain {k : Nat} (hk : k < 64) (n : Nat) (rest : List UInt8) :
    continuation (n + 1) 0x80 0xBF (.ofNat (k + 128) :: rest) =
      .ofNat (k + 128) :: continuation n 0x80 0xBF rest := by
  refine continuation_cons hk ?_ ?_ n rest
  · show 128 ≤ k + 128
    omega
  · show k + 128 ≤ 191
    omega

theorem continuation_zero (lo hi : UInt8) (rest : List UInt8) : continuation 0 lo hi rest = [] := by
  cases rest <;> rfl

/-- A character of more than one byte, if nothing is missing. -/
theorem lossyChars_of_followers {b lo hi : UInt8} {n : Nat} (tail rest : List UInt8)
    (hb : ¬ b < 0x80) (hf : followers b = some (n, lo, hi))
    (htail : continuation n lo hi (tail ++ rest) = tail) (hn : tail.length = n) :
    lossyChars (b :: (tail ++ rest)) = assemble b tail :: lossyChars rest := by
  rw [lossyChars, if_neg hb]
  simp only [hf, htail, hn, if_true]
  rw [← hn, List.drop_left]

/-- The six bits that a continuing byte adds. -/
theorem add_six_bits (n : Nat) {k : Nat} (hk : k < 64) :
    n * 64 + (UInt8.ofNat (k + 128)).toNat % 64 = n * 64 + k := by
  rw [toNat_continuing hk]
  omega

theorem mask_two : ∀ n < 32, (UInt8.ofNat (n + 192)).toNat &&& 0x1F = n := by decide

theorem mask_three : ∀ n < 16, (UInt8.ofNat (n + 224)).toNat &&& 0x0F = n := by decide

theorem mask_four : ∀ n < 8, (UInt8.ofNat (n + 240)).toNat &&& 0x07 = n := by decide

theorem assemble_two {n k : Nat} (hn : n < 32) (hk : k < 64) :
    assemble (.ofNat (n + 192)) [.ofNat (k + 128)] = Char.ofNat (n * 64 + k) := by
  simp only [assemble, List.length_singleton, List.foldl_cons, List.foldl_nil, mask_two n hn,
    add_six_bits n hk]

theorem assemble_three {n j k : Nat} (hn : n < 16) (hj : j < 64) (hk : k < 64) :
    assemble (.ofNat (n + 224)) [.ofNat (j + 128), .ofNat (k + 128)] =
      Char.ofNat ((n * 64 + j) * 64 + k) := by
  simp only [assemble, List.length_cons, List.length_nil, List.foldl_cons, List.foldl_nil,
    mask_three n hn, add_six_bits _ hj, add_six_bits _ hk]

theorem assemble_four {n i j k : Nat} (hn : n < 8) (hi : i < 64) (hj : j < 64) (hk : k < 64) :
    assemble (.ofNat (n + 240)) [.ofNat (i + 128), .ofNat (j + 128), .ofNat (k + 128)] =
      Char.ofNat (((n * 64 + i) * 64 + j) * 64 + k) := by
  simp only [assemble, List.length_cons, List.length_nil, List.foldl_cons, List.foldl_nil,
    mask_four n hn, add_six_bits _ hi, add_six_bits _ hj, add_six_bits _ hk]

theorem lossyChars_one {v : Nat} (hv : v ≤ 127) (rest : List UInt8) :
    lossyChars (.ofNat v :: rest) = Char.ofNat v :: lossyChars rest := by
  have hbyte : (UInt8.ofNat v).toNat = v := by
    rw [UInt8.toNat_ofNat', Nat.mod_eq_of_lt]
    omega
  have hlt : UInt8.ofNat v < 0x80 := by
    rw [UInt8.lt_iff_toNat_lt, hbyte]
    exact Nat.lt_succ_of_le hv
  rw [lossyChars, if_pos hlt, hbyte]

theorem lossyChars_two {v : Nat} (hlo : 127 < v) (hhi : v ≤ 2047) (rest : List UInt8) :
    lossyChars ([.ofNat (v / 64 % 32 + 192), .ofNat (v % 64 + 128)] ++ rest) =
      Char.ofNat v :: lossyChars rest := by
  have hn : v / 64 % 32 < 32 := Nat.mod_lt _ (by decide)
  have hk : v % 64 < 64 := Nat.mod_lt _ (by decide)
  have hvalue : v / 64 % 32 * 64 + v % 64 = v := by omega
  have hread := lossyChars_of_followers [.ofNat (v % 64 + 128)] rest
    (not_lt_of_leading _ (by omega)) (followers_two _ hn (by omega))
    ((continuation_cons_plain hk 0 rest).trans (by rw [continuation_zero])) rfl
  rwa [assemble_two hn hk, hvalue] at hread

/-- The second of three bytes is in the bounds that the first one sets. -/
theorem bounds_three {n j v : Nat} (hv : v < 0xD800 ∨ 0xDFFF < v) (hlo : 2047 < v)
    (hn : v / 4096 = n) (hj : v / 64 % 64 = j) :
    (if n = 0 then 0xA0 else 0x80 : UInt8).toNat ≤ j + 128 ∧
      j + 128 ≤ (if n = 13 then 0x9F else 0xBF : UInt8).toNat := by
  constructor
  · split
    · show 160 ≤ j + 128
      omega
    · show 128 ≤ j + 128
      omega
  · split
    · show j + 128 ≤ 159
      omega
    · show j + 128 ≤ 191
      omega

theorem lossyChars_three {v : Nat} (hv : v < 0xD800 ∨ 0xDFFF < v) (hlo : 2047 < v)
    (hhi : v ≤ 65535) (rest : List UInt8) :
    lossyChars ([.ofNat (v / 4096 % 16 + 224), .ofNat (v / 64 % 64 + 128),
      .ofNat (v % 64 + 128)] ++ rest) = Char.ofNat v :: lossyChars rest := by
  have hn : v / 4096 % 16 < 16 := Nat.mod_lt _ (by decide)
  have hj : v / 64 % 64 < 64 := Nat.mod_lt _ (by decide)
  have hk : v % 64 < 64 := Nat.mod_lt _ (by decide)
  have hvalue : (v / 4096 % 16 * 64 + v / 64 % 64) * 64 + v % 64 = v := by omega
  obtain ⟨hmin, hmax⟩ := bounds_three (n := v / 4096 % 16) hv hlo (by omega) rfl
  have hlead := not_lt_of_leading (v / 4096 % 16 + 32) (by omega)
  rw [Nat.add_assoc] at hlead
  have hread := lossyChars_of_followers [.ofNat (v / 64 % 64 + 128), .ofNat (v % 64 + 128)] rest
    hlead (followers_three _ hn) ((continuation_cons hj hmin hmax 1
      (.ofNat (v % 64 + 128) :: rest)).trans (by
        rw [continuation_cons_plain hk, continuation_zero])) rfl
  rwa [assemble_three hn hj hk, hvalue] at hread

/-- The second of four bytes is in the bounds that the first one sets. -/
theorem bounds_four {n i v : Nat} (hlo : 65535 < v) (hhi : v < 0x110000)
    (hn : v / 262144 = n) (hi : v / 4096 % 64 = i) :
    (if n = 0 then 0x90 else 0x80 : UInt8).toNat ≤ i + 128 ∧
      i + 128 ≤ (if n = 4 then 0x8F else 0xBF : UInt8).toNat := by
  constructor
  · split
    · show 144 ≤ i + 128
      omega
    · show 128 ≤ i + 128
      omega
  · split
    · show i + 128 ≤ 143
      omega
    · show i + 128 ≤ 191
      omega

theorem lossyChars_four {v : Nat} (hlo : 65535 < v) (hhi : v < 0x110000) (rest : List UInt8) :
    lossyChars ([.ofNat (v / 262144 % 8 + 240), .ofNat (v / 4096 % 64 + 128),
      .ofNat (v / 64 % 64 + 128), .ofNat (v % 64 + 128)] ++ rest) =
        Char.ofNat v :: lossyChars rest := by
  have hn : v / 262144 % 8 < 5 := by omega
  have hi : v / 4096 % 64 < 64 := Nat.mod_lt _ (by decide)
  have hj : v / 64 % 64 < 64 := Nat.mod_lt _ (by decide)
  have hk : v % 64 < 64 := Nat.mod_lt _ (by decide)
  have hvalue : ((v / 262144 % 8 * 64 + v / 4096 % 64) * 64 + v / 64 % 64) * 64 + v % 64 = v := by
    omega
  obtain ⟨hmin, hmax⟩ := bounds_four (n := v / 262144 % 8) hlo hhi (by omega) rfl
  have hlead := not_lt_of_leading (v / 262144 % 8 + 48) (by omega)
  rw [Nat.add_assoc] at hlead
  have hread := lossyChars_of_followers
    [.ofNat (v / 4096 % 64 + 128), .ofNat (v / 64 % 64 + 128), .ofNat (v % 64 + 128)]
    rest hlead (followers_four _ hn) ((continuation_cons hi hmin hmax 2
      (.ofNat (v / 64 % 64 + 128) :: .ofNat (v % 64 + 128) :: rest)).trans (by
        rw [continuation_cons_plain hj, continuation_cons_plain hk, continuation_zero])) rfl
  rwa [assemble_four (by omega) hi hj hk, hvalue] at hread

/-- The bytes of a character are read as that character. -/
theorem lossyChars_utf8EncodeChar (c : Char) (rest : List UInt8) :
    lossyChars (String.utf8EncodeChar c ++ rest) = c :: lossyChars rest := by
  have hvalid : c.val.toNat < 0xD800 ∨ 0xDFFF < c.val.toNat ∧ c.val.toNat < 0x110000 := c.valid
  have hc : Char.ofNat c.val.toNat = c := Char.ofNat_toNat c
  simp only [String.utf8EncodeChar]
  generalize c.val.toNat = v at hvalid hc
  rw [← hc]
  split
  · exact lossyChars_one ‹_› rest
  split
  · exact lossyChars_two (by omega) ‹_› rest
  split
  · exact lossyChars_three (by omega) (by omega) ‹_› rest
  · exact lossyChars_four (by omega) (by omega) rest

theorem lossyChars_flatMap (cs : List Char) :
    lossyChars (cs.flatMap String.utf8EncodeChar) = cs := by
  induction cs with
  | nil => rw [List.flatMap_nil, lossyChars]
  | cons c cs ih => rw [List.flatMap_cons, lossyChars_utf8EncodeChar, ih]

theorem bytes_eq_flatMap (s : String) : bytes s = s.toList.flatMap String.utf8EncodeChar := by
  have hencode : s.toByteArray = s.toList.utf8Encode := by
    rw [← String.toByteArray_ofList, String.ofList_toList]
  rw [bytes, hencode, List.utf8Encode]
  simp

/-- What is spelled in UTF-8 is read without a replacement. -/
theorem lossy_bytes (s : String) : lossy (bytes s) = s := by
  rw [lossy, bytes_eq_flatMap, lossyChars_flatMap, String.ofList_toList]

/-! ## Bytes as they are written -/

theorem ofNat_toNat_lt (b : UInt8) : ∃ n < 256, b = .ofNat n :=
  ⟨b.toNat, b.toNat_lt, UInt8.ofNat_toNat.symm⟩

theorem hexValue?_upperHex : ∀ n < 16, hexValue? (upperHex (.ofNat n)) = some (.ofNat n) := by
  decide

theorem hexValue?_upperHex_of_lt {b : UInt8} (hb : b.toNat < 16) :
    hexValue? (upperHex b) = some b := by
  have h := hexValue?_upperHex b.toNat hb
  rwa [UInt8.ofNat_toNat] at h

/-- The bytes with a meaning in a form, and the one that ends a query string. -/
def formMarks : List UInt8 := [0x23, 0x26, 0x3D]

theorem formByte_unmarked (b : UInt8) : ∀ a ∈ formByte b, a ∉ formMarks := by
  have hall : ∀ n < 256, (formByte (.ofNat n)).all fun a => a ∉ formMarks := by decide +kernel
  obtain ⟨n, hn, rfl⟩ := ofNat_toNat_lt b
  exact fun a ha => of_decide_eq_true (List.all_eq_true.1 (hall n hn) a ha)

theorem formEncode_unmarked (s : String) : ∀ a ∈ formEncode s, a ∉ formMarks := by
  intro a ha
  obtain ⟨b, -, hb⟩ := List.mem_flatMap.1 ha
  exact formByte_unmarked b a hb

theorem plusToBlank_append (bs cs : List UInt8) :
    plusToBlank (bs ++ cs) = plusToBlank bs ++ plusToBlank cs := List.map_append

theorem percentDecode_cons_of_ne {b : UInt8} (hb : b ≠ 0x25) (rest : List UInt8) :
    percentDecode (b :: rest) = b :: percentDecode rest := by
  rw [percentDecode]
  rintro x y more rfl
  exact absurd rfl hb

/-- Bytes without a percent sign stand for themselves. -/
theorem percentDecode_of_plain {bs : List UInt8} (hbs : (0x25 : UInt8) ∉ bs) :
    percentDecode bs = bs := by
  induction bs with
  | nil => rfl
  | cons b bs ih =>
    rw [List.mem_cons, not_or] at hbs
    rw [percentDecode_cons_of_ne (Ne.symm hbs.1), ih hbs.2]

/-- A byte that is written as itself is neither a percent nor a plus sign. -/
theorem safe_plain (b : UInt8) (hb : isFormSafe b) : b ≠ 0x25 ∧ b ≠ 0x2B := by
  constructor
  · rintro rfl
    exact absurd hb (by decide)
  · rintro rfl
    exact absurd hb (by decide)

/-- Two digits stand for the byte. -/
theorem percentDecode_digits (b : UInt8) (rest : List UInt8) :
    percentDecode (0x25 :: upperHex (b / 16) :: upperHex (b % 16) :: rest) =
      b :: percentDecode rest := by
  have hhigh : (b / 16).toNat < 16 := by
    have := b.toNat_lt
    rw [UInt8.toNat_div]
    show b.toNat / 16 < 16
    omega
  have hlow : (b % 16).toNat < 16 := by
    rw [UInt8.toNat_mod]
    exact Nat.mod_lt _ (by decide)
  have hsum : b / 16 * 16 + b % 16 = b := by
    have hall : ∀ n < 256, UInt8.ofNat n / 16 * 16 + UInt8.ofNat n % 16 = .ofNat n := by
      decide +kernel
    obtain ⟨n, hn, rfl⟩ := ofNat_toNat_lt b
    exact hall n hn
  rw [percentDecode]
  simp only [hexValue?_upperHex_of_lt hhigh, hexValue?_upperHex_of_lt hlow, hsum]

/-- A byte that was written reads as it was. -/
theorem percentDecode_formByte (b : UInt8) (rest : List UInt8) :
    percentDecode (plusToBlank (formByte b) ++ rest) = b :: percentDecode rest := by
  rw [formByte]
  split
  · rename_i hblank
    subst hblank
    exact percentDecode_cons_of_ne (by decide) rest
  split
  · rename_i hsafe
    obtain ⟨hpercent, hplus⟩ := safe_plain b hsafe
    rw [plusToBlank, List.map_singleton, if_neg hplus]
    exact percentDecode_cons_of_ne hpercent rest
  · have hdigits : ∀ n < 256,
        plusToBlank [0x25, upperHex (.ofNat n / 16), upperHex (.ofNat n % 16)] =
          [0x25, upperHex (.ofNat n / 16), upperHex (.ofNat n % 16)] := by decide +kernel
    obtain ⟨n, hn, rfl⟩ := ofNat_toNat_lt b
    rw [hdigits n hn]
    exact percentDecode_digits _ rest

theorem percentDecode_flatMap (bs rest : List UInt8) :
    percentDecode (plusToBlank (bs.flatMap formByte) ++ rest) = bs ++ percentDecode rest := by
  induction bs with
  | nil => rfl
  | cons b bs ih =>
    rw [List.flatMap_cons, plusToBlank_append, List.append_assoc, percentDecode_formByte, ih,
      List.cons_append]

/-- What was encoded stands for the text that it was. -/
theorem formDecode_formEncode (s : String) : formDecode (formEncode s) = s := by
  have hbytes := percentDecode_flatMap (bytes s) []
  rw [List.append_nil, percentDecode, List.append_nil] at hbytes
  rw [formDecode, formEncode, hbytes, lossy_bytes]

/-! ## Separators -/

theorem splitFirst_append {sep : UInt8} {head : List UInt8} (hsep : sep ∉ head)
    (tail : List UInt8) : splitFirst sep (head ++ sep :: tail) = (head, some tail) := by
  induction head with
  | nil => rw [List.nil_append, splitFirst, if_pos rfl]
  | cons b head ih =>
    rw [List.mem_cons, not_or] at hsep
    rw [List.cons_append, splitFirst, if_neg (Ne.symm hsep.1), ih hsep.2]

theorem splitAt_of_not_mem {sep : UInt8} {part : List UInt8} (hsep : sep ∉ part) :
    splitAt sep part = [part] := by
  induction part with
  | nil => rfl
  | cons b part ih =>
    rw [List.mem_cons, not_or] at hsep
    rw [splitAt, if_neg (Ne.symm hsep.1), ih hsep.2]

theorem splitAt_append {sep : UInt8} {part : List UInt8} (hsep : sep ∉ part)
    (more : List UInt8) : splitAt sep (part ++ sep :: more) = part :: splitAt sep more := by
  induction part with
  | nil => rw [List.nil_append, splitAt, if_pos rfl]
  | cons b part ih =>
    rw [List.mem_cons, not_or] at hsep
    rw [List.cons_append, splitAt, if_neg (Ne.symm hsep.1), ih hsep.2]

/-! ## Forms -/

theorem equals_not_mem_formEncode (s : String) : (0x3D : UInt8) ∉ formEncode s := fun h =>
  formEncode_unmarked s _ h (by decide)

theorem not_mem_formPiece {mark : UInt8} (hmark : mark ∈ formMarks) (hne : mark ≠ 0x3D)
    (p : String × String) : mark ∉ formPiece p := by
  intro h
  rw [formPiece, List.mem_append, List.mem_cons] at h
  rcases h with h | h | h
  · exact formEncode_unmarked _ _ h hmark
  · exact hne h
  · exact formEncode_unmarked _ _ h hmark

theorem ampersand_not_mem_formPiece (p : String × String) : (0x26 : UInt8) ∉ formPiece p :=
  not_mem_formPiece (by decide) (by decide) p

theorem formPair_formPiece (p : String × String) : formPair (formPiece p) = p := by
  rw [formPair, formPiece, splitFirst_append (equals_not_mem_formEncode p.1)]
  simp only [Option.getD_some, formDecode_formEncode]

theorem isEmpty_formPiece (p : String × String) : (formPiece p).isEmpty = false := by
  simp [formPiece]

theorem formText_singleton (p : String × String) : formText [p] = formPiece p := by simp [formText]

theorem formText_cons_cons (p q : String × String) (pairs : List (String × String)) :
    formText (p :: q :: pairs) = formPiece p ++ 0x26 :: formText (q :: pairs) := by
  simp [formText]

/-- The names and values of a form that was written are those that were meant. -/
theorem formPairs_formText (pairs : List (String × String)) :
    formPairs (formText pairs) = pairs := by
  induction pairs with
  | nil => rfl
  | cons p pairs ih =>
    cases pairs with
    | nil =>
      rw [formText_singleton, formPairs, splitAt_of_not_mem (ampersand_not_mem_formPiece p)]
      simp [isEmpty_formPiece, formPair_formPiece]
    | cons q pairs =>
      rw [formPairs] at ih
      rw [formText_cons_cons, formPairs, splitAt_append (ampersand_not_mem_formPiece p),
        List.filter_cons_of_pos (by simp [isEmpty_formPiece]), List.map_cons, formPair_formPiece,
        ih]

/-- A form has no mark in it that would end a query string. -/
theorem hash_not_mem_formText (pairs : List (String × String)) :
    (0x23 : UInt8) ∉ formText pairs := by
  induction pairs with
  | nil => exact List.not_mem_nil
  | cons p pairs ih =>
    have hpiece : (0x23 : UInt8) ∉ formPiece p := not_mem_formPiece (by decide) (by decide) p
    cases pairs with
    | nil =>
      rw [formText_singleton]
      exact hpiece
    | cons q pairs =>
      rw [formText_cons_cons, List.mem_append, List.mem_cons]
      rintro (h | h | h)
      · exact hpiece h
      · exact absurd h (by decide)
      · exact ih h

end SignalHub.Text
