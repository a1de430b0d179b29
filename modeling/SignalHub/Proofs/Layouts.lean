import SignalHub.Proofs.Lexemes
import SignalHub.Proofs.Rereading
/-!
# Doubles as text read back

A double is written in one of four layouts: as a whole number with a point and a zero, with a point
among its digits, with zeros in front of them, or with an exponent. Read, each gives its digits as
one significand, and the exponent of the last of them; these are the significand and the exponent of
the double as it is written, whatever the layout.

Results:
* `Layout`: the digits around a point, and an exponent.
* `layout`, `bytes_floatText`: the layout in which a double is written.
* `lexNumber_layout`, `value_layout`: what a number in a layout is read as.
* `parseNumber_floatText`: the text of a double is read as what it is scaled to.
-/
namespace SignalHub.Json

open Text (digitValues Canonical canonical_toDigits)

variable {rest : List UInt8}

/-! ## Layouts -/

/-- The digits in front of the point, those behind it, and the exponent. Without digits behind it
there is no point. -/
structure Layout where
  whole : List Char
  fraction : List Char
  exponent : Option Int

/-- A point and digits, if there are any. -/
def pointBytes : List Char → List UInt8
  | [] => []
  | c :: cs => 0x2E :: digitBytes (c :: cs)

/-- An exponent, if there is one. -/
def exponentBytes : Option Int → List UInt8
  | none => []
  | some e => 0x65 :: Text.bytes (toString e)

namespace Layout

/-- A number as text, without its sign. -/
def bytes (l : Layout) : List UInt8 :=
  digitBytes l.whole ++ (pointBytes l.fraction ++ exponentBytes l.exponent)

/-- The parts as which a number is read. -/
def numeral (negative : Bool) (l : Layout) : Numeral where
  negative := negative
  whole := digitValues l.whole
  fraction := if l.fraction = [] then none else some (digitValues l.fraction)
  exponent := l.exponent.map fun e => (decide (e < 0), digitValues (Nat.toDigits 10 e.natAbs))

/-- All digits as one significand. -/
def significand (l : Layout) : Nat :=
  (digitValues (l.whole ++ l.fraction)).foldl (fun n d => n * 10 + d) 0

/-- The exponent of the last digit. -/
def scale (l : Layout) : Int := l.exponent.getD 0 - l.fraction.length

/-- A layout of a number that is not read as an integer, with an exponent within range. -/
structure Shaped (l : Layout) : Prop where
  whole : Canonical l.whole
  fraction : ∀ c ∈ l.fraction, c.isDigit
  noInteger : l.fraction = [] → l.exponent.isSome
  small : ∀ e ∈ l.exponent, e.natAbs ≤ 1000
  short : l.fraction.length ≤ 1000

/-- One of a number whose digits fit into a significand. -/
structure Valid (l : Layout) : Prop extends Shaped l where
  fits : l.significand ≤ Word.top

end Layout

variable {l : Layout}

/-! ## Read -/

theorem breaks_exponentBytes (e : Option Int) (hrest : Closes rest) :
    Breaks (exponentBytes e ++ rest) := by
  cases e with
  | none => exact hrest.breaks
  | some e =>
    rintro _ ⟨⟩
    decide

theorem breaks_pointBytes (cs : List Char) (e : Option Int) (hrest : Closes rest) :
    Breaks (pointBytes cs ++ (exponentBytes e ++ rest)) := by
  cases cs with
  | nil => exact breaks_exponentBytes e hrest
  | cons c cs =>
    rintro _ ⟨⟩
    decide

theorem someDigits_digitBytes {cs : List Char} (hcs : ∀ c ∈ cs, c.isDigit) (hne : cs ≠ [])
    (hrest : Breaks rest) : someDigits (digitBytes cs ++ rest) = .ok (digitValues cs, rest) := by
  rw [someDigits, takeDigits_digitBytes hcs hrest]
  cases cs with
  | nil => exact absurd rfl hne
  | cons c cs => rfl

theorem lexFraction_pointBytes {cs : List Char} (hcs : ∀ c ∈ cs, c.isDigit) (e : Option Int)
    (hrest : Closes rest) : lexFraction (pointBytes cs ++ (exponentBytes e ++ rest)) =
      .ok (if cs = [] then none else some (digitValues cs), exponentBytes e ++ rest) := by
  cases cs with
  | nil =>
    cases e with
    | none => exact lexFraction_closes hrest
    | some e => rfl
  | cons c cs =>
    rw [if_neg (List.cons_ne_nil c cs)]
    exact bind_eq_ok
      (someDigits_digitBytes hcs (List.cons_ne_nil c cs) (breaks_exponentBytes e hrest)) rfl

theorem lexSign_digit {b : UInt8} (hb : (digitOf? b).isSome) (bs : List UInt8) :
    lexSign (b :: bs) = (false, b :: bs) := by
  unfold lexSign
  split
  · rename_i hplus
    rw [List.head_eq_of_cons_eq hplus] at hb
    cases hb
  · rename_i hminus
    rw [List.head_eq_of_cons_eq hminus] at hb
    cases hb
  · rfl

theorem lexSign_toString (e : Int) (rest : List UInt8) :
    lexSign (Text.bytes (toString e) ++ rest) =
      (decide (e < 0), digitBytes (Nat.toDigits 10 e.natAbs) ++ rest) := by
  obtain ⟨c, cs, hcs, hc⟩ := Text.exists_cons_toDigits e.natAbs
  have hdigit : (digitOf? (.ofNat c.toNat)).isSome := by
    rw [(digit_bytes hc).2.1]
    rfl
  rw [bytes_toString_int]
  cases decide (e < 0) with
  | true => rfl
  | false =>
    rw [hcs]
    exact lexSign_digit hdigit _

theorem lexExponent_exponentBytes (e : Option Int) (hrest : Closes rest) :
    lexExponent (exponentBytes e ++ rest) =
      .ok (e.map fun e => (decide (e < 0), digitValues (Nat.toDigits 10 e.natAbs)), rest) := by
  cases e with
  | none => exact lexExponent_closes hrest
  | some e =>
    have hdigits := someDigits_digitBytes (canonical_toDigits e.natAbs).1 Nat.toDigits_ne_nil
      hrest.breaks
    show lexExponent (0x65 :: (Text.bytes (toString e) ++ rest)) = _
    rw [lexExponent, if_pos (.inl rfl), lexSign_toString]
    exact bind_eq_ok hdigits rfl

/-- A number in a layout is read as its parts. -/
theorem lexNumber_layout (h : l.Valid) (negative : Bool) (hrest : Closes rest) :
    lexNumber (minusBytes negative ++ (l.bytes ++ rest)) = .ok (l.numeral negative, rest) := by
  rw [Layout.bytes, List.append_assoc, List.append_assoc]
  exact lexNumber_parts negative h.whole (breaks_pointBytes l.fraction l.exponent hrest)
    (lexFraction_pointBytes h.fraction l.exponent hrest)
    (lexExponent_exponentBytes l.exponent hrest)

theorem clampExponent_eq {e : Int} (h : e.natAbs ≤ 2000) : clampExponent e = e := by
  unfold clampExponent exponentBound
  simp only [Word.half32]
  omega

/-- The exponent that is written is added to the one that the digits give. -/
theorem magnitude_layout (n : Nat) {x : Int} (hx : x.natAbs ≤ 1000) {e : Option Int}
    (he : ∀ i ∈ e, i.natAbs ≤ 1000) :
    magnitude n x (e.map fun e => (decide (e < 0), digitValues (Nat.toDigits 10 e.natAbs))) =
      scale n (e.getD 0 + x) := by
  cases e with
  | none =>
    show scale n x = scale n (0 + x)
    rw [Int.zero_add]
  | some e =>
    have hsmall : e.natAbs ≤ 1000 := he e rfl
    have hvalue := Text.foldl_digitValues_toDigits e.natAbs
    have hbound : e.natAbs ≤ exponentBound := by
      unfold exponentBound
      simp only [Word.half32]
      omega
    have hsum : (if decide (e < 0) = true then x - e.natAbs else x + e.natAbs) = e + x := by
      by_cases hneg : e < 0
      · rw [if_pos (decide_eq_true hneg)]
        omega
      · rw [if_neg (by simpa using hneg)]
        omega
    simp only [Option.map_some, Option.getD_some, magnitude, hvalue, if_pos hbound, hsum]
    rw [clampExponent_eq (by omega)]

theorem foldl_append (cs cs' : List Char) (a : Nat) :
    (digitValues (cs ++ cs')).foldl (fun n d => n * 10 + d) a =
      (digitValues cs').foldl (fun n d => n * 10 + d)
        ((digitValues cs).foldl (fun n d => n * 10 + d) a) := by
  rw [digitValues, List.map_append, List.foldl_append]
  rfl

/-- A number in a layout stands for its digits, scaled. -/
theorem value_layout (h : l.Valid) (negative : Bool) : (l.numeral negative).value =
    (scale l.significand l.scale).map fun f => .float (Decimal.signed negative f) := by
  have hfits := h.fits
  rw [Layout.significand, foldl_append] at hfits
  have hwhole : gather 0 (digitValues l.whole) =
      ((digitValues l.whole).foldl (fun n d => n * 10 + d) 0, []) :=
    gather_eq ((le_foldl _ _).trans hfits)
  have hfraction : gather ((digitValues l.whole).foldl (fun n d => n * 10 + d) 0)
      (digitValues l.fraction) = (l.significand, []) := by
    rw [gather_eq hfits, Layout.significand, foldl_append]
  unfold Numeral.value
  simp only [Layout.numeral, hwhole]
  by_cases hnone : l.fraction = []
  · obtain ⟨e, he⟩ := Option.isSome_iff_exists.1 (h.noInteger hnone)
    have hmagnitude := magnitude_layout l.significand (x := 0) (by simp) h.small
    have hscale : l.scale = (some e).getD 0 + 0 := by
      rw [Layout.scale, he, hnone]
      rfl
    have hdigits : l.significand = (digitValues l.whole).foldl (fun n d => n * 10 + d) 0 := by
      rw [Layout.significand, hnone, List.append_nil]
    rw [he, Option.map_some] at hmagnitude
    rw [if_pos hnone, he, Option.map_some, ← hdigits, hscale, ← hmagnitude]
    rfl
  · have hshort := h.short
    have hmagnitude := magnitude_layout l.significand (x := -(l.fraction.length : Int)) (by omega)
      h.small
    have hplaces : (([] : List Nat).length : Int) -
        ((digitValues l.fraction).length - ([] : List Nat).length : Nat) =
          -(l.fraction.length : Int) := by
      simp [digitValues]
    simp only [if_neg hnone, hfraction]
    rw [hplaces, hmagnitude, Layout.scale, Int.sub_eq_add_neg]
    rfl

/-! ## Written -/

/-- The layout in which a decimal is written. -/
def layout (d : Decimal.Scaled) : Layout :=
  let digits := Nat.toDigits 10 d.digits
  let places : Int := digits.length + d.exponent
  if 0 ≤ d.exponent ∧ places ≤ 16 then
    ⟨digits ++ List.replicate d.exponent.toNat '0', ['0'], none⟩
  else if -5 < places ∧ places ≤ 16 then
    if places ≤ 0 then ⟨['0'], List.replicate (-places).toNat '0' ++ digits, none⟩
    else ⟨digits.take places.toNat, digits.drop places.toNat, none⟩
  else ⟨digits.take 1, digits.drop 1, some (places - 1)⟩

theorem foldl_replicate (n a : Nat) :
    (digitValues (List.replicate n '0')).foldl (fun n d => n * 10 + d) a = a * 10 ^ n := by
  induction n generalizing a with
  | zero => exact (Nat.mul_one a).symm
  | succ n ih =>
    rw [List.replicate_succ, digitValues, List.map_cons, List.foldl_cons]
    refine (ih _).trans ?_
    rw [Nat.pow_succ]
    simp [Nat.mul_assoc, Nat.mul_comm]

variable {d : Decimal.Scaled}

/-- Whatever the layout, the digits and the place of the last one are the same. -/
theorem significand_layout (d : Decimal.Scaled) : (layout d).significand = d.inDigits.1 := by
  have hvalue := Text.foldl_digitValues_toDigits d.digits
  rw [Layout.significand, layout, Decimal.Scaled.inDigits]
  split
  · rw [foldl_append, foldl_append, hvalue, foldl_replicate, Nat.pow_succ, ← Nat.mul_assoc]
    rfl
  · split
    · split
      · rw [foldl_append, foldl_append, foldl_replicate]
        exact (Nat.zero_mul _).symm ▸ hvalue
      · rw [List.take_append_drop]
        exact hvalue
    · rw [List.take_append_drop]
      exact hvalue

theorem scale_layout (d : Decimal.Scaled) : (layout d).scale = d.inDigits.2 := by
  have hlength := Nat.length_toDigits_pos (b := 10) (n := d.digits)
  rw [Layout.scale, layout, Decimal.Scaled.inDigits]
  split
  · rfl
  · split
    · split
      · rw [List.length_append, List.length_replicate, Option.getD_none]
        omega
      · rw [List.length_drop, Option.getD_none]
        omega
    · rw [List.length_drop, Option.getD_some]
      omega

theorem isDigit_toDigits (n : Nat) : ∀ c ∈ Nat.toDigits 10 n, c.isDigit := (canonical_toDigits n).1

theorem isDigit_replicate (n : Nat) : ∀ c ∈ List.replicate n '0', c.isDigit := by
  intro c hc
  rw [List.eq_of_mem_replicate hc]
  rfl

theorem bytes_ofList {cs : List Char} (hcs : ∀ c ∈ cs, c.isDigit) :
    Text.bytes (String.ofList cs) = digitBytes cs := by
  rw [Text.bytes_eq_flatMap, String.toList_ofList, flatMap_digits hcs]

theorem bytes_zeros (n : Nat) : Text.bytes (Decimal.zeros n) = digitBytes (List.replicate n '0') :=
  bytes_ofList (isDigit_replicate n)

theorem digitBytes_append (cs cs' : List Char) :
    digitBytes (cs ++ cs') = digitBytes cs ++ digitBytes cs' := List.map_append

theorem pointBytes_of_ne {cs : List Char} (h : cs ≠ []) :
    pointBytes cs = 0x2E :: digitBytes cs := by
  cases cs with
  | nil => exact absurd rfl h
  | cons c cs => rfl

theorem bytes_pointed {cs : List Char} (hcs : ∀ c ∈ cs, c.isDigit) (hne : cs ≠ []) {places : Int}
    (hlt : places < cs.length) : Text.bytes (Decimal.pointed cs places) =
      if places ≤ 0 then 0x30 :: pointBytes (List.replicate (-places).toNat '0' ++ cs)
      else digitBytes (cs.take places.toNat) ++ pointBytes (cs.drop places.toNat) := by
  have hpoint : Text.bytes "." = [0x2E] := by decide
  have hzero : Text.bytes "0." = [0x30, 0x2E] := by decide
  have htake : ∀ c ∈ cs.take places.toNat, c.isDigit := fun c hc => hcs c (List.mem_of_mem_take hc)
  have hdrop : ∀ c ∈ cs.drop places.toNat, c.isDigit := fun c hc => hcs c (List.mem_of_mem_drop hc)
  unfold Decimal.pointed
  split
  · rw [Text.bytes_append, Text.bytes_append, hzero, bytes_zeros, bytes_ofList hcs,
      pointBytes_of_ne (List.append_ne_nil_of_right_ne_nil _ hne), digitBytes_append]
    rfl
  · have hsome : cs.drop places.toNat ≠ [] := by
      rw [Ne, List.drop_eq_nil_iff]
      omega
    rw [Text.bytes_append, Text.bytes_append, hpoint, bytes_ofList htake, bytes_ofList hdrop,
      pointBytes_of_ne hsome, List.append_assoc]
    rfl

/-- The first digit, and a point before the others. -/
theorem bytes_leading {cs : List Char} (hcs : ∀ c ∈ cs, c.isDigit) (hne : cs ≠ []) :
    Text.bytes (if cs.length = 1 then String.ofList cs else Decimal.pointed cs 1) =
      digitBytes (cs.take 1) ++ pointBytes (cs.drop 1) := by
  have hlength := List.length_pos_iff.2 hne
  split
  · rename_i hone
    rw [bytes_ofList hcs, List.take_of_length_le hone.le, List.drop_of_length_le hone.le]
    exact (List.append_nil _).symm
  · exact bytes_pointed hcs hne (by omega)

/-- A decimal as text, in its layout. -/
def decimalText (d : Decimal.Scaled) : String :=
  let digits := Nat.toDigits 10 d.digits
  let places : Int := digits.length + d.exponent
  if d.digits = 0 then "0.0"
  else if 0 ≤ d.exponent ∧ places ≤ 16 then
    String.ofList digits ++ Decimal.zeros d.exponent.toNat ++ ".0"
  else if -5 < places ∧ places ≤ 16 then Decimal.pointed digits places
  else (if digits.length = 1 then String.ofList digits else Decimal.pointed digits 1) ++ "e" ++
    toString (places - 1)

theorem bytes_decimalText (hzero : d.digits = 0 → d.exponent = 0) :
    Text.bytes (decimalText d) = (layout d).bytes := by
  have hdigits := isDigit_toDigits d.digits
  have hlength := Nat.length_toDigits_pos (b := 10) (n := d.digits)
  unfold decimalText
  simp only
  split
  · rename_i hnone
    obtain ⟨n, e⟩ := d
    obtain rfl : n = 0 := hnone
    obtain rfl : e = 0 := hzero rfl
    decide
  · rw [Layout.bytes, layout]
    split
    · have hpoint : Text.bytes ".0" = [0x2E, 0x30] := by decide
      rw [Text.bytes_append, Text.bytes_append, bytes_ofList hdigits, bytes_zeros, hpoint,
        digitBytes_append]
      rfl
    · split
      · rw [bytes_pointed hdigits Nat.toDigits_ne_nil (by omega)]
        split
        · rw [exponentBytes, List.append_nil]
          rfl
        · rw [exponentBytes, List.append_nil]
      · have hletter : Text.bytes "e" = [0x65] := by decide
        rw [Text.bytes_append, Text.bytes_append, bytes_leading hdigits Nat.toDigits_ne_nil,
          hletter, List.append_assoc, List.append_assoc, exponentBytes]
        rfl

/-- A double is written as its shortest decimal in its layout. -/
theorem bytes_floatText {f : Float} (hf : f.isFinite) : Text.bytes (floatText f) =
    minusBytes (Decimal.isNegative f) ++ (layout (Decimal.shortest f)).bytes := by
  have hfinite : ¬ (f.isNaN || f.isInf) = true := by
    rw [Decimal.isNaN_of_isFinite hf, Decimal.isInf_of_isFinite hf]
    exact Bool.false_ne_true
  have hzero : (Decimal.shortest f).digits = 0 → (Decimal.shortest f).exponent = 0 := by
    intro hdigits
    rcases Decimal.shortest_cases hf with hshortest | ⟨hpos, -⟩
    · rw [hshortest]
    · omega
  have htext : floatText f =
      (if Decimal.isNegative f then "-" else "") ++ decimalText (Decimal.shortest f) := by
    rw [floatText, if_neg hfinite, decimalText]
    simp only [String.append_assoc]
    split
    · rfl
    · split
      · rfl
      · split
        · rfl
        · rfl
  have hsign : Text.bytes (if Decimal.isNegative f then "-" else "") =
      minusBytes (Decimal.isNegative f) := by
    cases Decimal.isNegative f <;> decide
  rw [htext, Text.bytes_append, hsign, bytes_decimalText hzero]

theorem canonical_cons {c : Char} {cs : List Char} (hcs : ∀ x ∈ c :: cs, x.isDigit)
    (hc : c ≠ '0') : Canonical (c :: cs) :=
  ⟨hcs, c, cs, rfl, fun h => absurd h hc⟩

/-- The layout of a decimal that is neither too long nor too far from one. -/
theorem shaped_layout (hpos : 0 < d.digits) (hdigits : d.digits < 10 ^ 18)
    (he : d.exponent.natAbs ≤ 616) : (layout d).Shaped := by
  have hall := isDigit_toDigits d.digits
  have hlength : (Nat.toDigits 10 d.digits).length ≤ 18 :=
    (Nat.length_toDigits_le_iff (by decide) (by decide)).2 hdigits
  obtain ⟨c, cs, hcs, -⟩ := Text.exists_cons_toDigits d.digits
  have hc := Text.ne_zero_of_toDigits hpos hcs
  unfold layout
  rw [hcs] at hall hlength ⊢
  simp only [List.length_cons] at hlength ⊢
  split
  · refine ⟨canonical_cons ?_ hc, by simp, by simp, by simp, by simp⟩
    intro x hx
    have hx' : x ∈ (c :: cs) ++ List.replicate d.exponent.toNat '0' := hx
    rcases List.mem_append.1 hx' with hx | hx
    · exact hall x hx
    · exact isDigit_replicate _ x hx
  · split
    · split
      · refine ⟨canonical_toDigits 0, ?_, by simp, by simp, ?_⟩
        · intro x hx
          rcases List.mem_append.1 hx with hx | hx
          · exact isDigit_replicate _ x hx
          · exact hall x hx
        · rw [List.length_append, List.length_replicate, List.length_cons]
          omega
      · obtain ⟨n, hn⟩ : ∃ n, (((cs.length + 1 : Nat) : Int) + d.exponent).toNat = n + 1 :=
          ⟨_, (Nat.succ_pred_eq_of_pos (by omega)).symm⟩
        rw [hn, List.take_succ_cons, List.drop_succ_cons]
        refine ⟨canonical_cons ?_ hc, ?_, ?_, by simp, ?_⟩
        · intro x hx
          rw [← List.take_succ_cons] at hx
          exact hall x (List.mem_of_mem_take hx)
        · exact fun x hx => hall x (List.mem_cons_of_mem c (List.mem_of_mem_drop hx))
        · intro hnil
          rw [List.drop_eq_nil_iff] at hnil
          omega
        · rw [List.length_drop]
          omega
    · refine ⟨canonical_cons ?_ hc, ?_, by simp, ?_, ?_⟩
      · intro x hx
        exact hall x (List.mem_of_mem_take (i := 1) hx)
      · exact fun x hx => hall x (List.mem_cons_of_mem c hx)
      · rintro _ ⟨⟩
        omega
      · simp only [List.drop_succ_cons, List.drop_zero]
        omega

/-! ## Written and read -/

/-- The decimal of a finite double reads back in its layout. -/
theorem valid_layout {f : Float} (hf : f.isFinite) : (layout (Decimal.shortest f)).Valid := by
  rcases Decimal.shortest_cases hf with hshortest | ⟨hpos, hspells, hleast, hmost, hwritten⟩
  · rw [hshortest]
    exact ⟨⟨canonical_toDigits 0, by simp [layout], by simp [layout], by simp [layout],
      by simp [layout]⟩, by decide⟩
  · refine ⟨shaped_layout hpos (hspells.trans_lt (by norm_num)) (by omega), ?_⟩
    rw [significand_layout]
    exact hwritten.trans (by norm_num)

theorem exists_cons_floatText {f : Float} (hf : f.isFinite) :
    ∃ b bs, Text.bytes (floatText f) = b :: bs ∧ (b = 0x2D ∨ (digitOf? b).isSome) := by
  rw [bytes_floatText hf]
  exact exists_cons_parts _ (valid_layout hf).whole _

/-- The text of a finite double is read as what its decimal is scaled to. -/
theorem parseNumber_floatText {f g : Float} (hf : f.isFinite) (hg : Decimal.reread f = .ok g)
    (hrest : Closes rest) : parseNumber (Text.bytes (floatText f) ++ rest) =
      (.num (Node.usable (.float g)), some rest) := by
  have hvalid := valid_layout hf
  have hvalue : ((layout (Decimal.shortest f)).numeral (Decimal.isNegative f)).value =
      .ok (.float g) := by
    rw [value_layout hvalid, significand_layout, scale_layout]
    change Except.map _ (scale (Decimal.written f).1 (Decimal.written f).2) = _
    unfold Decimal.reread at hg
    cases hscale : scale (Decimal.written f).1 (Decimal.written f).2 with
    | error fault =>
      rw [hscale] at hg
      cases hg
    | ok x =>
      rw [hscale] at hg
      cases hg
      rfl
  rw [bytes_floatText hf, List.append_assoc, parseNumber, lexNumber_layout hvalid _ hrest]
  simp only [hvalue]
  rfl

end SignalHub.Json
