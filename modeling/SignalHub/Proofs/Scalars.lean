import SignalHub.Proofs.Declarations
import SignalHub.Proofs.Numerals
import SignalHub.Proofs.Quotation
import SignalHub.Toml.Parser
/-!
# Scalars read back

A value that stands at the end of its line reads back as it was written. The line end closes a
number: it continues neither the digits nor a date that they could be taken for.

Results:
* `readNumber_toString`: a number reads back.
* `Scalar.readValue_render`: so does any scalar.
-/
namespace SignalHub.Toml

open Text (digitValues Canonical canonical_toDigits)

variable {c d : Char} {cs rest more : List Char} {fuel depth : Nat}

/-! ## Numbers -/

theorem ne_of_isDigit (hc : c.isDigit) (hd : d.isDigit = false) : c ≠ d := by
  rintro rfl
  rw [hc] at hd
  cases hd

theorem digitValue?_of_isDigit (hc : c.isDigit) :
    Decimal.digitValue? c = some (c.toNat - '0'.toNat) := if_pos hc

theorem moreDigits_digits (hcs : ∀ c ∈ cs, c.isDigit) (rest : List Char) :
    moreDigits Decimal.digitValue? (cs ++ '\n' :: rest) = .ok (digitValues cs, '\n' :: rest) := by
  induction cs with
  | nil => cases rest <;> rfl
  | cons c cs ih =>
    have hc := digitValue?_of_isDigit (hcs c List.mem_cons_self)
    have hrest := ih fun c hc => hcs c (List.mem_cons_of_mem _ hc)
    cases cs with
    | nil =>
      rw [List.cons_append, List.nil_append, moreDigits, hc]
      exact congrArg (after _) hrest
    | cons c' cs =>
      rw [List.cons_append, List.cons_append, moreDigits, hc]
      exact congrArg (after _) hrest

/-- Before a mark that is no digit other characters than the digits of the line stand too. -/
theorem not_digits_of_eq (front : List Char) (hcs : ∀ c ∈ cs, c.isDigit)
    (heq : cs ++ '\n' :: rest = front ++ c :: more) (hc : c.isDigit = false) (hline : '\n' ≠ c) :
    ¬ ∀ x ∈ front, x.isDigit := by
  intro hfront
  have hdrop := congrArg (List.dropWhile Char.isDigit) heq
  rw [List.dropWhile_append_of_pos hcs, List.dropWhile_append_of_pos hfront, List.dropWhile_cons,
    List.dropWhile_cons, hc] at hdrop
  exact hline (List.head_eq_of_cons_eq hdrop)

/-- Digits at the end of a line are no date and no time. -/
theorem readMoment?_digits (hcs : ∀ c ∈ cs, c.isDigit) (rest : List Char) :
    readMoment? (cs ++ '\n' :: rest) = none := by
  unfold readMoment?
  split
  · rename_i a b _ heq
    have hfront := not_digits_of_eq [a, b] hcs heq (by decide) (by decide)
    exact if_neg fun hdigits => hfront (by simpa using hdigits)
  · rename_i a b c d _ _ heq
    have hfront := not_digits_of_eq [a, b, c, d] hcs heq (by decide) (by decide)
    exact if_neg fun hdigits => hfront (List.all_eq_true.1 hdigits)
  · rfl

theorem readWhole_canonical (h : Canonical cs) (rest : List Char) :
    readWhole (cs ++ '\n' :: rest) = .ok (digitValues cs, '\n' :: rest) := by
  obtain ⟨hdigits, c, tail, rfl, hzero⟩ := h
  by_cases hc : c = '0'
  · subst hc
    rw [hzero rfl]
    rfl
  · have hfirst := digitValue?_of_isDigit (hdigits c List.mem_cons_self)
    rw [List.cons_append, readWhole, readDigits, hfirst]
    · simp only [moreDigits_digits fun c hc => hdigits c (List.mem_cons_of_mem _ hc)]
      rfl
    · exact fun _ heq => hc (List.head_eq_of_cons_eq heq)

theorem readNumber_canonical (h : Canonical cs) (rest : List Char) :
    readNumber (cs ++ '\n' :: rest) = readDecimal false (cs ++ '\n' :: rest) := by
  obtain ⟨hdigits, c, tail, rfl, hzero⟩ := h
  have hc := hdigits c List.mem_cons_self
  have hne {d : Char} (hd : d.isDigit = false) : c ≠ d := ne_of_isDigit hc hd
  have htail {x : Char} {more : List Char} (hx : x ≠ '\n') :
      c :: (tail ++ '\n' :: rest) ≠ '0' :: x :: more := by
    intro heq
    rw [hzero (List.head_eq_of_cons_eq heq)] at heq
    exact hx (List.head_eq_of_cons_eq (List.tail_eq_of_cons_eq heq)).symm
  rw [List.cons_append, readNumber, readSigned]
  · exact fun _ heq => hne (by decide) (List.head_eq_of_cons_eq heq)
  · exact fun _ heq => hne (by decide) (List.head_eq_of_cons_eq heq)
  · exact fun _ heq => htail (by decide) heq
  · exact fun _ heq => htail (by decide) heq
  · exact fun _ heq => htail (by decide) heq
  · exact fun _ heq => hne (by decide) (List.head_eq_of_cons_eq heq)
  · exact fun _ heq => hne (by decide) (List.head_eq_of_cons_eq heq)

theorem bounded_of_lt {n : Nat} (hn : n < Word.half) : bounded n = .ok (.int n) := by
  have hlow : -(Word.half : Int) ≤ n :=
    Int.le_trans (Int.neg_nonpos_of_nonneg (Int.natCast_nonneg _)) (Int.natCast_nonneg _)
  have hhigh : (n : Int) < Word.half := Int.ofNat_lt.2 hn
  rw [bounded, if_pos ⟨hlow, hhigh⟩]

theorem readDecimal_canonical (h : Canonical cs)
    (hlt : Decimal.ofDigits (digitValues cs) < Word.half) (rest : List Char) :
    readDecimal false (cs ++ '\n' :: rest) =
      .ok (.int (Decimal.ofDigits (digitValues cs)), '\n' :: rest) := by
  have hfraction : readFraction ('\n' :: rest) = .ok (none, '\n' :: rest) := rfl
  have hexponent : readExponent ('\n' :: rest) = .ok (none, '\n' :: rest) := rfl
  exact bind_eq_ok (readWhole_canonical h rest)
    (bind_eq_ok hfraction (bind_eq_ok hexponent (bind_eq_ok (bounded_of_lt hlt) rfl)))

/-- A number at the end of its line reads back. -/
theorem readNumber_toString {n : Nat} (hn : n < Word.half) (rest : List Char) :
    readNumber ((toString n).toList ++ '\n' :: rest) = .ok (.int n, '\n' :: rest) := by
  have hcanonical := canonical_toDigits n
  have hvalue : Decimal.ofDigits (digitValues (Nat.toDigits 10 n)) = n :=
    Text.foldl_digitValues_toDigits n
  rw [Text.toList_toString, readNumber_canonical hcanonical,
    readDecimal_canonical hcanonical (hvalue.symm ▸ hn), hvalue]

/-! ## Scalars -/

/-- What a scalar is as a value. -/
def Scalar.toValue : Scalar → Value
  | .text s => .text s
  | .bool b => .bool b
  | .int i => .num (.int i)

/-- Whether a scalar can stand in a document: an integer without a sign, within range. -/
def Scalar.Fits : Scalar → Prop
  | .int i => ∃ n : Nat, i = n ∧ n < Word.half
  | _ => True

theorem textOf_cons (cs : List Char) : ∃ q tail, textOf cs = q :: tail ∧ (q = '"' ∨ q = '\'') := by
  rw [textOf]
  cases textStyle cs with
  | basic => exact ⟨_, _, rfl, .inl rfl⟩
  | literal => exact ⟨_, _, rfl, .inr rfl⟩
  | longBasic => exact ⟨_, _, rfl, .inl rfl⟩
  | longLiteral => exact ⟨_, _, rfl, .inr rfl⟩

/-- A scalar at the end of its line reads back. -/
theorem Scalar.readScalar_render {v : Scalar} (h : v.Fits) (rest : List Char) :
    readScalar (v.render ++ '\n' :: rest) = .ok (v.toValue, '\n' :: rest) := by
  cases v with
  | text s =>
    have hread := readText_textOf s.toList rest
    obtain ⟨q, tail, htext, hq⟩ := textOf_cons s.toList
    rw [htext] at hread
    rw [render, htext, List.cons_append]
    rcases hq with rfl | rfl
    · rw [readScalar, ← List.cons_append, hread, String.ofList_toList]
      rfl
    · rw [readScalar, ← List.cons_append, hread, String.ofList_toList]
      rfl
  | bool b => cases b <;> rfl
  | int i =>
    obtain ⟨n, rfl, hn⟩ := h
    have hdigits := (canonical_toDigits n).1
    obtain ⟨c, tail, hcs, hc⟩ := Text.exists_cons_toDigits n
    have hne {d : Char} (hd : d.isDigit = false) : c ≠ d := ne_of_isDigit hc hd
    have hmoment := readMoment?_digits hdigits rest
    have hnumber := readNumber_toString hn rest
    rw [show render (.int (n : Int)) = (toString n).toList from rfl]
    rw [Text.toList_toString, hcs] at hnumber ⊢
    rw [hcs] at hmoment
    rw [List.cons_append] at hmoment hnumber ⊢
    rw [readScalar, hmoment]
    · simp only [hnumber]
      rfl
    · exact fun _ heq => hne (by decide) (List.head_eq_of_cons_eq heq)
    · exact fun _ heq => hne (by decide) (List.head_eq_of_cons_eq heq)
    · exact fun _ heq => hne (by decide) (List.head_eq_of_cons_eq heq)
    · exact fun _ heq => hne (by decide) (List.head_eq_of_cons_eq heq)

/-- A scalar begins with no blank and with no bracket. -/
theorem Scalar.render_cons {v : Scalar} (h : v.Fits) :
    ∃ c tail, v.render = c :: tail ∧ isBlank c = false ∧ c ≠ '[' ∧ c ≠ '{' := by
  cases v with
  | text s =>
    obtain ⟨q, tail, htext, rfl | rfl⟩ := textOf_cons s.toList
    · exact ⟨_, _, htext, by decide⟩
    · exact ⟨_, _, htext, by decide⟩
  | bool b =>
    cases b
    · exact ⟨_, _, rfl, by decide⟩
    · exact ⟨_, _, rfl, by decide⟩
  | int i =>
    obtain ⟨n, rfl, -⟩ := h
    obtain ⟨c, tail, hcs, hc⟩ := Text.exists_cons_toDigits n
    have hne {d : Char} (hd : d.isDigit = false) : c ≠ d := ne_of_isDigit hc hd
    refine ⟨c, tail, (Text.toList_toString n).trans hcs, ?_, hne (by decide), hne (by decide)⟩
    exact Bool.or_eq_false_iff.2
      ⟨beq_false_of_ne (hne (by decide)), beq_false_of_ne (hne (by decide))⟩

/-- A scalar at the end of its line reads back as a value. -/
theorem Scalar.readValue_render {v : Scalar} (h : v.Fits) (rest : List Char) :
    readValue (fuel + 1) depth (v.render ++ '\n' :: rest) = .ok (v.toValue, '\n' :: rest) := by
  obtain ⟨c, tail, hrender, -, hlist, htable⟩ := Scalar.render_cons h
  rw [← Scalar.readScalar_render h rest, hrender, List.cons_append, readValue]
  · exact fun _ heq _ => hlist (List.head_eq_of_cons_eq heq)
  · exact fun _ heq _ => htable (List.head_eq_of_cons_eq heq)
  · exact fun _ _ heq _ => hlist (List.head_eq_of_cons_eq heq)
  · exact fun _ _ heq _ => htable (List.head_eq_of_cons_eq heq)

end SignalHub.Toml
