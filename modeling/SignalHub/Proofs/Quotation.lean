import SignalHub.Toml.Printer
import SignalHub.Toml.Text
/-!
# Texts in quotes read back

A text is written in one of four forms, by what it holds, and every form is read back as the text.
Where escapes are possible, each character is a block that reads back whatever follows. Quotes that
stand in a long text as they are cannot be read one by one: it takes what follows them to tell
whether they close the text, so they are carried along until then.

Results:
* `escapes_of_escape?`: an escape stands for its character.
* `readBasic_escape`, `readLongBasic_escapeLong`: texts with escapes read back.
* `readLiteral_plain`, `readLongLiteral_plain`: so do texts as they are, with few enough quotes.
* `readText_textOf`: a text reads back from the form that is chosen for it.
-/
namespace SignalHub.Toml

variable {c q : Char} {cs e rest : List Char}

/-! ## Escapes -/

/-- What stands for a character in a text with escapes. -/
inductive Escapes (c : Char) : List Char → Prop
  | letter {x : Char} (h : escaped? x = some c) (hu : x ≠ 'u') (hU : x ≠ 'U') : Escapes c ['\\', x]
  | number {x₁ x₂ x₃ x₄ : Char} (h : numbered? [x₁, x₂, x₃, x₄] = some c) :
      Escapes c ['\\', 'u', x₁, x₂, x₃, x₄]

/-- Four hexadecimal digits spell any control character. -/
theorem numbered?_hexDigits : ∀ n < 128, numbered? (hexDigits 4 n) = some (Char.ofNat n) := by
  decide

/-- The characters whose escapes are letters. -/
def lettered : List Char := ['\x08', '\t', '\x0c', '\r', '\\']

theorem escapes_of_mem_lettered : ∀ c ∈ lettered, ∃ x, escape? c = some ['\\', x] ∧
    escaped? x = some c ∧ x ≠ 'u' ∧ x ≠ 'U' := by
  simp [lettered, escape?, escaped?]

theorem escape?_of_not_mem_lettered (h : c ∉ lettered) : escape? c =
    if (c < ' ' ∧ c ≠ '\n') ∨ c = '\x7f' then some ('\\' :: 'u' :: hexDigits 4 c.toNat)
    else none := by
  simp only [lettered, List.mem_cons, List.not_mem_nil, or_false, not_or] at h
  simp [escape?, h]

/-- An escape stands for its character. -/
theorem escapes_of_escape? (h : escape? c = some e) : Escapes c e := by
  by_cases hc : c ∈ lettered
  · obtain ⟨x, hx, hletter, hu, hU⟩ := escapes_of_mem_lettered c hc
    rw [hx] at h
    cases h
    exact .letter hletter hu hU
  · rw [escape?_of_not_mem_lettered hc] at h
    split at h
    · rename_i hcontrol
      cases h
      have hlt : c.toNat < 128 := by
        rcases hcontrol with ⟨hlt, -⟩ | rfl
        · exact Nat.lt_trans (Char.lt_def.1 hlt) (by decide)
        · decide
      have hnumber := numbered?_hexDigits c.toNat hlt
      rw [Char.ofNat_toNat] at hnumber
      exact .number hnumber
    · cases h

/-- What needs no escape stands for itself or is a line end, and has no letter. -/
theorem plain_of_escape? (h : escape? c = none) :
    (isPlain c || c == '\n') ∧ c ∉ lettered := by
  have hc : c ∉ lettered := by
    intro hc
    obtain ⟨x, hx, -⟩ := escapes_of_mem_lettered c hc
    rw [hx] at h
    cases h
  rw [escape?_of_not_mem_lettered hc] at h
  refine ⟨?_, hc⟩
  split at h
  · cases h
  · rename_i hcontrol
    rw [not_or, Decidable.not_and_iff_not_or_not, Decidable.not_not, Char.not_lt] at hcontrol
    obtain ⟨hle | rfl, hdelete⟩ := hcontrol
    · simp [isPlain, hle, hdelete]
    · decide

theorem readBasic_escapes (h : Escapes c e) (rest : List Char) :
    readBasic (e ++ rest) = after c (readBasic rest) := by
  cases h with
  | letter h hu hU => simp [readBasic, h, hu, hU]
  | number h => simp [readBasic, h]

theorem readLongBasic_escapes (h : Escapes c e) (rest : List Char) :
    readLongBasic false (e ++ rest) = after c (readLongBasic false rest) := by
  cases h with
  | letter h hu hU => simp [readLongBasic, h, hu, hU]
  | number h => simp [readLongBasic, h]

/-! ## Texts on one line -/

theorem readBasic_plain (hplain : isPlain c) (hquote : c ≠ '"') (hbackslash : c ≠ '\\')
    (rest : List Char) : readBasic (c :: rest) = after c (readBasic rest) := by
  simp [readBasic, hplain, hbackslash]

theorem readBasic_escape (c : Char) (rest : List Char) :
    readBasic (escape c ++ rest) = after c (readBasic rest) := by
  by_cases hquote : c = '"'
  · subst hquote
    exact readBasic_escapes (.letter rfl (by decide) (by decide)) rest
  · by_cases hline : c = '\n'
    · subst hline
      exact readBasic_escapes (.letter rfl (by decide) (by decide)) rest
    · rw [escape, if_neg hquote, if_neg hline]
      cases h : escape? c with
      | some e => exact readBasic_escapes (escapes_of_escape? h) rest
      | none =>
        obtain ⟨hplain, hletter⟩ := plain_of_escape? h
        have hplain : isPlain c := by simpa [hline] using hplain
        have hbackslash : c ≠ '\\' := by
          rintro rfl
          exact hletter (by decide)
        exact readBasic_plain hplain hquote hbackslash rest

/-- A text with escapes on one line reads back. -/
theorem readBasic_flatMap_escape (cs rest : List Char) :
    readBasic (cs.flatMap escape ++ '"' :: rest) = .ok (cs, rest) := by
  induction cs with
  | nil => rfl
  | cons c cs ih =>
    rw [List.flatMap_cons, List.append_assoc, readBasic_escape, ih]
    rfl

/-- A text without single quotes reads back as it is. -/
theorem readLiteral_plain (h : ∀ c ∈ cs, isPlain c ∧ c ≠ '\'') (rest : List Char) :
    readLiteral (cs ++ '\'' :: rest) = .ok (cs, rest) := by
  induction cs with
  | nil => rfl
  | cons c cs ih =>
    obtain ⟨hplain, hquote⟩ := h c List.mem_cons_self
    rw [List.cons_append, readLiteral.eq_3 _ _ hquote, if_pos hplain,
      ih fun c hc => h c (List.mem_cons_of_mem _ hc)]
    rfl

/-! ## Quotes in long texts -/

/-- Puts characters in front of what has been read. -/
def afterAll (front : List Char) (r : Except Fault (List Char × List Char)) :
    Except Fault (List Char × List Char) :=
  front.foldr after r

theorem afterAll_ok (front : List Char) :
    afterAll front (.ok (cs, rest)) = .ok (front ++ cs, rest) := by
  induction front with
  | nil => rfl
  | cons c front ih =>
    rw [afterAll, List.foldr_cons, ← afterAll, ih]
    rfl

/-- After three quotes that close a text, the quotes that belong to it are those that follow, if
they are at most two. -/
theorem readExtraQuotes_replicate {n : Nat} (hn : n ≤ 2) (hc : c ≠ q) :
    readExtraQuotes q (List.replicate n q ++ c :: rest) = (List.replicate n q, c :: rest) := by
  match n with
  | 0 => cases rest <;> simp [readExtraQuotes, hc]
  | 1 => simp [readExtraQuotes, hc]
  | 2 => simp [readExtraQuotes]

/-- Quotes in front of three quotes are the same as quotes after them. -/
theorem replicate_append_three (n : Nat) (rest : List Char) :
    List.replicate n q ++ q :: q :: q :: rest = q :: q :: q :: (List.replicate n q ++ rest) := by
  induction n with
  | zero => rfl
  | succ n ih => rw [List.replicate_succ, List.cons_append, ih, List.cons_append]

theorem readLongBasic_close {n : Nat} (hn : n ≤ 2) (hc : c ≠ '"') :
    readLongBasic false (List.replicate n '"' ++ '"' :: '"' :: '"' :: c :: rest) =
      .ok (List.replicate n '"', c :: rest) := by
  rw [replicate_append_three, readLongBasic, readExtraQuotes_replicate hn hc]

theorem readLongLiteral_close {n : Nat} (hn : n ≤ 2) (hc : c ≠ '\'') :
    readLongLiteral (List.replicate n '\'' ++ '\'' :: '\'' :: '\'' :: c :: rest) =
      .ok (List.replicate n '\'', c :: rest) := by
  rw [replicate_append_three, readLongLiteral, readExtraQuotes_replicate hn hc]

/-- Up to two quotes belong to the text if another character follows. -/
theorem readLongBasic_quotes {n : Nat} (hn : n ≤ 2) (hc : c ≠ '"') :
    readLongBasic false (List.replicate n '"' ++ c :: rest) =
      afterAll (List.replicate n '"') (readLongBasic false (c :: rest)) := by
  match n with
  | 0 => rfl
  | 1 => simp [readLongBasic, hc, isPlain, afterAll]
  | 2 => simp [readLongBasic, hc, isPlain, afterAll]

theorem readLongLiteral_quotes {n : Nat} (hn : n ≤ 2) (hc : c ≠ '\'') :
    readLongLiteral (List.replicate n '\'' ++ c :: rest) =
      afterAll (List.replicate n '\'') (readLongLiteral (c :: rest)) := by
  match n with
  | 0 => rfl
  | 1 => simp [readLongLiteral, hc, isPlain, afterAll]
  | 2 => simp [readLongLiteral, hc, isPlain, afterAll]

/-! ## Long texts -/

theorem readLongBasic_plain (hplain : isPlain c || c == '\n') (hquote : c ≠ '"')
    (hletter : c ∉ lettered) (rest : List Char) :
    readLongBasic false (c :: rest) = after c (readLongBasic false rest) := by
  have hbackslash : c ≠ '\\' := by
    rintro rfl
    exact hletter (by decide)
  have hreturn : c ≠ '\r' := by
    rintro rfl
    exact hletter (by decide)
  have hplain : isPlain c = true ∨ c = '\n' := by simpa using hplain
  simp [readLongBasic, hplain, hquote, hbackslash, hreturn]

theorem readLongBasic_quote (rest : List Char) :
    readLongBasic false ('\\' :: '"' :: rest) = after '"' (readLongBasic false rest) :=
  readLongBasic_escapes (.letter rfl (by decide) (by decide)) rest

/-- What stands for a character other than a quote is read as the character. -/
theorem readLongBasic_block (hquote : c ≠ '"') (rest : List Char) :
    readLongBasic false ((escape? c).getD [c] ++ rest) = after c (readLongBasic false rest) := by
  cases h : escape? c with
  | some e => exact readLongBasic_escapes (escapes_of_escape? h) rest
  | none =>
    obtain ⟨hplain, hletter⟩ := plain_of_escape? h
    exact readLongBasic_plain hplain hquote hletter rest

/-- What stands for a character begins with a backslash or is the character. -/
theorem exists_block (c : Char) : ∃ x tail, (escape? c).getD [c] = x :: tail ∧
    (x = '\\' ∨ x = c ∧ c ∉ lettered) := by
  cases h : escape? c with
  | some e =>
    cases escapes_of_escape? h with
    | letter => exact ⟨_, _, rfl, .inl rfl⟩
    | number => exact ⟨_, _, rfl, .inl rfl⟩
  | none => exact ⟨c, [], rfl, .inr ⟨rfl, (plain_of_escape? h).2⟩⟩

/-- A text with escapes on several lines reads back. The induction carries the quotes that stand in
front and have not been read. -/
theorem readLongBasic_escapeLong {n : Nat} (hn : n ≤ 2) (hc : c ≠ '"') (cs rest : List Char) :
    readLongBasic false
        (List.replicate n '"' ++ (escapeLong n cs ++ '"' :: '"' :: '"' :: c :: rest)) =
      .ok (List.replicate n '"' ++ cs, c :: rest) := by
  induction cs generalizing n with
  | nil => rw [escapeLong, List.nil_append, readLongBasic_close hn hc, List.append_nil]
  | cons x cs ih =>
    have hrest : readLongBasic false (escapeLong 0 cs ++ '"' :: '"' :: '"' :: c :: rest) =
        .ok (cs, c :: rest) := ih (n := 0) (by decide)
    by_cases hx : x = '"'
    · subst hx
      rw [escapeLong, if_pos rfl]
      split
      · rename_i hlt
        have hnext := ih (n := n + 1) hlt
        rwa [List.replicate_succ', List.append_assoc, List.append_assoc] at hnext
      · rw [List.cons_append, List.cons_append, readLongBasic_quotes hn (by decide),
          readLongBasic_quote, hrest]
        exact afterAll_ok _
    · obtain ⟨y, tail, hblock, hy⟩ := exists_block x
      have hy : y ≠ '"' := by
        rcases hy with rfl | ⟨rfl, -⟩
        · decide
        · exact hx
      rw [escapeLong, if_neg hx, List.append_assoc, hblock, List.cons_append,
        readLongBasic_quotes hn hy, ← List.cons_append, ← hblock, readLongBasic_block hx, hrest]
      exact afterAll_ok _

theorem le_longestRun (c : Char) (n : Nat) (cs : List Char) : n ≤ longestRun c n cs := by
  induction cs generalizing n with
  | nil => exact Nat.le_refl n
  | cons x cs ih =>
    rw [longestRun]
    split
    · exact Nat.le_of_succ_le (ih (n + 1))
    · exact Nat.le_max_left _ _

theorem not_mem_of_longestRun {n : Nat} (h : longestRun c n cs = 0) : c ∉ cs := by
  induction cs generalizing n with
  | nil => exact List.not_mem_nil
  | cons x cs ih =>
    rw [longestRun] at h
    split at h
    · have hle := le_longestRun c (n + 1) cs
      omega
    · rename_i hx
      have hrest : longestRun c 0 cs = 0 := by omega
      rintro (_ | ⟨_, hc⟩)
      · exact hx rfl
      · exact ih hrest hc

theorem readLongLiteral_char (hplain : isPlain c || c == '\n') (hquote : c ≠ '\'')
    (rest : List Char) : readLongLiteral (c :: rest) = after c (readLongLiteral rest) := by
  have hreturn : c ≠ '\r' := by
    rintro rfl
    exact absurd hplain (by decide)
  have hplain : isPlain c = true ∨ c = '\n' := by simpa using hplain
  simp [readLongLiteral, hplain, hquote, hreturn]

/-- A text with at most two single quotes together reads back as it is. The induction carries those
that stand in front and have not been read. -/
theorem readLongLiteral_plain {n : Nat} (hrun : longestRun '\'' n cs ≤ 2) (hc : c ≠ '\'')
    (hplain : ∀ x ∈ cs, isPlain x || x == '\n') (rest : List Char) :
    readLongLiteral (List.replicate n '\'' ++ (cs ++ '\'' :: '\'' :: '\'' :: c :: rest)) =
      .ok (List.replicate n '\'' ++ cs, c :: rest) := by
  have hn : n ≤ 2 := Nat.le_trans (le_longestRun _ n cs) hrun
  induction cs generalizing n with
  | nil => rw [List.nil_append, readLongLiteral_close hn hc, List.append_nil]
  | cons x cs ih =>
    have hothers : ∀ y ∈ cs, isPlain y || y == '\n' := fun y hy =>
      hplain y (List.mem_cons_of_mem _ hy)
    rw [longestRun] at hrun
    split at hrun
    · rename_i hx
      subst hx
      have hnext := ih hrun hothers (Nat.le_trans (le_longestRun _ _ cs) hrun)
      rwa [List.replicate_succ', List.append_assoc, List.append_assoc] at hnext
    · rename_i hx
      have hrest : readLongLiteral (cs ++ '\'' :: '\'' :: '\'' :: c :: rest) =
          .ok (cs, c :: rest) :=
        ih (n := 0) (Nat.le_trans (Nat.le_max_right _ _) hrun) hothers (by decide)
      rw [List.cons_append, readLongLiteral_quotes hn hx,
        readLongLiteral_char (hplain x List.mem_cons_self) hx, hrest]
      exact afterAll_ok _

/-! ## Styles -/

theorem plain_of_not_isControl (h : isControl c = false) : isPlain c || c == '\n' := by
  by_cases htab : c = '\t'
  · subst htab
    decide
  · by_cases hline : c = '\n'
    · subst hline
      decide
    · simpa [isControl, isPlain, htab, hline] using h

/-- Whether a text reads back from a form. Any does from a form with escapes. -/
def Style.Fits (cs : List Char) : Style → Prop
  | .basic => True
  | .literal => ∀ c ∈ cs, isPlain c ∧ c ≠ '\''
  | .longBasic => True
  | .longLiteral => (∀ c ∈ cs, isPlain c || c == '\n') ∧ longestRun '\'' 0 cs ≤ 2

/-- The form that is chosen for a text fits it. -/
theorem fits_textStyle (cs : List Char) : (textStyle cs).Fits cs := by
  simp only [textStyle]
  split
  · split <;> trivial
  · rename_i hcontrol
    have hplain : ∀ c ∈ cs, isPlain c || c == '\n' := by
      intro c hc
      refine plain_of_not_isControl (Bool.eq_false_iff.2 fun h => hcontrol ?_)
      exact List.any_eq_true.2 ⟨c, hc, h⟩
    split
    · trivial
    · split
      · rename_i hliteral
        simp only [Bool.and_eq_true, beq_iff_eq, Bool.not_eq_true', List.any_eq_false] at hliteral
        obtain ⟨hquotes, hlines⟩ := hliteral
        intro c hc
        have hline : ¬ c = '\n' := hlines c hc
        exact ⟨by simpa [hline] using hplain c hc,
          fun hquote => not_mem_of_longestRun hquotes (hquote ▸ hc)⟩
      · split
        · trivial
        · split
          · rename_i hrun
            exact ⟨hplain, hrun⟩
          · split <;> trivial

/-- A text with a line end begins on a line of its own, and another one does not begin with a line
end. -/
theorem dropLineEnd_opening {front : List Char}
    (hfront : '\n' ∉ cs → ∀ more, front ≠ '\n' :: more ∧ front ≠ '\r' :: more) :
    dropLineEnd (opening cs ++ front) = front := by
  by_cases hline : '\n' ∈ cs
  · have hany : cs.any (· == '\n') = true := List.any_eq_true.2 ⟨_, hline, by decide⟩
    rw [opening, if_pos hany]
    rfl
  · have hany : cs.any (· == '\n') = false := by
      simp only [List.any_eq_false, beq_iff_eq]
      rintro c hc rfl
      exact hline hc
    have hstart := hfront hline
    rw [opening, hany]
    match front with
    | [] => rfl
    | x :: tail =>
      have hline : x ≠ '\n' := fun h => (hstart tail).1 (h ▸ rfl)
      have hreturn : x ≠ '\r' := fun h => (hstart tail).2 (h ▸ rfl)
      simp [dropLineEnd, hline, hreturn]

theorem dropLineEnd_escapeLong (cs rest : List Char) :
    dropLineEnd (opening cs ++ (escapeLong 0 cs ++ '"' :: rest)) =
      escapeLong 0 cs ++ '"' :: rest := by
  refine dropLineEnd_opening fun hline more => ?_
  cases cs with
  | nil => exact ⟨nofun, nofun⟩
  | cons c cs =>
    by_cases hquote : c = '"'
    · subst hquote
      exact ⟨nofun, nofun⟩
    · obtain ⟨x, tail, hblock, hx⟩ := exists_block c
      have hc : c ≠ '\n' := fun h => hline (h ▸ List.mem_cons_self)
      rw [escapeLong, if_neg hquote, hblock]
      rcases hx with rfl | ⟨rfl, hletter⟩
      · exact ⟨nofun, nofun⟩
      · refine ⟨fun h => hc (List.head_eq_of_cons_eq h), fun h => hletter ?_⟩
        rw [List.head_eq_of_cons_eq h]
        decide

theorem dropLineEnd_plain (hplain : ∀ c ∈ cs, isPlain c || c == '\n') (rest : List Char) :
    dropLineEnd (opening cs ++ (cs ++ '\'' :: rest)) = cs ++ '\'' :: rest := by
  refine dropLineEnd_opening fun hline more => ?_
  cases cs with
  | nil => exact ⟨nofun, nofun⟩
  | cons c cs =>
    have hc := hplain c List.mem_cons_self
    refine ⟨fun h => hline ?_, fun h => ?_⟩
    · rw [List.head_eq_of_cons_eq h]
      exact List.mem_cons_self
    · rw [List.head_eq_of_cons_eq h] at hc
      exact absurd hc (by decide)

/-- A quote that is no second or third one opens a text on one line. -/
theorem readText_basic {front : List Char} (h : ∀ more, front ≠ '"' :: '"' :: more) :
    readText ('"' :: front) = asText (readBasic front) := by
  rw [readText]
  rintro rest rfl
  exact h rest rfl

theorem readText_literal {front : List Char} (h : ∀ more, front ≠ '\'' :: '\'' :: more) :
    readText ('\'' :: front) = asText (readLiteral front) := by
  rw [readText]
  rintro rest rfl
  exact h rest rfl

/-- No character stands between double quotes as one of them. -/
theorem escape_append_ne (c : Char) (rest more : List Char) : escape c ++ rest ≠ '"' :: more := by
  by_cases hquote : c = '"'
  · subst hquote
    exact nofun
  · by_cases hline : c = '\n'
    · subst hline
      exact nofun
    · obtain ⟨x, tail, hblock, hx⟩ := exists_block c
      rw [escape, if_neg hquote, if_neg hline, hblock]
      rintro h
      rcases hx with rfl | ⟨rfl, -⟩
      · exact absurd (List.head_eq_of_cons_eq h) (by decide)
      · exact hquote (List.head_eq_of_cons_eq h)

/-- A text reads back from any form that it fits. -/
theorem readText_quote {style : Style} (h : style.Fits cs) (rest : List Char) :
    readText (quote cs style ++ '\n' :: rest) = .ok (String.ofList cs, '\n' :: rest) := by
  cases style with
  | basic =>
    simp only [quote, List.append_assoc, List.cons_append, List.nil_append]
    rw [readText_basic, readBasic_flatMap_escape]
    · rfl
    · intro more
      cases cs with
      | nil => exact nofun
      | cons c cs =>
        rw [List.flatMap_cons, List.append_assoc]
        exact escape_append_ne c _ _
  | literal =>
    simp only [quote, List.append_assoc, List.cons_append, List.nil_append]
    rw [readText_literal, readLiteral_plain h]
    · rfl
    · intro more
      cases cs with
      | nil => exact nofun
      | cons c cs => exact fun hmore => (h c List.mem_cons_self).2 (List.head_eq_of_cons_eq hmore)
  | longBasic =>
    have hread := readLongBasic_escapeLong (n := 0) (c := '\n') (by decide) (by decide) cs rest
    simp only [quote, List.append_assoc, List.cons_append, List.nil_append]
    rw [readText, dropLineEnd_escapeLong]
    exact congrArg asText hread
  | longLiteral =>
    have hread := readLongLiteral_plain (n := 0) (c := '\n') h.2 (by decide) h.1 rest
    simp only [quote, List.append_assoc, List.cons_append, List.nil_append]
    rw [readText, dropLineEnd_plain h.1]
    exact congrArg asText hread

/-- A text reads back from the form that is chosen for it. -/
theorem readText_textOf (cs rest : List Char) :
    readText (textOf cs ++ '\n' :: rest) = .ok (String.ofList cs, '\n' :: rest) :=
  readText_quote (fits_textStyle cs) rest

end SignalHub.Toml
