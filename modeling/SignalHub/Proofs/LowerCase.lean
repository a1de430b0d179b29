import SignalHub.Text.LowerCase
/-!
# Lower case is settled

A text in lower case stays as it is when it is put into lower case again, because no lower-case
letter of the table of capitals is itself a capital of the table.

Results:
* `Settled`: a character stays as it is.
* `settled_of_mem_lower`: so do the characters of a text in lower case.
* `lower_eq_self`, `lower_lower`: so does the text.
-/
namespace SignalHub.Text

/-- A character that stays as it is, wherever it stands. -/
def Settled (c : Char) : Prop := c ≠ '\u03a3' ∧ lowerChar c = [c]

instance (c : Char) : Decidable (Settled c) := inferInstanceAs (Decidable (_ ∧ _))

theorem lowerAfter_eq_self {cs : List Char} (h : ∀ c ∈ cs, Settled c) (before : List Char) :
    lowerAfter before cs = cs := by
  induction cs generalizing before with
  | nil => rfl
  | cons c cs ih =>
    obtain ⟨hsigma, hchar⟩ := h c List.mem_cons_self
    have hrest := ih (fun c hc => h c (List.mem_cons_of_mem _ hc)) (c :: before)
    simp [lowerAfter, lowerWithin, hsigma, hchar, hrest]

theorem lower_eq_self {s : String} (h : ∀ c ∈ s.toList, Settled c) : lower s = s := by
  rw [lower, lowerAfter_eq_self h, String.ofList_toList]

/-! ## The table of capitals -/

namespace CapitalRun

/-- The lower-case letter of the last capital of a run. -/
def lowerLast (r : CapitalRun) : Nat := r.lowerFirst + (r.last - r.first)

/-- Whether the lower-case letters of a run lie outside another run: before it, behind it, or, if
every second one is a capital, on the places between. -/
def apart (r r' : CapitalRun) : Bool :=
  Nat.blt r.lowerLast r'.first || Nat.blt r'.last r.lowerFirst ||
    ((r.step == 2 || r.first == r.last) && r'.step == 2 && Nat.ble r'.first r.lowerFirst &&
      (r.lowerFirst - r'.first) % 2 == 1)

theorem capitalRuns_apart : (capitalRuns.all fun r => capitalRuns.all r.apart) = true := by
  decide +kernel

/-- The lower-case letters of the table are characters other than the two capitals that are treated
apart. -/
theorem capitalRuns_sound : ∀ r ∈ capitalRuns,
    (r.lowerLast < 0xD800 ∨ 0xDFFF < r.lowerFirst ∧ r.lowerLast < 0x110000) ∧
      (r.lowerLast < 0x130 ∨ 0x130 < r.lowerFirst) := by
  decide +kernel

variable {r r' : CapitalRun} {c : Char}

theorem holds_iff : r.holds c ↔
    r.first ≤ c.toNat ∧ c.toNat ≤ r.last ∧ (c.toNat - r.first) % r.step = 0 := by
  simp [holds, and_assoc]

/-- The lower-case letter of a capital is no capital of a run that lies apart. -/
theorem not_holds_of_apart (h : r.apart r') (hr : r.holds c) {c' : Char}
    (hc' : c'.toNat = r.lowerFirst + (c.toNat - r.first)) : r'.holds c' = false := by
  obtain ⟨hfirst, hlast, hstep⟩ := holds_iff.1 hr
  rw [Bool.eq_false_iff, ne_eq, holds_iff]
  rintro ⟨hfirst', hlast', hstep'⟩
  simp only [apart, lowerLast, Bool.or_eq_true, Bool.and_eq_true, Nat.blt_eq, Nat.ble_eq,
    beq_iff_eq] at h
  rcases h with (hbefore | hbehind) | ⟨⟨⟨heven, hstep2⟩, hle⟩, hodd⟩
  · omega
  · omega
  · rw [hstep2] at hstep'
    rcases heven with heven | hsingle
    · rw [heven] at hstep
      omega
    · omega

end CapitalRun

/-! ## Texts in lower case -/

open CapitalRun

/-- A character that is no capital of the table stays as it is, but for two capitals that are not in
the table or are treated apart. -/
theorem settled_of_not_holds {c : Char} (h : ∀ r ∈ capitalRuns, r.holds c = false)
    (hdotted : c ≠ '\u0130') : Settled c := by
  constructor
  · rintro rfl
    have hheld : ∃ r ∈ capitalRuns, r.holds '\u03a3' := by decide +kernel
    obtain ⟨r, hr, hc⟩ := hheld
    exact absurd hc (by simp [h r hr])
  · rw [lowerChar]
    split
    · rename_i hascii
      have hlatin : ¬ (0x41 ≤ c.toNat ∧ c.toNat ≤ 0x5A) := by
        rintro ⟨hfirst, hlast⟩
        have hheld : CapitalRun.holds ⟨0x41, 0x5A, 1, 0x61⟩ c :=
          holds_iff.2 ⟨hfirst, hlast, Nat.mod_one _⟩
        exact absurd hheld (by simp [h ⟨0x41, 0x5A, 1, 0x61⟩ List.mem_cons_self])
      have hall : ∀ n < 0x80, ¬ (0x41 ≤ n ∧ n ≤ 0x5A) →
          (Char.ofNat n).toLower = Char.ofNat n := by decide +kernel
      have hsmall := hall c.toNat hascii hlatin
      rw [Char.ofNat_toNat] at hsmall
      rw [hsmall]
    · rw [if_neg (by simpa using hdotted)]
      have hnone : capitalRuns.find? (·.holds c) = none :=
        List.find?_eq_none.2 fun r hr => by simp [h r hr]
      rw [hnone]

/-- The lower-case letter of a capital of the table is no capital. -/
theorem settled_of_holds {r : CapitalRun} {c : Char} (hr : r ∈ capitalRuns) (hc : r.holds c) :
    Settled (Char.ofNat (r.lowerFirst + (c.toNat - r.first))) := by
  obtain ⟨hfirst, hlast, -⟩ := holds_iff.1 hc
  obtain ⟨hsound, hdotted⟩ := capitalRuns_sound r hr
  unfold lowerLast at hsound hdotted
  have hvalid : (r.lowerFirst + (c.toNat - r.first)).isValidChar := by
    unfold Nat.isValidChar
    omega
  have hnat : (Char.ofNat (r.lowerFirst + (c.toNat - r.first))).toNat =
      r.lowerFirst + (c.toNat - r.first) := by
    rw [Char.ofNat, dif_pos hvalid]
    rfl
  generalize Char.ofNat (r.lowerFirst + (c.toNat - r.first)) = c' at hnat
  refine settled_of_not_holds (fun r' hr' => ?_) ?_
  · have hapart := List.all_eq_true.1 (List.all_eq_true.1 capitalRuns_apart r hr) r' hr'
    exact not_holds_of_apart hapart hc hnat
  · rintro rfl
    have hnat' : ('\u0130' : Char).toNat = 0x130 := rfl
    omega

/-- A character put into lower case wherever it stands. -/
theorem settled_of_mem_lowerChar {c c' : Char} (h : c' ∈ lowerChar c) : Settled c' := by
  rw [lowerChar] at h
  split at h
  · rename_i hascii
    have hall : ∀ n < 0x80, Settled (Char.ofNat n).toLower := by decide +kernel
    have hsmall := hall c.toNat hascii
    rw [Char.ofNat_toNat] at hsmall
    rw [List.mem_singleton.1 h]
    exact hsmall
  · rename_i hascii
    split at h
    · have hboth : Settled 'i' ∧ Settled '\u0307' := by decide +kernel
      simp only [List.mem_cons, List.not_mem_nil, or_false] at h
      rcases h with rfl | rfl
      · exact hboth.1
      · exact hboth.2
    · rename_i hdotted
      split at h
      · rename_i r hfind
        rw [List.mem_singleton.1 h]
        exact settled_of_holds (List.mem_of_find?_eq_some hfind)
          (by simpa using List.find?_some hfind)
      · rename_i hnone
        rw [List.mem_singleton.1 h]
        refine settled_of_not_holds (fun r hr => ?_) (by simpa using hdotted)
        simpa using List.find?_eq_none.1 hnone r hr

theorem settled_of_mem_lowerAfter {cs before : List Char} {c : Char}
    (h : c ∈ lowerAfter before cs) : Settled c := by
  induction cs generalizing before with
  | nil => cases h
  | cons d cs ih =>
    rcases List.mem_append.1 h with h | h
    · rw [lowerWithin] at h
      split at h
      · have hboth : Settled '\u03c2' ∧ Settled '\u03c3' := by decide +kernel
        split at h
        · rw [List.mem_singleton.1 h]
          exact hboth.1
        · rw [List.mem_singleton.1 h]
          exact hboth.2
      · exact settled_of_mem_lowerChar h
    · exact ih h

/-- The characters of a text in lower case stay as they are. -/
theorem settled_of_mem_lower {s : String} {c : Char} (h : c ∈ (lower s).toList) : Settled c := by
  rw [lower, String.toList_ofList] at h
  exact settled_of_mem_lowerAfter h

/-- A text in lower case stays as it is. -/
theorem lower_lower (s : String) : lower (lower s) = lower s :=
  lower_eq_self fun _ => settled_of_mem_lower

end SignalHub.Text
