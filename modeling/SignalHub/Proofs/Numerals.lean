import Mathlib.Tactic.IntervalCases
import SignalHub.Text.Integer
import SignalHub.Text.Utf8
/-!
# Numbers read back

A number in decimal digits, with a sign in front if it is negative, reads as the number that it is,
as long as it is in the range.

Results:
* `Text.readUnsigned_toString`, `Text.readSigned_toString`: reading a number that was written.
* `Text.le_of_readUnsigned`: no number is read that is out of the range.
* `Text.isDigit_of_mem_toString`: a number is spelled by digits.
-/
namespace SignalHub.Text

theorem digit?_of_isDigit {c : Char} (hc : c.isDigit) : digit? c = some (c.toNat - '0'.toNat) := by
  simp only [Char.isDigit, Bool.and_eq_true, decide_eq_true_eq] at hc
  exact if_pos hc

/-- Digits are read as long as what they come to is in the range. -/
theorem readDigits_eq {bound : Nat} {beyond : IntegerError} {cs : List Char} {acc : Nat}
    (hcs : ∀ c ∈ cs, c.isDigit) (hbound : Nat.ofDigitChars 10 cs acc ≤ bound) :
    readDigits bound beyond acc cs = .ok (Nat.ofDigitChars 10 cs acc) := by
  induction cs generalizing acc with
  | nil => rfl
  | cons c cs ih =>
    rw [Nat.ofDigitChars_cons, Nat.mul_comm] at hbound ⊢
    have hle : acc * 10 + (c.toNat - '0'.toNat) ≤ bound := by
      rw [Nat.ofDigitChars_eq_ofDigitChars_zero] at hbound
      have hpow : 1 ≤ 10 ^ cs.length := Nat.one_le_pow _ _ (by decide)
      calc acc * 10 + (c.toNat - '0'.toNat)
          ≤ 10 ^ cs.length * (acc * 10 + (c.toNat - '0'.toNat)) := Nat.le_mul_of_pos_left _ hpow
        _ ≤ bound := Nat.le_trans (Nat.le_add_right _ _) hbound
    rw [readDigits, digit?_of_isDigit (hcs c List.mem_cons_self)]
    simp only [if_pos hle]
    exact ih (fun d hd => hcs d (List.mem_cons_of_mem c hd)) hbound

/-- The digits of a number are read as that number. -/
theorem readMagnitude_toDigits {bound n : Nat} (beyond : IntegerError) (hn : n ≤ bound) :
    readMagnitude bound beyond (Nat.toDigits 10 n) = .ok n := by
  have hdigits : ∀ c ∈ Nat.toDigits 10 n, c.isDigit := fun c hc =>
    Nat.isDigit_of_mem_toDigits (by decide) (Nat.le_refl 10) hc
  have hvalue : Nat.ofDigitChars 10 (Nat.toDigits 10 n) 0 = n := Nat.ofDigitChars_ten_toDigits
  have hread : readDigits bound beyond 0 (Nat.toDigits 10 n) = .ok n := by
    rw [readDigits_eq hdigits (by rw [hvalue]; exact hn), hvalue]
  cases hcs : Nat.toDigits 10 n with
  | nil => exact absurd hcs Nat.toDigits_ne_nil
  | cons c cs => rw [readMagnitude, ← hcs, hread]; exact List.cons_ne_nil c cs

/-- A number begins with a digit, and so with no sign. -/
theorem exists_cons_toDigits (n : Nat) : ∃ c cs, Nat.toDigits 10 n = c :: cs ∧ c.isDigit := by
  cases hcs : Nat.toDigits 10 n with
  | nil => exact absurd hcs Nat.toDigits_ne_nil
  | cons c cs =>
    have hc : c ∈ Nat.toDigits 10 n := hcs ▸ List.mem_cons_self
    exact ⟨c, cs, rfl, Nat.isDigit_of_mem_toDigits (by decide) (Nat.le_refl 10) hc⟩

/-- A number other than zero does not begin with a zero. -/
theorem ne_zero_of_toDigits {n : Nat} (hn : 0 < n) {c : Char} {cs : List Char}
    (h : Nat.toDigits 10 n = c :: cs) : c ≠ '0' := by
  induction n using Nat.strong_induction_on generalizing cs with
  | _ n ih =>
    by_cases hlt : n < 10
    · rw [Nat.toDigits_of_lt_base hlt] at h
      cases h
      interval_cases n <;> decide
    · obtain ⟨d, ds, hds, -⟩ := exists_cons_toDigits (n / 10)
      rw [Nat.toDigits_of_base_le (by decide) (Nat.le_of_not_lt hlt), hds] at h
      cases h
      exact ih (n / 10) (by omega) (by omega) hds

/-- Digits without a zero too many. -/
def Canonical (cs : List Char) : Prop :=
  (∀ c ∈ cs, c.isDigit) ∧ ∃ c tail, cs = c :: tail ∧ (c = '0' → tail = [])

theorem canonical_toDigits (n : Nat) : Canonical (Nat.toDigits 10 n) := by
  obtain ⟨c, tail, hcs, -⟩ := exists_cons_toDigits n
  refine ⟨fun c hc => Nat.isDigit_of_mem_toDigits (by decide) (Nat.le_refl 10) hc, c, tail, hcs, ?_⟩
  intro hc
  rcases Nat.eq_zero_or_pos n with rfl | hn
  · cases hcs
    rfl
  · exact absurd hc (ne_zero_of_toDigits hn hcs)

/-- The values of digits. -/
def digitValues (cs : List Char) : List Nat := cs.map fun c => c.toNat - '0'.toNat

/-- The digits of a number spell that number. -/
theorem foldl_digitValues_toDigits (n : Nat) :
    (digitValues (Nat.toDigits 10 n)).foldl (fun n d => n * 10 + d) 0 = n := by
  refine Eq.trans ?_ (Nat.ofDigitChars_ten_toDigits (n := n))
  rw [digitValues, List.foldl_map, Nat.ofDigitChars]
  congr 1
  funext n c
  rw [Nat.mul_comm]

theorem toList_toString (n : Nat) : (toString n).toList = Nat.toDigits 10 n := by
  rw [Nat.toString_eq_ofList_toDigits, String.toList_ofList]

theorem readUnsigned_toString {bound n : Nat} (hn : n ≤ bound) :
    readUnsigned bound (toString n) = .ok n := by
  have hread := readMagnitude_toDigits .tooLarge hn
  obtain ⟨c, cs, hcs, hc⟩ := exists_cons_toDigits n
  rw [hcs] at hread
  rw [readUnsigned, toList_toString, hcs]
  split
  · rename_i hnil; cases hnil
  · rename_i hplus; cases hplus; cases hc
  · exact hread

/-- A number with its sign reads as it was written. -/
theorem readSigned_toString {low high : Nat} {i : Int} (hlow : -low ≤ i) (hhigh : i ≤ high) :
    readSigned low high (toString i) = .ok i := by
  cases i with
  | ofNat n =>
    have hread := readMagnitude_toDigits .tooLarge (Int.ofNat_le.1 hhigh)
    obtain ⟨c, cs, hcs, hc⟩ := exists_cons_toDigits n
    have hlist : (toString (Int.ofNat n)).toList = c :: cs := (toList_toString n).trans hcs
    rw [hcs] at hread
    rw [readSigned, hlist]
    split
    · rename_i hnil; cases hnil
    · rename_i hplus; cases hplus; cases hc
    · rename_i hminus; cases hminus; cases hc
    · rw [hread]
      rfl
  | negSucc n =>
    have hread := readMagnitude_toDigits .tooSmall (show n + 1 ≤ low by omega)
    have hlist : (toString (Int.negSucc n)).toList = '-' :: Nat.toDigits 10 (n + 1) := by
      rw [← toList_toString]
      exact String.toList_append
    rw [readSigned, hlist]
    simp only [hread]
    rfl

theorem le_of_readDigits {bound n : Nat} {beyond : IntegerError} {cs : List Char} {acc : Nat}
    (hacc : acc ≤ bound) (hread : readDigits bound beyond acc cs = .ok n) : n ≤ bound := by
  induction cs generalizing acc with
  | nil =>
    cases hread
    exact hacc
  | cons c cs ih =>
    rw [readDigits] at hread
    split at hread
    · cases hread
    · split at hread
      · exact ih ‹_› hread
      · cases hread

theorem le_of_readUnsigned {bound n : Nat} {s : String} (hread : readUnsigned bound s = .ok n) :
    n ≤ bound := by
  have hmagnitude : ∀ cs, readMagnitude bound .tooLarge cs = .ok n → n ≤ bound := by
    intro cs hcs
    cases cs with
    | nil => cases hcs
    | cons c cs => exact le_of_readDigits (Nat.zero_le _) hcs
  unfold readUnsigned at hread
  split at hread
  · cases hread
  · exact hmagnitude _ hread
  · exact hmagnitude _ hread

/-- Whether a byte is a decimal digit. -/
def IsDigit (b : UInt8) : Prop := 0x30 ≤ b ∧ b ≤ 0x39

instance (b : UInt8) : Decidable (IsDigit b) := inferInstanceAs (Decidable (_ ∧ _))

theorem isDigit_of_mem_toString {n : Nat} : ∀ b ∈ bytes (toString n), IsDigit b := by
  have hdigit : ∀ d < 10, ∃ b, bytes (String.singleton (Nat.digitChar d)) = [b] ∧ IsDigit b := by
    intro d hd
    interval_cases d <;> exact ⟨_, rfl, by decide⟩
  have hone : ∀ d < 10, ∀ b ∈ bytes (String.singleton (Nat.digitChar d)), IsDigit b := by
    intro d hd b hb
    obtain ⟨c, hc, hin⟩ := hdigit d hd
    rw [hc] at hb
    exact List.mem_singleton.1 hb ▸ hin
  induction n using Nat.strong_induction_on with
  | _ n ih =>
    rw [Nat.toString_eq_repr]
    by_cases hn : n < 10
    · rw [Nat.repr_of_lt hn]
      exact hone n hn
    · rw [Nat.repr_of_ge (Nat.le_of_not_lt hn), bytes_append]
      intro b hb
      rcases List.mem_append.1 hb with hb | hb
      · exact ih (n / 10) (Nat.div_lt_self (by omega) (by decide)) b hb
      · exact hone (n % 10) (Nat.mod_lt n (by decide)) b hb

end SignalHub.Text
