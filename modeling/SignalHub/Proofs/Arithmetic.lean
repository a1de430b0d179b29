import SignalHub.Proofs.Doubles
/-!
# Arithmetic on doubles

The product and the quotient of two doubles are the doubles nearest to the exact ones. So is the
double made of a whole number, and that made of a power of ten.

Results:
* `mul_double`, `div_double`: products and quotients.
* `ofScientific_eq`: a whole number times a power of ten.
-/
namespace SignalHub.Decimal

open Float.Model (Format totalExponent)
open Float.Model.UnpackedFloat

variable {m m₁ m₂ n : Nat} {q q₁ q₂ : Int} {x y : ℚ} {f g : Float}

theorem located_self (m : Nat) (q : Int) : Located m ((m : ℚ) * 2 ^ q / 2 ^ q) .exact := by
  simp only [Located]
  field_simp

/-- A double is nearest to itself. -/
theorem Normalized.roundsTo (h : Normalized m q) : RoundsTo (m * 2 ^ q) m q := by
  have hunits : (m : ℚ) * 2 ^ q / 2 ^ q = m := located_self m q
  refine { h with nearest := ⟨?_, ?_, fun _ => ⟨?_, ?_⟩⟩, narrow := fun hm _ => ?_ } <;>
    rw [hunits] <;> try linarith
  rw [hm]
  norm_num

/-! ## Products -/

theorem two_pow_le_mul (h₁ : Fits m₁ q₁) (h₂ : Fits m₂ q₂) (hq : -1074 < q₁ + q₂) :
    2 ^ 52 ≤ m₁ * m₂ := by
  have hpos₁ := h₁.pos
  have hpos₂ := h₂.pos
  have hleast₁ := h₁.least
  have hleast₂ := h₂.least
  rcases Nat.lt_or_ge m₁ (2 ^ 52) with hm₁ | hm₁
  · have hq₁ := h₁.eq_least hm₁
    have hm₂ := h₂.full (by omega)
    exact hm₂.trans (Nat.le_mul_of_pos_left _ hpos₁)
  · exact hm₁.trans (Nat.le_mul_of_pos_right _ hpos₂)

/-- The product of two doubles is the double nearest to the exact one. -/
theorem mul_double (h₁ : Fits m₁ q₁) (h₂ : Fits m₂ q₂)
    (h : RoundsTo (m₁ * 2 ^ q₁ * (m₂ * 2 ^ q₂)) m q) :
    double .positive m₁ q₁ h₁.pos * double .positive m₂ q₂ h₂.pos = double .positive m q h.pos := by
  have hlocated : Located (m₁ * m₂) ((m₁ * 2 ^ q₁ * (m₂ * 2 ^ q₂) : ℚ) / 2 ^ (q₁ + q₂)) .exact := by
    simp only [Located]
    rw [zpow_add₀ (by norm_num)]
    push_cast
    field_simp
  have htarget : q₁ + q₂ ≤ Format.binary64.targetExponent (totalExponent (m₁ * m₂) (q₁ + q₂)) := by
    rw [targetExponent_eq, totalExponent]
    rcases lt_or_ge (-1074) (q₁ + q₂) with hq | hq
    · have hpos := Nat.mul_pos h₁.pos h₂.pos
      have hlog : 52 ≤ (m₁ * m₂).log2 := (Nat.le_log2 hpos.ne').2 (two_pow_le_mul h₁ h₂ hq)
      omega
    · omega
  show Float.ofModel (.pack (mul .binary64 (double .positive m₁ q₁ h₁.pos).toModel.unpack
    (double .positive m₂ q₂ h₂.pos).toModel.unpack)) = _
  rw [h₁.unpack_double, h₂.unpack_double]
  simp only [mul]
  rw [roundWithAccuracy_eq _ h hlocated htarget]
  rfl

theorem Holds.mul_eq (hf : Holds f x) (hg : Holds g y) (h : RoundsTo (x * y) m q) :
    f * g = double .positive m q h.pos := by
  obtain ⟨m₁, q₁, h₁, rfl, rfl⟩ := hf
  obtain ⟨m₂, q₂, h₂, rfl, rfl⟩ := hg
  exact mul_double h₁ h₂ h

/-! ## Quotients -/

/-- What is left over locates a quotient. -/
theorem located_div (m : Nat) (hn : 0 < n) :
    Located (m / n) ((m : ℚ) / n) (accuracyOfFraction (m % n) n) := by
  have hn' : (0 : ℚ) < n := by exact_mod_cast hn
  have hsplit : (m : ℚ) = (m / n : Nat) * n + (m % n : Nat) := by
    exact_mod_cast (Nat.div_add_mod' m n).symm
  have hquotient : (m : ℚ) / n = (m / n : Nat) + (m % n : Nat) / n := by
    field_simp
    linarith
  have hlt : ((m % n : Nat) : ℚ) < n := by exact_mod_cast Nat.mod_lt m hn
  rw [hquotient]
  generalize m / n = k
  generalize m % n = r at hlt
  unfold accuracyOfFraction
  split
  · rename_i hzero
    simp [Located, hzero]
  · rename_i hsome
    have hpos : (0 : ℚ) < r := by exact_mod_cast Nat.pos_of_ne_zero hsome
    have hdouble : ((2 * r : Nat) : ℚ) = 2 * r := by push_cast; rfl
    rcases Nat.lt_trichotomy (2 * r) n with hcompare | hcompare | hcompare
    · rw [Nat.compare_eq_lt.2 hcompare]
      have hhalf : (2 * r : ℚ) < n := by exact_mod_cast hcompare
      refine ⟨by linarith [div_pos hpos hn'], ?_⟩
      have hbelow : (r : ℚ) / n < 1 / 2 := by
        rw [div_lt_div_iff₀ hn' (by norm_num)]
        linarith
      linarith
    · rw [Nat.compare_eq_eq.2 hcompare]
      have hhalf : (2 * r : ℚ) = n := by exact_mod_cast hcompare
      simp only [Located]
      rw [← hhalf]
      field_simp
    · rw [Nat.compare_eq_gt.2 hcompare]
      have hhalf : (n : ℚ) < 2 * r := by exact_mod_cast hcompare
      have habove : 1 / 2 < (r : ℚ) / n := by
        rw [div_lt_div_iff₀ (by norm_num) hn']
        linarith
      have hone : (r : ℚ) / n < 1 := (div_lt_one hn').2 hlt
      exact ⟨by linarith, by linarith⟩

theorem two_zpow_le_div (h₁ : 0 < m₁) (h₂ : 0 < m₂) :
    2 ^ (totalExponent m₁ q₁ - totalExponent m₂ q₂ - 1) ≤ (m₁ * 2 ^ q₁ / (m₂ * 2 ^ q₂) : ℚ) := by
  have hlow := (located_self m₁ q₁).two_zpow_le h₁.ne'
  have hhigh := (located_self m₂ q₂).lt_two_zpow
  have hpos : (0 : ℚ) < m₂ * 2 ^ q₂ := by positivity
  rw [le_div_iff₀ hpos]
  calc (2 : ℚ) ^ (totalExponent m₁ q₁ - totalExponent m₂ q₂ - 1) * (m₂ * 2 ^ q₂)
      ≤ 2 ^ (totalExponent m₁ q₁ - totalExponent m₂ q₂ - 1) * 2 ^ totalExponent m₂ q₂ := by gcongr
    _ = 2 ^ (totalExponent m₁ q₁ - 1) := by
      rw [← zpow_add₀ (by norm_num)]
      congr 1
      omega
    _ ≤ m₁ * 2 ^ q₁ := hlow

/-- The quotient of two doubles is the double nearest to the exact one. -/
theorem div_double (h₁ : Fits m₁ q₁) (h₂ : Fits m₂ q₂)
    (h : RoundsTo (m₁ * 2 ^ q₁ / (m₂ * 2 ^ q₂)) m q) :
    double .positive m₁ q₁ h₁.pos / double .positive m₂ q₂ h₂.pos = double .positive m q h.pos := by
  obtain ⟨t, ht⟩ : ∃ t, t = min (q₁ - q₂) (Format.binary64.targetExponent
      (totalExponent m₁ q₁ - totalExponent m₂ q₂)) := ⟨_, rfl⟩
  have hcore : divCore .binary64 m₁ q₁ m₂ q₂ = (m₁ <<< (q₁ - q₂ - t).toNat / m₂, t,
      accuracyOfFraction (m₁ <<< (q₁ - q₂ - t).toNat % m₂) m₂) := by
    rw [divCore, ← ht]
  have hlocated := located_div (m₁ <<< (q₁ - q₂ - t).toNat) h₂.pos
  have hunits : ((m₁ <<< (q₁ - q₂ - t).toNat : Nat) : ℚ) / m₂ =
      m₁ * 2 ^ q₁ / (m₂ * 2 ^ q₂) / 2 ^ t := by
    have hshift : (((q₁ - q₂ - t).toNat : Nat) : Int) = q₁ - q₂ - t := by omega
    rw [Nat.shiftLeft_eq]
    push_cast
    rw [← zpow_natCast, hshift, zpow_sub₀ (by norm_num), zpow_sub₀ (by norm_num)]
    have hpos := h₂.pos
    field_simp
  rw [hunits] at hlocated
  have htarget : t ≤ Format.binary64.targetExponent
      (totalExponent (m₁ <<< (q₁ - q₂ - t).toNat / m₂) t) := by
    generalize m₁ <<< (q₁ - q₂ - t).toNat / m₂ = k at hlocated
    rw [targetExponent_eq] at ht ⊢
    by_cases hlow : t ≤ -1074
    · omega
    · have hbits : (2 : ℚ) ^ 52 ≤ m₁ * 2 ^ q₁ / (m₂ * 2 ^ q₂) / 2 ^ t :=
        le_div_two_zpow.2 (le_trans (zpow_le_zpow_right₀ (by norm_num) (by omega))
          (two_zpow_le_div h₁.pos h₂.pos))
      have hlt : (2 : ℚ) ^ 52 < k + 1 := by linarith [hlocated.lt]
      have hk : 2 ^ 52 ≤ k := Nat.lt_add_one_iff.1 (by exact_mod_cast hlt)
      have hlog : 52 ≤ k.log2 := (Nat.le_log2 (by omega)).2 hk
      rw [totalExponent]
      omega
  show Float.ofModel (.pack (div .binary64 (double .positive m₁ q₁ h₁.pos).toModel.unpack
    (double .positive m₂ q₂ h₂.pos).toModel.unpack)) = _
  rw [h₁.unpack_double, h₂.unpack_double]
  simp only [div, hcore]
  rw [roundWithAccuracy_eq _ h hlocated htarget]
  rfl

theorem Holds.div_eq (hf : Holds f x) (hg : Holds g y) (h : RoundsTo (x / y) m q) :
    f / g = double .positive m q h.pos := by
  obtain ⟨m₁, q₁, h₁, rfl, rfl⟩ := hf
  obtain ⟨m₂, q₂, h₂, rfl, rfl⟩ := hg
  exact div_double h₁ h₂ h

/-! ## Whole numbers and powers of ten -/

/-- A number with few bits in front of zeros is a significand with an exponent. -/
theorem exists_normalized {k : Nat} (hpos : 0 < n) (hlt : n < 2 ^ 53) :
    Normalized (n * 2 ^ (52 - n.log2)) (k + n.log2 - 52) ∧
      ((n * 2 ^ (52 - n.log2) : Nat) : ℚ) * 2 ^ ((k : Int) + n.log2 - 52) = n * 2 ^ k := by
  have hlog : n.log2 < 53 := (Nat.log2_lt hpos.ne').2 hlt
  have hlow : 2 ^ n.log2 ≤ n := Nat.log2_self_le hpos.ne'
  have hhigh : n < 2 ^ (n.log2 + 1) := Nat.lt_log2_self
  have hsum : 2 ^ n.log2 * 2 ^ (52 - n.log2) = 2 ^ 52 := by
    rw [← Nat.pow_add]
    congr 1
    omega
  have hfull : 2 ^ 52 ≤ n * 2 ^ (52 - n.log2) := hsum ▸ Nat.mul_le_mul_right _ hlow
  have hbits : n * 2 ^ (52 - n.log2) < 2 ^ 53 := by
    calc n * 2 ^ (52 - n.log2) < 2 ^ (n.log2 + 1) * 2 ^ (52 - n.log2) :=
          Nat.mul_lt_mul_of_pos_right hhigh (by positivity)
      _ = 2 ^ 53 := by
        rw [Nat.pow_succ, Nat.mul_right_comm, hsum, ← Nat.pow_succ]
  refine ⟨⟨by positivity, hbits, by omega, fun _ => hfull⟩, ?_⟩
  push_cast
  rw [mul_assoc, ← zpow_natCast, ← zpow_natCast, ← zpow_add₀ (by norm_num)]
  congr 2
  omega

/-- Below the limit it is the amount of a double, which is what it rounds to. -/
theorem exists_exact {k : Nat} (hpos : 0 < n) (hlt : n < 2 ^ 53) (hhigh : (n : ℚ) * 2 ^ k < limit) :
    ∃ m q, Fits m q ∧ RoundsTo (n * 2 ^ k) m q ∧ (m : ℚ) * 2 ^ q = n * 2 ^ k := by
  obtain ⟨hnormal, hvalue⟩ := exists_normalized (k := k) hpos hlt
  have hround := hnormal.roundsTo
  rw [hvalue] at hround
  exact ⟨_, _, hround.fits hhigh, hround, hvalue⟩

/-- A whole number is made the double that it rounds to. -/
theorem round_natCast (h : RoundsTo n m q) (hn : 0 < n) :
    round .binary64 .positive n 0 = .finite .positive m q h.pos := by
  obtain ⟨t, ht⟩ : ∃ t, t = Format.binary64.targetExponent (totalExponent n 0) := ⟨_, rfl⟩
  have hdecrease : decreaseExponent n 0 t = (n <<< (0 - t).toNat, -((0 - t).toNat : Int)) := by
    rw [decreaseExponent, Int.zero_sub ((0 - t).toNat : Int)]
  have hlocated :
      Located (n <<< (0 - t).toNat) ((n : ℚ) / 2 ^ (-((0 - t).toNat : Int))) .exact := by
    simp only [Located]
    rw [Nat.shiftLeft_eq, zpow_neg, zpow_natCast]
    push_cast
    field_simp
  have htarget : -((0 - t).toNat : Int) ≤ Format.binary64.targetExponent
      (totalExponent (n <<< (0 - t).toNat) (-((0 - t).toNat : Int))) := by
    have hlog : n.log2 + (0 - t).toNat ≤ (n <<< (0 - t).toNat).log2 := by
      rw [Nat.shiftLeft_eq, Nat.le_log2 (by positivity), Nat.pow_add]
      exact Nat.mul_le_mul_right _ (Nat.log2_self_le hn.ne')
    rw [targetExponent_eq, totalExponent] at ht ⊢
    omega
  simp only [Float.Model.UnpackedFloat.round, ← ht, hdecrease]
  exact roundWithAccuracy_eq _ h hlocated htarget

theorem toFloat_toUInt64 (h : RoundsTo n m q) (hn : 0 < n) (hlt : n < 2 ^ 64) :
    n.toUInt64.toFloat = double .positive m q h.pos := by
  have hcast : n.toUInt64.toNat = n := Nat.mod_eq_of_lt hlt
  have hcompare : compare (n : Int) 0 = .gt := Int.compare_eq_gt.2 (by omega)
  -- By its full name, as there is another function of the same.
  show Float.ofModel
    (.pack (Float.Model.UnpackedFloat.normalize .binary64 n.toUInt64.toNat 0 .positive)) = _
  rw [hcast, Float.Model.UnpackedFloat.normalize, hcompare]
  simp only [Int.toNat_natCast]
  rw [round_natCast h hn]
  rfl

/-- The powers of ten that are doubles. -/
theorem powersOfTen_eq : ∀ e : Fin 23,
    getElem Float.exactlyRepresentablePowersOfTen e.val
        (by simp [Float.exactlyRepresentablePowersOfTen]) =
      double .positive (5 ^ e.val * 2 ^ (52 - (5 ^ e.val).log2)) (e.val + (5 ^ e.val).log2 - 52)
        (by positivity) := by
  decide +kernel

theorem five_pow_lt {e : Nat} (he : e ≤ 22) : 5 ^ e < 2 ^ 53 :=
  lt_of_le_of_lt (Nat.pow_le_pow_right (by norm_num) he) (by norm_num)

theorem five_pow_mul_two_pow (e : Nat) : ((5 ^ e : Nat) : ℚ) * 2 ^ e = 10 ^ e := by
  push_cast
  rw [← mul_pow]
  norm_num

variable {e : Nat}

/-- If the number and the power of ten are doubles, only their product is rounded. -/
theorem ofScientific_of_small (h : RoundsTo (n * 10 ^ e) m q) (hn : 0 < n)
    (hsmall : n < 2 ^ 53 ∧ e ≤ 22) :
    Float.ofScientific n false e = double .positive m q h.pos := by
  obtain ⟨hnumber, hvalue⟩ := exists_normalized (k := 0) hn hsmall.1
  obtain ⟨hpower, hten⟩ := exists_normalized (k := e) (by positivity) (five_pow_lt hsmall.2)
  rw [five_pow_mul_two_pow] at hten
  rw [pow_zero, mul_one] at hvalue
  have hlog : n.log2 < 53 := (Nat.log2_lt hn.ne').2 hsmall.1
  have hlog' : (5 ^ e).log2 < 53 := (Nat.log2_lt (by positivity)).2 (five_pow_lt hsmall.2)
  have hnearest := hnumber.roundsTo
  rw [hvalue] at hnearest
  have hproduct : RoundsTo
      (((n * 2 ^ (52 - n.log2) : Nat) : ℚ) * 2 ^ ((0 : Nat) + n.log2 - 52 : Int) *
        (((5 ^ e * 2 ^ (52 - (5 ^ e).log2) : Nat) : ℚ) * 2 ^ (e + (5 ^ e).log2 - 52 : Int)))
      m q := by
    rw [hvalue, hten]
    exact h
  have hmul := mul_double (Fits.mk hnumber (by omega)) (Fits.mk hpower (by omega)) hproduct
  rw [Float.ofScientific, dif_pos hsmall, ← hmul, ← powersOfTen_eq ⟨e, by omega⟩,
    ← toFloat_toUInt64 hnearest hn (hsmall.1.trans (by norm_num))]
  rfl

/-- Else their exact product is. -/
theorem ofScientific_of_large (h : RoundsTo (n * 10 ^ e) m q) (hn : 0 < n) (he : e ≤ 2048)
    (hlarge : ¬ (n < 2 ^ 53 ∧ e ≤ 22)) :
    Float.ofScientific n false e = double .positive m q h.pos := by
  have hlocated : Located (n <<< 53 * 10 ^ e) ((n * 10 ^ e : ℚ) / 2 ^ (-53 + 0 : Int)) .exact := by
    simp only [Located]
    rw [Nat.shiftLeft_eq]
    push_cast
    norm_num
    ring
  have htarget : (-53 + 0 : Int) ≤ Format.binary64.targetExponent
      (totalExponent (n <<< 53 * 10 ^ e) (-53 + 0)) := by
    have hlog : 53 ≤ (n <<< 53 * 10 ^ e).log2 := by
      rw [Nat.shiftLeft_eq, Nat.le_log2 (by positivity), Nat.mul_right_comm]
      exact Nat.le_mul_of_pos_left _ (by positivity)
    rw [targetExponent_eq, totalExponent]
    omega
  have hbelow : ¬ ((2 : Int) ^ Format.binary64.exponentBits < (e : Int)) := by
    show ¬ ((2 : Int) ^ 11 < e)
    omega
  have habove : ¬ ((e : Int) < -((2 : Int) ^ Format.binary64.exponentBits + n.log2)) := by
    show ¬ ((e : Int) < -((2 : Int) ^ 11 + n.log2))
    omega
  rw [Float.ofScientific, dif_neg hlarge]
  show Float.ofModel (.pack (Float.Model.UnpackedFloat.ofScientific .binary64 n e)) = _
  rw [Float.Model.UnpackedFloat.ofScientific, dif_neg hn.ne', if_neg hbelow, if_neg habove,
    if_pos (by omega)]
  simp only [mul, Int.toNat_natCast]
  show Float.ofModel (.pack (roundWithAccuracy .binary64 .positive (n <<< 53 * 10 ^ e) (-53 + 0)
    .exact)) = _
  rw [roundWithAccuracy_eq _ h hlocated htarget]
  rfl

/-- A whole number times a power of ten is made the double that it rounds to. -/
theorem ofScientific_eq (h : RoundsTo (n * 10 ^ e) m q) (hn : 0 < n) (he : e ≤ 2048) :
    Float.ofScientific n false e = double .positive m q h.pos := by
  by_cases hsmall : n < 2 ^ 53 ∧ e ≤ 22
  · exact ofScientific_of_small h hn hsmall
  · exact ofScientific_of_large h hn he hsmall

end SignalHub.Decimal
