import Mathlib
/-!
# Rounding to doubles

A finite double is `m · 2^q` with less than 2^53 for `m` and at least -1074 for `q`; unless `q` is
the least exponent, `m` has all 53 bits. A number rounds to the double that is nearest to it, of two
to the one with the even `m`. Arithmetic on doubles keeps of an exact result its leading bits, and
where the rest lies: nowhere, below, at or above one half. That is enough to round it.

Results:
* `Located`: what is known of a number by its whole part and the place of the rest.
* `NearestEven`: the whole number that another number rounds to.
* `RoundsTo`: the double that a number rounds to.
* `roundWithAccuracy_eq`: arithmetic on doubles finds that double.
* `exists_roundsTo`: there is one for every number that is not too small.
* `RoundsTo.error`: how far off it is at most.
-/
namespace SignalHub.Decimal

open Float.Model Float.Model.UnpackedFloat

/-! ## To whole numbers -/

/-- Whether `y` lies where its whole part `m` and the place of the rest say. -/
def Located (m : Nat) (y : ℚ) : Accuracy → Prop
  | .exact => y = m
  | .inexact .lt => m < y ∧ y < m + 1 / 2
  | .inexact .eq => y = m + 1 / 2
  | .inexact .gt => m + 1 / 2 < y ∧ y < m + 1

/-- Whether `n` is the whole number nearest to `y`, of two the even one. -/
structure NearestEven (y : ℚ) (n : Nat) : Prop where
  lower : n - 1 / 2 ≤ y
  upper : y ≤ n + 1 / 2
  /-- An odd number does not get what lies halfway to its neighbours. -/
  odd : n % 2 = 1 → (n : ℚ) - 1 / 2 < y ∧ y < n + 1 / 2

variable {m n : Nat} {x y : ℚ} {acc : Accuracy}

theorem Located.le (h : Located m y acc) : m ≤ y := by
  rcases acc with _ | _ | _ | _ <;> simp only [Located] at h <;> linarith

theorem Located.lt (h : Located m y acc) : y < m + 1 := by
  rcases acc with _ | _ | _ | _ <;> simp only [Located] at h <;> linarith

/-- Rounding by the place of the rest finds the nearest whole number. -/
theorem nearestEven_of_located (acc : Accuracy) (h : Located m y acc) :
    NearestEven y (acc.roundToNearestEven m) := by
  rcases acc with _ | _ | _ | _ <;> simp only [Located] at h <;>
    simp only [Accuracy.roundToNearestEven]
  · exact ⟨by linarith, by linarith, fun _ => ⟨by linarith, by linarith⟩⟩
  · exact ⟨by linarith, by linarith, fun _ => ⟨by linarith, by linarith⟩⟩
  · rcases Nat.mod_two_eq_zero_or_one m with heven | hodd
    · rw [heven, Nat.add_zero]
      exact ⟨by linarith, by linarith, by omega⟩
    · rw [hodd]
      refine ⟨?_, ?_, by omega⟩ <;> push_cast <;> linarith
  · refine ⟨?_, ?_, fun _ => ⟨?_, ?_⟩⟩ <;> push_cast <;> linarith

/-- Every number that is not negative rounds to a whole number. -/
theorem exists_nearestEven (hy : 0 ≤ y) : ∃ n, NearestEven y n := by
  have hlow : (⌊y⌋₊ : ℚ) ≤ y := Nat.floor_le hy
  have hhigh : y < ⌊y⌋₊ + 1 := Nat.lt_floor_add_one y
  rcases lt_trichotomy y (⌊y⌋₊ + 1 / 2) with hlt | heq | hgt
  · rcases hlow.eq_or_lt with hexact | hbelow
    · exact ⟨_, nearestEven_of_located .exact hexact.symm⟩
    · exact ⟨_, nearestEven_of_located (.inexact .lt) ⟨hbelow, hlt⟩⟩
  · exact ⟨_, nearestEven_of_located (.inexact .eq) heq⟩
  · exact ⟨_, nearestEven_of_located (.inexact .gt) ⟨hgt, hhigh⟩⟩

/-- No number rounds to two. -/
theorem NearestEven.unique (hm : NearestEven y m) (hn : NearestEven y n) : m = n := by
  have hle : (m : ℚ) ≤ n + 1 := by linarith [hm.lower, hn.upper]
  have hge : (n : ℚ) ≤ m + 1 := by linarith [hn.lower, hm.upper]
  have hle' : m ≤ n + 1 := by exact_mod_cast hle
  have hge' : n ≤ m + 1 := by exact_mod_cast hge
  by_contra hne
  rcases Nat.lt_or_gt_of_ne hne with hlt | hlt
  · obtain rfl : n = m + 1 := by omega
    have hlow := hn.lower
    push_cast at hlow
    rcases Nat.mod_two_eq_zero_or_one m with heven | hodd
    · have hstrict := (hn.odd (by omega)).1
      push_cast at hstrict
      linarith [hm.upper]
    · linarith [(hm.odd hodd).2]
  · obtain rfl : m = n + 1 := by omega
    have hlow := hm.lower
    push_cast at hlow
    rcases Nat.mod_two_eq_zero_or_one n with heven | hodd
    · have hstrict := (hm.odd (by omega)).1
      push_cast at hstrict
      linarith [hn.upper]
    · linarith [(hn.odd hodd).2]

/-! ## Bits that are dropped -/

theorem accuracy_ofMantissaAndAccuracy (m : Nat) (acc : Accuracy) :
    (ExtendedMantissa.ofMantissaAndAccuracy m acc).accuracy = acc := by
  rcases acc with _ | _ | _ | _ <;> rfl

theorem mantissa_ofMantissaAndAccuracy (m : Nat) (acc : Accuracy) :
    (ExtendedMantissa.ofMantissaAndAccuracy m acc).mantissa = m := by
  rcases acc with _ | _ | _ | _ <;> rfl

/-- One bit less locates half the number. -/
theorem located_shiftRightOne {em : ExtendedMantissa} (h : Located em.mantissa y em.accuracy) :
    Located em.shiftRightOne.mantissa (y / 2) em.shiftRightOne.accuracy := by
  obtain ⟨m, round, sticky⟩ := em
  have hsplit : (m : ℚ) = 2 * (m / 2 : Nat) + (m % 2 : Nat) := by
    exact_mod_cast (Nat.div_add_mod m 2).symm
  rcases Nat.mod_two_eq_zero_or_one m with hmod | hmod <;> rw [hmod] at hsplit <;>
    cases round <;> cases sticky <;>
    simp [Located, ExtendedMantissa.accuracy, ExtendedMantissa.shiftRightOne, hmod] at h ⊢ <;>
    (try constructor) <;> push_cast at hsplit <;> linarith

theorem located_shiftRight {em : ExtendedMantissa} (h : Located em.mantissa y em.accuracy)
    (n : Nat) : Located (em >>> n).mantissa (y / 2 ^ n) (em >>> n).accuracy := by
  show Located (n.repeat ExtendedMantissa.shiftRightOne em).mantissa _
    (n.repeat ExtendedMantissa.shiftRightOne em).accuracy
  induction n with
  | zero => simpa [Nat.repeat] using h
  | succ n ih =>
    rw [Nat.repeat, pow_succ, ← div_div]
    exact located_shiftRightOne ih

/-- Dropping bits down to an exponent locates the number in units of that exponent. -/
theorem exists_shiftToExponent {e t : Int} (h : Located m (x / 2 ^ e) acc) (hle : e ≤ t) :
    ∃ em, shiftToExponent m e acc t = (em, t) ∧ Located em.mantissa (x / 2 ^ t) em.accuracy := by
  obtain ⟨n, rfl⟩ := Int.le.dest hle
  have hn : (e + n - e).toNat = n := by omega
  refine ⟨ExtendedMantissa.ofMantissaAndAccuracy m acc >>> n, ?_, ?_⟩
  · simp only [shiftToExponent, hn]
  · have hunits : x / 2 ^ (e + (n : Int)) = x / 2 ^ e / 2 ^ n := by
      rw [zpow_add₀ (by norm_num), zpow_natCast, div_div]
    rw [hunits]
    refine located_shiftRight ?_ n
    rw [accuracy_ofMantissaAndAccuracy, mantissa_ofMantissaAndAccuracy]
    exact h

/-! ## To doubles -/

/-- The exponent of the last bit that is kept of a number whose leading bit has the weight
`2^(t-1)`. -/
theorem targetExponent_eq (t : Int) : Format.binary64.targetExponent t = max (t - 53) (-1074) := rfl

/-- The magnitudes of doubles other than zero, as if there were no greatest one. -/
structure Normalized (m : Nat) (q : Int) : Prop where
  pos : 0 < m
  lt : m < 2 ^ 53
  least : -1074 ≤ q
  full : -1074 < q → 2 ^ 52 ≤ m

/-- Whether `m · 2^q` is the double nearest to `x`. -/
structure RoundsTo (x : ℚ) (m : Nat) (q : Int) : Prop extends Normalized m q where
  nearest : NearestEven (x / 2 ^ q) m
  /-- Below a power of two the doubles lie twice as close. -/
  narrow : m = 2 ^ 52 → -1074 < q → (2 : ℚ) ^ 52 - 1 / 4 ≤ x / 2 ^ q

variable {q e : Int}

theorem div_two_zpow_lt {n : Nat} : x / 2 ^ q < 2 ^ n ↔ x < 2 ^ (q + n) := by
  rw [div_lt_iff₀ (by positivity), ← zpow_natCast, ← zpow_add₀ (by norm_num), add_comm]

theorem lt_div_two_zpow {n : Nat} : 2 ^ n < x / 2 ^ q ↔ 2 ^ (q + n) < x := by
  rw [lt_div_iff₀ (by positivity), ← zpow_natCast, ← zpow_add₀ (by norm_num), add_comm]

theorem le_div_two_zpow {n : Nat} : 2 ^ n ≤ x / 2 ^ q ↔ 2 ^ (q + n) ≤ x := by
  rw [le_div_iff₀ (by positivity), ← zpow_natCast, ← zpow_add₀ (by norm_num), add_comm]

/-- The exponent of a normalized double is the one that is aimed at. -/
theorem Normalized.targetExponent_eq (h : Normalized m q) :
    Format.binary64.targetExponent (totalExponent m q) = q := by
  have hlog : m.log2 < 53 := (Nat.log2_lt h.pos.ne').2 h.lt
  rw [Decimal.targetExponent_eq, totalExponent]
  rcases h.least.eq_or_lt with rfl | hlt
  · omega
  · have hfull : 52 ≤ m.log2 := (Nat.le_log2 h.pos.ne').2 (h.full hlt)
    omega

theorem Located.lt_two_zpow (h : Located m (x / 2 ^ e) acc) : x < 2 ^ totalExponent m e := by
  have hm : ((m + 1 : Nat) : ℚ) ≤ 2 ^ (m.log2 + 1) := by exact_mod_cast Nat.lt_log2_self
  have hlt := h.lt
  rw [div_lt_iff₀ (by positivity)] at hlt
  calc x < (m + 1 : ℚ) * 2 ^ e := hlt
    _ ≤ 2 ^ (m.log2 + 1) * 2 ^ e := by
      have hpow : (0 : ℚ) < 2 ^ e := by positivity
      push_cast at hm
      nlinarith
    _ = 2 ^ totalExponent m e := by
      rw [totalExponent, zpow_add₀ (by norm_num), ← zpow_natCast]
      norm_cast

theorem Located.two_zpow_le (h : Located m (x / 2 ^ e) acc) (hm : m ≠ 0) :
    2 ^ (totalExponent m e - 1) ≤ x := by
  have hlog : (2 : ℚ) ^ m.log2 ≤ m := by exact_mod_cast Nat.log2_self_le hm
  have hle := h.le
  rw [le_div_iff₀ (by positivity)] at hle
  calc (2 : ℚ) ^ (totalExponent m e - 1) = 2 ^ m.log2 * 2 ^ e := by
        rw [totalExponent, ← zpow_natCast, ← zpow_add₀ (by norm_num)]
        congr 1
        omega
    _ ≤ m * 2 ^ e := by
      have hpow : (0 : ℚ) < 2 ^ e := by positivity
      nlinarith
    _ ≤ x := hle

/-- What rounds up to a power of two lies closer below it. -/
theorem RoundsTo.quarter_le (h : RoundsTo x m q) (hq : -1074 < q) : 2 ^ 52 - 1 / 4 ≤ x / 2 ^ q := by
  rcases (h.full hq).eq_or_lt with heq | hlt
  · exact h.narrow heq.symm hq
  · have hm : (2 : ℚ) ^ 52 + 1 ≤ m := by exact_mod_cast hlt
    linarith [h.nearest.lower]

theorem RoundsTo.positive (h : RoundsTo x m q) : 0 < x := by
  have hm : (1 : ℚ) ≤ m := by exact_mod_cast h.pos
  have hunits : 0 < x / 2 ^ q := by linarith [h.nearest.lower]
  rwa [lt_div_iff₀ (by positivity), zero_mul] at hunits

theorem RoundsTo.lt_two_zpow (h : RoundsTo x m q) : x < 2 ^ (q + 53) := by
  have hm : (m : ℚ) + 1 ≤ 2 ^ 53 := by exact_mod_cast h.lt
  exact div_two_zpow_lt.1 (by linarith [h.nearest.upper])

theorem RoundsTo.two_zpow_lt (h : RoundsTo x m q) (hq : -1074 < q) : 2 ^ (q + 51) < x := by
  have hm : (2 : ℚ) ^ 52 ≤ m := by exact_mod_cast h.full hq
  exact lt_div_two_zpow.1 (by linarith [h.nearest.lower])

/-- The exponent at which a number is rounded is that of the double, or the one below if the number
lies just below a power of two. -/
theorem RoundsTo.target_cases {M : Nat} (h : RoundsTo x m q) (hlocated : Located M (x / 2 ^ e) acc)
    (he : e ≤ Format.binary64.targetExponent (totalExponent M e)) :
    Format.binary64.targetExponent (totalExponent M e) = q ∨
      Format.binary64.targetExponent (totalExponent M e) = q - 1 ∧ m = 2 ^ 52 ∧ -1074 < q ∧
        x < 2 ^ (q + 52) := by
  have hleast := h.least
  have hhigh := hlocated.lt_two_zpow
  rw [targetExponent_eq] at he ⊢
  have htarget : max (totalExponent M e - 53) (-1074) ≤ q := by
    by_contra hgt
    have hM : M ≠ 0 := by
      rintro rfl
      rw [show totalExponent 0 e = 1 + e from rfl] at he hgt
      omega
    have hexp := (hlocated.two_zpow_le hM).trans_lt h.lt_two_zpow
    rw [zpow_lt_zpow_iff_right₀ (by norm_num)] at hexp
    omega
  by_cases hq : -1074 < q
  · have hexp := (h.two_zpow_lt hq).trans hhigh
    rw [zpow_lt_zpow_iff_right₀ (by norm_num)] at hexp
    by_cases heq : max (totalExponent M e - 53) (-1074) = q
    · exact .inl heq
    · have hx : x < 2 ^ (q + 52) := hhigh.trans_le (zpow_le_zpow_right₀ (by norm_num) (by omega))
      have hy : x / 2 ^ q < 2 ^ 52 := div_two_zpow_lt.2 hx
      have hm : (m : ℚ) < (2 ^ 52 + 1 : Nat) := by
        push_cast
        linarith [h.nearest.lower]
      have hm' : m < 2 ^ 52 + 1 := by exact_mod_cast hm
      exact .inr ⟨by omega, by have := h.full hq; omega, hq, hx⟩
  · exact .inl (by omega)

/-- Rounding shifts to the exponent that is aimed at, rounds there, and shifts again in case that
gave one bit more. -/
theorem roundWithAccuracy_of_shifts {M : Nat} {em₁ em₂ : ExtendedMantissa} {e₁ e₂ : Int} (s : Sign)
    (h₁ : shiftToTargetExponent .binary64 M e acc = (em₁, e₁))
    (h₂ : shiftToTargetExponent .binary64 em₁.roundedMantissa e₁ .exact = (em₂, e₂))
    (hpos : 0 < em₂.mantissa) :
    roundWithAccuracy .binary64 s M e acc = .finite s em₂.mantissa e₂ hpos := by
  unfold roundWithAccuracy
  simp only [h₁, h₂]
  exact dif_neg hpos.ne'

theorem shiftToExponent_self (m : Nat) (e : Int) :
    shiftToExponent m e .exact e = (⟨m, false, false⟩, e) := by
  simp only [shiftToExponent, Int.sub_self]
  exact Prod.ext rfl (Int.add_zero e)

theorem shiftToExponent_double (m : Nat) (e : Int) :
    shiftToExponent (2 * m) (e - 1) .exact e = (⟨m, false, false⟩, e) := by
  have hone : (e - (e - 1)).toNat = 1 := by omega
  simp only [shiftToExponent, hone]
  refine Prod.ext ?_ (by simp)
  show ExtendedMantissa.shiftRightOne ⟨2 * m, false, false⟩ = _
  simp [ExtendedMantissa.shiftRightOne]

/-- What is located exactly enough is rounded to the double that is nearest to it. -/
theorem roundWithAccuracy_eq {M : Nat} (s : Sign) (h : RoundsTo x m q)
    (hlocated : Located M (x / 2 ^ e) acc)
    (he : e ≤ Format.binary64.targetExponent (totalExponent M e)) :
    roundWithAccuracy .binary64 s M e acc = .finite s m q h.pos := by
  obtain ⟨em, hshift, hem⟩ := exists_shiftToExponent hlocated he
  have hnearest : NearestEven _ em.roundedMantissa := nearestEven_of_located _ hem
  rcases h.target_cases hlocated he with htarget | ⟨htarget, rfl, hq, hx⟩ <;>
    rw [htarget] at hnearest hshift
  · have hm : em.roundedMantissa = m := hnearest.unique h.nearest
    have hagain : shiftToTargetExponent .binary64 em.roundedMantissa q .exact =
        (⟨m, false, false⟩, q) := by
      rw [hm, shiftToTargetExponent, h.targetExponent_eq, shiftToExponent_self]
    refine roundWithAccuracy_of_shifts s ?_ hagain h.pos
    rw [shiftToTargetExponent, htarget, hshift]
  -- Rounding up to the power of two gives one bit too many, which the second shift drops.
  · have hunits : x / 2 ^ (q - 1) = 2 * (x / 2 ^ q) := by
      rw [zpow_sub_one₀ (by norm_num)]
      field_simp
    have hy : x / 2 ^ q < 2 ^ 52 := div_two_zpow_lt.2 hx
    have hm : em.roundedMantissa = 2 * 2 ^ 52 := by
      refine hnearest.unique ⟨?_, ?_, by omega⟩ <;> push_cast <;> linarith [h.narrow rfl hq]
    have hagain : shiftToTargetExponent .binary64 em.roundedMantissa (q - 1) .exact =
        (⟨2 ^ 52, false, false⟩, q) := by
      have htotal : totalExponent (2 * 2 ^ 52) (q - 1) = q + 53 := by
        rw [totalExponent, show (2 * 2 ^ 52 : Nat).log2 = 53 by decide]
        omega
      rw [hm, shiftToTargetExponent, htotal, targetExponent_eq,
        show max (q + 53 - 53) (-1074) = q by omega, shiftToExponent_double]
    refine roundWithAccuracy_of_shifts s ?_ hagain h.pos
    rw [shiftToTargetExponent, htarget, hshift]

/-! ## How far off -/

/-- What is rounded up to a power of two has one bit more in the units below it. -/
theorem roundsTo_two_pow {t : Int} (ht : -1074 ≤ t) (h : NearestEven (x / 2 ^ t) (2 ^ 53))
    (hx : x < 2 ^ (t + 53)) : RoundsTo x (2 ^ 52) (t + 1) := by
  have hunits : x / 2 ^ (t + 1) = x / 2 ^ t / 2 := by
    rw [zpow_add_one₀ (by norm_num), div_div]
  have hlow := h.lower
  have hhigh : x / 2 ^ t < 2 ^ 53 := div_two_zpow_lt.2 hx
  push_cast at hlow
  refine ⟨⟨by norm_num, by norm_num, by omega, fun _ => le_refl _⟩, ⟨?_, ?_, by omega⟩, ?_⟩ <;>
    rw [hunits] <;> intros <;> push_cast <;> linarith

theorem half_least : (2 : ℚ) ^ (-1075 : Int) = 2 ^ (-1074 : Int) / 2 := by
  rw [show (-1075 : Int) = -1074 - 1 by norm_num, zpow_sub_one₀ (by norm_num)]
  ring

theorem NearestEven.pos (h : NearestEven y n) (hy : 1 / 2 < y) : 0 < n := by
  by_contra hzero
  obtain rfl : n = 0 := by omega
  have hupper := h.upper
  push_cast at hupper
  linarith

/-- What is more than half the least double rounds to a double. -/
theorem exists_roundsTo (hx : (2 : ℚ) ^ (-1075 : Int) < x) : ∃ m q, RoundsTo x m q := by
  have hpos : 0 < x := lt_trans (by positivity) hx
  have hlow : (2 : ℚ) ^ Int.log 2 x ≤ x := by exact_mod_cast Int.zpow_log_le_self (by norm_num) hpos
  have hhigh : x < (2 : ℚ) ^ (Int.log 2 x + 1) := by
    exact_mod_cast Int.lt_zpow_succ_log_self (R := ℚ) (b := 2) (by norm_num) x
  obtain ⟨t, ht⟩ : ∃ t, t = max (Int.log 2 x - 52) (-1074) := ⟨_, rfl⟩
  have htop : x < 2 ^ (t + 53) :=
    hhigh.trans_le (zpow_le_zpow_right₀ (by norm_num) (by omega))
  have hy : x / 2 ^ t < 2 ^ 53 := div_two_zpow_lt.2 htop
  have hfull : -1074 < t → 2 ^ 52 ≤ x / 2 ^ t := fun h =>
    le_div_two_zpow.2 (le_trans (zpow_le_zpow_right₀ (by norm_num) (by omega)) hlow)
  obtain ⟨m, hm⟩ := exists_nearestEven (y := x / 2 ^ t) (by positivity)
  have hle : m ≤ 2 ^ 53 := by
    have hlt : (m : ℚ) < 2 ^ 53 + 1 := by linarith [hm.lower]
    exact Nat.lt_add_one_iff.1 (by exact_mod_cast hlt)
  rcases hle.lt_or_eq with hlt | rfl
  · have hnormal : -1074 < t → 2 ^ 52 ≤ m := fun h => by
      have hgt : (2 : ℚ) ^ 52 < m + 1 := by linarith [hfull h, hm.upper]
      exact Nat.lt_add_one_iff.1 (by exact_mod_cast hgt)
    have hsome : 0 < m := by
      rcases (show -1074 ≤ t by omega).eq_or_lt with heq | hgt
      · refine hm.pos ?_
        rw [lt_div_iff₀ (by positivity), ← heq]
        rw [half_least] at hx
        linarith
      · have hbits := hnormal hgt
        omega
    exact ⟨m, t, ⟨hsome, hlt, by omega, hnormal⟩, hm, fun _ h => by linarith [hfull h]⟩
  · exact ⟨_, _, roundsTo_two_pow (by omega) hm htop⟩

/-- A double is off by at most half a unit in its last place. -/
theorem RoundsTo.error (h : RoundsTo x m q) : |x - m * 2 ^ q| ≤ 2 ^ q / 2 := by
  have hpow : (0 : ℚ) < 2 ^ q := by positivity
  have hx : x = x / 2 ^ q * 2 ^ q := by field_simp
  have hlow := mul_le_mul_of_nonneg_right h.nearest.lower hpow.le
  have hhigh := mul_le_mul_of_nonneg_right h.nearest.upper hpow.le
  rw [← hx] at hlow hhigh
  rw [abs_le]
  constructor <;> linarith

end SignalHub.Decimal
