import SignalHub.Proofs.Doubles
/-!
# Shortest decimals round back

Grids of more and more digits are tried, and of each the two neighbours of the double. The test is
in whole numbers, and it finds the decimals that round to the double. A grid of seventeen digits is
finer than the doubles lie, so there one of the neighbours does.

Results:
* `inside_iff`: the test finds the numbers on the grid that round to the double.
* `exists_inside`: with seventeen digits there is one.
* `Fits.spells_shortest`: the shortest decimal of a double rounds to it.
-/
namespace SignalHub.Decimal

variable {m c : Nat} {q k e : Int} {x : ℚ}

/-! ## Whole numbers compared -/

theorem powUp_eq {base : Nat} (hbase : 0 < base) (e : Int) :
    (powUp base e : ℚ) = base ^ e * powUp base (-e) := by
  have hne : (base : ℚ) ≠ 0 := by exact_mod_cast hbase.ne'
  unfold powUp
  rw [Nat.pow_eq, Nat.pow_eq, Nat.cast_pow, Nat.cast_pow, ← zpow_natCast, ← zpow_natCast,
    ← zpow_add₀ hne]
  congr 1
  omega

theorem powUp_pos {base : Nat} (hbase : 0 < base) (e : Int) : 0 < powUp base e :=
  Nat.pow_pos hbase

/-- A factor that brings multiples of a power of ten and of a power of two to whole numbers. -/
theorem exists_factor (k e : Int) : ∃ d : ℚ, 0 < d ∧
    ((powUp 10 k * powUp 2 (-e) : Nat) : ℚ) = 10 ^ k * d ∧
    ((powUp 2 e * powUp 10 (-k) : Nat) : ℚ) = 2 ^ e * d := by
  have hten := powUp_eq (show 0 < 10 by decide) k
  have htwo := powUp_eq (show 0 < 2 by decide) e
  refine ⟨powUp 10 (-k) * powUp 2 (-e), ?_, ?_, ?_⟩
  · exact_mod_cast Nat.mul_pos (powUp_pos (by decide) _) (powUp_pos (by decide) _)
  · rw [Nat.cast_mul, hten]
    push_cast
    ring
  · rw [Nat.cast_mul, htwo]
    push_cast
    ring

theorem grid_le (c y : Nat) :
    c * (powUp 10 k * powUp 2 (-e)) ≤ y * (powUp 2 e * powUp 10 (-k)) ↔
      (c : ℚ) * 10 ^ k ≤ y * 2 ^ e := by
  obtain ⟨d, hd, hleft, hright⟩ := exists_factor k e
  rw [← Nat.cast_le (α := ℚ), Nat.cast_mul c, Nat.cast_mul y, hleft, hright, ← mul_assoc,
    ← mul_assoc, mul_le_mul_iff_of_pos_right hd]

theorem le_grid (c y : Nat) :
    y * (powUp 2 e * powUp 10 (-k)) ≤ c * (powUp 10 k * powUp 2 (-e)) ↔
      (y : ℚ) * 2 ^ e ≤ c * 10 ^ k := by
  obtain ⟨d, hd, hleft, hright⟩ := exists_factor k e
  rw [← Nat.cast_le (α := ℚ), Nat.cast_mul c, Nat.cast_mul y, hleft, hright, ← mul_assoc,
    ← mul_assoc, mul_le_mul_iff_of_pos_right hd]

/-! ## Grids -/

/-- Whether a number on the grid of step `10^k` is among those that round to a double: the test by
which grids are tried. -/
def inside (b : Binary) (k : Int) (c : Nat) : Bool :=
  let right := powUp 2 (b.exponent - 2) * powUp 10 (-k)
  let left := powUp 10 k * powUp 2 (-(b.exponent - 2))
  if b.significand % 2 = 0 then b.quarters.1 * right ≤ c * left && c * left ≤ b.quarters.2.2 * right
  else b.quarters.1 * right < c * left && c * left < b.quarters.2.2 * right

/-- The last number on a grid that is not beyond a double. -/
def below (b : Binary) (k : Int) : Nat :=
  4 * b.significand * (powUp 2 (b.exponent - 2) * powUp 10 (-k)) /
    (powUp 10 k * powUp 2 (-(b.exponent - 2)))

/-- A grid gives a neighbour of the double that rounds to it, if one does. -/
theorem tryGrid_cases (b : Binary) (k : Int) :
    (∃ c, tryGrid b k = some c ∧ (c = below b k ∨ c = below b k + 1) ∧ inside b k c) ∨
      tryGrid b k = none ∧ inside b k (below b k) = false ∧ inside b k (below b k + 1) = false := by
  unfold tryGrid
  dsimp only [Binary.quarters]
  split
  · rename_i hlow hhigh
    -- Which of two neighbours is nearer does not matter here.
    split
    · exact .inl ⟨_, rfl, .inl rfl, hlow⟩
    · exact .inl ⟨_, rfl, .inr rfl, hhigh⟩
  · rename_i hlow _
    exact .inl ⟨_, rfl, .inl rfl, hlow⟩
  · rename_i _ hhigh
    exact .inl ⟨_, rfl, .inr rfl, hhigh⟩
  · rename_i hlow hhigh
    exact .inr ⟨rfl, hlow, hhigh⟩

/-- A double as it is taken apart. -/
def parts (m : Nat) (q : Int) : Binary := ⟨m, q, decide (m = 2 ^ 52 ∧ -1074 < q)⟩

theorem quarters_le {y : Nat} : (y : ℚ) * 2 ^ (q - 2) ≤ x ↔ (y : ℚ) / 4 ≤ x / 2 ^ q := by
  rw [zpow_sub₀ (by norm_num), le_div_iff₀ (by positivity), ← mul_div_assoc, div_mul_eq_mul_div]
  norm_num

theorem le_quarters {y : Nat} : x ≤ (y : ℚ) * 2 ^ (q - 2) ↔ x / 2 ^ q ≤ (y : ℚ) / 4 := by
  rw [zpow_sub₀ (by norm_num), div_le_iff₀ (by positivity), ← mul_div_assoc, div_mul_eq_mul_div]
  norm_num

/-- The lower end of the numbers that round to a double. -/
def lowest (m : Nat) (q : Int) : ℚ := m - if m = 2 ^ 52 ∧ -1074 < q then 1 / 4 else 1 / 2

theorem quarters_parts (h : 0 < m) (q : Int) : ((parts m q).quarters.1 : ℚ) / 4 = lowest m q ∧
    ((parts m q).quarters.2.2 : ℚ) / 4 = m + 1 / 2 := by
  have hone : 2 ≤ 4 * m := by omega
  unfold parts Binary.quarters lowest
  split <;> rename_i hnarrow
  · simp only [decide_eq_true_eq] at hnarrow
    rw [if_pos hnarrow, Nat.cast_sub (show 1 ≤ 4 * m by omega)]
    push_cast
    exact ⟨by ring, by ring⟩
  · simp only [decide_eq_true_eq] at hnarrow
    rw [if_neg hnarrow, Nat.cast_sub hone]
    push_cast
    exact ⟨by ring, by ring⟩

theorem roundsTo_iff (h : Normalized m q) : RoundsTo x m q ↔
    if m % 2 = 0 then lowest m q ≤ x / 2 ^ q ∧ x / 2 ^ q ≤ m + 1 / 2
    else lowest m q < x / 2 ^ q ∧ x / 2 ^ q < m + 1 / 2 := by
  have hlowest : (m : ℚ) - 1 / 2 ≤ lowest m q := by
    unfold lowest
    split <;> linarith
  constructor
  · intro hround
    have hlow := hround.nearest.lower
    split
    · refine ⟨?_, hround.nearest.upper⟩
      unfold lowest
      split
      · rename_i hnarrow
        have hquarter := hround.narrow hnarrow.1 hnarrow.2
        have hm : (m : ℚ) = 2 ^ 52 := by exact_mod_cast hnarrow.1
        linarith
      · exact hlow
    · rename_i hodd
      have hstrict := hround.nearest.odd (by omega)
      have hwide : ¬ (m = 2 ^ 52 ∧ -1074 < q) := by
        rintro ⟨rfl, -⟩
        exact hodd (by norm_num)
      rw [lowest, if_neg hwide]
      exact hstrict
  · intro hbetween
    have hnarrow : m = 2 ^ 52 → -1074 < q → lowest m q = 2 ^ 52 - 1 / 4 := by
      rintro rfl hq
      rw [lowest, if_pos ⟨rfl, hq⟩]
      norm_num
    split at hbetween
    · rename_i heven
      refine { h with nearest := ⟨by linarith, hbetween.2, by omega⟩, narrow := fun hm hq => ?_ }
      rw [← hnarrow hm hq]
      exact hbetween.1
    · rename_i hodd
      refine { h with
        nearest := ⟨by linarith, hbetween.2.le, fun _ => ⟨by linarith, hbetween.2⟩⟩
        narrow := fun hm hq => ?_ }
      rw [← hnarrow hm hq]
      exact hbetween.1.le

/-- The test finds the numbers that round to the double. -/
theorem inside_iff (h : Normalized m q) (k : Int) (c : Nat) :
    inside (parts m q) k c ↔ RoundsTo (c * 10 ^ k) m q := by
  obtain ⟨hlow, hhigh⟩ := quarters_parts h.pos q
  have hlow' := le_grid (k := k) (e := q - 2) c (parts m q).quarters.1
  have hlow'' := grid_le (k := k) (e := q - 2) c (parts m q).quarters.1
  have hhigh' := grid_le (k := k) (e := q - 2) c (parts m q).quarters.2.2
  have hhigh'' := le_grid (k := k) (e := q - 2) c (parts m q).quarters.2.2
  rw [quarters_le, hlow] at hlow'
  rw [le_quarters, hlow] at hlow''
  rw [le_quarters, hhigh] at hhigh'
  rw [quarters_le, hhigh] at hhigh''
  rw [roundsTo_iff h]
  unfold inside
  simp only [show (parts m q).exponent = q from rfl, show (parts m q).significand = m from rfl]
  split
  · rw [Bool.and_eq_true, decide_eq_true_eq, decide_eq_true_eq, hlow', hhigh']
  · rw [Bool.and_eq_true, decide_eq_true_eq, decide_eq_true_eq, ← not_le, ← not_le, hlow'',
      hhigh'', not_le, not_le]

/-- The double lies between two neighbours on a grid. -/
theorem below_le (m : Nat) (q k : Int) : (below (parts m q) k : ℚ) * 10 ^ k ≤ m * 2 ^ q ∧
    m * 2 ^ q < ((below (parts m q) k + 1 : Nat) : ℚ) * 10 ^ k := by
  have hdouble : ((4 * m : Nat) : ℚ) * 2 ^ (q - 2) = m * 2 ^ q := by
    rw [zpow_sub₀ (by norm_num)]
    push_cast
    ring
  have hpos : 0 < powUp 10 k * powUp 2 (-(q - 2)) :=
    Nat.mul_pos (powUp_pos (by decide) _) (powUp_pos (by decide) _)
  rw [← hdouble, ← grid_le, ← not_le, ← grid_le, not_le]
  exact ⟨Nat.div_mul_le_self _ _, Nat.lt_mul_of_div_lt (Nat.lt_succ_self _) hpos⟩

/-! ## Seventeen digits -/

/-- Whether the leading digit of a number has the weight `10^l`. -/
def Leads (l : Int) (x : ℚ) : Prop := 10 ^ l ≤ x ∧ x < 10 ^ (l + 1)

theorem floor_pos {t : Nat} (hm : 0 < m) (ht : powUp 2 (-q) ≤ t) :
    0 < m * t * powUp 2 q / powUp 2 (-q) := by
  refine Nat.div_pos (ht.trans ?_) (powUp_pos (by decide) _)
  rw [mul_comm m, mul_assoc]
  exact Nat.le_mul_of_pos_right _ (Nat.mul_pos hm (powUp_pos (by decide) _))

theorem floor_between (m t : Nat) (q : Int) :
    ((m * t * powUp 2 q / powUp 2 (-q) : Nat) : ℚ) ≤ m * 2 ^ q * t ∧
      (m : ℚ) * 2 ^ q * t < (m * t * powUp 2 q / powUp 2 (-q) : Nat) + 1 := by
  have hpow : (0 : ℚ) < powUp 2 (-q) := by exact_mod_cast powUp_pos (by decide) _
  have htwo := powUp_eq (show 0 < 2 by decide) q
  have hexact : (m : ℚ) * 2 ^ q * t * powUp 2 (-q) = ((m * t * powUp 2 q : Nat) : ℚ) := by
    push_cast
    rw [htwo]
    push_cast
    ring
  have hlow := Nat.div_mul_le_self (m * t * powUp 2 q) (powUp 2 (-q))
  have hhigh := Nat.lt_mul_of_div_lt (Nat.lt_succ_self (m * t * powUp 2 q / powUp 2 (-q)))
    (powUp_pos (by decide) (-q))
  rw [← mul_le_mul_iff_of_pos_right hpow, ← mul_lt_mul_iff_of_pos_right hpow, hexact]
  exact ⟨by exact_mod_cast hlow, by exact_mod_cast hhigh⟩

theorem exists_length_toDigits {n : Nat} (hn : 0 < n) :
    ∃ l, (Nat.toDigits 10 n).length = l + 1 ∧ 10 ^ l ≤ n ∧ n < 10 ^ (l + 1) := by
  obtain ⟨l, hl⟩ := Nat.exists_eq_succ_of_ne_zero (Nat.length_toDigits_pos (b := 10) (n := n)).ne'
  refine ⟨l, hl, ?_, (Nat.length_toDigits_le_iff (by decide) (Nat.succ_pos l)).1 hl.le⟩
  rcases Nat.eq_zero_or_pos l with rfl | hpos
  · exact hn
  · refine Nat.le_of_not_lt fun hlt => ?_
    have hle := (Nat.length_toDigits_le_iff (by decide) hpos).2 hlt
    omega

/-- The leading digit of a double is found by counting the digits of a large multiple. -/
theorem leads_of_count {i : Nat} {j : Int} (hm : 0 < m) (hi : powUp 2 (-q) ≤ Nat.pow 10 i)
    (hj : j = i + 1) :
    Leads ((Nat.toDigits 10 (m * Nat.pow 10 i * powUp 2 q / powUp 2 (-q))).length - j)
      (m * 2 ^ q) := by
  obtain ⟨l, hl, hlow, hhigh⟩ := exists_length_toDigits (floor_pos hm hi)
  obtain ⟨hbelow, habove⟩ := floor_between m (Nat.pow 10 i) q
  have hten : ((Nat.pow 10 i : Nat) : ℚ) = 10 ^ i := by
    rw [Nat.pow_eq, Nat.cast_pow, Nat.cast_ofNat]
  rw [hl, hj]
  rw [hten] at hbelow habove
  generalize m * Nat.pow 10 i * powUp 2 q / powUp 2 (-q) = n at *
  have hlow' : (10 : ℚ) ^ l ≤ n := by exact_mod_cast hlow
  have hhigh' : (n : ℚ) + 1 ≤ 10 ^ (l + 1) := by exact_mod_cast hhigh
  have hpos : (0 : ℚ) < 10 ^ i := by positivity
  have hweight : ((l + 1 : Nat) : Int) - (i + 1) = (l : Int) - i := by omega
  have hnext : ((l : Int) - i + 1) = ((l + 1 : Nat) : Int) - i := by omega
  rw [hweight, Leads, hnext, zpow_sub₀ (by norm_num), zpow_sub₀ (by norm_num), zpow_natCast,
    zpow_natCast, zpow_natCast, div_le_iff₀ hpos, lt_div_iff₀ hpos]
  exact ⟨hlow'.trans hbelow, habove.trans_le hhigh'⟩

theorem powUp_two_le {i n : Nat} (he : (-e).toNat ≤ 13 * n) (hi : 4 * n ≤ i) :
    powUp 2 (-e) ≤ Nat.pow 10 i := by
  have hbits : 2 ^ (13 * n) ≤ 10 ^ (4 * n) := by
    rw [Nat.pow_mul, Nat.pow_mul]
    exact Nat.pow_le_pow_left (by norm_num) n
  calc powUp 2 (-e) ≤ 2 ^ (13 * n) := Nat.pow_le_pow_right (by norm_num) he
    _ ≤ 10 ^ (4 * n) := hbits
    _ ≤ Nat.pow 10 i := Nat.pow_le_pow_right (by norm_num) hi

theorem leads_leading (h : Normalized m q) : Leads (parts m q).leading (m * 2 ^ q) := by
  have hleast := h.least
  unfold Binary.leading
  generalize hi : 340 = i
  have hlarge : powUp 2 (-q) ≤ Nat.pow 10 i := powUp_two_le (n := 83) (by omega) (by omega)
  exact leads_of_count h.pos hlarge (by omega)

/-- What lies near enough to a double rounds to it. -/
theorem roundsTo_of_near (h : Normalized m q) (hlow : lowest m q < x / 2 ^ q)
    (hhigh : x / 2 ^ q < m + 1 / 2) : RoundsTo x m q := by
  rw [roundsTo_iff h]
  split
  · exact ⟨hlow.le, hhigh.le⟩
  · exact ⟨hlow, hhigh⟩

/-- With seventeen digits the grid is so fine that a neighbour of the double rounds to it. -/
theorem exists_inside (h : Normalized m q) (hk : (10 : ℚ) ^ k * 10 ^ 16 ≤ m * 2 ^ q) :
    inside (parts m q) k (below (parts m q) k) ∨
      inside (parts m q) k (below (parts m q) k + 1) := by
  rw [inside_iff h, inside_iff h]
  by_contra hneither
  obtain ⟨hnot, hnot'⟩ := not_or.1 hneither
  obtain ⟨hbelow, habove⟩ := below_le m q k
  generalize below (parts m q) k = c at *
  have hpow : (0 : ℚ) < 2 ^ q := by positivity
  have hm : (m : ℚ) + 1 ≤ 2 ^ 53 := by exact_mod_cast h.lt
  rw [← div_le_iff₀ hpow] at hbelow
  rw [← lt_div_iff₀ hpow] at habove
  have hstep : ((c + 1 : Nat) : ℚ) * 10 ^ k / 2 ^ q = c * 10 ^ k / 2 ^ q + 10 ^ k / 2 ^ q := by
    push_cast
    ring
  have hfine : (10 : ℚ) ^ k / 2 ^ q * 10 ^ 16 ≤ m := by
    rw [div_mul_eq_mul_div, div_le_iff₀ hpow]
    exact hk
  have hlow : (c : ℚ) * 10 ^ k / 2 ^ q ≤ lowest m q := by
    by_contra hnear
    exact hnot (roundsTo_of_near h (not_le.1 hnear) (by linarith))
  have hlowest : lowest m q < m := by
    unfold lowest
    split <;> linarith
  have hhigh : (m : ℚ) + 1 / 2 ≤ ((c + 1 : Nat) : ℚ) * 10 ^ k / 2 ^ q := by
    by_contra hnear
    exact hnot' (roundsTo_of_near h (by linarith) (not_le.1 hnear))
  rw [hstep] at hhigh
  unfold lowest at hlow
  split at hlow
  · rename_i hnarrow
    have hm' : (m : ℚ) = 2 ^ 52 := by exact_mod_cast hnarrow.1
    linarith
  · linarith

/-! ## The search -/

theorem dropZeros_spec (fuel n : Nat) (k : Int) (hn : 0 < n) :
    0 < (dropZeros fuel n k).digits ∧ (dropZeros fuel n k).digits ≤ n ∧
      ((dropZeros fuel n k).digits : ℚ) * 10 ^ (dropZeros fuel n k).exponent = n * 10 ^ k := by
  induction fuel generalizing n k with
  | zero => exact ⟨hn, Nat.le_refl n, rfl⟩
  | succ fuel ih =>
    rw [dropZeros]
    split
    · rename_i hzero
      obtain ⟨hpos, hle, hvalue⟩ := ih (n / 10) (k + 1) (by omega)
      refine ⟨hpos, by omega, hvalue.trans ?_⟩
      have hten : (n : ℚ) = (n / 10 : Nat) * 10 := by
        exact_mod_cast (Nat.div_mul_cancel (Nat.dvd_of_mod_eq_zero hzero)).symm
      rw [zpow_add_one₀ (by norm_num), hten]
      ring
    · exact ⟨hn, Nat.le_refl n, rfl⟩

/-- A decimal that has at most seventeen digits and rounds to a double. -/
structure Spells (d : Scaled) (m : Nat) (q : Int) : Prop where
  pos : 0 < d.digits
  short : d.digits ≤ 10 ^ 17
  rounds : RoundsTo (d.digits * 10 ^ d.exponent) m q

theorem below_lt (h : (m : ℚ) * 2 ^ q < 10 ^ (k + (n : Nat))) : below (parts m q) k < 10 ^ n := by
  have hle := (below_le m q k).1.trans_lt h
  rw [zpow_add₀ (by norm_num), mul_comm ((10 : ℚ) ^ k),
    mul_lt_mul_iff_of_pos_right (zpow_pos (by norm_num) _), zpow_natCast] at hle
  exact_mod_cast hle

/-- The search ends with a decimal that rounds to the double, at seventeen digits at the latest. -/
theorem searchGrids_spec (h : Normalized m q) {l : Int} (hl : Leads l (m * 2 ^ q))
    (fuel digits : Nat) (hpos : 1 ≤ digits) (hdigits : digits ≤ 17) (hfuel : 17 < digits + fuel) :
    Spells (searchGrids (parts m q) l fuel digits) m q := by
  induction fuel generalizing digits with
  | zero => omega
  | succ fuel ih =>
    have hlt : below (parts m q) (l - digits + 1) < 10 ^ digits :=
      below_lt (by rw [show l - digits + 1 + (digits : Int) = l + 1 by ring]; exact hl.2)
    have htop : 10 ^ digits ≤ 10 ^ 17 := Nat.pow_le_pow_right (by norm_num) hdigits
    rcases tryGrid_cases (parts m q) (l - digits + 1) with ⟨c, htry, hc, hin⟩ | ⟨htry, hlow, hhigh⟩
    · rw [inside_iff h] at hin
      have hsome : 0 < c := by
        rcases Nat.eq_zero_or_pos c with rfl | hsome
        · have hzero := hin.positive
          simp at hzero
        · exact hsome
      obtain ⟨hd, hle, hvalue⟩ := dropZeros_spec 18 c (l - digits + 1) hsome
      rw [searchGrids]
      simp only [htry, if_neg hsome.ne']
      exact ⟨hd, by omega, by rw [hvalue]; exact hin⟩
    · rw [searchGrids]
      simp only [htry]
      refine ih (digits + 1) (by omega) ?_ (by omega)
      by_contra hlast
      obtain rfl : digits = 17 := by omega
      have hfine : (10 : ℚ) ^ (l - (17 : Nat) + 1) * 10 ^ 16 ≤ m * 2 ^ q := by
        refine le_trans (le_of_eq ?_) hl.1
        rw [← zpow_natCast, ← zpow_add₀ (by norm_num)]
        congr 1
        push_cast
        ring
      rcases exists_inside h hfine with hin | hin
      · rw [hlow] at hin
        cases hin
      · rw [hhigh] at hin
        cases hin

variable {f : Float}

/-- The decimal as which a double is written rounds to it. -/
theorem Fits.spells_shortest (h : Fits m q) (s : Float.Model.UnpackedFloat.Sign) :
    Spells (shortest (double s m q h.pos)) m q := by
  have hshortest : shortest (double s m q h.pos) =
      searchGrids (parts m q) (parts m q).leading 18 1 := by
    simp only [shortest, h.ofFloat_double]
    exact if_neg h.pos.ne'
  rw [hshortest]
  exact searchGrids_spec h.toNormalized (leads_leading h.toNormalized) 18 1 (by norm_num)
    (by norm_num) (by norm_num)

theorem ten_zpow_lt : (10 : ℚ) ^ (-600 : Int) < 2 ^ (-1075 : Int) := by
  have hnat : 2 ^ 1075 < 10 ^ 600 := by decide +kernel
  have hrat : (2 : ℚ) ^ 1075 < 10 ^ 600 := by exact_mod_cast hnat
  rw [zpow_neg, zpow_neg, inv_lt_inv₀ (zpow_pos (by norm_num) _) (zpow_pos (by norm_num) _)]
  exact hrat

theorem two_zpow_lt : (2 : ℚ) ^ (1024 : Int) < 10 ^ (309 : Int) := by
  have hnat : 2 ^ 1024 < 10 ^ 309 := by decide +kernel
  have hrat : (2 : ℚ) ^ 1024 < 10 ^ 309 := by exact_mod_cast hnat
  exact hrat

variable {d : Scaled}

theorem Spells.le_exponent (h : Spells d m q) : -616 ≤ d.exponent := by
  by_contra hsmall
  have hshort : (d.digits : ℚ) ≤ 10 ^ 17 := by exact_mod_cast h.short
  have hlow := h.rounds.nearest.lower
  have hm : (1 : ℚ) ≤ m := by exact_mod_cast h.rounds.pos
  have hleast : (2 : ℚ) ^ (-1074 : Int) ≤ 2 ^ q := zpow_le_zpow_right₀ (by norm_num) h.rounds.least
  rw [le_div_iff₀ (by positivity)] at hlow
  have htop : (d.digits : ℚ) * 10 ^ d.exponent ≤ 10 ^ (-600 : Int) := by
    calc (d.digits : ℚ) * 10 ^ d.exponent ≤ 10 ^ 17 * 10 ^ (-617 : Int) := by
          refine mul_le_mul hshort (zpow_le_zpow_right₀ (by norm_num) (by omega)) (by positivity) ?_
          positivity
      _ = 10 ^ (-600 : Int) := by
        rw [← zpow_natCast, ← zpow_add₀ (by norm_num)]
        norm_num
  have hhalf := ten_zpow_lt
  rw [half_least] at hhalf
  have hplace : (2 : ℚ) ^ q / 2 ≤ (m - 1 / 2) * 2 ^ q := by
    have hpos : (0 : ℚ) < 2 ^ q := by positivity
    have hmul := mul_le_mul_of_nonneg_right hm hpos.le
    linarith
  linarith

theorem Spells.exponent_le (h : Spells d m q) (hq : q ≤ 971) : d.exponent ≤ 308 := by
  by_contra hlarge
  have hone : (1 : ℚ) ≤ d.digits := by exact_mod_cast h.pos
  have hpow : (10 : ℚ) ^ (309 : Int) ≤ 10 ^ d.exponent :=
    zpow_le_zpow_right₀ (by norm_num) (by omega)
  have hhigh := h.rounds.lt_two_zpow
  have htop : (2 : ℚ) ^ (q + 53) ≤ 2 ^ (1024 : Int) := zpow_le_zpow_right₀ (by norm_num) (by omega)
  have hmul := le_mul_of_one_le_left (show (0 : ℚ) ≤ 10 ^ d.exponent by positivity) hone
  exact absurd (two_zpow_lt.trans_le (hpow.trans (hmul.trans (hhigh.le.trans htop)))) (lt_irrefl _)

end SignalHub.Decimal
