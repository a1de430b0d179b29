import SignalHub.Json.Number
import SignalHub.Proofs.Arithmetic
/-!
# Scaling a significand

A significand times a power of ten is found by up to three operations on doubles, each of which
rounds. Every rounding moves the result by a fraction of it, or by half the least double; together
they move it by less than 2^-50 of it. A decimal from which a double was written is read as a double
that close to it. If the significand is a double and the power of ten is one too, there is one
rounding only, and it finds the double that was written.

Results:
* `Within`: amounts that lie close together, and how closeness adds up.
* `Scales.exists_reading`: the decimal of a double is read as a double close to it.
* `Scales.scale_eq`: it is read as the same double if its significand and its power of ten are
  doubles.
-/
namespace SignalHub.Decimal

variable {m n s : Nat} {q : Int} {x y z : ℚ} {r r' r'' d d' d'' : ℚ} {f g : Float}

/-! ## Closeness -/

/-- Two amounts of which neither is more than a fraction `r` and an amount `d` above the other. -/
structure Within (r d x y : ℚ) : Prop where
  le : x ≤ (1 + r) * y + d
  ge : y ≤ (1 + r) * x + d

theorem Within.symm (h : Within r d x y) : Within r d y x := ⟨h.ge, h.le⟩

theorem Within.trans (h : Within r d x y) (h' : Within r' d' y z) (hr : 0 ≤ r) (hr' : 0 ≤ r')
    (hx : 0 ≤ x) (hz : 0 ≤ z)
    (hsum : (1 + r) * (1 + r') ≤ 1 + r'') (hd : (1 + r) * d' + d ≤ d'')
    (hd' : (1 + r') * d + d' ≤ d'') : Within r'' d'' x z where
  le := by
    have hstep := mul_le_mul_of_nonneg_left h'.le (show 0 ≤ 1 + r by linarith)
    have hprod := mul_le_mul_of_nonneg_right hsum hz
    linarith [h.le]
  ge := by
    have hstep := mul_le_mul_of_nonneg_left h.ge (show 0 ≤ 1 + r' by linarith)
    have hprod := mul_le_mul_of_nonneg_right hsum hx
    linarith [h'.ge]

theorem Within.mono (h : Within r d x y) (hr : r ≤ r') (hd : d ≤ d') (hx : 0 ≤ x) (hy : 0 ≤ y) :
    Within r' d' x y where
  le := by
    have hmul := mul_le_mul_of_nonneg_right hr hy
    linarith [h.le]
  ge := by
    have hmul := mul_le_mul_of_nonneg_right hr hx
    linarith [h.ge]

/-- Amounts divided by the same one lie no less close, as what is added shrinks with them. -/
theorem Within.div (h : Within r d x y) (hz : 0 < z) : Within r (d / z) (x / z) (y / z) where
  le := by
    have hdiv := div_le_div_of_nonneg_right h.le hz.le
    rwa [add_div, mul_div_assoc] at hdiv
  ge := by
    have hdiv := div_le_div_of_nonneg_right h.ge hz.le
    rwa [add_div, mul_div_assoc] at hdiv

theorem Within.mul (h : Within r 0 x y) (hz : 0 ≤ z) : Within r 0 (z * x) (z * y) where
  le := by
    have hmul := mul_le_mul_of_nonneg_left h.le hz
    linarith
  ge := by
    have hmul := mul_le_mul_of_nonneg_left h.ge hz
    linarith

theorem Within.div_left (h : Within r 0 x y) (hx : 0 < x) (hy : 0 < y) (hz : 0 ≤ z) :
    Within r 0 (z / x) (z / y) where
  le := by
    have hmul := mul_le_mul_of_nonneg_left h.ge hz
    rw [add_zero, ← mul_div_assoc, div_le_div_iff₀ hx hy]
    linarith
  ge := by
    have hmul := mul_le_mul_of_nonneg_left h.le hz
    rw [add_zero, ← mul_div_assoc, div_le_div_iff₀ hy hx]
    linarith

/-- How far a double may be off, as a fraction of it. -/
def roundoff : ℚ := 1 / 2 ^ 53

/-- How far one of the least doubles may be off. -/
def halfLeast : ℚ := 2 ^ (-1075 : Int)

theorem halfLeast_pos : 0 < halfLeast := by
  unfold halfLeast
  positivity

theorem RoundsTo.within_of_normal (h : RoundsTo x m q) (hq : -1074 < q) :
    Within roundoff 0 x (m * 2 ^ q) := by
  have hpow : (0 : ℚ) < 2 ^ q := by positivity
  have hunits : Within roundoff 0 (x / 2 ^ q) m := by
    have hlow := h.quarter_le hq
    have hlower := h.nearest.lower
    have hupper := h.nearest.upper
    unfold roundoff
    rcases (h.full hq).eq_or_lt with heq | hlt
    · have hm : (m : ℚ) = 2 ^ 52 := by exact_mod_cast heq.symm
      rw [hm] at hlower hupper ⊢
      exact ⟨by linarith, by linarith⟩
    · have hm : (2 : ℚ) ^ 52 + 1 ≤ m := by exact_mod_cast hlt
      exact ⟨by linarith, by linarith⟩
  have hscaled := hunits.mul hpow.le
  rwa [mul_div_cancel₀ _ hpow.ne', mul_comm] at hscaled

/-- A number and the double that it rounds to lie close together. -/
theorem RoundsTo.within (h : RoundsTo x m q) : Within roundoff halfLeast x (m * 2 ^ q) := by
  have hleast := halfLeast_pos
  rcases h.least.eq_or_lt with heq | hlt
  · have herror := abs_le.1 h.error
    have hhalf : (2 : ℚ) ^ q / 2 = halfLeast := by rw [halfLeast, half_least, heq]
    have hx : 0 ≤ roundoff * x := mul_nonneg (by norm_num [roundoff]) h.positive.le
    have hm : 0 ≤ roundoff * (m * 2 ^ q) := mul_nonneg (by norm_num [roundoff]) (by positivity)
    rw [hhalf] at herror
    exact ⟨by linarith, by linarith⟩
  · have hclose := h.within_of_normal hlt
    exact ⟨by linarith [hclose.le], by linarith [hclose.ge]⟩

/-! ## One operation -/

/-- Quotients that are neither too small nor too large are close to the exact ones. -/
theorem Holds.exists_div (hf : Holds f x) (hg : Holds g y) (hlow : halfLeast < x / y)
    (hhigh : x / y < limit) : ∃ z, Holds (f / g) z ∧ Within roundoff halfLeast (x / y) z := by
  obtain ⟨m, q, h⟩ := exists_roundsTo hlow
  refine ⟨_, ?_, h.within⟩
  rw [hf.div_eq hg h]
  exact (h.fits hhigh).holds

theorem RoundsTo.normal_of_one_le (h : RoundsTo x m q) (hx : 1 ≤ x) : -1074 < q := by
  have hlt := hx.trans_lt h.lt_two_zpow
  rw [one_lt_zpow_iff_right₀ (by norm_num)] at hlt
  omega

/-- What is at least one and below the limit is close to the double that it rounds to. -/
theorem exists_nearest (hlow : 1 ≤ x) (hhigh : x < limit) :
    ∃ m q, Fits m q ∧ RoundsTo x m q ∧ Within roundoff 0 x (m * 2 ^ q) := by
  have hleast : (2 : ℚ) ^ (-1075 : Int) < x :=
    lt_of_lt_of_le (zpow_lt_one_of_neg₀ (by norm_num) (by norm_num)) hlow
  obtain ⟨m, q, h⟩ := exists_roundsTo hleast
  exact ⟨m, q, h.fits hhigh, h, h.within_of_normal (h.normal_of_one_le hlow)⟩

/-- A power of ten is made a double close to it. -/
theorem exists_pow10 (hn : n ≤ 308) :
    ∃ p, Holds (Json.pow10 n) p ∧ Within roundoff 0 (10 ^ n) p := by
  have hlow : (1 : ℚ) ≤ 10 ^ n := one_le_pow₀ (by norm_num)
  obtain ⟨m, q, hfits, h, hclose⟩ := exists_nearest hlow (ten_pow_lt_limit hn)
  have hten : Json.pow10 n = double .positive m q h.pos :=
    ofScientific_eq (by rw [Nat.cast_one, one_mul]; exact h) Nat.one_pos (by omega)
  exact ⟨_, hten ▸ hfits.holds, hclose⟩

/-- A whole number is made a double close to it. -/
theorem exists_ofNat (hs : 0 < s) (hs' : s ≤ 10 ^ 17) :
    ∃ a, Holds (Float.ofNat s) a ∧ Within roundoff 0 s a := by
  have hlow : (1 : ℚ) ≤ s := by exact_mod_cast hs
  have htop : (s : ℚ) ≤ 10 ^ 17 := by exact_mod_cast hs'
  have hhigh : (s : ℚ) < limit := htop.trans_lt (ten_pow_lt_limit (by norm_num))
  obtain ⟨m, q, hfits, h, hclose⟩ := exists_nearest hlow hhigh
  have hwhole : Float.ofNat s = double .positive m q h.pos :=
    ofScientific_eq (by rw [pow_zero, mul_one]; exact h) hs (by omega)
  exact ⟨_, hwhole ▸ hfits.holds, hclose⟩

theorem halfLeast_lt : halfLeast < 1 / 4 := by
  have hquarter : (1 / 4 : ℚ) = 2 ^ (-2 : Int) := by norm_num
  rw [hquarter]
  exact zpow_lt_zpow_right₀ (by norm_num) (by norm_num)

variable {a : ℚ}

/-- Dividing by a power of ten adds two roundings to how far off the dividend is. -/
theorem Holds.exists_div_pow10 (hf : Holds f a) (hclose : Within r d x a) (hn : n ≤ 308)
    (hr : 0 ≤ r) (hr' : r ≤ 4 * roundoff) (hd : 0 ≤ d)
    (hlow : 2 * halfLeast + 2 * (d / 10 ^ n) ≤ x / 10 ^ n) (hhigh : 2 * (x / 10 ^ n) < limit) :
    ∃ w, Holds (f / Json.pow10 n) w ∧
      Within (r + 2.1 * roundoff) (1.1 * (d / 10 ^ n + halfLeast)) (x / 10 ^ n) w := by
  obtain ⟨p, hp, hten⟩ := exists_pow10 hn
  have hpos := halfLeast_pos
  have hu : roundoff = 1 / 2 ^ 53 := rfl
  have hd' : 0 ≤ d / 10 ^ n := by positivity
  have hx : 0 < x / 10 ^ n := by linarith
  have ha : 0 < a / p := div_pos hf.pos hp.pos
  rw [hu] at hr' ⊢
  have hexact : Within (r + 1.05 * (1 / 2 ^ 53)) (1.05 * (d / 10 ^ n)) (x / 10 ^ n) (a / p) :=
    (hclose.div (by positivity)).trans (hten.div_left (by positivity) hp.pos hf.pos.le) hr
      (by norm_num [roundoff]) hx.le ha.le (by rw [hu]; linarith) (by linarith)
      (by rw [hu]; linarith)
  have hle := hexact.le
  have hge := hexact.ge
  have hra := mul_le_mul_of_nonneg_right hr' ha.le
  have hrx := mul_le_mul_of_nonneg_right hr' hx.le
  have hrh := mul_le_mul_of_nonneg_right hr' hpos.le
  obtain ⟨w, hw, hrounded⟩ := hf.exists_div hp (by linarith) (by linarith)
  exact ⟨w, hw, hexact.trans hrounded (by linarith) (by norm_num [roundoff]) hx.le hw.pos.le
    (by rw [hu]; linarith) (by linarith) (by rw [hu]; linarith)⟩

/-! ## Scaling -/

/-- Scaling down a significand stays close to the exact quotient, in one step or in two. -/
theorem exists_scaleDown (hs : 0 < s) (hs' : s ≤ 10 ^ 17) (hn : n ≤ 616)
    (hlow : 3 * halfLeast ≤ (s : ℚ) / 10 ^ n) :
    ∃ w, Holds (Json.scaleDown (Float.ofNat s) n) w ∧
      Within (6 * roundoff) (2 * halfLeast) (s / 10 ^ n) w := by
  obtain ⟨a, ha, hclose⟩ := exists_ofNat hs hs'
  have hu : 0 ≤ roundoff := by norm_num [roundoff]
  have hpos := halfLeast_pos
  have hsmall : ∀ k : Nat, 2 * ((s : ℚ) / 10 ^ k) < limit := by
    intro k
    have hs'' : (s : ℚ) ≤ 10 ^ 17 := by exact_mod_cast hs'
    have hdiv : (s : ℚ) / 10 ^ k ≤ s := div_le_self (Nat.cast_nonneg s) (one_le_pow₀ (by norm_num))
    calc 2 * ((s : ℚ) / 10 ^ k) ≤ 10 ^ 18 := by linarith
      _ < limit := ten_pow_lt_limit (by norm_num)
  by_cases hone : n ≤ 308
  · obtain ⟨w, hw, hnear⟩ := ha.exists_div_pow10 hclose hone hu (by linarith) le_rfl
      (by rw [zero_div]; linarith) (hsmall n)
    refine ⟨w, ?_, hnear.mono (by linarith) (by rw [zero_div]; linarith) (by linarith) hw.pos.le⟩
    rw [Json.scaleDown, if_pos hone]
    exact hw
  · obtain ⟨k, rfl⟩ : ∃ k, n = 308 + (k + 1) := ⟨n - 309, by omega⟩
    have hten : (10 : ℚ) ≤ 10 ^ (k + 1) := le_self_pow₀ (by norm_num) (by omega)
    have hsplit : (s : ℚ) / 10 ^ (308 + (k + 1)) = s / 10 ^ 308 / 10 ^ (k + 1) := by
      rw [pow_add, div_div]
    rw [hsplit] at hlow ⊢
    have hfirst : 3 * halfLeast ≤ (s : ℚ) / 10 ^ 308 :=
      hlow.trans (div_le_self (by positivity) (by linarith))
    have hlow' : 2 * halfLeast + 2 * (0 / 10 ^ 308) ≤ (s : ℚ) / 10 ^ 308 := by
      rw [zero_div, mul_zero, add_zero]
      exact le_trans (by linarith) hfirst
    have hhigh := hsmall (308 + (k + 1))
    obtain ⟨b, hb, hnear⟩ := ha.exists_div_pow10 hclose (le_refl 308) hu (by linarith) le_rfl
      hlow' (hsmall 308)
    rw [hsplit] at hhigh
    rw [zero_div] at hnear
    generalize (s : ℚ) / 10 ^ 308 = y at *
    have hrest : 1.1 * (0 + halfLeast) / 10 ^ (k + 1) ≤ 0.11 * halfLeast := by
      rw [div_le_iff₀ (by positivity)]
      have hmul := mul_le_mul_of_nonneg_left hten hpos.le
      linarith
    obtain ⟨w, hw, hnear'⟩ := hb.exists_div_pow10 hnear (n := k + 1) (by omega) (by linarith)
      (by linarith) (by linarith) (by linarith) hhigh
    refine ⟨w, ?_, hnear'.mono (by linarith) (by linarith) (by linarith) hw.pos.le⟩
    have hleft : 308 + (k + 1) - 308 = k + 1 := by omega
    have hsome : ¬ (Float.ofNat s == 0) = true := by
      rw [ha.beq_zero]
      exact Bool.false_ne_true
    rw [Json.scaleDown, if_neg hone, if_neg hsome, hleft, Json.scaleDown, if_pos (by omega)]
    exact hw

/-- The product of a significand and a power of ten, and the double that it rounds to. -/
theorem exists_product (hs : 0 < s) (hs' : s ≤ 10 ^ 17) (hn : n ≤ 308) :
    ∃ y m q, ∃ h : RoundsTo y m q, Within (2.1 * roundoff) 0 (s * 10 ^ n) y ∧
      Float.ofNat s * Json.pow10 n = double .positive m q h.pos := by
  obtain ⟨a, ha, hwhole⟩ := exists_ofNat hs hs'
  obtain ⟨p, hp, hten⟩ := exists_pow10 hn
  have hpos := ha.pos
  have hpos' := hp.pos
  have hclose : Within (2.1 * roundoff) 0 (s * 10 ^ n : ℚ) (a * p) := by
    have hleft := hwhole.mul (z := 10 ^ n) (by positivity)
    rw [mul_comm, mul_comm (10 ^ n) a] at hleft
    exact hleft.trans (hten.mul ha.pos.le) (by norm_num [roundoff]) (by norm_num [roundoff])
      (by positivity) (by positivity) (by norm_num [roundoff]) (by norm_num) (by norm_num)
  have hsome : halfLeast < a * p := by
    have hone : (1 : ℚ) ≤ s * 10 ^ n :=
      one_le_mul_of_one_le_of_one_le (by exact_mod_cast hs) (one_le_pow₀ (by norm_num))
    have hle := hclose.le
    have hu : roundoff = 1 / 2 ^ 53 := rfl
    rw [hu] at hle
    linarith [halfLeast_lt]
  obtain ⟨m, q, h⟩ := exists_roundsTo hsome
  exact ⟨a * p, m, q, h, hclose, ha.mul_eq hp h⟩

/-- What is not near the largest doubles does not go beyond them. -/
theorem isOk_scale (hs : 0 < s) (hs' : s ≤ 10 ^ 17) (hn : n ≤ 308)
    (hhigh : (1 + 2.1 * roundoff) * (s * 10 ^ n) < limit) : (Json.scale s n).isOk := by
  obtain ⟨y, m, q, h, hclose, hmul⟩ := exists_product hs hs' hn
  have hfits := h.fits (by linarith [hclose.ge])
  rw [Json.scale, if_neg (by omega), if_pos (by omega), Int.toNat_natCast]
  simp only [hmul, hfits.isInf_double]
  rfl

/-- Scaling up a significand stays close to the exact product, unless it goes beyond all doubles. -/
theorem exists_scaleUp (hs : 0 < s) (hs' : s ≤ 10 ^ 17) (hn : n ≤ 308)
    (hok : (Json.scale s n).isOk) :
    ∃ g w, Json.scale s n = .ok g ∧ Holds g w ∧
      Within (6 * roundoff) (2 * halfLeast) (s * 10 ^ n) w := by
  obtain ⟨y, m, q, h, hclose, hmul⟩ := exists_product hs hs' hn
  have hpos := halfLeast_pos
  have hscale : Json.scale s n = if (double .positive m q h.pos).isInf then .error .malformed
      else .ok (double .positive m q h.pos) := by
    rw [Json.scale, if_neg (by omega), if_pos (by omega), Int.toNat_natCast, hmul]
  cases hinf : (double .positive m q h.pos).isInf with
  | true =>
    rw [hscale, hinf] at hok
    cases hok
  | false =>
    have hfits := h.fits_of_isInf hinf
    rw [hinf] at hscale
    refine ⟨_, _, hscale, hfits.holds, hclose.trans h.within (by norm_num [roundoff])
      (by norm_num [roundoff]) (by positivity) hfits.holds.pos.le (by norm_num [roundoff]) ?_ ?_⟩
    · norm_num [roundoff]
      linarith
    · linarith

theorem ten_zpow_eq (x : Int) :
    (10 : ℚ) ^ x = if x < 0 then 1 / 10 ^ (-x).toNat else 10 ^ x.toNat := by
  split
  · rename_i hneg
    have hx : x = -((-x).toNat : Int) := by omega
    rw [one_div, ← zpow_natCast, ← zpow_neg, ← hx]
  · rename_i hpos
    have hx : x = (x.toNat : Int) := by omega
    rw [← zpow_natCast, ← hx]

variable {e : Int}

/-- Scaling stays close to the exact number. -/
theorem exists_scale (hs : 0 < s) (hs' : s ≤ 10 ^ 17) (he : -616 ≤ e) (he' : e ≤ 308)
    (hlow : 3 * halfLeast ≤ (s : ℚ) * 10 ^ e) (hok : (Json.scale s e).isOk) :
    ∃ g w, Json.scale s e = .ok g ∧ Holds g w ∧
      Within (6 * roundoff) (2 * halfLeast) (s * 10 ^ e) w := by
  rw [ten_zpow_eq] at hlow ⊢
  by_cases hneg : e < 0
  · rw [if_pos hneg, mul_one_div] at hlow ⊢
    obtain ⟨w, hw, hclose⟩ := exists_scaleDown hs hs' (by omega) hlow
    refine ⟨_, w, ?_, hw, hclose⟩
    rw [Json.scale, if_pos hneg]
  · rw [if_neg hneg]
    have hnat : e = (e.toNat : Int) := by omega
    rw [hnat] at hok
    obtain ⟨g, w, hscale, hw, hclose⟩ := exists_scaleUp hs hs' (by omega) hok
    exact ⟨g, w, hnat ▸ hscale, hw, hclose⟩

/-! ## One rounding -/

theorem holds_ofNat {k : Nat} (hpos : 0 < n) (hlt : n < 2 ^ 53) (hs : n * 2 ^ k ≤ 10 ^ 17) :
    Holds (Float.ofNat (n * 2 ^ k)) ((n * 2 ^ k : Nat) : ℚ) := by
  have hle : ((n * 2 ^ k : Nat) : ℚ) ≤ 10 ^ 17 := by exact_mod_cast hs
  push_cast at hle
  obtain ⟨m, q, hfits, hround, hvalue⟩ :=
    exists_exact hpos hlt (hle.trans_lt (ten_pow_lt_limit (by norm_num)))
  have hwhole : Float.ofNat (n * 2 ^ k) = double .positive m q hround.pos :=
    ofScientific_eq (by push_cast; rw [pow_zero, mul_one]; exact hround) (by positivity) (by omega)
  rw [hwhole]
  push_cast
  have hholds := hfits.holds
  rwa [hvalue] at hholds

theorem holds_pow10 (hn : n ≤ 22) : Holds (Json.pow10 n) (10 ^ n) := by
  have hhigh : ((5 ^ n : Nat) : ℚ) * 2 ^ n < limit := by
    rw [five_pow_mul_two_pow]
    exact ten_pow_lt_limit (by omega)
  obtain ⟨m, q, hfits, hround, hvalue⟩ := exists_exact (by positivity) (five_pow_lt hn) hhigh
  rw [five_pow_mul_two_pow] at hround hvalue
  have hten : Json.pow10 n = double .positive m q hround.pos :=
    ofScientific_eq (by rw [Nat.cast_one, one_mul]; exact hround) Nat.one_pos (by omega)
  rw [hten]
  have hholds := hfits.holds
  rwa [hvalue] at hholds

/-- If the significand and the power of ten are doubles, scaling rounds once and finds the double
nearest to the exact number. -/
theorem scale_eq {k : Nat} (hpos : 0 < n) (hlt : n < 2 ^ 53) (hs : n * 2 ^ k ≤ 10 ^ 17)
    (he : -22 ≤ e) (he' : e ≤ 22) (h : Fits m q)
    (hround : RoundsTo ((n * 2 ^ k : Nat) * 10 ^ e) m q) :
    Json.scale (n * 2 ^ k) e = .ok (double .positive m q h.pos) := by
  have hwhole := holds_ofNat hpos hlt hs
  rw [ten_zpow_eq] at hround
  by_cases hneg : e < 0
  · rw [if_pos hneg, mul_one_div] at hround
    have hdiv := hwhole.div_eq (holds_pow10 (n := (-e).toNat) (by omega)) hround
    rw [Json.scale, if_pos hneg, Json.scaleDown, if_pos (by omega), hdiv]
  · rw [if_neg hneg] at hround
    have hmul := hwhole.mul_eq (holds_pow10 (n := e.toNat) (by omega)) hround
    rw [Json.scale, if_neg hneg, if_pos (by omega)]
    simp only [hmul, h.isInf_double]
    rfl

/-! ## The decimal of a double -/

/-- A decimal that can be scaled and rounds to a double. -/
structure Scales (s : Nat) (e : Int) (m : Nat) (q : Int) : Prop where
  pos : 0 < s
  short : s ≤ 10 ^ 17
  least : -616 ≤ e
  most : e ≤ 308
  rounds : RoundsTo (s * 10 ^ e) m q

theorem Within.abs_sub_le (h : Within r d x y) (hr : 0 ≤ r) (hy : 0 ≤ y) :
    |x - y| ≤ r * y + d := by
  have hle := h.le
  have hge := h.ge
  rw [abs_le]
  rcases le_total x y with hxy | hxy
  · have hmul := mul_le_mul_of_nonneg_left hxy hr
    exact ⟨by linarith, by linarith⟩
  · have hmul := mul_le_mul_of_nonneg_left hxy hr
    have hnonneg := mul_nonneg hr hy
    exact ⟨by linarith, by linarith⟩

/-- What rounds to any but the least double is not too small to be divided for. -/
theorem RoundsTo.three_halfLeast_le (h : RoundsTo x m q) (hsome : 1 < m ∨ -1074 < q) :
    3 * halfLeast ≤ x := by
  have hleast : (2 : ℚ) ^ (-1074 : Int) ≤ 2 ^ q :=
    zpow_le_zpow_right₀ (by norm_num) h.least
  have hhalf : (2 : ℚ) ^ (-1074 : Int) = 2 * halfLeast := by
    rw [halfLeast, half_least]
    ring
  have hunits : 3 / 2 ≤ x / 2 ^ q := by
    rcases hsome with hm | hq
    · have hm' : (2 : ℚ) ≤ m := by exact_mod_cast hm
      linarith [h.nearest.lower]
    · linarith [h.quarter_le hq]
  rw [le_div_iff₀ (by positivity)] at hunits
  linarith

/-- What rounds to any but the largest doubles is not scaled beyond them. -/
theorem RoundsTo.lt_limit (h : RoundsTo x m q) (hfits : Fits m q)
    (htop : q < 971 ∨ m + 16 ≤ 2 ^ 53) : (1 + 2.1 * roundoff) * x < limit := by
  have hupper := h.nearest.upper
  rw [div_le_iff₀ (by positivity)] at hupper
  have hpow : (2 : ℚ) ^ q ≤ 2 ^ (971 : Int) := zpow_le_zpow_right₀ (by norm_num) hfits.most
  have hhalf : q < 971 → (2 : ℚ) ^ q * 2 ≤ 2 ^ (971 : Int) := fun hq => by
    rw [← zpow_add_one₀ (by norm_num)]
    exact zpow_le_zpow_right₀ (by norm_num) (by omega)
  have hpos : (0 : ℚ) < 2 ^ q := by positivity
  rw [limit, roundoff]
  generalize (2 : ℚ) ^ (971 : Int) = top at *
  generalize (2 : ℚ) ^ q = place at *
  have hx : x ≤ (2 ^ 53 - 15) * top := by
    rcases htop with hq | hm
    · have hm : (m : ℚ) + 1 ≤ 2 ^ 53 := by exact_mod_cast hfits.lt
      have hmul := mul_le_mul_of_nonneg_right hm hpos.le
      linarith [hhalf hq]
    · have hm' : (m : ℚ) + 1 / 2 ≤ 2 ^ 53 - 15 := by
        have hcast : (m : ℚ) + 16 ≤ 2 ^ 53 := by exact_mod_cast hm
        linarith
      have hmul := mul_le_mul_of_nonneg_right hm' hpos.le
      linarith
  linarith

/-- Away from the largest doubles no decimal of a double is scaled beyond them. -/
theorem Scales.isOk (h : Scales s e m q) (hfits : Fits m q) (htop : q < 971 ∨ m + 16 ≤ 2 ^ 53) :
    (Json.scale s e).isOk := by
  by_cases hneg : e < 0
  · rw [Json.scale, if_pos hneg]
    rfl
  · have hnat : (e.toNat : Int) = e := by omega
    have hhigh := h.rounds.lt_limit hfits htop
    have hmost := h.most
    rw [← hnat, zpow_natCast] at hhigh
    rw [← hnat]
    exact isOk_scale h.pos h.short (by omega) hhigh

/-- The decimal of a double is read as a double close to it. -/
theorem Scales.exists_reading (h : Scales s e m q) (hsome : 1 < m ∨ -1074 < q)
    (hok : (Json.scale s e).isOk) :
    ∃ g w, Json.scale s e = .ok g ∧ Holds g w ∧
      |w - m * 2 ^ q| ≤ m * 2 ^ q / 2 ^ 50 + 2 ^ (-1073 : Int) := by
  obtain ⟨g, w, hscale, hw, hclose⟩ :=
    exists_scale h.pos h.short h.least h.most (h.rounds.three_halfLeast_le hsome) hok
  have hpos := halfLeast_pos
  have hu : roundoff = 1 / 2 ^ 53 := rfl
  have hboth : Within (8 * roundoff) (4 * halfLeast) w (m * 2 ^ q) :=
    hclose.symm.trans h.rounds.within (by norm_num [roundoff]) (by norm_num [roundoff]) hw.pos.le
      (by positivity) (by norm_num [roundoff]) (by rw [hu]; linarith) (by rw [hu]; linarith)
  refine ⟨g, w, hscale, hw, (hboth.abs_sub_le (by norm_num [roundoff]) (by positivity)).trans_eq ?_⟩
  have hfour : (2 : ℚ) ^ (-1073 : Int) = 4 * halfLeast := by
    rw [halfLeast, show (-1073 : Int) = -1075 + 1 + 1 by norm_num, zpow_add_one₀ (by norm_num),
      zpow_add_one₀ (by norm_num)]
    ring
  rw [hfour, hu]
  ring

/-- If the digits make a double and the power of ten is one, the decimal of a double is read as that
double: scaling rounds once. -/
theorem Scales.scale_eq {k : Nat} (h : Scales s e m q) (hfits : Fits m q) (hlt : n < 2 ^ 53)
    (hs : s = n * 2 ^ k) (he : e.natAbs ≤ 22) :
    Json.scale s e = .ok (double .positive m q hfits.pos) := by
  subst hs
  have hpos : 0 < n := Nat.pos_of_mul_pos_right h.pos
  exact Decimal.scale_eq hpos hlt h.short (by omega) (by omega) hfits h.rounds

end SignalHub.Decimal
