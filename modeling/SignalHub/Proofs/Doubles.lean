import SignalHub.Decimal.Reading
import SignalHub.Decimal.Shortest
import SignalHub.Proofs.Rounding
/-!
# Doubles and their bits

A finite double other than zero is its sign, its exponent and its significand, and these are what
its bits hold. Written as a decimal it is taken apart into the same three.

Results:
* `Fits`: the significands and exponents of finite doubles.
* `finite_cases`: every finite double is a zero or has a significand and an exponent.
* `ofFloat_double`: taken apart, a double has the significand and the exponent that it was made of.
* `amount`: the number that a double is.
-/
namespace SignalHub.Decimal

open Float.Model (Format)
open Float.Model.UnpackedFloat

/-! ## Bits -/

variable {s : Sign} {e : BitVec 11} {f : BitVec 52}

theorem toNat_packComponents (s : Sign) (e : BitVec 11) (f : BitVec 52) :
    (packComponents .binary64 s e f).toNat =
      s.toBitVec.toNat * 2 ^ 63 + e.toNat * 2 ^ 52 + f.toNat := by
  have hf := f.isLt
  have he := e.isLt
  unfold packComponents
  rw [BitVec.toNat_append, BitVec.toNat_append, ← Nat.shiftLeft_add_eq_or_of_lt hf,
    ← Nat.shiftLeft_add_eq_or_of_lt he]
  simp only [Nat.shiftLeft_eq]
  omega

theorem unpack_packComponents (s : Sign) (e : BitVec 11) (f : BitVec 52) :
    unpack .binary64 (packComponents .binary64 s e f) =
      if e = -1#11 then if f = 0#52 then .infinity s else .notANumber
      else if e = 0#11 then
        if h : f = 0#52 then .zero s
        else .finite s f.toNat (-1074) (by simpa [BitVec.toNat_pos, BitVec.pos_iff_ne_zero] using h)
      else .finite s (2 ^ 52 + f.toNat) (e.toNat - 1075) (by positivity) := by
  have hlead : (1#1 ++ f).toNat = 2 ^ 52 + f.toNat := by
    rw [BitVec.toNat_append, ← Nat.shiftLeft_add_eq_or_of_lt f.isLt]
    rfl
  unfold unpack
  simp only [unpackMantissa_packComponents, unpackExponent_packComponents,
    unpackSign_packComponents, Sign.ofBitVec_toBitVec, hlead]
  by_cases he : e = 0#11
  · subst he
    rfl
  · rw [if_neg he, if_neg he]
    rfl

/-! ## Finite doubles -/

/-- The magnitudes of finite doubles other than zero. -/
structure Fits (m : Nat) (q : Int) : Prop extends Normalized m q where
  most : q ≤ 971

variable {m n : Nat} {q : Int} {x : ℚ}

theorem Fits.eq_least (h : Fits m q) (hm : m < 2 ^ 52) : q = -1074 := by
  have hleast := h.least
  by_contra hne
  have hfull := h.full (by omega)
  omega

theorem toNat_biased (q : Int) :
    (q + Format.binary64.exponentBias + Format.binary64.mantissaBitsWithoutImplicit).toNat =
      (q + 1075).toNat := by
  show (q + (1023 : Nat) + (52 : Nat)).toNat = _
  omega

theorem Fits.pack_normal (h : Fits m q) (s : Sign) (hm : 2 ^ 52 ≤ m) :
    pack .binary64 (.finite s m q h.pos) =
      packComponents .binary64 s (.ofNat 11 (q + 1075).toNat) (.ofNat 52 m) := by
  have hleast := h.least
  have hmost := h.most
  have hexp := toNat_biased q
  have hlow : 52 ≤ m.log2 := (Nat.le_log2 h.pos.ne').2 hm
  have hhigh : m.log2 < 53 := (Nat.log2_lt h.pos.ne').2 h.lt
  have hbits : m.log2 + 1 = 53 := by omega
  unfold pack
  simp only [hexp]
  rw [if_neg (by omega), if_pos (show m.log2 + 1 = Format.binary64.mantissaBits from hbits)]

theorem Fits.pack_subnormal (h : Fits m q) (s : Sign) (hm : m < 2 ^ 52) :
    pack .binary64 (.finite s m q h.pos) = packComponents .binary64 s 0#11 (.ofNat 52 m) := by
  have hleast := h.least
  have hmost := h.most
  have hexp := toNat_biased q
  have hhigh : m.log2 < 52 := (Nat.log2_lt h.pos.ne').2 hm
  have hbits : m.log2 + 1 ≠ 53 := by omega
  unfold pack
  simp only [hexp]
  rw [if_neg (by omega), if_neg (show m.log2 + 1 ≠ Format.binary64.mantissaBits from hbits)]

/-- The double `m · 2^q` with a sign. -/
def double (s : Sign) (m : Nat) (q : Int) (h : 0 < m) : Float := .ofModel (.pack (.finite s m q h))

theorem Fits.unpack_double (h : Fits m q) (s : Sign) :
    (double s m q h.pos).toModel.unpack = .finite s m q h.pos := by
  have hleast := h.least
  have hmost := h.most
  have hlt := h.lt
  show unpack .binary64 (pack .binary64 (.finite s m q h.pos)) = _
  rcases Nat.lt_or_ge m (2 ^ 52) with hm | hm
  · have hf : (BitVec.ofNat 52 m).toNat = m := by
      rw [BitVec.toNat_ofNat]
      omega
    have hne : BitVec.ofNat 52 m ≠ 0#52 := by
      intro h0
      rw [h0] at hf
      have := h.pos
      simp at hf
      omega
    rw [h.pack_subnormal s hm, unpack_packComponents, if_neg (by decide), if_pos rfl, dif_neg hne]
    congr 1
    exact (h.eq_least hm).symm
  · have hf : 2 ^ 52 + (BitVec.ofNat 52 m).toNat = m := by
      rw [BitVec.toNat_ofNat]
      omega
    have he : (BitVec.ofNat 11 (q + 1075).toNat).toNat = (q + 1075).toNat := by
      rw [BitVec.toNat_ofNat]
      omega
    have hzero : BitVec.ofNat 11 (q + 1075).toNat ≠ 0#11 := by
      intro h0
      rw [h0] at he
      simp at he
      omega
    have htop : BitVec.ofNat 11 (q + 1075).toNat ≠ -1#11 := by
      intro h1
      rw [h1] at he
      simp at he
      omega
    rw [h.pack_normal s hm, unpack_packComponents, if_neg htop, if_neg hzero]
    congr 1
    rw [he]
    omega

/-- Zero with a sign. -/
def zero (s : Sign) : Float := .ofModel (.pack (.zero s))

theorem eq_ofModel_pack {f : Float} {u : Float.Model.UnpackedFloat}
    (h : pack .binary64 u = f.toModel.toBits.toBitVec) : f = .ofModel (.pack u) := by
  obtain ⟨⟨bits, hvalid⟩⟩ := f
  simp only [Float.Model.pack, h]

theorem isNaN_of_isFinite {f : Float} (hf : f.isFinite) : f.isNaN = false := by
  have hunpack : f.toModel.unpack.isFinite = true := hf
  show f.toModel.unpack.isNaN = false
  cases h : f.toModel.unpack <;> rw [h] at hunpack <;> first | rfl | cases hunpack

theorem isInf_of_isFinite {f : Float} (hf : f.isFinite) : f.isInf = false := by
  have hunpack : f.toModel.unpack.isFinite = true := hf
  show f.toModel.unpack.isInf = false
  cases h : f.toModel.unpack <;> rw [h] at hunpack <;> first | rfl | cases hunpack

/-- Every finite double is a zero, or it has a significand and an exponent. -/
theorem finite_cases {f : Float} (hf : f.isFinite) :
    (∃ s, f = zero s) ∨ ∃ s m q, ∃ h : Fits m q, f = double s m q h.pos := by
  have hparts := @packComponents_unpackSign_unpackExponent_unpackMantissa .binary64
    f.toModel.toBits.toBitVec
  have hunpack : (unpack .binary64 f.toModel.toBits.toBitVec).isFinite := hf
  generalize Sign.ofBitVec (@unpackSign .binary64 f.toModel.toBits.toBitVec) = s at hparts
  generalize @unpackExponent .binary64 f.toModel.toBits.toBitVec = e at hparts
  generalize @unpackMantissa .binary64 f.toModel.toBits.toBitVec = v at hparts
  rw [← hparts, unpack_packComponents] at hunpack
  have hlt : v.toNat < 2 ^ 52 := v.isLt
  by_cases hzero : e = 0#11
  · by_cases hnone : v = 0#52
    · left
      refine ⟨s, eq_ofModel_pack ?_⟩
      rw [← hparts, hzero, hnone]
      rfl
    · have hpos : 0 < v.toNat := by simpa [BitVec.toNat_pos, BitVec.pos_iff_ne_zero] using hnone
      have hfits : Fits v.toNat (-1074) := ⟨⟨hpos, by omega, le_refl _, by omega⟩, by omega⟩
      right
      refine ⟨s, _, _, hfits, eq_ofModel_pack ?_⟩
      rw [hfits.pack_subnormal s hlt, ← hparts, hzero, BitVec.ofNat_toNat, BitVec.setWidth_eq]
  · have htop : e.toNat ≠ 2047 := by
      intro h
      have hones : e = -1#11 := BitVec.eq_of_toNat_eq h
      rw [if_pos hones] at hunpack
      split at hunpack <;> cases hunpack
    have hsome : 0 < e.toNat := by simpa [BitVec.toNat_pos, BitVec.pos_iff_ne_zero] using hzero
    have he : e.toNat < 2 ^ 11 := e.isLt
    have hfits : Fits (2 ^ 52 + v.toNat) (e.toNat - 1075) :=
      ⟨⟨by omega, by omega, by omega, fun _ => by omega⟩, by omega⟩
    right
    refine ⟨s, _, _, hfits, eq_ofModel_pack ?_⟩
    have hexp : ((e.toNat : Int) - 1075 + 1075).toNat = e.toNat := by omega
    have hlow : BitVec.ofNat 52 (2 ^ 52 + v.toNat) = v := by
      apply BitVec.eq_of_toNat_eq
      rw [BitVec.toNat_ofNat]
      omega
    rw [hfits.pack_normal s (by omega), ← hparts, hexp, hlow, BitVec.ofNat_toNat,
      BitVec.setWidth_eq]

/-! ## Taken apart -/

/-- The bits of a double are its sign, its exponent and its significand; the leading bit of the
significand counts as one more step of the exponent. -/
theorem Fits.toNat_toBits (h : Fits m q) (s : Sign) :
    (double s m q h.pos).toBits.toNat =
      s.toBitVec.toNat * 2 ^ 63 + (q + 1074).toNat * 2 ^ 52 + m := by
  have hleast := h.least
  have hmost := h.most
  have hlt := h.lt
  show (pack .binary64 (.finite s m q h.pos)).toNat = _
  rcases Nat.lt_or_ge m (2 ^ 52) with hm | hm
  · have hq := h.eq_least hm
    rw [h.pack_subnormal s hm, toNat_packComponents, BitVec.toNat_ofNat, BitVec.toNat_ofNat, hq]
    omega
  · rw [h.pack_normal s hm, toNat_packComponents, BitVec.toNat_ofNat, BitVec.toNat_ofNat]
    omega

/-- Taken apart, a double has the significand and the exponent that it was made of. -/
theorem Fits.ofFloat_double (h : Fits m q) (s : Sign) :
    Binary.ofFloat (double s m q h.pos) = ⟨m, q, decide (m = 2 ^ 52 ∧ -1074 < q)⟩ := by
  have hleast := h.least
  have hmost := h.most
  have hlt := h.lt
  have hs : s.toBitVec.toNat < 2 := s.toBitVec.isLt
  simp only [Binary.ofFloat, h.toNat_toBits s, fractionBound]
  generalize s.toBitVec.toNat = n at hs
  rcases Nat.lt_or_ge m (2 ^ 52) with hm | hm
  · have hq := h.eq_least hm
    have hbiased : (n * 2 ^ 63 + (q + 1074).toNat * 2 ^ 52 + m) / 4503599627370496 % 2048 = 0 := by
      omega
    have hfraction : (n * 2 ^ 63 + (q + 1074).toNat * 2 ^ 52 + m) % 4503599627370496 = m := by
      omega
    rw [if_pos hbiased, hfraction, hq]
    simp
  · have hbiased : (n * 2 ^ 63 + (q + 1074).toNat * 2 ^ 52 + m) / 4503599627370496 % 2048 =
        (q + 1075).toNat := by
      omega
    have hfraction : (n * 2 ^ 63 + (q + 1074).toNat * 2 ^ 52 + m) % 4503599627370496 =
        m - 2 ^ 52 := by
      omega
    have hexp : (((q + 1075).toNat : Nat) : Int) - 1075 = q := by omega
    rw [hbiased, hfraction, if_neg (by omega), hexp, Binary.mk.injEq]
    refine ⟨by omega, rfl, ?_⟩
    rw [Bool.eq_iff_iff]
    simp only [Bool.and_eq_true, beq_iff_eq, decide_eq_true_eq]
    omega

/-- Whether there is a minus in front. -/
def minus : Sign → Bool
  | .positive => false
  | .negative => true

theorem isNegative_zero (s : Sign) : isNegative (zero s) = minus s := by
  cases s <;> rfl

theorem Fits.isNegative_double (h : Fits m q) (s : Sign) :
    isNegative (double s m q h.pos) = minus s := by
  have hmost := h.most
  have hlt := h.lt
  have hbits := h.toNat_toBits s
  have hs : s.toBitVec.toNat = if minus s then 1 else 0 := by
    cases s <;> rfl
  unfold isNegative
  rw [hbits, hs, Word.half]
  cases minus s <;> simp <;> omega

theorem signed_zero (s : Sign) : signed (minus s) (zero .positive) = zero s := by
  cases s <;> rfl

theorem Fits.signed_double (h : Fits m q) (s : Sign) :
    signed (minus s) (double .positive m q h.pos) = double s m q h.pos := by
  cases s with
  | positive => rfl
  | negative =>
    have hunpack := h.unpack_double .positive
    show Float.ofModel (.pack (neg (double .positive m q h.pos).toModel.unpack)) = _
    rw [hunpack]
    rfl

theorem Fits.isFinite_double (h : Fits m q) (s : Sign) : (double s m q h.pos).isFinite := by
  have hunpack := h.unpack_double s
  show (double s m q h.pos).toModel.unpack.isFinite = true
  rw [hunpack]
  rfl

/-- Beyond the largest double there is infinity. -/
theorem Normalized.fits_of_isInf (h : Normalized m q)
    (hinf : (double .positive m q h.pos).isInf = false) : Fits m q := by
  refine ⟨h, ?_⟩
  by_contra hgt
  have hexp : (2 : Nat) ^ 11 ≤ (q + (1023 : Nat) + (52 : Nat)).toNat + 1 := by omega
  have hpack : pack .binary64 (.finite .positive m q h.pos) = packedInfinity .binary64 .positive :=
    if_pos hexp
  have hunpack : (double .positive m q h.pos).toModel.unpack = .infinity .positive := by
    show unpack .binary64 (pack .binary64 (.finite .positive m q h.pos)) = _
    rw [hpack, packedInfinity]
    exact unpack_packComponents .positive (-1#11) 0#52
  have hsome : (double .positive m q h.pos).isInf = true := by
    show (double .positive m q h.pos).toModel.unpack.isInf = true
    rw [hunpack]
    rfl
  rw [hinf] at hsome
  cases hsome

theorem Fits.isInf_double (h : Fits m q) : (double .positive m q h.pos).isInf = false :=
  isInf_of_isFinite (h.isFinite_double .positive)

/-! ## As numbers -/

/-- The number that a finite double is. -/
def amount (f : Float) : ℚ :=
  let b := Binary.ofFloat f
  let magnitude : ℚ := b.significand * 2 ^ b.exponent
  if isNegative f then -magnitude else magnitude

theorem Fits.amount_double (h : Fits m q) (s : Sign) :
    amount (double s m q h.pos) = if minus s then -(m * 2 ^ q : ℚ) else m * 2 ^ q := by
  unfold amount
  rw [h.ofFloat_double, h.isNegative_double]

/-- Whether a double is that positive number. -/
def Holds (f : Float) (x : ℚ) : Prop :=
  ∃ m q, ∃ h : Fits m q, f = double .positive m q h.pos ∧ (m : ℚ) * 2 ^ q = x

variable {f : Float}

theorem Fits.holds (h : Fits m q) : Holds (double .positive m q h.pos) (m * 2 ^ q) :=
  ⟨m, q, h, rfl, rfl⟩

theorem Holds.pos (h : Holds f x) : 0 < x := by
  obtain ⟨m, q, hfits, -, rfl⟩ := h
  have hm := hfits.pos
  positivity

theorem Holds.beq_zero (h : Holds f x) : (f == 0) = false := by
  obtain ⟨m, q, hfits, rfl, -⟩ := h
  have hzero : (0 : Float) = zero .positive := by decide +kernel
  show Float.Model.UnpackedFloat.beq (double .positive m q hfits.pos).toModel.unpack
    (0 : Float).toModel.unpack = false
  rw [hfits.unpack_double, hzero]
  rfl

/-! ## The largest -/

/-- Half a unit beyond the largest double: what lies below rounds to a double. -/
def limit : ℚ := (2 ^ 53 - 1 / 2) * 2 ^ (971 : Int)

/-- What lies below that limit rounds to a finite double. -/
theorem RoundsTo.fits (h : RoundsTo x m q) (hx : x < limit) : Fits m q := by
  refine ⟨h.toNormalized, ?_⟩
  by_contra hgt
  have hlow := h.quarter_le (by omega)
  rw [le_div_iff₀ (by positivity)] at hlow
  have hpow : (2 : ℚ) ^ (971 : Int) * 2 ≤ 2 ^ q := by
    rw [← zpow_add_one₀ (by norm_num)]
    exact zpow_le_zpow_right₀ (by norm_num) (by omega)
  have hunits := mul_le_mul_of_nonneg_left hpow (show (0 : ℚ) ≤ 2 ^ 52 - 1 / 4 by norm_num)
  unfold limit at hx
  linarith

theorem largest_power_lt_limit : (10 : ℚ) ^ 308 < limit := by
  have hnat : 10 ^ 308 < 18014398509481983 * 2 ^ 970 := by decide +kernel
  have hrat : (10 : ℚ) ^ 308 < 18014398509481983 * 2 ^ 970 := by exact_mod_cast hnat
  have htop : (2 : ℚ) ^ (971 : Int) = 2 ^ 970 * 2 := by
    rw [show (971 : Int) = (970 : Nat) + 1 by norm_num, zpow_add_one₀ (by norm_num), zpow_natCast]
  have hunits : ∀ y : ℚ, (2 ^ 53 - 1 / 2) * (y * 2) = 18014398509481983 * y := by
    intro y
    ring
  rw [limit, htop, hunits]
  exact hrat

theorem ten_pow_lt_limit {k : Nat} (hk : k ≤ 308) : (10 : ℚ) ^ k < limit :=
  lt_of_le_of_lt (pow_le_pow_right₀ (by norm_num) hk) largest_power_lt_limit

end SignalHub.Decimal
