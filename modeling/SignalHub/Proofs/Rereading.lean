import SignalHub.Proofs.Digits
import SignalHub.Proofs.Scaling
/-!
# Doubles written and read

A double is written as its shortest decimal, and read by scaling the digits of that decimal as a
double. The decimal rounds to the double, but scaling need not find the double nearest to the
decimal: it finds one close to it. It finds the same double if it rounds only once. It never fails:
the decimals of the largest doubles are not scaled beyond all doubles.

Results:
* `written`: the significand and the exponent of a double as it is written.
* `reread`: the double as which the text of a double is read.
* `Retained`: what is kept of a double.
* `exists_reread`: the text of every finite double is read as a double that keeps it.
-/
namespace SignalHub.Decimal

open Float.Model.UnpackedFloat

variable {m : Nat} {q : Int} {f g : Float}

/-! ## As it is written -/

/-- The digits of a decimal as they are written, as one significand, and the exponent of the last
one: after a whole number there are a point and a zero, and the zero is one more digit. -/
def Scaled.inDigits (d : Scaled) : Nat × Int :=
  if 0 ≤ d.exponent ∧ (Nat.toDigits 10 d.digits).length + d.exponent ≤ 16 then
    (d.digits * 10 ^ (d.exponent.toNat + 1), -1)
  else (d.digits, d.exponent)

/-- The significand and the exponent of a double as it is written. -/
def written (f : Float) : Nat × Int := (shortest f).inDigits

theorem Fits.written_double (h : Fits m q) (s : Sign) :
    written (double s m q h.pos) = written (double .positive m q h.pos) := by
  simp only [written, shortest, h.ofFloat_double]

theorem shortest_zero (s : Sign) : shortest (zero s) = ⟨0, 0⟩ := by
  cases s <;> decide +kernel

theorem written_zero (s : Sign) : written (zero s) = (0, -1) := by
  rw [written, shortest_zero]
  rfl

/-- A double as it is written rounds to it. -/
theorem Fits.scales_written (h : Fits m q) (s : Sign) :
    Scales (written (double s m q h.pos)).1 (written (double s m q h.pos)).2 m q := by
  have hspells := h.spells_shortest s
  have hpos := hspells.pos
  have hlt : (shortest (double s m q h.pos)).digits <
      10 ^ (Nat.toDigits 10 (shortest (double s m q h.pos)).digits).length :=
    (Nat.length_toDigits_le_iff (by decide) Nat.length_toDigits_pos).1 (Nat.le_refl _)
  unfold written
  generalize shortest (double s m q h.pos) = d at *
  unfold Scaled.inDigits
  split
  · rename_i hwhole
    obtain ⟨hnonneg, hplaces⟩ := hwhole
    refine ⟨by positivity, ?_, by norm_num, by norm_num, ?_⟩
    · calc d.digits * 10 ^ (d.exponent.toNat + 1)
          ≤ 10 ^ (Nat.toDigits 10 d.digits).length * 10 ^ (d.exponent.toNat + 1) :=
            Nat.mul_le_mul_right _ hlt.le
        _ ≤ 10 ^ 17 := by
          rw [← Nat.pow_add]
          exact Nat.pow_le_pow_right (by norm_num) (by omega)
    · have hvalue : ((d.digits * 10 ^ (d.exponent.toNat + 1) : Nat) : ℚ) * 10 ^ (-1 : Int) =
          d.digits * 10 ^ d.exponent := by
        have hexp : (d.exponent.toNat : Int) = d.exponent := by omega
        push_cast
        rw [mul_assoc, ← zpow_natCast, ← zpow_add₀ (by norm_num)]
        congr 2
        push_cast
        omega
      rw [hvalue]
      exact hspells.rounds
  · exact ⟨hpos, hspells.short, hspells.le_exponent, hspells.exponent_le h.most, hspells.rounds⟩

/-- The decimal of a finite double is neither long nor far from one. -/
theorem shortest_cases (hf : f.isFinite) : shortest f = ⟨0, 0⟩ ∨
    0 < (shortest f).digits ∧ (shortest f).digits ≤ 10 ^ 17 ∧ -616 ≤ (shortest f).exponent ∧
      (shortest f).exponent ≤ 308 ∧ (written f).1 ≤ 10 ^ 17 := by
  rcases finite_cases hf with ⟨s, rfl⟩ | ⟨s, m, q, h, rfl⟩
  · exact .inl (shortest_zero s)
  · have hspells := h.spells_shortest s
    exact .inr ⟨hspells.pos, hspells.short, hspells.le_exponent, hspells.exponent_le h.most,
      (h.scales_written s).short⟩

/-! ## Beyond the estimates -/

theorem scale_zero : Json.scale 0 (-1) = .ok (zero .positive) := by
  have hzero : Json.scaleDown (Float.ofNat 0) 1 = zero .positive := by decide +kernel
  exact congrArg Except.ok hzero

/-- The decimals of the largest doubles are not scaled beyond them. -/
theorem isOk_scale_largest : ∀ i : Fin 15,
    (Json.scale (written (double .positive (2 ^ 53 - 1 - i) 971 (by omega))).1
      (written (double .positive (2 ^ 53 - 1 - i) 971 (by omega))).2).isOk := by
  decide +kernel

/-- The least double is read as itself. -/
theorem scale_least : Json.scale (written (double .positive 1 (-1074) Nat.one_pos)).1
    (written (double .positive 1 (-1074) Nat.one_pos)).2 =
      .ok (double .positive 1 (-1074) Nat.one_pos) := by
  have hwritten : written (double .positive 1 (-1074) Nat.one_pos) = (5, -324) := by
    decide +kernel
  have hscale : Json.scaleDown (Float.ofNat 5) 324 = double .positive 1 (-1074) Nat.one_pos := by
    decide +kernel
  rw [hwritten]
  exact congrArg Except.ok hscale

/-- No decimal of a double is scaled beyond all doubles. -/
theorem Fits.isOk_scale (h : Fits m q) (s : Sign) :
    (Json.scale (written (double s m q h.pos)).1 (written (double s m q h.pos)).2).isOk := by
  have hscales := h.scales_written s
  have hlt := h.lt
  have hmost := h.most
  by_cases htop : q < 971 ∨ m + 16 ≤ 2 ^ 53
  · exact hscales.isOk h htop
  · obtain rfl : q = 971 := by omega
    have hm : 2 ^ 53 - 1 - (2 ^ 53 - 1 - m) = m := by omega
    have hok := isOk_scale_largest ⟨2 ^ 53 - 1 - m, by omega⟩
    simp only [hm] at hok
    rw [h.written_double s]
    exact hok

/-! ## As it is read -/

/-- The double as which the text of a double is read: its digits as a double, scaled by a power of
ten, with its sign. -/
def reread (f : Float) : Except Fault Float :=
  (Json.scale (written f).1 (written f).2).map (signed (isNegative f))

/-- Whether reading a double rounds once at most: its digits make a double, and so does the power
of ten. -/
def ReadOnce (f : Float) : Prop :=
  ∃ n k, n < 2 ^ 53 ∧ (written f).1 = n * 2 ^ k ∧ (written f).2.natAbs ≤ 22

/-- What is kept of a double that is written and read: that it is finite, its sign, its size up to
2^-50 of it and twice the least double, and all of it if reading it rounds once at most. -/
structure Retained (f g : Float) : Prop where
  finite : g.isFinite
  sign : isNegative g = isNegative f
  near : |amount g - amount f| ≤ |amount f| / 2 ^ 50 + 2 ^ (-1073 : Int)
  exact : ReadOnce f → g = f

theorem Retained.refl (hf : f.isFinite) : Retained f f where
  finite := hf
  sign := rfl
  near := by
    rw [sub_self, abs_zero]
    positivity
  exact _ := rfl

theorem reread_double {m' : Nat} {q' : Int} (h : Fits m q) (h' : Fits m' q') {s : Sign}
    (hscale : Json.scale (written (double s m q h.pos)).1 (written (double s m q h.pos)).2 =
      .ok (double .positive m' q' h'.pos)) :
    reread (double s m q h.pos) = .ok (double s m' q' h'.pos) := by
  rw [reread, hscale, h.isNegative_double]
  exact congrArg Except.ok (h'.signed_double s)

theorem exists_reread_double (h : Fits m q) (s : Sign) :
    ∃ g, reread (double s m q h.pos) = .ok g ∧ Retained (double s m q h.pos) g := by
  by_cases hsome : 1 < m ∨ -1074 < q
  · have hscales := h.scales_written s
    obtain ⟨_, w, hscale, ⟨m', q', h', rfl, rfl⟩, hnear⟩ :=
      hscales.exists_reading hsome (h.isOk_scale s)
    refine ⟨_, reread_double h h' hscale, h'.isFinite_double s, ?_, ?_, ?_⟩
    · rw [h.isNegative_double, h'.isNegative_double]
    · have hvalue : (0 : ℚ) ≤ m * 2 ^ q := by positivity
      rw [h.amount_double, h'.amount_double]
      split
      · rw [neg_sub_neg, abs_sub_comm, abs_neg, abs_of_nonneg hvalue]
        exact hnear
      · rw [abs_of_nonneg hvalue]
        exact hnear
    · rintro ⟨n, k, hlt, hdigits, hpower⟩
      have hsame := hscale.symm.trans (hscales.scale_eq h hlt hdigits hpower)
      rw [← h'.signed_double, ← h.signed_double, Except.ok.inj hsame]
  · have hpos := h.pos
    have hleast := h.least
    obtain rfl : m = 1 := by omega
    obtain rfl : q = -1074 := by omega
    refine ⟨_, reread_double h h ?_, .refl (h.isFinite_double s)⟩
    rw [h.written_double]
    exact scale_least

/-- The text of every finite double is read as a double that keeps it. -/
theorem exists_reread (hf : f.isFinite) : ∃ g, reread f = .ok g ∧ Retained f g := by
  rcases finite_cases hf with ⟨s, rfl⟩ | ⟨s, m, q, h, rfl⟩
  · refine ⟨zero s, ?_, .refl hf⟩
    rw [reread, written_zero, scale_zero, isNegative_zero]
    exact congrArg Except.ok (signed_zero s)
  · exact exists_reread_double h s

end SignalHub.Decimal
