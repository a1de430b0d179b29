import SignalHub.Text.Utf8
/-!
# The order of texts

Texts are ordered by their bytes: at the first difference the smaller byte decides, and a text comes
before its extensions.

Results:
* `not_precedes_self`, `precedes_trans`, `eq_of_not_precedes`: `precedes` is a strict total order.
-/
namespace SignalHub.Text

/-- Whether bytes come before other bytes. -/
def bytesPrecede : List UInt8 → List UInt8 → Bool
  | _, [] => false
  | [], _ :: _ => true
  | a :: as, b :: bs => a.toNat < b.toNat || (a == b && bytesPrecede as bs)

/-- Whether a text comes before another one. -/
def precedes (s t : String) : Bool := bytesPrecede (bytes s) (bytes t)

theorem bytesPrecede_self (bs : List UInt8) : bytesPrecede bs bs = false := by
  induction bs with
  | nil => rfl
  | cons b bs ih => simp [bytesPrecede, ih]

theorem bytesPrecede_trans {as bs cs : List UInt8} (h : bytesPrecede as bs)
    (h' : bytesPrecede bs cs) : bytesPrecede as cs := by
  induction as generalizing bs cs with
  | nil =>
    cases cs with
    | nil => cases bs <;> simp [bytesPrecede] at h'
    | cons c cs => rfl
  | cons a as ih =>
    cases bs with
    | nil => simp [bytesPrecede] at h
    | cons b bs =>
      cases cs with
      | nil => simp [bytesPrecede] at h'
      | cons c cs =>
        simp only [bytesPrecede, Bool.or_eq_true, Bool.and_eq_true, beq_iff_eq,
          decide_eq_true_eq] at h h' ⊢
        rcases h with h | ⟨rfl, h⟩ <;> rcases h' with h' | ⟨rfl, h'⟩
        · exact .inl (by omega)
        · exact .inl h
        · exact .inl h'
        · exact .inr ⟨rfl, ih h h'⟩

theorem eq_of_not_bytesPrecede {as bs : List UInt8} (h : bytesPrecede as bs = false)
    (h' : bytesPrecede bs as = false) : as = bs := by
  induction as generalizing bs with
  | nil => cases bs with
    | nil => rfl
    | cons b bs => simp [bytesPrecede] at h
  | cons a as ih =>
    cases bs with
    | nil => simp [bytesPrecede] at h'
    | cons b bs =>
      simp only [bytesPrecede, Bool.or_eq_false_iff, decide_eq_false_iff_not] at h h'
      have hab : a = b := UInt8.toNat_inj.1 (by omega)
      subst hab
      simp only [beq_self_eq_true, Bool.true_and] at h h'
      rw [ih h.2 h'.2]

theorem bytes_injective {s t : String} (h : bytes s = bytes t) : s = t := by
  have hs := ofBytes?_bytes s
  rw [h, ofBytes?_bytes] at hs
  exact (Option.some.inj hs).symm

theorem not_precedes_self (s : String) : precedes s s = false := bytesPrecede_self _

theorem precedes_trans {s t u : String} (h : precedes s t) (h' : precedes t u) : precedes s u :=
  bytesPrecede_trans h h'

theorem eq_of_not_precedes {s t : String} (h : precedes s t = false) (h' : precedes t s = false) :
    s = t :=
  bytes_injective (eq_of_not_bytesPrecede h h')

end SignalHub.Text
