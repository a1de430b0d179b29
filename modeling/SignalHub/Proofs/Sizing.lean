import SignalHub.Proofs.Twins
import SignalHub.Settings.Validity
/-!
# Sizes and limits

A hub makes the best of any storage settings: a size of zero counts as one, and a search yields no
more by default than it yields at most. Whether settings are acceptable is decided elsewhere, before
there is a hub. Both agree: the settings that are accepted are just those that a hub takes as they
are.

Results:
* `StorageSettings.validate_iff`: the storage settings that are accepted.
* `StorageSettings.TakenBy`: a hub takes settings as they are.
* `Hub.box?_recordAll`, `Limits.resolve_eq`: what the sizes and the limits of a hub are for.
* `Scene.accepted_iff_taken`: which settings are taken as they are, and what becomes of any.
-/
namespace SignalHub

/-- The number between two others that is next to `n`. There is none if they are the wrong way
round. -/
def clamp? (lo hi n : Nat) : Option Nat := if lo ≤ hi then some (max lo (min n hi)) else none

theorem Signal.forall_iff {P : Signal → Prop} : (∀ s, P s) ↔ P .traces ∧ P .logs ∧ P .metrics :=
  ⟨fun h => ⟨h _, h _, h _⟩, fun h s => by cases s; exacts [h.1, h.2.1, h.2.2]⟩

/-! ## What is accepted -/

theorem faultIf_eq_none_iff {wrong : Bool} {e : SettingsError} :
    faultIf wrong e = none ↔ wrong = false := by
  cases wrong <;> simp [faultIf]

theorem beq_zero_eq_false_iff {w : UInt64} : (w == 0) = false ↔ 0 < w.toNat := by
  rw [beq_eq_false_iff_ne, Nat.pos_iff_ne_zero, ne_eq, ne_eq, ← UInt64.toNat_inj]
  rfl

namespace StorageSettings

variable {storage : StorageSettings} {h : Hub}

/-- How many records of a signal are to be retained at most. -/
def retains (storage : StorageSettings) : Signal → UInt64
  | .traces => storage.traceCapacity
  | .logs => storage.logCapacity
  | .metrics => storage.metricCapacity

theorem capacity_eq_max (storage : StorageSettings) (s : Signal) :
    storage.capacity s = max (storage.retains s).toNat 1 := by
  cases s <;> rfl

/-- No size is zero, and the limits do not contradict each other. -/
structure Sensible (storage : StorageSettings) : Prop where
  retains_pos : ∀ s, 0 < (storage.retains s).toNat
  mailboxSize_pos : 0 < storage.mailboxSize.toNat
  defaultLimit_pos : 0 < storage.defaultLimit.toNat
  defaultLimit_le : storage.defaultLimit.toNat ≤ storage.maxLimit.toNat

theorem fault?_eq_none_iff : storage.fault? = none ↔ storage.Sensible := by
  simp only [fault?, Option.orElse_eq_orElse, Option.orElse_eq_or, Option.or_eq_none_iff,
    faultIf_eq_none_iff, beq_zero_eq_false_iff, decide_eq_false_iff_not, UInt64.not_lt]
  constructor
  · rintro ⟨htraces, hlogs, hmetrics, hmailbox, hdefault, hle⟩
    exact ⟨Signal.forall_iff.2 ⟨htraces, hlogs, hmetrics⟩, hmailbox, hdefault, hle⟩
  · rintro ⟨hretains, hmailbox, hdefault, hle⟩
    exact ⟨hretains .traces, hretains .logs, hretains .metrics, hmailbox, hdefault, hle⟩

/-- Storage settings are accepted if they are sensible. The other settings have no faults. -/
theorem validate_iff :
    ({ storage := storage } : Settings).validate = .ok () ↔ storage.Sensible := by
  have hfault : ({ storage := storage } : Settings).fault? = storage.fault? := by
    simp only [Settings.fault?, show StreamSettings.fault? {} = none from rfl,
      show ServerSettings.fault? {} = none from by decide,
      show MetricsSettings.fault? {} = none from by decide]
    cases storage.fault? <;> rfl
  rw [Settings.validate, hfault, ← fault?_eq_none_iff]
  cases storage.fault? <;> simp

/-! ## What a hub makes of it -/

/-- A hub takes storage settings as they are. -/
structure TakenBy (storage : StorageSettings) (h : Hub) : Prop where
  capacity_eq : ∀ s, h.capacity s = (storage.retains s).toNat
  boxSize_eq : h.bulletin.boxSize = storage.mailboxSize.toNat
  standard_eq : h.limits.standard = storage.defaultLimit.toNat
  most_eq : h.limits.most = storage.maxLimit.toNat

/-- Sensible settings are those that are not changed when sizes are raised to one and limits are
put in order. -/
theorem sensible_iff_takenBy (hcapacity : ∀ s, h.capacity s = storage.capacity s)
    (hbox : h.bulletin.boxSize = max storage.mailboxSize.toNat 1)
    (hlimits : h.limits = .make storage.defaultLimit.toNat storage.maxLimit.toNat) :
    storage.Sensible ↔ storage.TakenBy h := by
  have hstandard : h.limits.standard =
      min (max storage.defaultLimit.toNat 1) (max storage.maxLimit.toNat 1) := by rw [hlimits]; rfl
  have hmost : h.limits.most = max storage.maxLimit.toNat 1 := by rw [hlimits]; rfl
  have hretains : ∀ s, h.capacity s = max (storage.retains s).toNat 1 := fun s =>
    (hcapacity s).trans (storage.capacity_eq_max s)
  constructor
  · rintro ⟨hpos, hmailbox, hdefault, hle⟩
    refine ⟨fun s => ?_, ?_, ?_, ?_⟩
    · have := hpos s
      have := hretains s
      omega
    all_goals omega
  · rintro ⟨hcapacity', hbox', hstandard', hmost'⟩
    refine ⟨fun s => ?_, ?_, ?_, ?_⟩
    · have := hcapacity' s
      have := hretains s
      omega
    all_goals omega

/-- The standard limit is found by a clamp that cannot fail. -/
theorem clamp?_limit (storage : StorageSettings) :
    clamp? 1 (max storage.maxLimit.toNat 1) storage.defaultLimit.toNat =
      some (Limits.make storage.defaultLimit.toNat storage.maxLimit.toNat).standard := by
  rw [clamp?, if_pos (Nat.le_max_right _ _), Option.some_inj]
  show _ = min (max storage.defaultLimit.toNat 1) (max storage.maxLimit.toNat 1)
  omega

end StorageSettings

/-! ## What sizes and limits are for -/

theorem Bulletin.ping_min {b : Bulletin} {n : Nat} :
    b.ping ⟨min n b.boxSize, true⟩ = ⟨min (n + 1) b.boxSize, true⟩ := by
  simp only [ping, Bool.true_and, decide_eq_true_eq]
  split <;> (congr 1; omega)

/-- Records fill a mailbox up to its size. -/
theorem Hub.box?_recordAll {h : Hub} {id n : Nat}
    (hbox : h.bulletin.box? id = some ⟨min n h.bulletin.boxSize, true⟩) (rs : List Record) :
    (h.recordAll rs).bulletin.box? id = some ⟨min (n + rs.length) h.bulletin.boxSize, true⟩ := by
  induction rs generalizing h n with
  | nil => exact hbox
  | cons r rs ih =>
    have hstep : (h.record r).2.bulletin.box? id =
        some ⟨min (n + 1) (h.record r).2.bulletin.boxSize, true⟩ := by
      rw [h.boxSize_record, bulletin_record, Bulletin.box?_accept, hbox, Option.map_some,
        Bulletin.ping_min]
    rw [recordAll_cons, ih hstep, h.boxSize_record, List.length_cons, Nat.add_right_comm,
      Nat.add_assoc]

theorem Hub.box?_recordAll_subscribe {h : Hub} (hb : h.bulletin.Sound) (rs : List Record) :
    (h.subscribe.2.recordAll rs).bulletin.box? h.subscribe.1 =
      some ⟨min rs.length h.bulletin.boxSize, true⟩ := by
  have hnew : h.subscribe.2.bulletin.box? h.subscribe.1 =
      some ⟨min 0 h.subscribe.2.bulletin.boxSize, true⟩ := by
    rw [box?_subscribe hb, Nat.zero_min]
    exact if_pos rfl
  rw [box?_recordAll hnew, h.twin_subscribe.boxSize_eq, Nat.zero_add]

namespace Limits

variable {f : Filter}

theorem limit_pos {n : Int64} (hf : f.validate = .ok ()) (hn : f.limit = some n) : 0 < n := by
  rw [Filter.validate, hn] at hf
  by_cases hle : n ≤ 0
  · simp only [if_pos hle] at hf
    cases hf
  · exact Int64.not_le.1 hle

/-- The limit of a search with a valid filter: its own, up to a bound, or else the standard one. -/
theorem resolve_eq (l : Limits) (hf : f.validate = .ok ()) :
    l.resolve f = match f.limit with
      | some n => min n.toInt.toNat l.most
      | none => l.standard := by
  rw [resolve]
  cases hn : f.limit with
  | none => rfl
  | some n => exact if_neg (Int64.not_lt.2 (Int64.le_of_lt (limit_pos hf hn)))

theorem resolve_pos (l : Limits) (hf : f.validate = .ok ()) : 0 < l.resolve f := by
  rw [l.resolve_eq hf]
  cases hn : f.limit with
  | none => exact l.standard_pos
  | some n =>
    have hpos : 0 < n.toInt := Int64.lt_iff_toInt_lt.1 (limit_pos hf hn)
    exact Nat.lt_min.2 ⟨by omega, l.most_pos⟩

theorem resolve_le (l : Limits) (f : Filter) : l.resolve f ≤ l.most := by
  rw [resolve]
  cases f.limit with
  | none => exact l.standard_le
  | some n =>
    simp only
    split
    · exact Nat.le_refl _
    · exact Nat.min_le_right _ _

end Limits

/-! ## All settings -/

/-- Storage settings are accepted exactly if a hub takes them as they are, after any deeds: it
retains as many records, its mailboxes hold as many pings, a search without a limit yields as many
matches and a search with a limit is cut at as many as they say. With any settings, accepted or not,
there are a standard limit and sizes above zero, and searches yield from one to as many matches as
the settings allow, or one if they allow none. -/
theorem Scene.accepted_iff_taken (storage : StorageSettings) (stream : StreamSettings)
    (ds : List Deed) :
    let h := ((start storage stream).run ds).hub
    (({ storage := storage } : Settings).validate = .ok () ↔ storage.TakenBy h) ∧
    clamp? 1 (max storage.maxLimit.toNat 1) storage.defaultLimit.toNat = some h.limits.standard ∧
    (∀ s, 0 < h.capacity s) ∧ 0 < h.bulletin.boxSize ∧
    (∀ rs, (h.subscribe.2.recordAll rs).bulletin.box? h.subscribe.1 =
      some ⟨min rs.length h.bulletin.boxSize, true⟩) ∧
    ∀ f, f.validate = .ok () →
      (h.limits.resolve f = match f.limit with
        | some n => min n.toInt.toNat h.limits.most
        | none => h.limits.standard) ∧
      1 ≤ h.limits.resolve f ∧ h.limits.resolve f ≤ max 1 storage.maxLimit.toNat := by
  intro h
  have hremembers := remembers_start storage stream ds
  have hbox := boxSize_run storage stream ds
  refine ⟨?_, ?_, fun s => ?_, ?_, ?_, fun f hf => ⟨h.limits.resolve_eq hf, h.limits.resolve_pos hf,
    ?_⟩⟩
  · rw [StorageSettings.validate_iff]
    exact StorageSettings.sensible_iff_takenBy hremembers.capacity_eq hbox hremembers.limits_eq
  · rw [storage.clamp?_limit, ← hremembers.limits_eq]
  · rw [hremembers.capacity_eq, storage.capacity_eq_max]
    exact Nat.le_max_right _ _
  · rw [hbox]
    exact Nat.le_max_right _ _
  · exact Hub.box?_recordAll_subscribe ((sound_start storage stream).run ds).keyed.sound
  · have hle := h.limits.resolve_le f
    have hmost : h.limits.most = max storage.maxLimit.toNat 1 := by
      rw [hremembers.limits_eq]
      rfl
    omega

/-- Settings in which nothing is as it should be: every size is zero and the limits contradict each
other. They are refused, and a hub that is made of them yields what it has, one match at a time. -/
theorem Scene.nothing_taken :
    let storage : StorageSettings := ⟨0, 0, 0, 0, 5, 0⟩
    let h := ((start storage {}).run []).hub
    ({ storage := storage } : Settings).validate ≠ .ok () ∧ ¬ storage.TakenBy h ∧
      h.limits.resolve { Filter.ofService "a" with limit := some 7 } = 1 := by
  intro storage h
  obtain ⟨htaken, -, -, -, -, hlimit⟩ := accepted_iff_taken storage {} []
  have hrefused : ({ storage := storage } : Settings).validate ≠ .ok () := by decide
  refine ⟨hrefused, fun ht => hrefused (htaken.2 ht), ?_⟩
  obtain ⟨hresolve, -, -⟩ := hlimit { Filter.ofService "a" with limit := some 7 } rfl
  exact hresolve

end SignalHub
