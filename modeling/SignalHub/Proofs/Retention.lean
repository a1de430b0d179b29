import SignalHub.Proofs.History
/-!
# A window as the end of a log

A window that began empty reports and shows of the log of all records ever appended to it what can
be read off that log: the position of each record is its index, the oldest record is pushed out
from the moment the log is as long as the capacity, and every view is a view of the end of the log.

Positions are words on a machine, and the retained records lie in a row that is read by index. The
differences that such a reading takes never wrap, and its indices never lie outside the row.

Results:
* `Window.Holds.size_eq`: how much of a log is retained.
* `Window.Holds.reports_eq`: what appending reports.
* `Window.Holds.rangeWhere_eq_filter`: a range as a choice among the places of the log.
* `Window.Holds.read?_eq`: reading by index succeeds and yields the range.
* `Window.refines_log`: all of it, for a window that began empty.
-/
namespace SignalHub

theorem pairwise_zipIdx {α : Type} (as : List α) : as.zipIdx.Pairwise fun x y => x.2 < y.2 := by
  have hplaces : (as.zipIdx.map Prod.snd).Pairwise (· < ·) := by
    rw [List.zipIdx_map_snd]
    exact List.pairwise_lt_range'
  exact List.pairwise_map.1 hplaces

/-- The matching items at places from `a` to `b`, as a choice among all places. -/
theorem filter_zipIdx_between {α : Type} (q : α → Bool) (a b : Nat) : ∀ (as : List α) (c : Nat),
    ((as.zipIdx c).filter fun x => a ≤ x.2 && x.2 ≤ b && q x.1).map (·.1) =
      ((as.drop (a - c)).take (b + 1 - max a c)).filter q
  | [], c => by simp
  | x :: as, c => by
    have ih := filter_zipIdx_between q a b as (c + 1)
    rw [List.zipIdx_cons, List.filter_cons]
    rcases Nat.lt_or_ge c a with hca | hac
    · -- Places before `a` are passed over.
      have hdrop : a - c = a - (c + 1) + 1 := by omega
      have hmax : max a c = max a (c + 1) := by omega
      rw [if_neg (by simp; omega), ih, hdrop, List.drop_succ_cons, hmax]
    · have hdrop : a - (c + 1) = 0 := by omega
      rw [hdrop, List.drop_zero] at ih
      rw [show a - c = 0 by omega, List.drop_zero]
      rcases Nat.lt_or_ge b c with hbc | hcb
      · have hnone : b + 1 - max a (c + 1) = 0 := by omega
        rw [hnone, List.take_zero] at ih
        rw [if_neg (by simp; omega), ih, show b + 1 - max a c = 0 by omega, List.take_zero]
      · have htake : b + 1 - max a c = b + 1 - max a (c + 1) + 1 := by omega
        rw [htake, List.take_succ_cons, List.filter_cons]
        by_cases hq : q x
        · rw [if_pos (by simp [hq]; omega), if_pos hq, List.map_cons, ih]
        · rw [if_neg (by simp [hq]), if_neg hq, ih]

namespace Window

variable {α : Type} {w : Window α} {log : List α}

/-! ## How much is retained -/

theorem Holds.evicted_add_size (h : w.Holds log) : w.evicted + w.size = log.length := h.next_eq

/-- All of a log is retained up to the capacity. -/
theorem Holds.size_eq (h : w.Holds log) : w.size = min log.length w.capacity := by
  have hsum := h.evicted_add_size
  have hle := w.size_le
  by_cases he : w.evicted = 0
  · omega
  · have hfull := w.evicted_full he
    omega

theorem Holds.evicted_eq (h : w.Holds log) : w.evicted = log.length - w.size := by
  have hsum := h.evicted_add_size
  omega

theorem Holds.isFull_iff (h : w.Holds log) : w.isFull ↔ w.capacity ≤ log.length := by
  have hsize := h.size_eq
  simp only [isFull, decide_eq_true_eq]
  omega

theorem Holds.toList_eq_drop (h : w.Holds log) : w.toList = log.drop (log.length - w.size) := by
  rw [h.toList_eq, first, h.evicted_eq]

theorem Holds.appendAll (h : w.Holds log) (as : List α) : (w.appendAll as).Holds (log ++ as) := by
  induction as generalizing w log with
  | nil => simpa [Window.appendAll] using h
  | cons a as ih =>
    have hrest := ih (h.append a)
    rwa [List.append_assoc, List.singleton_append] at hrest

@[simp] theorem capacity_appendAll (w : Window α) (as : List α) :
    (w.appendAll as).capacity = w.capacity := by
  induction as generalizing w with
  | nil => rfl
  | cons a as ih => exact (ih (w.append a)).trans (capacity_append w a)

/-! ## Appending -/

/-- What is reported of each record while records are appended: its position, and whether it pushed
out the oldest one. -/
def reports (w : Window α) : List α → List (Nat × Bool)
  | [] => []
  | a :: as => (w.next, w.isFull) :: (w.append a).reports as

/-- Positions are given in order, and from the capacity on every record pushes one out. -/
theorem Holds.reports_eq (h : w.Holds log) (as : List α) :
    w.reports as =
      (List.range' log.length as.length).map fun i => (i, decide (w.capacity ≤ i)) := by
  induction as generalizing w log with
  | nil => rfl
  | cons a as ih =>
    have hfull : w.isFull = decide (w.capacity ≤ log.length) := by
      rw [Bool.eq_iff_iff, h.isFull_iff, decide_eq_true_iff]
    have hrest := ih (h.append a)
    rw [capacity_append, List.length_append, List.length_singleton] at hrest
    rw [reports, hrest, h.next_eq, hfull, List.length_cons, List.range'_succ, List.map_cons]

/-! ## Reading by position -/

/-- A range of positions: the matching records of the log at those that are retained. -/
theorem Holds.rangeWhere_eq_filter (h : w.Holds log) (lo hi : Nat) (p : α → Bool) :
    w.rangeWhere lo hi p = (log.zipIdx.filter fun x =>
      max lo w.first ≤ x.2 && x.2 ≤ min hi (log.length - 1) && p x.1).map (·.1) := by
  rw [filter_zipIdx_between, rangeWhere, h.range_eq, Nat.sub_zero, Nat.max_zero]
  -- A log ends at its last place, so nothing is taken behind it.
  have htake : (log.drop (max lo w.first)).take (hi + 1 - max lo w.first) =
      (log.drop (max lo w.first)).take (min hi (log.length - 1) + 1 - max lo w.first) := by
    rw [List.take_eq_take_iff, List.length_drop]
    omega
  rw [htake]

/-! ## Reading by index -/

/-- The difference of two words, unless it would wrap. -/
def minus? (a b : UInt64) : Option UInt64 := if b ≤ a then some (a - b) else none

theorem minus?_eq {a b : UInt64} (h : b.toNat ≤ a.toNat) :
    ∃ d, minus? a b = some d ∧ d.toNat = a.toNat - b.toNat :=
  have hle : b ≤ a := UInt64.le_iff_toNat_le.2 h
  ⟨a - b, if_pos hle, UInt64.toNat_sub_of_le _ _ hle⟩

/-- The items of a row from one index to another one, both included, unless the row does not reach
that far. -/
def slice? (row : List α) (start stop : UInt64) : Option (List α) :=
  if start.toNat ≤ stop.toNat + 1 ∧ stop.toNat < row.length then
    some ((row.drop start.toNat).take (stop.toNat + 1 - start.toNat))
  else none

/-- The position of the oldest retained record, from what a machine counts: the records so far and
those in the row. -/
def firstWord? (w : Window α) : Option UInt64 := minus? (.ofNat w.next) (.ofNat w.size)

/-- The matching records of a range, read as a machine does that counts in words and keeps the
retained records in a row. It yields nothing if a difference wraps or an index lies outside the
row. -/
def read? (w : Window α) (lo hi : UInt64) (p : α → Bool) : Option (List α) :=
  if hi < lo then some []
  else if UInt64.ofNat w.next = 0 then some []
  else do
    let first ← w.firstWord?
    let last ← minus? (.ofNat w.next) 1
    let lo := if lo < first then first else lo
    let hi := if last < hi then last else hi
    if hi < lo then some []
    else do
      let start ← minus? lo first
      let stop ← minus? hi first
      let row ← slice? w.toList start stop
      some (row.filter p)

theorem Holds.toNat_next (h : w.Holds log) (hlog : log.length < UInt64.size) :
    (UInt64.ofNat w.next).toNat = log.length := by
  rw [h.next_eq, UInt64.toNat_ofNat_of_lt' hlog]

theorem Holds.firstWord?_eq (h : w.Holds log) (hlog : log.length < UInt64.size) :
    ∃ first, w.firstWord? = some first ∧ first.toNat = w.first := by
  have hsum := h.evicted_add_size
  have hsize : (UInt64.ofNat w.size).toNat = w.size :=
    UInt64.toNat_ofNat_of_lt' (by omega)
  obtain ⟨d, hd, hdiff⟩ := minus?_eq (a := .ofNat w.next) (b := .ofNat w.size)
    (by rw [h.toNat_next hlog, hsize]; omega)
  refine ⟨d, hd, ?_⟩
  rw [hdiff, h.toNat_next hlog, hsize, first]
  omega

theorem rangeWhere_eq_nil {lo hi : Nat} (h : hi < max lo w.first) (p : α → Bool) :
    w.rangeWhere lo hi p = [] := by
  rw [rangeWhere, range, show hi + 1 - max lo w.first = 0 by omega, List.take_zero, List.filter_nil]

/-- A reading within the row is a range. -/
theorem slice?_eq (h : w.Holds log) {lo hi : Nat} {start stop : UInt64}
    (hstart : start.toNat = max lo w.first - w.first)
    (hstop : stop.toNat = min hi (log.length - 1) - w.first)
    (hle : max lo w.first ≤ min hi (log.length - 1)) (hpos : 0 < log.length) :
    slice? w.toList start stop = some (w.range lo hi) := by
  have hsum := h.evicted_add_size
  have hfirst : w.first = w.evicted := rfl
  rw [slice?, if_pos (by rw [length_toList]; omega), range, hstart, hstop]
  congr 1
  rw [List.take_eq_take_iff, List.length_drop, length_toList]
  omega

/-- No difference wraps and no index lies outside the row. -/
theorem Holds.read?_eq (h : w.Holds log) (hlog : log.length < UInt64.size) (lo hi : UInt64)
    (p : α → Bool) : w.read? lo hi p = some (w.rangeWhere lo.toNat hi.toNat p) := by
  have hnext := h.toNat_next hlog
  rw [read?]
  split
  · rename_i hlt
    have hlt' : hi.toNat < lo.toNat := UInt64.lt_iff_toNat_lt.1 hlt
    rw [rangeWhere_eq_nil (by omega)]
  split
  · rename_i hzero
    have hnil : log = [] := List.length_eq_zero_iff.1 (by rw [← hnext, hzero]; rfl)
    rw [rangeWhere, h.range_eq, hnil]
    simp
  rename_i hne
  have hpos : 0 < log.length := by
    rw [← hnext]
    exact Nat.pos_of_ne_zero fun hz => hne (UInt64.toNat_inj.1 hz)
  obtain ⟨first, hfirst, hfirstNat⟩ := h.firstWord?_eq hlog
  obtain ⟨last, hlast, hlastNat⟩ := minus?_eq (a := .ofNat w.next) (b := 1)
    (by rw [hnext]; exact hpos)
  rw [hnext, UInt64.toNat_one] at hlastNat
  simp only [hfirst, hlast, Option.bind_eq_bind, Option.bind_some]
  generalize hlo : (if lo < first then first else lo) = lo'
  generalize hhi : (if last < hi then last else hi) = hi'
  have hloNat : lo'.toNat = max lo.toNat w.first := by
    rw [← hlo]
    split <;> rename_i hlt <;> rw [UInt64.lt_iff_toNat_lt] at hlt <;> omega
  have hhiNat : hi'.toNat = min hi.toNat (log.length - 1) := by
    rw [← hhi]
    split <;> rename_i hlt <;> rw [UInt64.lt_iff_toNat_lt] at hlt <;> omega
  split
  · rename_i hlt
    rw [UInt64.lt_iff_toNat_lt, hloNat, hhiNat] at hlt
    by_cases hbefore : hi.toNat < max lo.toNat w.first
    · rw [rangeWhere_eq_nil hbefore]
    · -- The range begins behind the end of the log.
      have hend : log.length ≤ max lo.toNat w.first := by omega
      rw [rangeWhere, h.range_eq, List.drop_eq_nil_of_le hend, List.take_nil, List.filter_nil]
  · rename_i hge
    rw [UInt64.lt_iff_toNat_lt, hloNat, hhiNat] at hge
    obtain ⟨start, hstart, hstartNat⟩ := minus?_eq (a := lo') (b := first) (by omega)
    obtain ⟨stop, hstop, hstopNat⟩ := minus?_eq (a := hi') (b := first) (by omega)
    rw [hloNat, hfirstNat] at hstartNat
    rw [hhiNat, hfirstNat] at hstopNat
    have hslice := slice?_eq h hstartNat hstopNat (Nat.le_of_not_lt hge) hpos
    simp only [hstart, hstop, hslice, Option.bind_some, rangeWhere]

/-! ## All of it -/

theorem holds_appendAll_empty (capacity : Nat) (log : List α) :
    ((empty capacity).appendAll log).Holds log := by
  simpa using (holds_empty capacity).appendAll log

/-- A window that began empty refines the log of what was appended to it: what appending reports,
what is counted, and what is read are all read off the log. A machine that counts in words reads
the same, without a difference that wraps or an index outside the row. -/
theorem refines_log (capacity : Nat) (log : List α) (hlog : log.length < UInt64.size) :
    let w := (empty capacity).appendAll log
    let full := max capacity 1
    (empty capacity).reports log = (List.range log.length).map (fun i => (i, decide (full ≤ i))) ∧
    w.next = log.length ∧
    w.size = min log.length full ∧
    w.first = log.length - w.size ∧
    w.evicted = log.length - w.size ∧
    w.firstWord? = some (.ofNat (log.length - w.size)) ∧
    w.toList = log.drop (log.length - w.size) ∧
    (∀ lo hi p, w.rangeWhere lo hi p = (log.zipIdx.filter fun x =>
      max lo w.first ≤ x.2 && x.2 ≤ min hi (log.length - 1) && p x.1).map (·.1)) ∧
    (∀ lo hi p, w.read? lo hi p = some (w.rangeWhere lo.toNat hi.toNat p)) ∧
    (∀ limit p, w.newest limit p =
      (((log.drop (log.length - w.size)).reverse.filter p).take limit)) := by
  intro w full
  have hw : w.Holds log := holds_appendAll_empty capacity log
  have hcap : w.capacity = full := capacity_appendAll _ _
  have hreports := (holds_empty (α := α) capacity).reports_eq log
  rw [List.length_nil, ← List.range_eq_range'] at hreports
  have hword : w.firstWord? = some (.ofNat (log.length - w.size)) := by
    obtain ⟨first, hfirst, hfirstNat⟩ := hw.firstWord?_eq hlog
    rw [hfirst, ← hw.evicted_eq, ← Window.first, ← hfirstNat, UInt64.ofNat_toNat]
  refine ⟨hreports, hw.next_eq, hcap ▸ hw.size_eq, hw.evicted_eq, hw.evicted_eq, hword,
    hw.toList_eq_drop, hw.rangeWhere_eq_filter, hw.read?_eq hlog, fun limit p => ?_⟩
  rw [newest_eq, hw.toList_eq_drop]

/-- The third record pushes the first one out of a window for two. -/
theorem refines_log_of_three :
    let log := [7, 8, 9]
    let w := (empty 2).appendAll log
    log.length < UInt64.size ∧ (empty 2).reports log = [(0, false), (1, false), (2, true)] ∧
      w.read? 0 0xFFFFFFFFFFFFFFFF (fun n => n != 9) = some [8] := by
  intro log w
  have hlog : log.length < UInt64.size := by decide
  obtain ⟨hreports, -, -, -, -, -, -, -, hread, -⟩ := refines_log 2 log hlog
  exact ⟨hlog, hreports.trans rfl, (hread _ _ _).trans rfl⟩

end Window

end SignalHub
