import SignalHub.Hub
/-!
# What a hub retains of its history

A window that began empty holds the end of the log of all records that were ever appended to it. So
a hub holds, for each signal, the end of the list of records of that signal that it ever accepted,
and the position of a record is its index in that list.

Results:
* `Window.Holds.append`: appending to a window appends to its log.
* `Window.Holds.range_eq`: a range of positions, read off the log.
* `Hub.Holds.record`: what a hub holds after it accepted one more record.
* `Hub.Holds.retained_eq`: the records of a signal that are left.
-/
namespace SignalHub

/-! ## Windows -/

namespace Window

variable {α : Type} {w : Window α} {log : List α}

/-- The window retains the end of the log, and its next position is the length of the log. -/
structure Holds (w : Window α) (log : List α) : Prop where
  next_eq : w.next = log.length
  toList_eq : w.toList = log.drop w.first

theorem holds_empty (capacity : Nat) : (empty capacity : Window α).Holds [] := ⟨rfl, rfl⟩

theorem first_append (w : Window α) (a : α) :
    (w.append a).first = w.first + if w.isFull then 1 else 0 := evicted_append w a

theorem size_pos_of_isFull (h : w.isFull) : 0 < w.size := by
  rw [size_eq_of_isFull h]; exact w.capacity_pos

theorem Holds.append (h : w.Holds log) (a : α) : (w.append a).Holds (log ++ [a]) := by
  refine ⟨by simp [h.next_eq], ?_⟩
  have hroom : w.first + (if w.isFull then 1 else 0) ≤ log.length := by
    rw [← h.next_eq, next, first]
    split
    · have := size_pos_of_isFull ‹_›; omega
    · omega
  rw [toList_append, first_append, h.toList_eq, List.drop_drop, List.drop_append_of_le_length hroom]

/-- A range of positions, read off the log. -/
theorem Holds.range_eq (h : w.Holds log) (lo hi : Nat) :
    w.range lo hi = (log.drop (max lo w.first)).take (hi + 1 - max lo w.first) := by
  rw [range, h.toList_eq, List.drop_drop]
  congr 2
  omega

/-- From a position to the end of the log. -/
theorem Holds.rangeWhere_eq (h : w.Holds log) {lo : Nat} (hlo : lo < w.next) (p : α → Bool) :
    w.rangeWhere lo (w.next - 1) p = (log.drop (max lo w.first)).filter p := by
  have hlen : (log.drop (max lo w.first)).length ≤ w.next - 1 + 1 - max lo w.first := by
    rw [List.length_drop, ← h.next_eq]; omega
  rw [rangeWhere, h.range_eq, List.take_of_length_le hlen]

end Window

/-! ## Records by signal -/

namespace Record

/-- The span that a record is. -/
def span? : Record → Option Span
  | .span s => some s
  | _ => none

/-- The log entry that a record is. -/
def log? : Record → Option LogEntry
  | .log l => some l
  | _ => none

/-- The metric point that a record is. -/
def metric? : Record → Option MetricPoint
  | .metric p => some p
  | _ => none

/-- The records of one signal. -/
def ofSignal (s : Signal) (rs : List Record) : List Record := rs.filter fun r => r.signal = s

theorem ofSignal_append (s : Signal) (rs rs' : List Record) :
    ofSignal s (rs ++ rs') = ofSignal s rs ++ ofSignal s rs' := List.filter_append ..

theorem filterMap_snoc_some {α : Type} {f : Record → Option α} {r : Record} {a : α}
    (h : f r = some a) (rs : List Record) : (rs ++ [r]).filterMap f = rs.filterMap f ++ [a] := by
  simp [h]

theorem filterMap_snoc_none {α : Type} {f : Record → Option α} {r : Record} (h : f r = none)
    (rs : List Record) : (rs ++ [r]).filterMap f = rs.filterMap f := by
  simp [List.filterMap_cons_none h]

/-- The payloads of one signal, as records. -/
theorem map_filterMap_eq {α : Type} {wrap : α → Record} {payload? : Record → Option α} {s : Signal}
    (h : ∀ r, (payload? r).map wrap = if r.signal = s then some r else none) (rs : List Record) :
    (rs.filterMap payload?).map wrap = ofSignal s rs := by
  rw [List.map_filterMap, ofSignal, ← List.filterMap_eq_filter]
  congr
  funext r
  rw [h r]
  by_cases hr : r.signal = s <;> simp [hr, Option.guard]

theorem map_span_filterMap (rs : List Record) :
    (rs.filterMap span?).map span = ofSignal .traces rs :=
  map_filterMap_eq (fun r => by cases r <;> rfl) rs

theorem map_log_filterMap (rs : List Record) :
    (rs.filterMap log?).map log = ofSignal .logs rs :=
  map_filterMap_eq (fun r => by cases r <;> rfl) rs

theorem map_metric_filterMap (rs : List Record) :
    (rs.filterMap metric?).map metric = ofSignal .metrics rs :=
  map_filterMap_eq (fun r => by cases r <;> rfl) rs

end Record

/-! ## Hubs -/

namespace Hub

/-- The position of the oldest retained record of a signal. -/
def first (h : Hub) : Signal → Nat
  | .traces => h.spans.window.first
  | .logs => h.logs.window.first
  | .metrics => h.metrics.window.first

/-- The retained records of a signal, oldest first. -/
def retained (h : Hub) : Signal → List Record
  | .traces => h.spans.window.toList.map .span
  | .logs => h.logs.window.toList.map .log
  | .metrics => h.metrics.window.toList.map .metric

/-- Each archive holds the end of the records of its signal among `rs`. -/
structure Holds (h : Hub) (rs : List Record) : Prop where
  spans : h.spans.window.Holds (rs.filterMap Record.span?)
  logs : h.logs.window.Holds (rs.filterMap Record.log?)
  metrics : h.metrics.window.Holds (rs.filterMap Record.metric?)

variable {h : Hub} {rs : List Record}

theorem holds_empty (s : StorageSettings) : (empty s).Holds [] :=
  ⟨Window.holds_empty _, Window.holds_empty _, Window.holds_empty _⟩

theorem Holds.position_eq (hh : h.Holds rs) (s : Signal) :
    h.position s = (Record.ofSignal s rs).length := by
  cases s with
  | traces => rw [← Record.map_span_filterMap, List.length_map]; exact hh.spans.next_eq
  | logs => rw [← Record.map_log_filterMap, List.length_map]; exact hh.logs.next_eq
  | metrics => rw [← Record.map_metric_filterMap, List.length_map]; exact hh.metrics.next_eq

/-- The records of a signal that are left. -/
theorem Holds.retained_eq (hh : h.Holds rs) (s : Signal) :
    h.retained s = (Record.ofSignal s rs).drop (h.first s) := by
  cases s with
  | traces => rw [← Record.map_span_filterMap, ← List.map_drop]; exact congrArg _ hh.spans.toList_eq
  | logs => rw [← Record.map_log_filterMap, ← List.map_drop]; exact congrArg _ hh.logs.toList_eq
  | metrics =>
    rw [← Record.map_metric_filterMap, ← List.map_drop]; exact congrArg _ hh.metrics.toList_eq

/-- Keeping a record adds it to the log of its signal and leaves the other logs alone. -/
theorem Holds.store (hh : h.Holds rs) (r : Record) : (h.store r).Holds (rs ++ [r]) := by
  obtain ⟨hs, hl, hm⟩ := hh
  cases r with
  | span s =>
    refine ⟨?_, ?_, ?_⟩
    · rw [Record.filterMap_snoc_some (a := s) rfl]; exact hs.append s
    · rw [Record.filterMap_snoc_none rfl]; exact hl
    · rw [Record.filterMap_snoc_none rfl]; exact hm
  | log l =>
    refine ⟨?_, ?_, ?_⟩
    · rw [Record.filterMap_snoc_none rfl]; exact hs
    · rw [Record.filterMap_snoc_some (a := l) rfl]; exact hl.append l
    · rw [Record.filterMap_snoc_none rfl]; exact hm
  | metric p =>
    refine ⟨?_, ?_, ?_⟩
    · rw [Record.filterMap_snoc_none rfl]; exact hs
    · rw [Record.filterMap_snoc_none rfl]; exact hl
    · rw [Record.filterMap_snoc_some (a := p) rfl]; exact hm.append p

/-- The other hub has the same archives. -/
structure Agree (h h' : Hub) : Prop where
  spans : h'.spans = h.spans
  logs : h'.logs = h.logs
  metrics : h'.metrics = h.metrics

namespace Agree

variable {h' : Hub}

theorem refl (h : Hub) : h.Agree h := ⟨rfl, rfl, rfl⟩

theorem symm (ha : h.Agree h') : h'.Agree h := ⟨ha.spans.symm, ha.logs.symm, ha.metrics.symm⟩

theorem trans {h'' : Hub} (ha : h.Agree h') (hb : h'.Agree h'') : h.Agree h'' :=
  ⟨hb.spans.trans ha.spans, hb.logs.trans ha.logs, hb.metrics.trans ha.metrics⟩

theorem position_eq (ha : h.Agree h') (s : Signal) : h'.position s = h.position s := by
  cases s <;> simp [position, ha.spans, ha.logs, ha.metrics]

theorem holds (ha : h.Agree h') (hh : h.Holds rs) : h'.Holds rs :=
  ⟨ha.spans ▸ hh.spans, ha.logs ▸ hh.logs, ha.metrics ▸ hh.metrics⟩

end Agree

theorem agree_subscribe (h : Hub) : h.Agree h.subscribe.2 := ⟨rfl, rfl, rfl⟩

theorem agree_unsubscribe (h : Hub) (id : Nat) : h.Agree (h.unsubscribe id) := by
  rw [unsubscribe]
  split <;> exact ⟨rfl, rfl, rfl⟩

theorem agree_discard (h : Hub) (id : Nat) : h.Agree (h.discard id) := by
  simp only [discard, unsubscribe]
  split <;> exact ⟨rfl, rfl, rfl⟩

theorem agree_readPing (h : Hub) (id : Nat) : h.Agree (h.readPing id).2 := ⟨rfl, rfl, rfl⟩

theorem agree_record (h : Hub) (r : Record) : (h.store r).Agree (h.record r).2 := by
  simp only [Hub.record, announce]
  split <;> exact ⟨rfl, rfl, rfl⟩

theorem Holds.record (hh : h.Holds rs) (r : Record) : (h.record r).2.Holds (rs ++ [r]) :=
  (agree_record h r).holds (hh.store r)

theorem position_le_record (hh : h.Holds rs) (r : Record) (s : Signal) :
    h.position s ≤ (h.record r).2.position s := by
  rw [hh.position_eq, (hh.record r).position_eq, Record.ofSignal_append, List.length_append]
  exact Nat.le_add_right _ _

end Hub

end SignalHub
