import SignalHub.Feed
import SignalHub.Proofs.History
/-!
# What a feed owes its reader

A diary says where a feed began, at which states of the hub it looked, and what it yielded. A look
passes over all positions from the cursor to the head. So each position is passed over once, by the
first look that finds its record accepted; the record is missed if it had been evicted by then.

Results:
* `Diary.owed`: the matching records that a feed has passed over and not missed.
* `Feed.Follows`: a feed has yielded what it owes, and its cursors are in range.
* `Feed.follows_startCursor`, `Feed.Follows.grow`, `Feed.Follows.poll`: this holds when a feed is
  attached, and stays when a record is accepted and when the feed is polled.
-/
namespace SignalHub

/-- The records of a signal in a delta. -/
def Delta.records (d : Delta) : Signal → List Record
  | .traces => d.spans.map .span
  | .logs => d.logs.map .log
  | .metrics => d.metrics.map .metric

/-- A delta is empty if it has no record of any signal. -/
theorem Delta.isEmpty_iff (d : Delta) : d.isEmpty ↔ ∀ s, d.records s = [] := by
  constructor
  · intro h s
    simp only [isEmpty, size, beq_iff_eq, Nat.add_eq_zero_iff, List.length_eq_zero_iff] at h
    cases s <;> simp [records, h]
  · intro h
    have ht := h .traces
    have hl := h .logs
    have hm := h .metrics
    simp only [records, List.map_eq_nil_iff] at ht hl hm
    simp [isEmpty, size, ht, hl, hm]

/-! ## What a look finds -/

namespace Filter

variable {f : Filter}

theorem appliesTo_of_matchesSpan {s : Span} (h : f.matchesSpan s) : f.appliesTo .traces := by
  simp only [matchesSpan, Bool.and_eq_true] at h; exact h.1.1

theorem appliesTo_of_matchesLog {l : LogEntry} (h : f.matchesLog l) : f.appliesTo .logs := by
  simp only [matchesLog, Bool.and_eq_true] at h; exact h.1.1

theorem appliesTo_of_matchesMetric {p : MetricPoint} (h : f.matchesMetric p) :
    f.appliesTo .metrics := by
  simp only [matchesMetric, Bool.and_eq_true] at h; exact h.1.1

end Filter

namespace Feed

/-- A look reads the log from the cursor on, or from the oldest retained record on. -/
theorem unread_eq {α : Type} [Telemetry α] {a : Archive α} {log : List α}
    (h : a.window.Holds log) {f : Filter}
    (hf : ∀ x : α, Telemetry.satisfies f x → f.appliesTo (Telemetry.signal α)) (cursor : Nat) :
    unread a f cursor =
      (log.drop (max cursor a.window.first)).filter (Telemetry.satisfies f) := by
  rw [unread, fetch]
  split
  · rename_i hskip
    symm
    rcases hskip with hhead | happ
    · rw [List.drop_eq_nil_of_le (by rw [← h.next_eq]; omega)]; rfl
    · rw [List.filter_eq_nil_iff]
      exact fun x _ hx => happ (hf x hx)
  · rename_i hread
    exact h.rangeWhere_eq (by omega) _

/-- What a look finds of one signal. -/
theorem records_look {h : Hub} {rs : List Record} (hh : h.Holds rs) (f : Feed) (s : Signal) :
    (look h f).records s =
      ((Record.ofSignal s rs).drop (max (f.cursor.get s) (h.first s))).filter
        f.filter.matchesRecord := by
  cases s with
  | traces =>
    rw [← Record.map_span_filterMap, ← List.map_drop, List.filter_map]
    exact congrArg _ (unread_eq hh.spans (fun _ => Filter.appliesTo_of_matchesSpan) _)
  | logs =>
    rw [← Record.map_log_filterMap, ← List.map_drop, List.filter_map]
    exact congrArg _ (unread_eq hh.logs (fun _ => Filter.appliesTo_of_matchesLog) _)
  | metrics =>
    rw [← Record.map_metric_filterMap, ← List.map_drop, List.filter_map]
    exact congrArg _ (unread_eq hh.metrics (fun _ => Filter.appliesTo_of_matchesMetric) _)

end Feed

/-! ## Diaries -/

/-- The past of a feed. -/
structure Diary where
  /-- The heads of the archives when the feed was attached. -/
  heads : PerSignal Nat
  /-- How far behind the heads the feed was to start. -/
  backfill : PerSignal Nat
  /-- The hub at each look of the feed, that is, each poll while it was not paused. -/
  looks : List Hub
  /-- The deltas that the feed yielded. -/
  deltas : List Delta
  /-- Those that have reached the reader. -/
  taken : List Delta

namespace Diary

/-- The diary of a feed that has just been attached. -/
def opened (h : Hub) (backfill : PerSignal Nat) : Diary :=
  ⟨⟨h.position .traces, h.position .logs, h.position .metrics⟩, backfill, [], [], []⟩

/-- The first position that the feed is to read. -/
def start (d : Diary) (s : Signal) : Nat := d.heads.get s - min (d.backfill.get s) (d.heads.get s)

/-- Whether the record at a position had been evicted when the feed first looked after the record
had been accepted. -/
def missed (d : Diary) (s : Signal) (p : Nat) : Bool :=
  match d.looks.find? fun h => p < h.position s with
  | some h => p < h.first s
  | none => false

/-- Whether a feed owes the record at a position: it has passed over the position, not missed the
record, and the record matches. -/
def owes (d : Diary) (f : Filter) (s : Signal) (cursor : Nat) (x : Record × Nat) : Bool :=
  d.start s ≤ x.2 && x.2 < cursor && !d.missed s x.2 && f.matchesRecord x.1

/-- What a feed with that cursor owes of a log, in the order of the log. -/
def owed (d : Diary) (f : Filter) (s : Signal) (cursor : Nat) (log : List Record) : List Record :=
  (log.zipIdx.filter (d.owes f s cursor)).map (·.1)

/-- The records of a signal that the feed delivered. -/
def delivered (d : Diary) (s : Signal) : List Record := d.deltas.flatMap (·.records s)

/-- The diary after one more look. -/
def look (d : Diary) (h : Hub) (ds : List Delta) : Diary :=
  { d with looks := d.looks ++ [h], deltas := d.deltas ++ ds }

/-- The diary after the feed was polled. -/
def poll (d : Diary) (h : Hub) (f : Feed) : Diary :=
  if f.paused then d else d.look h (f.poll h).1.toList

/-- The diary after the reader took one more delta. -/
def take (d : Diary) (delta : Delta) : Diary := { d with taken := d.taken ++ [delta] }

/-- The diary after the reader was given all that the feed yielded. -/
def handOver (d : Diary) : Diary := { d with taken := d.deltas }

variable {d : Diary} {f : Filter} {s : Signal} {cursor p : Nat} {log : List Record} {h : Hub}
  {ds : List Delta} {x : Record × Nat}

@[simp] theorem start_look : (d.look h ds).start s = d.start s := rfl

theorem missed_look_of_seen (hp : ∃ k ∈ d.looks, p < k.position s) :
    (d.look h ds).missed s p = d.missed s p := by
  obtain ⟨k, hk⟩ : ∃ k, d.looks.find? (fun h => p < h.position s) = some k := by
    rw [← Option.isSome_iff_exists, List.find?_isSome]
    simpa using hp
  simp [missed, look, List.find?_append, hk]

theorem missed_look_of_new (hp : ∀ k ∈ d.looks, k.position s ≤ p) (hh : p < h.position s) :
    (d.look h ds).missed s p = decide (p < h.first s) := by
  have hnone : d.looks.find? (fun h => p < h.position s) = none := by
    rw [List.find?_eq_none]
    simpa using hp
  simp [missed, look, List.find?_append, hnone, hh]

theorem owes_eq_false_of_le (hx : cursor ≤ x.2) : d.owes f s cursor x = false := by
  simp [owes, show ¬ x.2 < cursor by omega]

/-- A look changes nothing about what was passed over before. -/
theorem owes_look_of_lt {head : Nat} (hx : x.2 < cursor) (hc : cursor ≤ head)
    (hseen : ∀ p, d.start s ≤ p → p < cursor → ∃ k ∈ d.looks, p < k.position s) :
    (d.look h ds).owes f s head x = d.owes f s cursor x := by
  have hn : x.2 < head := by omega
  by_cases hs : d.start s ≤ x.2
  · simp [owes, hs, hx, hn, missed_look_of_seen (hseen _ hs hx)]
  · simp [owes, hs]

/-- What a look passes over is owed if it is retained and matches. -/
theorem owes_look_of_ge (hstart : d.start s ≤ cursor) (hx : cursor ≤ x.2)
    (hn : x.2 < h.position s) (hnew : ∀ k ∈ d.looks, k.position s ≤ cursor) :
    (d.look h ds).owes f s (h.position s) x = (h.first s ≤ x.2 && f.matchesRecord x.1) := by
  have hm : (d.look h ds).missed s x.2 = decide (x.2 < h.first s) :=
    missed_look_of_new (fun k hk => Nat.le_trans (hnew k hk) hx) hn
  simp [owes, hm, hn, Nat.le_trans hstart hx, ← decide_not]

theorem deltas_poll (d : Diary) (h : Hub) (f : Feed) :
    (d.poll h f).deltas = d.deltas ++ (f.poll h).1.toList := by
  unfold poll
  split
  · rename_i hp; simp [Feed.poll_paused hp]
  · rfl

@[simp] theorem taken_poll (d : Diary) (h : Hub) (f : Feed) : (d.poll h f).taken = d.taken := by
  unfold poll; split <;> rfl

/-- Records beyond the cursor are not owed yet. -/
theorem owed_append (hc : cursor ≤ log.length) (more : List Record) :
    d.owed f s cursor (log ++ more) = d.owed f s cursor log := by
  have hmore : (more.zipIdx (0 + log.length)).filter (d.owes f s cursor) = [] := by
    rw [List.filter_eq_nil_iff]
    intro x hx
    have := List.le_snd_of_mem_zipIdx hx
    simp [owes_eq_false_of_le (d := d) (f := f) (s := s) (show cursor ≤ x.2 by omega)]
  rw [owed, List.zipIdx_append, List.filter_append, hmore, List.append_nil, owed]

/-- The matching records from a position on, as a choice among the places of a log. -/
theorem filter_zipIdx_ge (q : Record → Bool) (a : Nat) : ∀ (rs : List Record) (c : Nat),
    ((rs.zipIdx c).filter fun x => a ≤ x.2 && q x.1).map (·.1) = (rs.drop (a - c)).filter q
  | [], c => by simp
  | r :: rs, c => by
    have ih := filter_zipIdx_ge q a rs (c + 1)
    rw [List.zipIdx_cons, List.filter_cons]
    rcases Nat.lt_or_ge c a with h | h
    · rw [if_neg (by simp; omega), ih, show a - c = a - (c + 1) + 1 by omega, List.drop_succ_cons]
    · rw [show a - (c + 1) = 0 by omega, List.drop_zero] at ih
      rw [show a - c = 0 by omega, List.drop_zero, List.filter_cons]
      by_cases hq : q r
      · rw [if_pos (by simp [h, hq]), if_pos hq, List.map_cons, ih]
      · rw [if_neg (by simp [hq]), if_neg hq, ih]

/-- A look passes over the positions from the cursor to the head, and misses those evicted. -/
theorem owed_look (hstart : d.start s ≤ cursor) (hhead : h.position s = log.length)
    (hc : cursor ≤ log.length)
    (hseen : ∀ p, d.start s ≤ p → p < cursor → ∃ k ∈ d.looks, p < k.position s)
    (hnew : ∀ k ∈ d.looks, k.position s ≤ cursor) :
    (d.look h ds).owed f s (h.position s) log =
      d.owed f s cursor log ++ (log.drop (max cursor (h.first s))).filter f.matchesRecord := by
  have hlen : (log.take cursor).length = cursor := by simp [hc]
  have hsplit : log.zipIdx = (log.take cursor).zipIdx ++ (log.drop cursor).zipIdx cursor :=
    calc log.zipIdx = (log.take cursor ++ log.drop cursor).zipIdx := by rw [List.take_append_drop]
      _ = _ := by rw [List.zipIdx_append, hlen, Nat.zero_add]
  have hbelow : (log.take cursor).zipIdx.filter ((d.look h ds).owes f s (h.position s)) =
      (log.take cursor).zipIdx.filter (d.owes f s cursor) := by
    refine List.filter_congr fun x hx => owes_look_of_lt ?_ (by omega) hseen
    have := List.snd_lt_of_mem_zipIdx hx
    omega
  have hold : ((log.drop cursor).zipIdx cursor).filter (d.owes f s cursor) = [] := by
    rw [List.filter_eq_nil_iff]
    intro x hx
    simp [owes_eq_false_of_le (d := d) (f := f) (s := s) (List.le_snd_of_mem_zipIdx hx)]
  have habove : ((log.drop cursor).zipIdx cursor).filter
        ((d.look h ds).owes f s (h.position s)) =
      ((log.drop cursor).zipIdx cursor).filter fun x => h.first s ≤ x.2 && f.matchesRecord x.1 := by
    refine List.filter_congr fun x hx =>
      owes_look_of_ge hstart (List.le_snd_of_mem_zipIdx hx) ?_ hnew
    have := List.snd_lt_of_mem_zipIdx hx
    rw [List.length_drop] at this
    omega
  have hdrop : cursor + (h.first s - cursor) = max cursor (h.first s) := by omega
  rw [owed, owed, hsplit, List.filter_append, List.filter_append, hbelow, hold, habove,
    List.map_append, filter_zipIdx_ge, List.drop_drop, hdrop, List.append_nil]

end Diary

/-! ## Feeds and their diaries -/

namespace Feed

variable {f : Feed} {d : Diary} {h : Hub} {rs : List Record}

/-- The feed stands where its diary says, and it has delivered what it owes. -/
structure Follows (f : Feed) (d : Diary) (h : Hub) (rs : List Record) : Prop where
  start_le : ∀ s, d.start s ≤ f.cursor.get s
  cursor_le : ∀ s, f.cursor.get s ≤ h.position s
  /-- What lies behind the cursor was there at some look. -/
  seen : ∀ s p, d.start s ≤ p → p < f.cursor.get s → ∃ k ∈ d.looks, p < k.position s
  /-- What lies beyond the cursor was there at no look. -/
  looks_le : ∀ s, ∀ k ∈ d.looks, k.position s ≤ f.cursor.get s
  delivered_eq : ∀ s,
    d.delivered s = d.owed f.filter s (f.cursor.get s) (Record.ofSignal s rs)

theorem get_startCursor (h : Hub) (b : PerSignal Nat) (s : Signal) :
    (startCursor h b).get s = (Diary.opened h b).start s := by
  cases s <;> simp [startCursor, Diary.opened, Diary.start, PerSignal.get, behind] <;> omega

theorem follows_startCursor {b : PerSignal Nat} (hc : f.cursor = startCursor h b) :
    f.Follows (Diary.opened h b) h rs := by
  have hcur : ∀ s, f.cursor.get s = (Diary.opened h b).start s := by
    intro s; rw [hc, get_startCursor]
  refine ⟨fun s => Nat.le_of_eq (hcur s).symm, ?_, ?_, by simp [Diary.opened], ?_⟩
  · intro s
    rw [hcur]
    cases s <;> simp [Diary.opened, Diary.start, PerSignal.get]
  · intro s p h1 h2; rw [hcur] at h2; omega
  · intro s
    rw [hcur, Diary.owed, List.filter_eq_nil_iff.2]
    · rfl
    · intro x _
      simp only [Diary.owes, Bool.and_eq_true, decide_eq_true_eq, not_and]
      omega

/-- More records change nothing about what is behind the cursor. -/
theorem Follows.grow (hf : f.Follows d h rs) (hh : h.Holds rs) {h' : Hub} {more : List Record}
    (hpos : ∀ s, h.position s ≤ h'.position s) : f.Follows d h' (rs ++ more) := by
  refine ⟨hf.start_le, fun s => Nat.le_trans (hf.cursor_le s) (hpos s), hf.seen, hf.looks_le, ?_⟩
  intro s
  have hc := hf.cursor_le s
  rw [hh.position_eq] at hc
  rw [Record.ofSignal_append, Diary.owed_append hc, hf.delivered_eq]

theorem Follows.agree (hf : f.Follows d h rs) {h' : Hub} (ha : h.Agree h') : f.Follows d h' rs :=
  ⟨hf.start_le, fun s => by rw [ha.position_eq]; exact hf.cursor_le s, hf.seen, hf.looks_le,
    hf.delivered_eq⟩

@[simp] theorem filter_poll (h : Hub) (f : Feed) : (f.poll h).2.filter = f.filter := by
  unfold poll; split <;> rfl

@[simp] theorem id_poll (h : Hub) (f : Feed) : (f.poll h).2.id = f.id := by
  unfold poll; split <;> rfl

@[simp] theorem paused_poll (h : Hub) (f : Feed) : (f.poll h).2.paused = f.paused := by
  unfold poll; split <;> rfl

/-- A poll yields all that a look finds. -/
theorem records_poll (hp : f.paused = false) (s : Signal) :
    (f.poll h).1.toList.flatMap (·.records s) = (look h f).records s := by
  simp only [poll, hp, Bool.false_eq_true, if_false]
  split
  · rename_i he; simp [(Delta.isEmpty_iff _).1 he s]
  · simp

/-- An unpaused poll takes every cursor to the head. -/
theorem Follows.cursor_poll_eq (hf : f.Follows d h rs) (hp : f.paused = false) (s : Signal) :
    (f.poll h).2.cursor.get s = h.position s := by
  rw [cursor_poll hp, Nat.max_eq_right (hf.cursor_le s)]

theorem Follows.poll (hf : f.Follows d h rs) (hh : h.Holds rs) :
    (f.poll h).2.Follows (d.poll h f) h rs := by
  cases hp : f.paused
  case true => rw [poll_paused hp, Diary.poll, if_pos hp]; exact hf
  have hcur := hf.cursor_poll_eq hp
  rw [Diary.poll, if_neg (by simp [hp])]
  refine ⟨?_, fun s => Nat.le_of_eq (hcur s), ?_, ?_, ?_⟩
  · intro s
    rw [hcur]
    exact Nat.le_trans (hf.start_le s) (hf.cursor_le s)
  · intro s p _ hlt
    rw [hcur] at hlt
    exact ⟨h, by simp [Diary.look], hlt⟩
  · intro s k hk
    rw [hcur]
    rcases List.mem_append.1 hk with hk | hk
    · exact Nat.le_trans (hf.looks_le s k hk) (hf.cursor_le s)
    · obtain rfl := List.mem_singleton.1 hk
      exact Nat.le_refl _
  · intro s
    have hc := hf.cursor_le s
    have hpos := hh.position_eq s
    rw [hcur, filter_poll, Diary.owed_look (hf.start_le s) hpos (hpos ▸ hc) (hf.seen s)
      (hf.looks_le s), ← hf.delivered_eq, ← records_look hh, ← records_poll hp]
    simp [Diary.delivered, Diary.look, List.flatMap_append]

/-- Whether the feed was resumed is nothing to its diary. -/
theorem Follows.setResumed (hf : f.Follows d h rs) (b : Bool) :
    ({ f with resumed := b }).Follows d h rs :=
  ⟨hf.start_le, hf.cursor_le, hf.seen, hf.looks_le, hf.delivered_eq⟩

theorem Follows.setPaused (hf : f.Follows d h rs) (b : Bool) :
    ({ f with paused := b }).Follows d h rs :=
  ⟨hf.start_le, hf.cursor_le, hf.seen, hf.looks_le, hf.delivered_eq⟩

theorem Follows.take (hf : f.Follows d h rs) (delta : Delta) : f.Follows (d.take delta) h rs :=
  ⟨hf.start_le, hf.cursor_le, hf.seen, hf.looks_le, hf.delivered_eq⟩

theorem Follows.handOver (hf : f.Follows d h rs) : f.Follows d.handOver h rs :=
  ⟨hf.start_le, hf.cursor_le, hf.seen, hf.looks_le, hf.delivered_eq⟩

theorem poll_eq_none_iff_look (hp : f.paused = false) :
    (f.poll h).1 = none ↔ ∀ s, (look h f).records s = [] := by
  simp only [Feed.poll, hp, Bool.false_eq_true, if_false]
  rw [← Delta.isEmpty_iff]
  cases (look h f).isEmpty <;> simp

/-- An unpaused poll yields nothing exactly when no retained record beyond the cursor matches. -/
theorem poll_eq_none_iff (hh : h.Holds rs) (hp : f.paused = false) :
    (f.poll h).1 = none ↔ ∀ s r p, (Record.ofSignal s rs)[p]? = some r →
      f.cursor.get s ≤ p → h.first s ≤ p → f.filter.matchesRecord r = false := by
  rw [poll_eq_none_iff_look hp]
  refine forall_congr' fun s => ?_
  rw [records_look hh, List.filter_eq_nil_iff]
  constructor
  · intro hq r p hr hc hfirst
    refine Bool.eq_false_iff.2 (hq r (List.mem_iff_getElem?.2
      ⟨p - max (f.cursor.get s) (h.first s), ?_⟩))
    rw [List.getElem?_drop, show max (f.cursor.get s) (h.first s) +
      (p - max (f.cursor.get s) (h.first s)) = p by omega, hr]
  · intro hq r hr
    obtain ⟨i, hi⟩ := List.mem_iff_getElem?.1 hr
    rw [List.getElem?_drop] at hi
    rw [hq r _ hi (by omega) (by omega)]
    exact Bool.false_ne_true

end Feed

end SignalHub
