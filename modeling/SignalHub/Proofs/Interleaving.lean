import SignalHub.Proofs.Accounts
import SignalHub.Proofs.Turnover
/-!
# Records of different signals

Records of different signals do not get in each other's way: in whatever order they come, what they
make of a hub depends only on the order among the records of each signal. Two neighbours of
different signals can be exchanged, and by such exchanges every order is reached that keeps the
records of each signal in order.

Results:
* `Hub.record_comm`: two records of different signals can be exchanged.
* `Hub.recordAll_eq_of_ofSignal`: so the order among the records of each signal decides.
* `Hub.placings_of_signal`: the positions that the records of a signal get.
* `Hub.undisturbed_recordAll`: records of other signals leave those of a signal as they are.
* `Hub.signals_independent`: all of it together.
-/
namespace SignalHub

/-! ## Exchanging two records -/

/-- Changes to one value each, by the same rule, can be made in any order. -/
theorem PerSignal.modify_comm {α : Type} (p : PerSignal α) (s t : Signal) (f : α → α) :
    (p.modify s f).modify t f = (p.modify t f).modify s f := by
  cases s <;> cases t <;> rfl

theorem Bulletin.accept_comm (b : Bulletin) (s t : Signal) :
    (b.accept s).accept t = (b.accept t).accept s := by
  have hreceived := b.received.modify_comm s t (· + 1)
  simp only [accept, hreceived]
  rfl

/-- Which signal a record is of makes no difference to the pings that are dropped. -/
theorem Bulletin.drops_accept (b : Bulletin) (s t : Signal) :
    (b.accept s).drops = (b.accept t).drops := rfl

namespace Hub

variable {r r' : Record}

theorem store_comm (h : Hub) (hne : r.signal ≠ r'.signal) :
    (h.store r).store r' = (h.store r').store r := by
  cases r <;> cases r' <;> first | rfl | exact absurd rfl hne

theorem isFull_store (h : Hub) {s : Signal} (hne : r.signal ≠ s) :
    (h.store r).isFull s = h.isFull s := by
  cases r <;> cases s <;> first | rfl | exact absurd rfl hne

/-- The books say nothing about what is stored. -/
theorem store_withBooks (h : Hub) (b : Bulletin) (t : Tally) (r : Record) :
    ({ h with bulletin := b, tally := t } : Hub).store r =
      { h.store r with bulletin := b, tally := t } := by
  cases r <;> rfl

/-- What recording adds to a tally, if the record pushes another one out or not. -/
def count (t : Tally) (s : Signal) (full : Bool) (dropped : Nat) : Tally :=
  { t with
    records := t.records.modify s (· + 1)
    evictions := if full then t.evictions.modify s (· + 1) else t.evictions
    droppedPings := t.droppedPings + dropped }

theorem count_comm (t : Tally) {s s' : Signal} (a a' : Bool) (m n : Nat) :
    count (count t s a m) s' a' n = count (count t s' a' m) s a n := by
  have hrecords := t.records.modify_comm s s' (· + 1)
  have hevictions := t.evictions.modify_comm s s' (· + 1)
  cases a <;> cases a' <;> simp [count, hrecords, hevictions]

/-- The hub after a record: it is stored, announced and counted. -/
theorem record_snd (h : Hub) (r : Record) : (h.record r).2 =
    { h.store r with
      bulletin := h.bulletin.accept r.signal
      tally := count h.tally r.signal (h.isFull r.signal) h.bulletin.drops } := by
  simp only [record, announce, count]
  split <;>
    simp only [tally_store, bulletin_store, Tally.addRecord, Tally.addDropped, Tally.addEviction]

/-- The hub after two records of different signals. -/
theorem record_record (h : Hub) (hne : r.signal ≠ r'.signal) :
    ((h.record r).2.record r').2 =
      { (h.store r).store r' with
        bulletin := (h.bulletin.accept r.signal).accept r'.signal
        tally := count (count h.tally r.signal (h.isFull r.signal) h.bulletin.drops) r'.signal
          (h.isFull r'.signal) (h.bulletin.accept r.signal).drops } := by
  have hfull : (h.record r).2.isFull r'.signal = h.isFull r'.signal := by
    rw [record_snd, ← isFull_store h hne]
    rfl
  rw [record_snd (h.record r).2 r', hfull, record_snd h r, store_withBooks]

/-- Two records of different signals can be exchanged. -/
theorem record_comm (h : Hub) (hne : r.signal ≠ r'.signal) :
    ((h.record r).2.record r').2 = ((h.record r').2.record r).2 := by
  rw [record_record h hne, record_record h hne.symm, store_comm h hne, Bulletin.accept_comm,
    count_comm, Bulletin.drops_accept h.bulletin r.signal r'.signal]

end Hub

/-! ## Any order -/

namespace Record

variable {r : Record} {s : Signal} {rs : List Record}

theorem ofSignal_cons_self (r : Record) (rs : List Record) :
    ofSignal r.signal (r :: rs) = r :: ofSignal r.signal rs :=
  List.filter_cons_of_pos (by simp)

theorem ofSignal_cons_of_ne (hr : r.signal ≠ s) (rs : List Record) :
    ofSignal s (r :: rs) = ofSignal s rs := List.filter_cons_of_neg (by simpa using hr)

theorem ofSignal_eq_nil (hrs : ∀ r ∈ rs, r.signal ≠ s) : ofSignal s rs = [] :=
  List.filter_eq_nil_iff.2 fun r hr => by simpa using hrs r hr

/-- The first record of a signal, taken out of a list. -/
theorem exists_first_of_ofSignal {rest : List Record} (hrs : ofSignal s rs = r :: rest) :
    ∃ front back, rs = front ++ r :: back ∧ (∀ a ∈ front, a.signal ≠ s) ∧
      ofSignal s back = rest := by
  obtain ⟨front, back, rfl, hfront, -, hback⟩ := List.filter_eq_cons_iff.1 hrs
  exact ⟨front, back, rfl, fun a ha => by simpa using hfront a ha, hback⟩

theorem eq_nil_of_ofSignal (hrs : ∀ s, ofSignal s rs = []) : rs = [] := by
  refine List.eq_nil_iff_forall_not_mem.2 fun a ha => ?_
  have hmem : a ∈ ofSignal a.signal rs := List.mem_filter.2 ⟨ha, by simp⟩
  rw [hrs] at hmem
  cases hmem

end Record

namespace Hub

variable {r : Record} {rs rs' : List Record} {s : Signal}

/-- A record can be put before records of other signals. -/
theorem record_recordAll (h : Hub) (hne : ∀ a ∈ rs, a.signal ≠ r.signal) :
    ((h.recordAll rs).record r).2 = (h.record r).2.recordAll rs := by
  induction rs generalizing h with
  | nil => rfl
  | cons a rs ih =>
    have hrest : ∀ b ∈ rs, b.signal ≠ r.signal := fun b hb => hne b (List.mem_cons_of_mem a hb)
    rw [recordAll_cons, ih (h.record a).2 hrest, record_comm h (hne a List.mem_cons_self),
      recordAll_cons]

/-- The order among the records of each signal decides what they make of a hub. -/
theorem recordAll_eq_of_ofSignal (h : Hub)
    (hsame : ∀ s, Record.ofSignal s rs = Record.ofSignal s rs') :
    h.recordAll rs = h.recordAll rs' := by
  induction rs generalizing h rs' with
  | nil => rw [Record.eq_nil_of_ofSignal fun s => (hsame s).symm]
  | cons r rs ih =>
    -- In the other list `r` is the first of its signal, and so can be put in front.
    have hr := hsame r.signal
    rw [Record.ofSignal_cons_self] at hr
    obtain ⟨front, back, rfl, hfront, hback⟩ := Record.exists_first_of_ofSignal hr.symm
    have hrest : ∀ s, Record.ofSignal s rs = Record.ofSignal s (front ++ back) := by
      intro s
      by_cases hs : r.signal = s
      · subst hs
        rw [Record.ofSignal_append, Record.ofSignal_eq_nil hfront, hback, List.nil_append]
      · have hskip := hsame s
        rwa [Record.ofSignal_append, Record.ofSignal_cons_of_ne hs,
          Record.ofSignal_cons_of_ne hs, ← Record.ofSignal_append] at hskip
    calc h.recordAll (r :: rs) = (h.record r).2.recordAll (front ++ back) := ih _ hrest
      _ = ((h.record r).2.recordAll front).recordAll back := recordAll_append ..
      _ = ((h.recordAll front).record r).2.recordAll back := by rw [record_recordAll h hfront]
      _ = h.recordAll (front ++ r :: back) := by rw [recordAll_append, recordAll_cons]

/-! ## Positions -/

/-- Each record with the position that it gets. -/
def placings (h : Hub) : List Record → List (Record × Nat)
  | [] => []
  | r :: rs => (r, (h.record r).1) :: (h.record r).2.placings rs

/-- The records of a signal get the positions from its head on. -/
theorem placings_of_signal (h : Hub) (s : Signal) (rs : List Record) :
    (h.placings rs).filter (·.1.signal = s) = (Record.ofSignal s rs).zipIdx (h.position s) := by
  induction rs generalizing h with
  | nil => rfl
  | cons r rs ih =>
    have hposition := h.position_record r s
    by_cases hr : r.signal = s
    · subst hr
      rw [if_pos rfl] at hposition
      rw [placings, List.filter_cons_of_pos (by simp), ih, hposition, Record.ofSignal_cons_self,
        List.zipIdx_cons]
      rfl
    · rw [if_neg hr] at hposition
      rw [placings, List.filter_cons_of_neg (by simpa using hr), ih, hposition,
        Record.ofSignal_cons_of_ne hr, Nat.add_zero]

/-! ## Records of other signals -/

/-- Two hubs have the same archive of a signal, and search by the same limits. -/
structure Keeps (s : Signal) (h h' : Hub) : Prop where
  spans : s = .traces → h'.spans = h.spans
  logs : s = .logs → h'.logs = h.logs
  metrics : s = .metrics → h'.metrics = h.metrics
  limits : h'.limits = h.limits
  received : h'.bulletin.received.get s = h.bulletin.received.get s

variable {h h' h'' : Hub}

theorem Keeps.refl (s : Signal) (h : Hub) : h.Keeps s h :=
  ⟨fun _ => rfl, fun _ => rfl, fun _ => rfl, rfl, rfl⟩

theorem Keeps.trans (hk : Keeps s h h') (hk' : Keeps s h' h'') : Keeps s h h'' where
  spans hs := (hk'.spans hs).trans (hk.spans hs)
  logs hs := (hk'.logs hs).trans (hk.logs hs)
  metrics hs := (hk'.metrics hs).trans (hk.metrics hs)
  limits := hk'.limits.trans hk.limits
  received := hk'.received.trans hk.received

theorem keeps_record (h : Hub) (hne : r.signal ≠ s) : Keeps s h (h.record r).2 := by
  have hreceived : ((h.record r).2.bulletin.received).get s = h.bulletin.received.get s := by
    rw [bulletin_record, Bulletin.accept, PerSignal.get_modify, if_neg hne.symm]
  refine ⟨?_, ?_, ?_, ?_, hreceived⟩
  · rintro rfl
    rw [record_snd]
    cases r <;> first | rfl | exact absurd rfl hne
  · rintro rfl
    rw [record_snd]
    cases r <;> first | rfl | exact absurd rfl hne
  · rintro rfl
    rw [record_snd]
    cases r <;> first | rfl | exact absurd rfl hne
  · rw [record_snd]
    cases r <;> rfl

theorem keeps_recordAll (h : Hub) (hne : ∀ r ∈ rs, r.signal ≠ s) : Keeps s h (h.recordAll rs) := by
  induction rs generalizing h with
  | nil => exact .refl s h
  | cons r rs ih =>
    exact (keeps_record h (hne r List.mem_cons_self)).trans
      (ih (h.record r).2 fun a ha => hne a (List.mem_cons_of_mem r ha))

/-- Two hubs have the same of a signal: what is retained, with its positions, what is known of
services, and what readers get to see. -/
structure Undisturbed (s : Signal) (h h' : Hub) : Prop where
  retained : h'.retained s = h.retained s
  stats : h'.stats s = h.stats s
  received : h'.bulletin.received.get s = h.bulletin.received.get s
  knows : ∀ name, h'.knows s name = h.knows s name
  query : ∀ f, (h'.query f).1.map (·.records s) = (h.query f).1.map (·.records s)
  look : ∀ f : Feed, (f.look h').records s = (f.look h).records s
  /-- Of a trace: the spans, in their order. -/
  traceSpans : s = .traces → ∀ id, (h'.trace id).map (·.spans) = (h.trace id).map (·.spans)
  /-- Of a trace: the log entries, in their order, as long as some span of it is retained. -/
  traceLogs : s = .logs → ∀ id t t', h.trace id = some t → h'.trace id = some t' → t'.logs = t.logs

/-- What is found of a signal depends on its archive alone. -/
theorem Keeps.query_eq (hk : Keeps s h h') (f : Filter) :
    (h'.query f).1.map (·.records s) = (h.query f).1.map (·.records s) := by
  simp only [query, search, hk.limits]
  cases f.validate with
  | error e => rfl
  | ok =>
    cases s with
    | traces => simp only [Except.map, QueryResult.records, hk.spans rfl]
    | logs => simp only [Except.map, QueryResult.records, hk.logs rfl]
    | metrics => simp only [Except.map, QueryResult.records, hk.metrics rfl]

/-- The spans of a report depend on the archive of spans alone. -/
theorem Keeps.spans_trace (hk : Keeps .traces h h') (id : String) :
    (h'.trace id).map (·.spans) = (h.trace id).map (·.spans) := by
  simp only [trace, TraceReport.gather, hk.spans rfl]
  split <;> rfl

theorem logs_of_trace {id : String} {t : TraceReport} (ht : h.trace id = some t) :
    t.logs = h.logs.window.toList.filter (·.traceId == some id) := by
  simp only [trace, TraceReport.gather] at ht
  split at ht
  · cases ht
  · rw [← Option.some.inj ht, TraceReport.ofSpans]

theorem Keeps.undisturbed (hk : Keeps s h h') : Undisturbed s h h' := by
  refine ⟨?_, ?_, hk.received, fun name => ?_, hk.query_eq, fun f => ?_, ?_, ?_⟩
  · cases s <;> simp [retained, hk.spans, hk.logs, hk.metrics]
  · cases s <;> simp [stats, hk.spans, hk.logs, hk.metrics]
  · cases s <;> simp [knows, hk.spans, hk.logs, hk.metrics]
  · cases s <;> simp [Feed.look, Delta.records, hk.spans, hk.logs, hk.metrics]
  · rintro rfl id
    exact hk.spans_trace id
  · rintro rfl id t t' ht ht'
    rw [logs_of_trace ht, logs_of_trace ht', hk.logs rfl]

/-- Records of other signals, wherever they come in between, leave those of a signal as they are
without them. -/
theorem undisturbed_recordAll (h : Hub) (s : Signal) (rs : List Record) :
    (h.recordAll (Record.ofSignal s rs)).Undisturbed s (h.recordAll rs) := by
  have hothers : ∀ r ∈ rs.filter (·.signal ≠ s), r.signal ≠ s := fun r hr => by
    simpa using (List.mem_filter.1 hr).2
  have hsplit : ∀ t, Record.ofSignal t rs =
      Record.ofSignal t (Record.ofSignal s rs ++ rs.filter (·.signal ≠ s)) := by
    intro t
    rw [Record.ofSignal_append]
    by_cases ht : t = s
    · subst ht
      rw [Record.ofSignal_eq_nil hothers, List.append_nil, Record.ofSignal, Record.ofSignal,
        List.filter_filter]
      simp
    · have hnone : Record.ofSignal t (Record.ofSignal s rs) = [] :=
        Record.ofSignal_eq_nil fun r hr => by
          have hs : r.signal = s := by simpa using (List.mem_filter.1 hr).2
          rw [hs]
          exact Ne.symm ht
      rw [hnone, List.nil_append, Record.ofSignal, Record.ofSignal, List.filter_filter]
      refine List.filter_congr fun r _ => ?_
      by_cases hr : r.signal = t
      · simp [hr, ht]
      · simp [hr]
  rw [recordAll_eq_of_ofSignal h hsplit, recordAll_append]
  exact (keeps_recordAll _ hothers).undisturbed

/-! ## All of it -/

/-- Signals are independent. Of records that come in two orders which agree for each signal, every
one gets the same position in both, and they make the same of a hub, so that every search, every
report on a trace and every feed yields the same; in a world of feeds and couriers nothing but the
history tells the orders apart. And whatever comes in between of other signals, what there is of a
signal is what there would be without it. -/
theorem signals_independent (h : Hub) (rs rs' : List Record)
    (hsame : ∀ s, Record.ofSignal s rs = Record.ofSignal s rs') :
    (∀ s, (h.placings rs).filter (·.1.signal = s) = (h.placings rs').filter (·.1.signal = s)) ∧
    h.recordAll rs = h.recordAll rs' ∧
    (∀ f, (h.recordAll rs).query f = (h.recordAll rs').query f) ∧
    (∀ id, (h.recordAll rs).trace id = (h.recordAll rs').trace id) ∧
    (∀ feed : Feed, feed.poll (h.recordAll rs) = feed.poll (h.recordAll rs')) ∧
    (∀ w : World, w.hub = h → w.run (rs.map .record) =
      { w.run (rs'.map .record) with accepted := w.accepted ++ rs }) ∧
    ∀ s, (h.recordAll (Record.ofSignal s rs)).Undisturbed s (h.recordAll rs) := by
  have hhub := recordAll_eq_of_ofSignal h hsame
  refine ⟨fun s => ?_, hhub, fun f => ?_, fun id => ?_, fun feed => ?_, ?_, fun s => ?_⟩
  · rw [placings_of_signal, placings_of_signal, hsame]
  · rw [hhub]
  · rw [hhub]
  · rw [hhub]
  · rintro w rfl
    rw [World.run_record, World.run_record, hhub]
  · exact h.undisturbed_recordAll s rs

/-- A finished operation. -/
def operation : Record := .span ⟨"t", "1", none, "", "", 0, 0, .ok, none, .empty⟩

/-- Where the span comes among two lines of a log makes no difference, not even to the line that
the other one pushes out. -/
theorem span_between_lines :
    let h := empty { logCapacity := 1 }
    let line' : Record := .log ⟨1, "", "WARN", "", none, none, .empty⟩
    let rs := [World.line, operation, line']
    let rs' := [operation, World.line, line']
    (∀ s, Record.ofSignal s rs = Record.ofSignal s rs') ∧
      h.placings rs = [(World.line, 0), (operation, 0), (line', 1)] ∧
      h.recordAll rs = h.recordAll rs' ∧
      (h.recordAll rs).retained .logs = [line'] ∧
      (h.recordAll rs).retained .traces = [operation] := by
  intro h line' rs rs'
  have hsame : ∀ s, Record.ofSignal s rs = Record.ofSignal s rs' := fun s => by cases s <;> rfl
  obtain ⟨-, hhub, -⟩ := signals_independent h rs rs' hsame
  exact ⟨hsame, rfl, hhub, rfl, rfl⟩

end Hub

end SignalHub
