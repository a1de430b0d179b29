import SignalHub.Proofs.Answers
/-!
# What a trace report says

A report on a trace is determined by what is retained: the spans of the trace by their start, of
those that start together the newest first, the log entries of the trace in the order they came, and
what follows from the listed spans. There is none if no span of the trace is retained.

The spans are found newest first and then sorted by a stable sort, so the order in which they are
found decides between those that start together.

Results:
* `pairwise_mergeSort_ties`: a stable sort keeps the order of what it need not move.
* `TraceReport.Describes`: what a report says of the retained spans and log entries.
* `TraceReport.describes_of_gather`: what is gathered is such a report.
* `World.trace_reports_retained`: so is the answer of a hub after any acts.
-/
namespace SignalHub

/-! ## Stable sorting -/

section Sorting

variable {α : Type} {le : α → α → Bool} {before : α → α → Prop}

/-- A sorted list whose ties are in order is in order altogether. -/
theorem pairwise_of_ties (hrefl : ∀ a, le a a) {l : List α} (hsorted : l.Pairwise fun a b => le a b)
    (hties : ∀ k, (l.filter fun a => le a k && le k a).Pairwise before) :
    l.Pairwise fun a b => le a b ∧ (le b a → before a b) := by
  induction l with
  | nil => exact List.Pairwise.nil
  | cons a l ih =>
    obtain ⟨hhead, htail⟩ := List.pairwise_cons.1 hsorted
    refine List.pairwise_cons.2 ⟨fun b hb => ⟨hhead b hb, fun hba => ?_⟩, ih htail fun k => ?_⟩
    · have htie := hties a
      rw [List.filter_cons_of_pos (by simp [hrefl a])] at htie
      refine (List.pairwise_cons.1 htie).1 b (List.mem_filter.2 ⟨hb, ?_⟩)
      rw [hba, hhead b hb]
      rfl
    · exact (hties k).sublist ((List.sublist_cons_self a l).filter _)

/-- A stable sort keeps the order of what it need not move. -/
theorem pairwise_mergeSort_ties (htrans : ∀ a b c, le a b → le b c → le a c)
    (htotal : ∀ a b, (le a b || le b a) = true) {l : List α} (h : l.Pairwise before) :
    (l.mergeSort le).Pairwise fun a b => le a b ∧ (le b a → before a b) := by
  have hrefl (a : α) : le a a := by simpa using htotal a a
  refine pairwise_of_ties hrefl (List.pairwise_mergeSort htrans htotal l) fun k => ?_
  -- The ties of `k` are sorted as they stand, so they come out as they stand.
  have hsorted : (l.filter fun a => le a k && le k a).Pairwise fun a b => le a b := by
    apply (h.filter _).imp_of_mem
    intro a b ha hb _
    have hak := (List.mem_filter.1 ha).2
    have hbk := (List.mem_filter.1 hb).2
    simp only [Bool.and_eq_true] at hak hbk
    exact htrans a k b hak.1 hbk.2
  have hsub : (l.filter fun a => le a k && le k a).Sublist
      ((l.mergeSort le).filter fun a => le a k && le k a) := by
    have hties := (List.sublist_mergeSort htrans htotal hsorted List.filter_sublist).filter
      fun a => le a k && le k a
    simpa only [List.filter_filter, Bool.and_self] using hties
  have hperm := (List.mergeSort_perm l le).filter fun a => le a k && le k a
  rw [← hsub.eq_of_length hperm.length_eq.symm]
  exact h.filter _

end Sorting

namespace TraceReport

/-! ## Reports -/

/-- What a report on a trace says, if these spans and these log entries are retained, each in the
order they came. -/
structure Describes (report : TraceReport) (traceId : String) (spans : List Span)
    (logs : List LogEntry) : Prop where
  traceId_eq : report.traceId = traceId
  /-- The spans of the trace are listed, each as often as it came, by their start, and the newest
  first of those that start together. -/
  spans_eq : ∃ listed : List (Span × Nat), report.spans = listed.map (·.1) ∧
    listed.Perm (spans.zipIdx.filter fun x => x.1.traceId == traceId) ∧
    listed.Pairwise fun a b => a.1.start < b.1.start ∨ a.1.start = b.1.start ∧ b.2 < a.2
  logs_eq : report.logs = logs.filter fun l => l.traceId == some traceId
  mem_services : ∀ name, name ∈ report.services ↔ ∃ s ∈ report.spans, s.service = name
  services_ascend : report.services.Pairwise fun a b => Text.precedes a b
  root_eq_some : ∀ id, report.rootSpanId = some id ↔ ∃ before s after,
    report.spans = before ++ s :: after ∧ (∀ b ∈ before, b.parentSpanId ≠ none) ∧
      s.parentSpanId = none ∧ s.spanId = id
  root_eq_none : report.rootSpanId = none ↔ ∀ s ∈ report.spans, s.parentSpanId ≠ none
  hasErrors_iff : report.hasErrors ↔ ∃ s ∈ report.spans, s.status = .error
  /-- The duration leads from the earliest start to the latest end, where ends beyond the range of
  words count as the last word. -/
  duration_eq : ∃ first ∈ report.spans, (∀ s ∈ report.spans, first.start ≤ s.start) ∧
    (∃ last ∈ report.spans, first.start.toNat + report.duration =
      min (last.start.toNat + last.duration.toNat) Word.top) ∧
    ∀ d, report.duration ≤ d ↔ ∀ s ∈ report.spans,
      min (s.start.toNat + s.duration.toNat) Word.top ≤ first.start.toNat + d

variable {traceId : String} {spans : List Span} {logs : List LogEntry}

/-- The earliest start is that of a span. -/
theorem exists_earliest (h : spans ≠ []) : ∃ first ∈ spans,
    earliest spans = first.start.toNat ∧ ∀ s ∈ spans, first.start.toNat ≤ s.start.toNat := by
  cases hmin : (spans.map (·.start.toNat)).min? with
  | none => simp [h] at hmin
  | some n =>
    obtain ⟨hmem, hle⟩ := List.min?_eq_some_iff.1 hmin
    obtain ⟨first, hfirst, rfl⟩ := List.mem_map.1 hmem
    refine ⟨first, hfirst, ?_, fun s hs => hle _ (List.mem_map_of_mem hs)⟩
    rw [earliest, hmin, Option.getD_some]

/-- The latest end is that of a span. -/
theorem exists_latest (h : spans ≠ []) : ∃ last ∈ spans,
    latest spans = last.finish.toNat ∧ ∀ s ∈ spans, s.finish.toNat ≤ last.finish.toNat := by
  cases hmax : (spans.map (·.finish.toNat)).max? with
  | none => simp [h] at hmax
  | some n =>
    obtain ⟨hmem, hle⟩ := List.max?_eq_some_iff.1 hmax
    obtain ⟨last, hlast, rfl⟩ := List.mem_map.1 hmem
    refine ⟨last, hlast, ?_, fun s hs => hle _ (List.mem_map_of_mem hs)⟩
    rw [latest, hmax, Option.getD_some]

theorem start_le_finish (s : Span) : s.start.toNat ≤ s.finish.toNat := by
  have hlt := s.start.toNat_lt
  rw [s.toNat_finish]
  unfold Word.top
  omega

/-- The duration leads from the earliest start to the latest end. -/
theorem duration_spec (h : spans ≠ []) : ∃ first ∈ spans, (∀ s ∈ spans, first.start ≤ s.start) ∧
    (∃ last ∈ spans, first.start.toNat + (latest spans - earliest spans) = last.finish.toNat) ∧
    ∀ d, latest spans - earliest spans ≤ d ↔
      ∀ s ∈ spans, s.finish.toNat ≤ first.start.toNat + d := by
  obtain ⟨first, hfirst, hearliest, hstarts⟩ := exists_earliest h
  obtain ⟨last, hlast, hlatest, hends⟩ := exists_latest h
  -- The span that ends last did not start before the first one, so nothing is cut off.
  have hle : first.start.toNat ≤ last.finish.toNat :=
    Nat.le_trans (hstarts last hlast) (start_le_finish last)
  refine ⟨first, hfirst, fun s hs => UInt64.le_iff_toNat_le.2 (hstarts s hs), ⟨last, hlast, ?_⟩, ?_⟩
  · omega
  · intro d
    constructor
    · intro hd s hs
      have hend := hends s hs
      omega
    · intro hall
      have hend := hall last hlast
      omega

/-- The spans of a trace, found newest first and then sorted by their start. -/
theorem exists_listed (spans : List Span) (traceId : String) : ∃ listed : List (Span × Nat),
    (spans.reverse.filter (·.traceId == traceId)).mergeSort (fun a b => a.start ≤ b.start) =
      listed.map (·.1) ∧
    listed.Perm (spans.zipIdx.filter fun x => x.1.traceId == traceId) ∧
    listed.Pairwise fun a b => a.1.start < b.1.start ∨ a.1.start = b.1.start ∧ b.2 < a.2 := by
  let found := spans.zipIdx.reverse.filter fun x => x.1.traceId == traceId
  have hfound : spans.reverse.filter (·.traceId == traceId) = found.map (·.1) := by
    have hspans : spans.reverse = spans.zipIdx.reverse.map (·.1) := by
      rw [List.map_reverse, List.zipIdx_map_fst]
    rw [hspans, List.filter_map]
    rfl
  have hnewest : found.Pairwise fun a b => b.2 < a.2 :=
    (List.pairwise_reverse.2 (pairwise_zipIdx spans)).filter _
  refine ⟨found.mergeSort fun a b => a.1.start ≤ b.1.start, ?_, ?_, ?_⟩
  · rw [hfound]
    have hsort : ∀ a ∈ found, ∀ b ∈ found,
        decide (a.1.start ≤ b.1.start) = decide (a.1.start ≤ b.1.start) := fun _ _ _ _ => rfl
    exact (List.map_mergeSort hsort).symm
  · refine (List.mergeSort_perm _ _).trans ?_
    exact (List.reverse_perm spans.zipIdx).filter _
  · have htrans (a b c : Span × Nat) (hab : decide (a.1.start ≤ b.1.start))
        (hbc : decide (b.1.start ≤ c.1.start)) : decide (a.1.start ≤ c.1.start) := by
      simp only [decide_eq_true_eq] at hab hbc ⊢
      exact UInt64.le_trans hab hbc
    have htotal (a b : Span × Nat) :
        (decide (a.1.start ≤ b.1.start) || decide (b.1.start ≤ a.1.start)) = true := by
      simpa using UInt64.le_total a.1.start b.1.start
    have hties := pairwise_mergeSort_ties htrans htotal hnewest
    refine hties.imp ?_
    rintro a b ⟨hle, htie⟩
    simp only [decide_eq_true_eq] at hle htie
    rcases UInt64.lt_or_eq_of_le hle with hlt | heq
    · exact Or.inl hlt
    · exact Or.inr ⟨heq, htie (heq ▸ UInt64.le_refl _)⟩

theorem services_ofSpans (traceId : String) (spans : List Span) (logs : List LogEntry) :
    (ofSpans traceId spans logs).services = mergeNames [] (spans.map (·.service)) := by
  rw [mergeNames, List.foldl_map]
  rfl

/-- What is gathered describes what is retained. -/
theorem describes_ofSpans (logs : List LogEntry)
    (h : spans.reverse.filter (·.traceId == traceId) ≠ []) :
    (ofSpans traceId
      ((spans.reverse.filter (·.traceId == traceId)).mergeSort fun a b => a.start ≤ b.start)
      (logs.filter (·.traceId == some traceId))).Describes traceId spans logs := by
  obtain ⟨listed, hlisted, hperm, hordered⟩ := exists_listed spans traceId
  have hne : (spans.reverse.filter (·.traceId == traceId)).mergeSort
      (fun a b => a.start ≤ b.start) ≠ [] := by
    intro hnil
    have hlen := (List.mergeSort_perm (spans.reverse.filter (·.traceId == traceId))
      fun a b => a.start ≤ b.start).length_eq
    rw [hnil] at hlen
    exact h (List.length_eq_zero_iff.1 hlen.symm)
  generalize (spans.reverse.filter (·.traceId == traceId)).mergeSort
    (fun a b => a.start ≤ b.start) = sorted at hlisted hne
  constructor
  case traceId_eq => rfl
  case spans_eq => exact ⟨listed, hlisted, hperm, hordered⟩
  case logs_eq => rfl
  case mem_services =>
    intro name
    rw [services_ofSpans]
    simp [ofSpans]
  case services_ascend =>
    rw [services_ofSpans]
    exact pairwise_mergeNames List.Pairwise.nil
  case root_eq_some =>
    intro id
    simp only [ofSpans, Option.map_eq_some_iff, List.find?_eq_some_iff_append]
    constructor
    · rintro ⟨s, ⟨hs, before, after, hsplit, hbefore⟩, rfl⟩
      refine ⟨before, s, after, hsplit, fun b hb hnone => ?_, Option.isNone_iff_eq_none.1 hs, rfl⟩
      simpa [hnone] using hbefore b hb
    · rintro ⟨before, s, after, hsplit, hbefore, hs, rfl⟩
      refine ⟨s, ⟨Option.isNone_iff_eq_none.2 hs, before, after, hsplit, fun b hb => ?_⟩, rfl⟩
      simpa [Option.isSome_iff_ne_none] using hbefore b hb
  case root_eq_none => simp [ofSpans, List.find?_eq_none]
  case hasErrors_iff => simp [ofSpans, Span.isError]
  case duration_eq =>
    simp only [← Span.toNat_finish]
    exact duration_spec hne

/-- There is no report exactly if no span of the trace is there. -/
theorem gather_eq_none_iff (spans : Archive Span) (logs : Archive LogEntry) (traceId : String) :
    gather spans logs traceId = none ↔ ∀ s ∈ spans.window.toList, s.traceId ≠ traceId := by
  rw [gather]
  simp only [ite_eq_left_iff, reduceCtorEq, imp_false, Decidable.not_not, List.isEmpty_iff,
    List.filter_eq_nil_iff, List.mem_reverse, beq_iff_eq, ne_eq]

/-- What is gathered describes what is there. -/
theorem describes_of_gather {spans : Archive Span} {logs : Archive LogEntry} {report : TraceReport}
    (h : gather spans logs traceId = some report) :
    report.Describes traceId spans.window.toList logs.window.toList := by
  rw [gather] at h
  split at h
  · cases h
  · rename_i hfound
    cases h
    exact describes_ofSpans _ fun hnil => hfound (List.isEmpty_iff.2 hnil)

end TraceReport

/-! ## What is retained -/

namespace Hub

variable {storage : StorageSettings} {h : Hub} {rs : List Record}

/-- The spans that are retained are the last ones accepted. -/
theorem Remembers.spans_eq (hr : h.Remembers storage rs) : h.spans.window.toList =
    (Record.latest .traces (storage.capacity .traces) rs).filterMap Record.span? := by
  rw [← hr.capacity_eq, ← hr.holds.retained_eq_latest, retained, List.filterMap_map]
  exact List.filterMap_some.symm

/-- The log entries that are retained are the last ones accepted. -/
theorem Remembers.logs_eq (hr : h.Remembers storage rs) : h.logs.window.toList =
    (Record.latest .logs (storage.capacity .logs) rs).filterMap Record.log? := by
  rw [← hr.capacity_eq, ← hr.holds.retained_eq_latest, retained, List.filterMap_map]
  exact List.filterMap_some.symm

end Hub

namespace World

/-- After any acts, there is a report on a trace exactly if one of its spans is among the last spans
accepted, as many as the archive can hold, and then it describes these and the last log entries. -/
theorem trace_reports_retained (storage : StorageSettings) (stream : StreamSettings)
    (acts : List Act) (traceId : String) :
    let found := ((start storage stream).play acts).hub.trace traceId
    let accepted := acts.flatMap Act.accepts
    let spans := (Record.latest .traces (storage.capacity .traces) accepted).filterMap Record.span?
    let logs := (Record.latest .logs (storage.capacity .logs) accepted).filterMap Record.log?
    (found = none ↔ ∀ s ∈ spans, s.traceId ≠ traceId) ∧
      ∀ report, found = some report → report.Describes traceId spans logs := by
  intro found accepted spans logs
  have hr : ((start storage stream).play acts).hub.Remembers storage accepted := by
    have hplay := remembers_play (w := start storage stream) (Hub.remembers_empty storage) acts
    rwa [List.nil_append] at hplay
  have hspans : _ = spans := hr.spans_eq
  have hlogs : _ = logs := hr.logs_eq
  rw [← hspans, ← hlogs]
  exact ⟨TraceReport.gather_eq_none_iff _ _ _, fun _ h => TraceReport.describes_of_gather h⟩

/-- An archive of two spans has dropped the root of the trace when it is asked for. -/
theorem trace_reports_retained_after_eviction :
    let child (id : String) : Span := ⟨"t", id, some "a", "", "s", 5, 1, .unset, none, .empty⟩
    let spans := [{ child "a" with parentSpanId := none }, child "b", child "c"]
    let acts := spans.map fun s => Act.event (.record (.span s))
    ∃ report, ((start { traceCapacity := 2 } {}).play acts).hub.trace "t" = some report ∧
      report.Describes "t" [child "b", child "c"] [] := by
  intro child spans acts
  obtain ⟨hnone, hsome⟩ := trace_reports_retained { traceCapacity := 2 } {} acts "t"
  obtain ⟨report, hreport⟩ := Option.ne_none_iff_exists'.1 fun hfound =>
    hnone.1 hfound (child "b") (by decide) rfl
  exact ⟨report, hreport, hsome report hreport⟩

end World

end SignalHub
