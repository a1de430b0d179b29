import SignalHub.Proofs.Diary
import SignalHub.Proofs.Retention
/-!
# Searches and the services that an archive knows

A search does not read an archive that the filter cannot match, nor one that has never seen the
filter's service. Nothing is lost by that, since an archive knows the service of every record that
it retains: it knows the services of all records it ever accepted, and forgets none of them when
their records are evicted.

Results:
* `Search.scan_eq`: what a search finds in an archive that knows what it retains.
* `Hub.Indexes.store`: the services that a hub knows are those of the records it accepted.
* `Hub.Indexes.reads_eq`: so the records accepted decide which archives a search reads.
* `Hub.Holds.stats_eq`, `Hub.Holds.retained_eq_latest`: the figures and the records of a signal.
* `Hub.records_found`: what a search finds among the retained records.
-/
namespace SignalHub

/-- Records that satisfy a filter are of a kind and a service that it admits. -/
class Telemetry.Lawful (α : Type) [Telemetry α] : Prop where
  applies {f : Filter} {x : α} : Telemetry.satisfies f x → f.appliesTo (Telemetry.signal α)
  admits {f : Filter} {x : α} :
    Telemetry.satisfies f x → Filter.admits f.service (Telemetry.service x)

instance : Telemetry.Lawful Span where
  applies := Filter.appliesTo_of_matchesSpan
  admits {f x} (h : f.matchesSpan x) := by
    simp only [Filter.matchesSpan, Bool.and_eq_true] at h
    exact h.1.2

instance : Telemetry.Lawful LogEntry where
  applies := Filter.appliesTo_of_matchesLog
  admits {f x} (h : f.matchesLog x) := by
    simp only [Filter.matchesLog, Bool.and_eq_true] at h
    exact h.1.2

instance : Telemetry.Lawful MetricPoint where
  applies := Filter.appliesTo_of_matchesMetric
  admits {f x} (h : f.matchesMetric x) := by
    simp only [Filter.matchesMetric, Bool.and_eq_true] at h
    exact h.1.2

namespace Search

variable {α : Type} [Telemetry α] [Telemetry.Lawful α] {a : Archive α} {f : Filter}

/-- An archive with a match in it is read. -/
theorem reads_of_satisfies {x : α} (hx : Telemetry.satisfies f x)
    (hknows : a.knows (Telemetry.service x)) : reads a f := by
  have happlies := Telemetry.Lawful.applies hx
  have hadmits := Telemetry.Lawful.admits hx
  rw [reads, happlies, Bool.true_and]
  cases hservice : f.service with
  | none => rfl
  | some name =>
    simp only [Filter.admits, hservice, Option.all_some, beq_iff_eq] at hadmits
    rwa [Option.all_some, hadmits]

/-- No match is lost by not reading an archive. -/
theorem scan_eq (hknows : ∀ x ∈ a.window.toList, a.knows (Telemetry.service x)) (n : Nat) :
    scan a f n = (a.window.toList.reverse.filter (Telemetry.satisfies f)).take n := by
  rw [scan]
  split
  · rw [Window.newest_eq]
  · -- A match would be of a kind and a service that the archive is read for.
    rename_i hskip
    have hnone : a.window.toList.reverse.filter (Telemetry.satisfies f) = [] := by
      rw [List.filter_eq_nil_iff]
      intro x hx hsat
      exact hskip (reads_of_satisfies hsat (hknows x (List.mem_reverse.1 hx)))
    rw [hnone, List.take_nil]

/-- The same, when what is found is seen as records. -/
theorem map_scan (a : Archive α) (wrap : α → Record) {q : Record → Bool}
    (hq : ∀ x, q (wrap x) = Telemetry.satisfies f x)
    (hknows : ∀ x ∈ a.window.toList, a.knows (Telemetry.service x)) (n : Nat) :
    (scan a f n).map wrap = ((a.window.toList.map wrap).reverse.filter q).take n := by
  have hcomp : q ∘ wrap = Telemetry.satisfies f := funext hq
  rw [scan_eq hknows, ← List.map_reverse, List.filter_map, List.map_take, hcomp]

end Search

theorem Archive.mem_services_add {α : Type} (a : Archive α) (service : String) (x : α)
    (name : String) : name ∈ (a.add service x).services ↔ name ∈ a.services ∨ service = name := by
  simp only [add]
  split
  · rename_i hmem
    constructor
    · exact Or.inl
    · rintro (h | rfl)
      · exact h
      · exact hmem
  · rw [mem_insertName, or_comm, eq_comm]

theorem Archive.knows_add {α : Type} (a : Archive α) (service : String) (x : α) (name : String) :
    (a.add service x).knows name = (a.knows name || service == name) := by
  rw [Bool.eq_iff_iff]
  simp only [knows, decide_eq_true_eq, Bool.or_eq_true, beq_iff_eq, mem_services_add]

/-- The figures of an archive, read off the log of its window. -/
theorem Window.Holds.stats_eq {α : Type} {a : Archive α} {log : List α} {count : Nat}
    (ha : a.window.Holds log) (hcount : log.length = count) :
    a.stats = ⟨min count a.stats.capacity, a.stats.capacity, count,
      count - min count a.stats.capacity⟩ := by
  subst hcount
  rw [Archive.stats, ha.next_eq, ha.evicted_eq, ha.size_eq]

/-- The services of the records of a signal. -/
def Record.servicesOf (s : Signal) (rs : List Record) : List String :=
  (Record.ofSignal s rs).map Record.service

/-- Whether a search reads the archive of a signal, in terms of the records accepted. -/
def Filter.reaches (f : Filter) (s : Signal) (rs : List Record) : Bool :=
  f.appliesTo s && f.service.all (· ∈ Record.servicesOf s rs)

namespace Hub

variable {h : Hub} {rs : List Record}

/-! ## Services -/

/-- Whether the archive of a signal knows a service. -/
def knows (h : Hub) (s : Signal) (name : String) : Bool :=
  match s with
  | .traces => h.spans.knows name
  | .logs => h.logs.knows name
  | .metrics => h.metrics.knows name

/-- Whether a search with this filter reads the archive of a signal. -/
def reads (h : Hub) (s : Signal) (f : Filter) : Bool :=
  match s with
  | .traces => Search.reads h.spans f
  | .logs => Search.reads h.logs f
  | .metrics => Search.reads h.metrics f

/-- Each archive knows the services of the records of its signal among `rs`, and no others. -/
def Indexes (h : Hub) (rs : List Record) : Prop :=
  ∀ s name, h.knows s name ↔ name ∈ Record.servicesOf s rs

theorem indexes_empty (storage : StorageSettings) : (empty storage).Indexes [] := by
  intro s name
  cases s <;> simp [knows, empty, withBulletin, Archive.empty, Archive.knows, Record.servicesOf,
    Record.ofSignal]

theorem knows_store (h : Hub) (r : Record) (s : Signal) (name : String) :
    (h.store r).knows s name = (h.knows s name || (r.signal = s && r.service == name)) := by
  cases r <;> cases s <;>
    simp [store, knows, Record.signal, Record.service, Archive.knows_add]

theorem Indexes.store (hi : h.Indexes rs) (r : Record) : (h.store r).Indexes (rs ++ [r]) := by
  intro s name
  rw [knows_store, Record.servicesOf, Record.ofSignal_append, List.map_append, List.mem_append,
    ← Record.servicesOf, ← hi s name, Bool.or_eq_true]
  have hlast : name ∈ (Record.ofSignal s [r]).map Record.service ↔
      (r.signal = s && r.service == name) = true := by
    rw [Record.ofSignal, List.filter_cons]
    by_cases hr : r.signal = s
    · simp [hr, @eq_comm _ name]
    · simp [hr]
  rw [hlast]

theorem Agree.knows_eq {h' : Hub} (ha : h.Agree h') (s : Signal) (name : String) :
    h'.knows s name = h.knows s name := by
  cases s <;> simp [knows, ha.spans, ha.logs, ha.metrics]

theorem Agree.indexes {h' : Hub} (ha : h.Agree h') (hi : h.Indexes rs) : h'.Indexes rs := by
  intro s name
  rw [ha.knows_eq]
  exact hi s name

theorem reads_eq (h : Hub) (s : Signal) (f : Filter) :
    h.reads s f = (f.appliesTo s && f.service.all (h.knows s)) := by
  cases s <;> rfl

theorem Indexes.reads_eq (hi : h.Indexes rs) (s : Signal) (f : Filter) :
    h.reads s f = f.reaches s rs := by
  have hknows : h.knows s = fun name => decide (name ∈ Record.servicesOf s rs) := by
    funext name
    rw [Bool.eq_iff_iff, hi s name, decide_eq_true_iff]
  rw [Hub.reads_eq, hknows, Filter.reaches]

/-! ## Figures -/

/-- How many records of a signal can be retained. -/
def capacity (h : Hub) (s : Signal) : Nat := (h.stats s).capacity

theorem Agree.stats_eq {h' : Hub} (ha : h.Agree h') (s : Signal) : h'.stats s = h.stats s := by
  cases s <;> simp [stats, ha.spans, ha.logs, ha.metrics]

theorem capacity_store (h : Hub) (r : Record) (s : Signal) :
    (h.store r).capacity s = h.capacity s := by
  cases r <;> cases s <;>
    simp [store, capacity, stats, Archive.stats, Archive.add]

theorem Holds.stats_eq (hh : h.Holds rs) (s : Signal) :
    let count := (Record.ofSignal s rs).length
    h.stats s =
      ⟨min count (h.capacity s), h.capacity s, count, count - min count (h.capacity s)⟩ := by
  cases s with
  | traces =>
    exact hh.spans.stats_eq (by rw [← Record.map_span_filterMap, List.length_map])
  | logs =>
    exact hh.logs.stats_eq (by rw [← Record.map_log_filterMap, List.length_map])
  | metrics =>
    exact hh.metrics.stats_eq (by rw [← Record.map_metric_filterMap, List.length_map])

theorem first_eq_evicted (h : Hub) (s : Signal) : h.first s = (h.stats s).evicted := by
  cases s <;> rfl

end Hub

/-- The last records of a signal, at most so many. -/
def Record.latest (s : Signal) (capacity : Nat) (rs : List Record) : List Record :=
  let all := Record.ofSignal s rs
  all.drop (all.length - min all.length capacity)

namespace Hub

variable {h : Hub} {rs : List Record}

theorem Holds.retained_eq_latest (hh : h.Holds rs) (s : Signal) :
    h.retained s = Record.latest s (h.capacity s) rs := by
  have hstats := hh.stats_eq s
  rw [hh.retained_eq, first_eq_evicted, hstats, Record.latest]

end Hub

/-! ## Answers -/

/-- The records of a signal in an answer. -/
def QueryResult.records (r : QueryResult) : Signal → List Record
  | .traces => r.spans.map .span
  | .logs => r.logs.map .log
  | .metrics => r.metrics.map .metric

namespace Hub

variable {h : Hub} {rs : List Record}

/-- What a search finds in all archives. -/
def found (h : Hub) (f : Filter) (n : Nat) : QueryResult :=
  ⟨Search.scan h.spans f n, Search.scan h.logs f n, Search.scan h.metrics f n⟩

theorem Holds.knows_retained (hh : h.Holds rs) (hi : h.Indexes rs) {s : Signal} {r : Record}
    (hr : r ∈ h.retained s) : h.knows s r.service := by
  rw [hh.retained_eq] at hr
  exact (hi s _).2 (List.mem_map_of_mem (List.mem_of_mem_drop hr))

/-- A search finds the newest matches among the retained records of each signal. -/
theorem Holds.records_found (hh : h.Holds rs) (hi : h.Indexes rs) (f : Filter) (n : Nat)
    (s : Signal) : (h.found f n).records s =
      ((Record.latest s (h.capacity s) rs).reverse.filter f.matchesRecord).take n := by
  rw [← hh.retained_eq_latest]
  cases s with
  | traces =>
    exact Search.map_scan h.spans .span (fun _ => rfl)
      (fun x hx => hh.knows_retained hi (s := .traces) (List.mem_map_of_mem hx)) n
  | logs =>
    exact Search.map_scan h.logs .log (fun _ => rfl)
      (fun x hx => hh.knows_retained hi (s := .logs) (List.mem_map_of_mem hx)) n
  | metrics =>
    exact Search.map_scan h.metrics .metric (fun _ => rfl)
      (fun x hx => hh.knows_retained hi (s := .metrics) (List.mem_map_of_mem hx)) n

end Hub

end SignalHub
