import SignalHub.Proofs.Diary
/-!
# A filter as its conditions

A filter gives conditions, at most one on each part of a record. A condition on a part that a kind
of record does not have holds of no record of that kind. A record matches a filter exactly if all
conditions hold of it that the filter gives, although the kinds that a filter applies to are decided
apart from the fields that are compared, and the fields apart for each kind.

Results:
* `Condition.Holds`: what a condition says of a record.
* `Filter.Gives`: the conditions that a filter gives.
* `Filter.matchesRecord_iff`: a record matches if all of them hold.
* `Filter.gives_adding`: the conditions of a filter that is given one more.
* `Filter.conjunction_of_conditions`: all of it, with what follows for kinds and more conditions.
-/
namespace SignalHub

/-- A condition on records. -/
inductive Condition where
  | signal (s : Signal)
  | service (name : String)
  | severity (text : String)
  | spanName (name : String)
  | traceId (id : String)
  | spanStatus (label : String)
  | metricName (name : String)
  | failed
  /-- How many records are wanted. -/
  | limit (n : Int64)
  deriving DecidableEq

namespace Condition

/-- Whether a condition holds of a record. -/
def Holds : Condition → Record → Prop
  | .signal s, r => s = r.signal
  | .service name, r => name = r.service
  | .severity text, .log l => text = l.severity
  | .severity _, _ => False
  | .spanName name, .span s => name = s.name
  | .spanName _, _ => False
  | .traceId id, .span s => id = s.traceId
  | .traceId id, .log l => l.traceId = some id
  | .traceId _, .metric _ => False
  | .spanStatus label, .span s => label = s.status.label
  | .spanStatus _, _ => False
  | .metricName name, .metric p => name = p.name
  | .metricName _, _ => False
  | .failed, .span s => s.status = .error
  | .failed, _ => False
  | .limit _, _ => True

end Condition

namespace Filter

/-- Whether a filter gives a condition. -/
def Gives (f : Filter) : Condition → Prop
  | .signal s => f.signal = some s
  | .service name => f.service = some name
  | .severity text => f.severity = some text
  | .spanName name => f.spanName = some name
  | .traceId id => f.traceId = some id
  | .spanStatus label => f.spanStatus = some label
  | .metricName name => f.metricName = some name
  | .failed => f.errorsOnly = true
  | .limit n => f.limit = some n

/-- Whether a filter gives no condition on the part that a condition is on. -/
def Lacks (f : Filter) : Condition → Prop
  | .signal _ => f.signal = none
  | .service _ => f.service = none
  | .severity _ => f.severity = none
  | .spanName _ => f.spanName = none
  | .traceId _ => f.traceId = none
  | .spanStatus _ => f.spanStatus = none
  | .metricName _ => f.metricName = none
  | .failed => f.errorsOnly = false
  | .limit _ => f.limit = none

/-- The filter with a part set as a condition says. -/
def adding (f : Filter) : Condition → Filter
  | .signal s => { f with signal := some s }
  | .service name => { f with service := some name }
  | .severity text => { f with severity := some text }
  | .spanName name => { f with spanName := some name }
  | .traceId id => { f with traceId := some id }
  | .spanStatus label => { f with spanStatus := some label }
  | .metricName name => { f with metricName := some name }
  | .failed => { f with errorsOnly := true }
  | .limit n => { f with limit := some n }

variable {f : Filter} {c : Condition} {r : Record}

/-! ## Parts of a filter -/

theorem isNone_iff {α : Type} {part : Option α} : part.isNone ↔ ∀ a, part = some a → False := by
  cases part <;> simp

theorem not_or_iff {given holds : Bool} : (!given || holds) = true ↔ (given → holds) := by
  cases given <;> simp

/-- The conditions that a filter gives, part by part. -/
theorem forall_gives_iff {P : Condition → Prop} : (∀ c, f.Gives c → P c) ↔
    (∀ s, f.signal = some s → P (.signal s)) ∧ (∀ n, f.service = some n → P (.service n)) ∧
    (∀ t, f.severity = some t → P (.severity t)) ∧ (∀ n, f.spanName = some n → P (.spanName n)) ∧
    (∀ i, f.traceId = some i → P (.traceId i)) ∧
    (∀ l, f.spanStatus = some l → P (.spanStatus l)) ∧
    (∀ n, f.metricName = some n → P (.metricName n)) ∧ (f.errorsOnly = true → P .failed) ∧
    ∀ n, f.limit = some n → P (.limit n) := by
  constructor
  · intro h
    exact ⟨fun s => h (.signal s), fun n => h (.service n), fun t => h (.severity t),
      fun n => h (.spanName n), fun i => h (.traceId i), fun l => h (.spanStatus l),
      fun n => h (.metricName n), h .failed, fun n => h (.limit n)⟩
  · rintro ⟨hsignal, hservice, hseverity, hname, htrace, hstatus, hmetric, hfailed, hlimit⟩ c hc
    cases c with
    | signal s => exact hsignal s hc
    | service n => exact hservice n hc
    | severity t => exact hseverity t hc
    | spanName n => exact hname n hc
    | traceId i => exact htrace i hc
    | spanStatus l => exact hstatus l hc
    | metricName n => exact hmetric n hc
    | failed => exact hfailed hc
    | limit n => exact hlimit n hc

/-! ## Records of each kind -/

theorem spansOnly_eq_false_iff : (!f.spansOnly) = true ↔ (∀ n, f.spanName = some n → False) ∧
    (∀ l, f.spanStatus = some l → False) ∧ (f.errorsOnly → False) := by
  rw [Bool.not_eq_true', spansOnly, Bool.or_eq_false_iff, Bool.or_eq_false_iff, and_assoc,
    ← Bool.not_eq_true', ← Bool.not_eq_true', Option.not_isSome, Option.not_isSome, isNone_iff,
    isNone_iff]
  simp

theorem matchesSpan_iff (s : Span) :
    f.matchesSpan s ↔ ∀ c, f.Gives c → c.Holds (.span s) := by
  rw [forall_gives_iff]
  simp only [matchesSpan, appliesTo, spanFields, admits, Bool.and_eq_true, Option.all_eq_true,
    isNone_iff, not_or_iff, Span.isError, beq_iff_eq]
  constructor
  · rintro ⟨⟨⟨hsignal, hseverity, hmetric⟩, hservice⟩, ⟨⟨hname, htrace⟩, hstatus⟩, hfailed⟩
    exact ⟨hsignal, hservice, hseverity, hname, htrace, hstatus, hmetric, hfailed,
      fun _ _ => trivial⟩
  · rintro ⟨hsignal, hservice, hseverity, hname, htrace, hstatus, hmetric, hfailed, -⟩
    exact ⟨⟨⟨hsignal, hseverity, hmetric⟩, hservice⟩, ⟨⟨hname, htrace⟩, hstatus⟩, hfailed⟩

theorem matchesLog_iff (l : LogEntry) :
    f.matchesLog l ↔ ∀ c, f.Gives c → c.Holds (.log l) := by
  rw [forall_gives_iff]
  simp only [matchesLog, appliesTo, logFields, admits, Bool.and_eq_true, Option.all_eq_true,
    isNone_iff, spansOnly_eq_false_iff, beq_iff_eq]
  constructor
  · rintro ⟨⟨⟨hsignal, ⟨hname, hstatus, hfailed⟩, hmetric⟩, hservice⟩, hseverity, htrace⟩
    exact ⟨hsignal, hservice, hseverity, hname, htrace, hstatus, hmetric, hfailed,
      fun _ _ => trivial⟩
  · rintro ⟨hsignal, hservice, hseverity, hname, htrace, hstatus, hmetric, hfailed, -⟩
    exact ⟨⟨⟨hsignal, ⟨hname, hstatus, hfailed⟩, hmetric⟩, hservice⟩, hseverity, htrace⟩

theorem matchesMetric_iff (p : MetricPoint) :
    f.matchesMetric p ↔ ∀ c, f.Gives c → c.Holds (.metric p) := by
  rw [forall_gives_iff]
  simp only [matchesMetric, appliesTo, metricFields, admits, Bool.and_eq_true, Option.all_eq_true,
    isNone_iff, spansOnly_eq_false_iff, beq_iff_eq]
  constructor
  · rintro ⟨⟨⟨hsignal, ⟨⟨hname, hstatus, hfailed⟩, hseverity⟩, htrace⟩, hservice⟩, hmetric⟩
    exact ⟨hsignal, hservice, hseverity, hname, htrace, hstatus, hmetric, hfailed,
      fun _ _ => trivial⟩
  · rintro ⟨hsignal, hservice, hseverity, hname, htrace, hstatus, hmetric, hfailed, -⟩
    exact ⟨⟨⟨hsignal, ⟨⟨hname, hstatus, hfailed⟩, hseverity⟩, htrace⟩, hservice⟩, hmetric⟩

/-- A record matches a filter if all conditions hold of it. -/
theorem matchesRecord_iff (f : Filter) (r : Record) :
    f.matchesRecord r ↔ ∀ c, f.Gives c → c.Holds r := by
  cases r with
  | span s => exact f.matchesSpan_iff s
  | log l => exact f.matchesLog_iff l
  | metric p => exact f.matchesMetric_iff p

/-! ## Consequences -/

/-- A filter applies to the kinds of all records that match it. -/
theorem appliesTo_of_matchesRecord (h : f.matchesRecord r) : f.appliesTo r.signal := by
  cases r with
  | span s => exact appliesTo_of_matchesSpan h
  | log l => exact appliesTo_of_matchesLog h
  | metric p => exact appliesTo_of_matchesMetric h

/-- A condition more on a part on which there was none. -/
theorem gives_adding (h : f.Lacks c) {c' : Condition} :
    (f.adding c).Gives c' ↔ f.Gives c' ∨ c' = c := by
  cases c <;> cases c' <;> grind [Lacks, adding, Gives]

/-- A record matches a filter with one more condition if it matches without it and the condition
holds of it. -/
theorem matchesRecord_adding (h : f.Lacks c) :
    (f.adding c).matchesRecord r ↔ f.matchesRecord r ∧ c.Holds r := by
  rw [matchesRecord_iff, matchesRecord_iff]
  constructor
  · intro hall
    exact ⟨fun c' hc' => hall c' ((gives_adding h).2 (.inl hc')),
      hall c ((gives_adding h).2 (.inr rfl))⟩
  · rintro ⟨hall, hholds⟩ c' hc'
    rcases (gives_adding h).1 hc' with hc' | rfl
    · exact hall c' hc'
    · exact hholds

/-- A filter is the conjunction of its conditions. So no record matches of a kind to which it does
not apply, and a condition more never lets more records match. -/
theorem conjunction_of_conditions (f : Filter) :
    (∀ r, f.matchesRecord r ↔ ∀ c, f.Gives c → c.Holds r) ∧
    (∀ s, f.appliesTo s = false → ∀ r, r.signal = s → f.matchesRecord r = false) ∧
    ∀ c, f.Lacks c → ∀ r, (f.adding c).matchesRecord r → f.matchesRecord r := by
  refine ⟨f.matchesRecord_iff, ?_, ?_⟩
  · rintro s hs r rfl
    rw [Bool.eq_false_iff]
    intro hmatches
    rw [appliesTo_of_matchesRecord hmatches] at hs
    cases hs
  · intro c hc r hmatches
    exact ((matchesRecord_adding hc).1 hmatches).1

/-- A filter on severity matches no metric point, and with a service it matches fewer log
entries. -/
theorem warnings_conjunction :
    let f := { Filter.all with severity := some "WARN" }
    let entry := Record.log ⟨1, "shop", "WARN", "slow", some "t1", none, .empty⟩
    let point := Record.metric ⟨1, "shop", "latency", .gauge, 2, .empty⟩
    f.appliesTo .metrics = false ∧ f.matchesRecord point = false ∧ f.Lacks (.service "shop") ∧
      f.matchesRecord entry = true := by
  intro f entry point
  obtain ⟨-, hkinds, hmore⟩ := conjunction_of_conditions f
  exact ⟨rfl, hkinds .metrics rfl point rfl, rfl, hmore (.service "shop") rfl entry rfl⟩

end Filter

end SignalHub
