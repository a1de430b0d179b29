import SignalHub.Record
/-!
# Filters

A filter is a conjunction of optional conditions on records. A condition on a part that a kind of
record does not have excludes all records of that kind; `Filter.appliesTo` says which kinds are
left.

Results:
* `Filter.validate`: the one way a filter can be invalid.
* `matchesSpan`, `matchesLog`, `matchesMetric`: whether a record satisfies a filter.
* `Filter.codec`: the exchange format.
-/
namespace SignalHub

/-- Conditions on records, all of which must hold. -/
structure Filter where
  signal : Option Signal
  service : Option String
  severity : Option String
  spanName : Option String
  traceId : Option String
  spanStatus : Option String
  metricName : Option String
  errorsOnly : Bool
  /-- How many records of each kind are wanted at most. -/
  limit : Option Int64
  deriving DecidableEq

/-- Why a filter is invalid. -/
inductive FilterError where
  | limitNotPositive (limit : Int64)
  deriving DecidableEq

/-- The wording of the error. -/
def FilterError.message : FilterError → String
  | .limitNotPositive limit => "limit must be greater than 0, got " ++ toString limit.toInt

/-- The wording of the error where it is reported. -/
def FilterError.report (e : FilterError) : String := "Invalid filter: " ++ e.message

namespace Filter

/-- No conditions. -/
def all : Filter := ⟨none, none, none, none, none, none, none, false, none⟩

instance : Inhabited Filter := ⟨all⟩

/-- All records of a service. -/
def ofService (service : String) : Filter := { all with service := some service }

/-- The same conditions with a limit. -/
def withLimit (f : Filter) (limit : Int64) : Filter := { f with limit := some limit }

/-- The same conditions, for failed spans only. -/
def onlyErrors (f : Filter) : Filter := { f with errorsOnly := true }

/-- A limit must be positive. -/
def validate (f : Filter) : Except FilterError Unit :=
  match f.limit with
  | some limit => if limit ≤ 0 then .error (.limitNotPositive limit) else .ok ()
  | none => .ok ()

/-- Whether there is a condition that only spans can satisfy. -/
def spansOnly (f : Filter) : Bool := f.spanName.isSome || f.spanStatus.isSome || f.errorsOnly

/-- Whether records of a kind can satisfy the filter at all. -/
def appliesTo (f : Filter) (s : Signal) : Bool :=
  (f.signal.all (· == s)) &&
    match s with
    | .traces => f.severity.isNone && f.metricName.isNone
    | .logs => !f.spansOnly && f.metricName.isNone
    | .metrics => !f.spansOnly && f.severity.isNone && f.traceId.isNone

/-- Whether an optional condition holds of a value. -/
def admits (condition : Option String) (value : String) : Bool := condition.all (· == value)

/-- Whether a span satisfies the conditions on spans. -/
def spanFields (f : Filter) (s : Span) : Bool :=
  admits f.spanName s.name && admits f.traceId s.traceId && admits f.spanStatus s.status.label &&
    (!f.errorsOnly || s.isError)

/-- Whether a log entry satisfies the conditions on log entries. -/
def logFields (f : Filter) (l : LogEntry) : Bool :=
  admits f.severity l.severity && f.traceId.all fun t => l.traceId == some t

/-- Whether a metric point satisfies the conditions on metric points. -/
def metricFields (f : Filter) (p : MetricPoint) : Bool := admits f.metricName p.name

/-- Whether a span satisfies the filter. -/
def matchesSpan (f : Filter) (s : Span) : Bool :=
  f.appliesTo .traces && admits f.service s.service && f.spanFields s

/-- Whether a log entry satisfies the filter. -/
def matchesLog (f : Filter) (l : LogEntry) : Bool :=
  f.appliesTo .logs && admits f.service l.service && f.logFields l

/-- Whether a metric point satisfies the filter. -/
def matchesMetric (f : Filter) (p : MetricPoint) : Bool :=
  f.appliesTo .metrics && admits f.service p.service && f.metricFields p

/-- Whether a record satisfies the conditions on records of its kind. -/
def recordFields (f : Filter) : Record → Bool
  | .span s => f.spanFields s
  | .log l => f.logFields l
  | .metric p => f.metricFields p

/-- Whether a record satisfies the filter. -/
def matchesRecord (f : Filter) : Record → Bool
  | .span s => f.matchesSpan s
  | .log l => f.matchesLog l
  | .metric p => f.matchesMetric p

open Json Json.Codec

/-- The fields in the order of the exchange format. -/
def fields : Fields Codec Filter Filter :=
  (((((((((Fields.done Filter.mk
    |>.defaulted "kind" (option Signal.codec) signal none)
    |>.defaulted "service" (option text) service none)
    |>.defaulted "severity" (option text) severity none)
    |>.defaulted "span_name" (option text) spanName none)
    |>.defaulted "trace_id" (option text) traceId none)
    |>.defaulted "span_status" (option text) spanStatus none)
    |>.defaulted "metric_name" (option text) metricName none)
    |>.defaulted "errors_only" Codec.bool errorsOnly false)
    |>.defaulted "limit" (option int64) limit none)

theorem rebuild_fields (f : Filter) : fields.rebuild f = f := rfl

/-- The exchange format of filters. -/
def codec : Codec Filter := struct "struct Filter" fields

end Filter

end SignalHub
