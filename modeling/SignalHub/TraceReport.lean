import SignalHub.Archive
import SignalHub.Record
/-!
# Trace reports

A trace report gathers everything retained about one trace: its spans by start time, its log
entries in the order they came, and what follows from them. There is none if no span of the trace
is retained.

Results:
* `TraceReport.gather`: the report on a trace.
-/
namespace SignalHub

/-- Everything retained about a trace. -/
structure TraceReport where
  traceId : String
  /-- By start time; of spans that start together the newest first. -/
  spans : List Span
  /-- In the order they came. -/
  logs : List LogEntry
  /-- Ascending. -/
  services : List String
  rootSpanId : Option String
  duration : Nat
  hasErrors : Bool
  deriving DecidableEq

namespace TraceReport

/-- The earliest start. -/
def earliest (spans : List Span) : Nat := ((spans.map (·.start.toNat)).min?).getD 0

/-- The latest end. -/
def latest (spans : List Span) : Nat := ((spans.map (·.finish.toNat)).max?).getD 0

/-- The report on spans that have been sorted and on log entries. -/
def ofSpans (traceId : String) (spans : List Span) (logs : List LogEntry) : TraceReport where
  traceId := traceId
  spans := spans
  logs := logs
  services := spans.foldl (fun names s => insertName s.service names) []
  rootSpanId := (spans.find? (·.parentSpanId.isNone)).map (·.spanId)
  duration := latest spans - earliest spans
  hasErrors := spans.any Span.isError

/-- The report on a trace, unless no span of it is retained. -/
def gather (spans : Archive Span) (logs : Archive LogEntry) (traceId : String) :
    Option TraceReport :=
  let found := spans.window.toList.reverse.filter (·.traceId == traceId)
  if found.isEmpty then none
  else
    some <| ofSpans traceId (found.mergeSort fun a b => a.start ≤ b.start)
      (logs.window.toList.filter (·.traceId == some traceId))

end TraceReport

end SignalHub
