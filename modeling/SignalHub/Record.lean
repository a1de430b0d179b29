import SignalHub.Record.Span
import SignalHub.Record.LogEntry
import SignalHub.Record.MetricPoint
import SignalHub.Json.Tagged
import SignalHub.Signal
/-!
# Records

A record is a span, a log entry or a metric point.

Results:
* `Record.signal`, `Record.service`: the kind and the owner of a record.
* `Record.codec`: the exchange format, tagged by the kind.
-/
namespace SignalHub

/-- A record of any kind. -/
inductive Record where
  | span (s : Span)
  | log (l : LogEntry)
  | metric (p : MetricPoint)

namespace Record

/-- The kind of a record. -/
def signal : Record → Signal
  | .span _ => .traces
  | .log _ => .logs
  | .metric _ => .metrics

/-- The service that a record belongs to. -/
def service : Record → String
  | .span s => s.service
  | .log l => l.service
  | .metric p => p.service

open Json

/-- The alternatives of the exchange format. -/
def alternatives : List (Codec.Alternative Record) :=
  [("span", fun src n => (Span.codec.decode src n).map .span),
   ("log", fun src n => (LogEntry.codec.decode src n).map .log),
   ("metric", fun src n => (MetricPoint.codec.decode src n).map .metric)]

/-- The tag and the content of a record. -/
def parts : Record → String × Json
  | .span s => ("span", Span.codec.encode s)
  | .log l => ("log", LogEntry.codec.encode l)
  | .metric p => ("metric", MetricPoint.codec.encode p)

/-- The exchange format of records. -/
def codec : Codec Record :=
  Codec.tagged "adjacently tagged enum Record" "kind" "record" alternatives parts

end Record

/-- A signal by its name. -/
def Signal.codec : Json.Codec Signal := .choice Signal.all Signal.label

end SignalHub
