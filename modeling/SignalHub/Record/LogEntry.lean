import SignalHub.Record.Attributes
/-!
# Log entries

A log entry is one line of a service's log, possibly written inside a span.

Results:
* `LogEntry.codec`: the exchange format.
-/
namespace SignalHub

/-- One line of a log. A timestamp of zero means that the producer gave none. -/
structure LogEntry where
  timestamp : UInt64
  service : String
  severity : String
  body : String
  traceId : Option String
  spanId : Option String
  attributes : Attributes
  deriving DecidableEq

namespace LogEntry

open Json Json.Codec

/-- The fields in the order of the exchange format. -/
def fields : Fields Codec LogEntry LogEntry :=
  (((((((Fields.done LogEntry.mk
    |>.defaulted "timestamp_unix_nano" (word "u64") timestamp 0)
    |>.required "service_name" text service)
    |>.required "severity" text severity)
    |>.required "body" text body)
    |>.defaulted "trace_id" (option text) traceId none)
    |>.defaulted "span_id" (option text) spanId none)
    |>.defaulted "attributes" Attributes.codec attributes .empty)

theorem rebuild_fields (l : LogEntry) : fields.rebuild l = l := rfl

/-- The exchange format of log entries. -/
def codec : Codec LogEntry := struct "struct LogEntry" fields

/-- Stamps an entry that came without a timestamp. -/
def stamp (now : UInt64) (l : LogEntry) : LogEntry :=
  if l.timestamp = 0 then { l with timestamp := now } else l

end LogEntry

end SignalHub
