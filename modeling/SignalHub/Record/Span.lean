import SignalHub.Record.Attributes
import SignalHub.Word
/-!
# Spans

A span is one finished operation of a trace.

Results:
* `Span.isError`, `Span.finish`: derived facts.
* `Span.codec`: the exchange format.
-/
namespace SignalHub

/-- How an operation ended. -/
inductive SpanStatus where
  | unset
  | ok
  | error
  deriving DecidableEq, Repr

/-- The name of a status. -/
def SpanStatus.label : SpanStatus → String
  | .unset => "UNSET"
  | .ok => "OK"
  | .error => "ERROR"

/-- All statuses under their names. -/
def SpanStatus.all : List (String × SpanStatus) :=
  [("UNSET", .unset), ("OK", .ok), ("ERROR", .error)]

/-- A status by its name. -/
def SpanStatus.codec : Json.Codec SpanStatus := .choice SpanStatus.all SpanStatus.label

/-- A finished operation. Times are nanoseconds. -/
structure Span where
  traceId : String
  spanId : String
  parentSpanId : Option String
  name : String
  service : String
  start : UInt64
  duration : UInt64
  status : SpanStatus
  statusMessage : Option String
  attributes : Attributes
  deriving DecidableEq

namespace Span

/-- Whether the operation failed. -/
def isError (s : Span) : Bool := s.status == .error

/-- When the operation ended; times past the last representable one count as that one. -/
def finish (s : Span) : UInt64 :=
  UInt64.ofNat (min (s.start.toNat + s.duration.toNat) Word.top)

theorem toNat_finish (s : Span) :
    s.finish.toNat = min (s.start.toNat + s.duration.toNat) Word.top := by
  simp only [finish, UInt64.toNat_ofNat', Word.top]
  omega

open Json Json.Codec

/-- The fields in the order of the exchange format. -/
def fields : Fields Codec Span Span :=
  ((((((((((Fields.done Span.mk
    |>.required "trace_id" text traceId)
    |>.required "span_id" text spanId)
    |>.defaulted "parent_span_id" (option text) parentSpanId none)
    |>.required "name" text name)
    |>.required "service_name" text service)
    |>.required "start_time_unix_nano" (word "u64") start)
    |>.defaulted "duration_nanos" (word "u64") duration 0)
    |>.defaulted "status" SpanStatus.codec status .unset)
    |>.defaulted "status_message" (option text) statusMessage none)
    |>.defaulted "attributes" Attributes.codec attributes .empty)

theorem rebuild_fields (s : Span) : fields.rebuild s = s := rfl

/-- The exchange format of spans. -/
def codec : Codec Span := struct "struct Span" fields

end Span

end SignalHub
