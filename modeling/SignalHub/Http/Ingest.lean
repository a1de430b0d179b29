import SignalHub.Http.MediaType
import SignalHub.Http.Message
import SignalHub.Json.Decode
import SignalHub.Site
/-!
# Ingestion

A batch of records is posted as a JSON list. It is checked as a whole before any record is kept;
then the records are kept in order. Log entries and metric points without a timestamp get the time
of receipt.

Results:
* `readBatch`: the records of a request, or the answer that refuses it.
* `Batch.spans`, `Batch.logs`, `Batch.metrics`: what a record of each kind must have.
* `ingest`: keeps a batch.
-/
namespace SignalHub.Http

/-- The largest body, in bytes. -/
def maxBody : Nat := 10 * 1024 * 1024

/-- How many of the first `n` bytes are left without the blanks at their end. -/
def trimmedSize (body : ByteArray) : Nat → Nat
  | 0 => 0
  | n + 1 => if body[n]? = some 0x20 then trimmedSize body n else n + 1

/-- The bytes of a body without the blanks at its end, which say nothing in JSON. -/
def trimmed (body : ByteArray) : List UInt8 :=
  (body.extract 0 (trimmedSize body body.size)).data.toList

/-- Refuses a body that is no JSON or does not suit. -/
def refuse : Json.DecodeError → Response
  | .fault _ => .text 400 "Failed to parse the request body as JSON"
  | .data path p =>
    let place := if path = [] then "" else Json.pathLabel path ++ ": "
    .text 422
      ("Failed to deserialize the JSON body into the target type: " ++ place ++ p.message)

/-- The records of a request, or the answer that refuses it. -/
def readBatch {α : Type} (c : Json.Codec α) (r : Request) : Except Response (List α) :=
  if !(r.contentType.any isJson) then
    .error (.text 415 "Expected request with `Content-Type: application/json`")
  else if maxBody < r.body.size then
    .error (.text 413 "Failed to buffer the request body: length limit exceeded")
  else ((Json.Codec.list c).ofFirst (trimmed r.body)).mapError refuse

/-- How a kind of record is taken in. -/
structure Batch (α : Type) where
  codec : Json.Codec α
  service : α → String
  /-- What else must not be missing, and what is said of the first record where it is. -/
  lacks : α → Bool
  complaint : Nat → String
  stamp : UInt64 → α → α
  record : α → Record

/-- Spans must have their ids. -/
def Batch.spans : Batch Span where
  codec := Span.codec
  service := Span.service
  lacks s := s.traceId.isEmpty || s.spanId.isEmpty
  complaint i := "span " ++ toString i ++ " is missing trace_id or span_id"
  stamp _ s := s
  record := .span

/-- Log entries need only a service. -/
def Batch.logs : Batch LogEntry where
  codec := LogEntry.codec
  service := LogEntry.service
  lacks _ := false
  complaint i := "log " ++ toString i
  stamp := LogEntry.stamp
  record := .log

/-- Metric points must have a name. -/
def Batch.metrics : Batch MetricPoint where
  codec := MetricPoint.codec
  service := MetricPoint.service
  lacks p := p.name.isEmpty
  complaint i := "metric point " ++ toString i ++ " has an empty name"
  stamp := MetricPoint.stamp
  record := .metric

variable {α : Type}

/-- What is wrong with a batch: first a record without a service, then one that lacks something
else. -/
def Batch.fault? (b : Batch α) (xs : List α) : Option ApiError :=
  match xs.findIdx? fun x => (b.service x).isEmpty with
  | some i => some (.badRequest ("record " ++ toString i ++ " has an empty service_name"))
  | none => (xs.findIdx? b.lacks).map fun i => .badRequest (b.complaint i)

/-- Keeps records in order; yields the position of the last one. -/
def keepAll (h : Hub) : Option Nat → List Record → Option Nat × Hub
  | last, [] => (last, h)
  | _, r :: rest =>
    let (p, h) := h.record r
    keepAll h (some p) rest

/-- Takes in the batch of a request, received at that time. -/
def ingest (b : Batch α) (receivedAt : UInt64) (h : Hub) (r : Request) : Response × Hub :=
  match readBatch b.codec r with
  | .error refusal => (refusal, h)
  | .ok xs =>
    match b.fault? xs with
    | some e => (e.response, h)
    | none =>
      let (last, h) := keepAll h none (xs.map fun x => b.record (b.stamp receivedAt x))
      (.json 202 (.obj [("accepted", .nat xs.length), ("last_position", .ofOption .nat last)]), h)

end SignalHub.Http
