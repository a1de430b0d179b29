import SignalHub.Http.Ingest
import SignalHub.Http.Param
import SignalHub.Http.Route
import SignalHub.Hub.View
import SignalHub.Word
/-!
# The hub's HTTP interface

Results:
* `Filter.params`: filters as query strings.
* `LiveRequest.params`: what a live stream is asked for.
* `serve`: the answer to a request, and what it changes.
-/
namespace SignalHub

open Http

/-- Filters as query strings. -/
def Filter.params : Fields Param Filter Filter :=
  let signalName := Param.option (.choice Signal.all Signal.label)
  let text := Param.option .text
  (((((((((Fields.done Filter.mk
    |>.defaulted "kind" signalName signal none)
    |>.defaulted "service" text service none)
    |>.defaulted "severity" text severity none)
    |>.defaulted "span_name" text spanName none)
    |>.defaulted "trace_id" text traceId none)
    |>.defaulted "span_status" text spanStatus none)
    |>.defaulted "metric_name" text metricName none)
    |>.defaulted "errors_only" .bool errorsOnly false)
    |>.defaulted "limit" (Param.option .int64) limit none)

namespace Http

/-- What a live stream is asked for. -/
structure LiveRequest where
  signal : Option Signal
  service : Option String
  severity : Option String
  spanName : Option String
  traceId : Option String
  spanStatus : Option String
  metricName : Option String
  errorsOnly : Bool
  /-- Replaces the backfill of every signal. -/
  backfill : Option UInt64
  /-- Whether the stream starts paused. -/
  paused : Bool

namespace LiveRequest

/-- The filter of the stream; it has no limit. -/
def filter (r : LiveRequest) : Filter :=
  ⟨r.signal, r.service, r.severity, r.spanName, r.traceId, r.spanStatus, r.metricName,
    r.errorsOnly, none⟩

/-- Requests for live streams as query strings. -/
def params : Fields Param LiveRequest LiveRequest :=
  let signalName := Param.option (.choice Signal.all Signal.label)
  let text := Param.option .text
  ((((((((((Fields.done LiveRequest.mk
    |>.defaulted "kind" signalName signal none)
    |>.defaulted "service" text service none)
    |>.defaulted "severity" text severity none)
    |>.defaulted "span_name" text spanName none)
    |>.defaulted "trace_id" text traceId none)
    |>.defaulted "span_status" text spanStatus none)
    |>.defaulted "metric_name" text metricName none)
    |>.defaulted "errors_only" .bool errorsOnly false)
    |>.defaulted "backfill" (Param.option .word) backfill none)
    |>.defaulted "paused" .bool paused false)

/-- How far behind the head the stream starts. -/
def window (r : LiveRequest) (s : StreamSettings) : PerSignal Nat :=
  match r.backfill with
  | some n => .uniform n.toNat
  | none => ⟨s.traceBackfill.toNat, s.logBackfill.toNat, s.metricBackfill.toNat⟩

end LiveRequest

/-- How many deltas a live stream holds. -/
def liveCapacity : Nat := 16

/-- Reads a query string, or refuses it. -/
def readParams {σ : Type} (fields : Fields Param σ σ) (t : Target) : Except ApiError σ :=
  (Params.read fields t.query).mapError fun e =>
    .badRequest ("Failed to deserialize query string: " ++ e.message)

/-- Refuses a query. -/
def refuseFilter (e : FilterError) : ApiError := .invalidFilter e.message

/-- An answer, or the error as one. -/
def answer (site : Site) : Except ApiError (Response × Site) → Response × Site
  | .ok r => r
  | .error e => (e.response, site)

/-- Serves a query: reads the filter, runs the query and shows what it found. -/
def serveQuery {ρ : Type} (site : Site) (t : Target)
    (run : Hub → Filter → Except FilterError ρ × Hub) (view : ρ → List (String × Json))
    (size : ρ → Nat) : Response × Site :=
  match readParams Filter.params t with
  | .error e => (e.response, site)
  | .ok f =>
    match run site.hub f with
    | (.error e, h) => ((refuseFilter e).response, site.withHub h)
    | (.ok r, h) => (.json 200 (.obj (("total", .nat (size r)) :: view r)), site.withHub h)

/-- The text of a path parameter. -/
def pathText (name : String) (value : List UInt8) : Except ApiError String :=
  match Text.ofBytes? (Text.percentDecode value) with
  | some s => .ok s
  | none => .error (.badRequest ("Invalid URL: Invalid UTF-8 in `" ++ name ++ "`"))

/-- The number that a path parameter spells. -/
def pathWord (name : String) (value : List UInt8) : Except ApiError Nat := do
  let s ← pathText name value
  match Text.readUnsigned Word.top s with
  | .ok n => pure n
  | .error _ =>
    .error (.badRequest ("Invalid URL: Cannot parse `" ++ Text.quoted s ++ "` to a `u64`"))

/-- Serves a trace report. -/
def serveTrace (site : Site) (value : List UInt8) : Except ApiError (Response × Site) := do
  let traceId ← pathText "trace_id" value
  match site.hub.trace traceId with
  | some t => pure (.json 200 t.toJson, site)
  | none => .error (.notFound ("trace " ++ traceId ++ " is not retained"))

/-- A live feed's number and whether it is paused, as JSON. -/
def feedJson (id : Nat) (paused : Bool) : Json :=
  .obj [("subscriber_id", .nat id), ("paused", .bool paused)]

/-- Opens a live stream: attaches a feed and lets it run. -/
def openLive (site : Site) (r : LiveRequest) : Except ApiError (Response × Site) := do
  let (feed, h) ← (Feed.attach site.hub r.filter (r.window site.stream)).mapError refuseFilter
  let feed := if r.paused then feed.pause else feed
  let site := (site.withHub h).launch feed liveCapacity
    (site.stream.keepaliveSeconds.toNat * 1000) .listening true
  pure (⟨200, some "text/event-stream", .events feed.id r.paused, none⟩, site)

/-- Serves a live stream. -/
def serveLive (site : Site) (t : Target) : Except ApiError (Response × Site) := do
  openLive site (← readParams LiveRequest.params t)

/-- Serves a pause switch. -/
def serveSwitch (site : Site) (value : List UInt8) (paused : Bool) :
    Except ApiError (Response × Site) := do
  let id ← pathWord "subscriber_id" value
  match site.switch? id with
  | some _ => pure (.json 200 (feedJson id paused), site.setPaused id paused)
  | none => .error (.notFound ("live feed " ++ toString id ++ " is not attached"))

/-- Serves the names of all services. -/
def servicesJson (h : Hub) : Json :=
  .obj [("total", .nat h.services.length), ("services", namesJson h.services)]

/-- Takes in a batch. -/
def serveBatch {α : Type} (b : Batch α) (receivedAt : UInt64) (site : Site) (r : Request) :
    Response × Site :=
  let (answer, h) := ingest b receivedAt site.hub r
  (answer, site.withHub h)

/-- The answer of a handler; `values` are the parameters of the path. -/
def handle (receivedAt : UInt64) (site : Site) (r : Request) (values : List (List UInt8)) :
    Endpoint → Response × Site
  | .health => (.json 200 (.obj [("status", .str "ok"), ("version", .str version)]), site)
  | .getSpans =>
    serveQuery site r.target Hub.querySpans (fun ss => [("spans", spansJson ss)]) List.length
  | .getLogs =>
    serveQuery site r.target Hub.queryLogs (fun ls => [("logs", logsJson ls)]) List.length
  | .getMetrics =>
    serveQuery site r.target Hub.queryMetrics (fun ps => [("metrics", metricsJson ps)])
      List.length
  | .query => serveQuery site r.target Hub.query QueryResult.members QueryResult.size
  | .postSpans => serveBatch .spans receivedAt site r
  | .postLogs => serveBatch .logs receivedAt site r
  | .postMetrics => serveBatch .metrics receivedAt site r
  | .trace => answer site (serveTrace site (values.headD []))
  | .services => (.json 200 (servicesJson site.hub), site)
  | .status => (.json 200 (site.hub.status site.uptimeSeconds).toJson, site)
  | .live => answer site (serveLive site r.target)
  | .pause => answer site (serveSwitch site (values.headD []) true)
  | .resume => answer site (serveSwitch site (values.headD []) false)
  | .exposition =>
    (⟨200, some "text/plain; version=0.0.4", .lines site.hub.tally.exposition, none⟩, site)

/-- What is left of an answer to a request for its head only: a stream ends before it begins. -/
def headOnly (r : Response × Site) : Response × Site :=
  match r.1.body with
  | .events id _ => (r.1.withoutBody, r.2.modifyCourier id Courier.abandon)
  | _ => (r.1.withoutBody, r.2)

/-- The answer to a request, and what it changes. -/
def serve (router : Router) (receivedAt : UInt64) (site : Site) (r : Request) :
    Response × Site :=
  match router.find r.target.path with
  | none => (.notFound, site)
  | some (route, values) =>
    match route.handler? r.method with
    | none => (.methodNotAllowed route.allow, site)
    | some endpoint =>
      let answered := handle receivedAt site r values endpoint
      if r.method = .head then headOnly answered else answered

end Http

end SignalHub
