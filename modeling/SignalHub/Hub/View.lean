import SignalHub.Feed
/-!
# The hub's answers as JSON

Results:
* `Hub.status`: counters and retention figures at one moment.
* `QueryResult.toJson`, `TraceReport.toJson`, `Status.toJson`, `Delta.toJson`: answers as JSON.
-/
namespace SignalHub

/-- Spans as JSON. -/
def spansJson (ss : List Span) : Json := .arr (ss.map Span.codec.encode)

/-- Log entries as JSON. -/
def logsJson (ls : List LogEntry) : Json := .arr (ls.map LogEntry.codec.encode)

/-- Metric points as JSON. -/
def metricsJson (ps : List MetricPoint) : Json := .arr (ps.map MetricPoint.codec.encode)

/-- Names as JSON. -/
def namesJson (names : List String) : Json := .arr (names.map .str)

/-- Matches of every kind, as members. -/
def QueryResult.members (r : QueryResult) : List (String × Json) :=
  [("spans", spansJson r.spans), ("logs", logsJson r.logs), ("metrics", metricsJson r.metrics)]

/-- Matches of every kind. -/
def QueryResult.toJson (r : QueryResult) : Json := .obj r.members

/-- A trace report. -/
def TraceReport.toJson (t : TraceReport) : Json :=
  .obj [("trace_id", .str t.traceId), ("spans", spansJson t.spans), ("logs", logsJson t.logs),
    ("services", namesJson t.services), ("root_span_id", .ofOption .str t.rootSpanId),
    ("duration_nanos", .nat t.duration), ("has_errors", .bool t.hasErrors)]

/-- Retention figures. -/
def Archive.Stats.toJson (s : Archive.Stats) : Json :=
  .obj [("retained", .nat s.retained), ("capacity", .nat s.capacity),
    ("current_position", .nat s.position), ("evicted", .nat s.evicted)]

/-- Counters and retention figures at one moment. -/
structure Status where
  generation : Nat
  received : PerSignal Nat
  uptimeSeconds : Nat
  subscribers : Nat
  stats : PerSignal Archive.Stats
  deriving DecidableEq, Repr

/-- The status of a hub that has been up for so many seconds. -/
def Hub.status (h : Hub) (uptimeSeconds : Nat) : Status where
  generation := h.bulletin.generation
  received := h.bulletin.received
  uptimeSeconds := uptimeSeconds
  subscribers := h.bulletin.count
  stats := ⟨h.spans.stats, h.logs.stats, h.metrics.stats⟩

/-- A status. -/
def Status.toJson (s : Status) : Json :=
  .obj [("generation", .nat s.generation), ("spans_received", .nat s.received.traces),
    ("logs_received", .nat s.received.logs), ("metrics_received", .nat s.received.metrics),
    ("uptime_seconds", .nat s.uptimeSeconds), ("subscribers", .nat s.subscribers),
    ("traces", s.stats.traces.toJson), ("logs", s.stats.logs.toJson),
    ("metrics", s.stats.metrics.toJson)]

/-- A delta, as members. -/
def Delta.members (d : Delta) : List (String × Json) :=
  [("generation", .nat d.generation), ("spans", spansJson d.spans), ("logs", logsJson d.logs),
    ("metrics", metricsJson d.metrics)]

/-- A delta. -/
def Delta.toJson (d : Delta) : Json := .obj d.members

end SignalHub
