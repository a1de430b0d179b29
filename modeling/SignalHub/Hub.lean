import SignalHub.Search
import SignalHub.TraceReport
import SignalHub.Bulletin
import SignalHub.Settings.Basic
/-!
# The hub

A hub is the storage of the telemetry, behind which there are the store of each signal, the activity
cache that tells subscribers of new records, the limits of searches and the tally of its own doings.

Results:
* `Hub.record`: keeps a record, then announces it.
* `Hub.query`, `Hub.querySpans`, `Hub.queryLogs`, `Hub.queryMetrics`: filtered searches.
* `Hub.trace`, `Hub.services`: other views.
* `Hub.subscribe`, `Hub.unsubscribe`, `Hub.discard`, `Hub.readPing`: subscriptions.
-/
namespace SignalHub

/-- A hub. -/
structure Hub where
  spans : Archive Span
  logs : Archive LogEntry
  metrics : Archive MetricPoint
  bulletin : Bulletin
  limits : Limits
  tally : Tally

/-- The newest matches of each kind, newest first. -/
structure QueryResult where
  spans : List Span
  logs : List LogEntry
  metrics : List MetricPoint

/-- How many matches there are. -/
def QueryResult.size (r : QueryResult) : Nat :=
  r.spans.length + r.logs.length + r.metrics.length

namespace Hub

/-- An empty hub around a bulletin. -/
def withBulletin (s : StorageSettings) (b : Bulletin) : Hub where
  spans := .empty s.traceCapacity.toNat
  logs := .empty s.logCapacity.toNat
  metrics := .empty s.metricCapacity.toNat
  bulletin := b
  limits := .make s.defaultLimit.toNat s.maxLimit.toNat
  tally := .empty

/-- An empty hub. -/
def empty (s : StorageSettings) : Hub := withBulletin s (.empty s.mailboxSize.toNat)

/-- Keeps a record in its archive. -/
def store (h : Hub) : Record → Hub
  | .span s => { h with spans := h.spans.add s.service s }
  | .log l => { h with logs := h.logs.add l.service l }
  | .metric p => { h with metrics := h.metrics.add p.service p }

/-- The position that the next record of a kind gets. -/
def position (h : Hub) : Signal → Nat
  | .traces => h.spans.window.next
  | .logs => h.logs.window.next
  | .metrics => h.metrics.window.next

/-- Whether the next record of a kind pushes out the oldest one. -/
def isFull (h : Hub) : Signal → Bool
  | .traces => h.spans.window.isFull
  | .logs => h.logs.window.isFull
  | .metrics => h.metrics.window.isFull

/-- The retention figures of a kind. -/
def stats (h : Hub) : Signal → Archive.Stats
  | .traces => h.spans.stats
  | .logs => h.logs.stats
  | .metrics => h.metrics.stats

/-- Announces a record of a kind. -/
def announce (h : Hub) (s : Signal) : Hub :=
  { h with bulletin := h.bulletin.accept s, tally := h.tally.addDropped h.bulletin.drops }

/-- Keeps a record, then announces it; yields its position. A subscriber that is pinged finds the
record in its archive. -/
def record (h : Hub) (r : Record) : Nat × Hub :=
  let s := r.signal
  let full := h.isFull s
  let kept := h.store r
  let counted := if full then { kept with tally := kept.tally.addEviction s } else kept
  let told := counted.announce s
  (h.position s, { told with tally := told.tally.addRecord s })

/-- Keeps records in order. -/
def recordAll (h : Hub) (rs : List Record) : Hub := rs.foldl (fun h r => (h.record r).2) h

/-- Counts a rejected query. -/
def reject (h : Hub) : Hub := { h with tally := h.tally.addRejected }

/-- Runs a search whose filter has been found valid, or counts its rejection. -/
def search {ρ : Type} (h : Hub) (f : Filter) (run : Nat → ρ) (note : Tally → Tally) :
    Except FilterError ρ × Hub :=
  match f.validate with
  | .error e => (.error e, h.reject)
  | .ok () => (.ok (run (h.limits.resolve f)), { h with tally := note h.tally })

/-- The newest matches in every archive. -/
def query (h : Hub) (f : Filter) : Except FilterError QueryResult × Hub :=
  h.search f
    (fun n => ⟨Search.scan h.spans f n, Search.scan h.logs f n, Search.scan h.metrics f n⟩)
    (fun t => Search.note h.metrics f (Search.note h.logs f (Search.note h.spans f t)))

/-- The newest matching spans. -/
def querySpans (h : Hub) (f : Filter) : Except FilterError (List Span) × Hub :=
  h.search f (Search.scan h.spans f) (Search.note h.spans f)

/-- The newest matching log entries. -/
def queryLogs (h : Hub) (f : Filter) : Except FilterError (List LogEntry) × Hub :=
  h.search f (Search.scan h.logs f) (Search.note h.logs f)

/-- The newest matching metric points. -/
def queryMetrics (h : Hub) (f : Filter) : Except FilterError (List MetricPoint) × Hub :=
  h.search f (Search.scan h.metrics f) (Search.note h.metrics f)

/-- The report on a trace. -/
def trace (h : Hub) (traceId : String) : Option TraceReport :=
  TraceReport.gather h.spans h.logs traceId

/-- The names of all services that ever sent a record, ascending. -/
def services (h : Hub) : List String :=
  mergeNames (mergeNames h.spans.services h.logs.services) h.metrics.services

/-- Publishes the number of subscribers. -/
def countSubscribers (h : Hub) : Hub :=
  { h with tally := h.tally.setSubscribers h.bulletin.count }

/-- Adds a subscriber; yields its number. -/
def subscribe (h : Hub) : Nat × Hub :=
  (h.bulletin.nextId, { h with bulletin := h.bulletin.subscribe }.countSubscribers)

/-- Whether the subscriber of that number has left. -/
def hasLeft (h : Hub) (id : Nat) : Bool :=
  match h.bulletin.box? id with
  | some m => !m.attached
  | none => true

/-- Ends a subscription, once. -/
def unsubscribe (h : Hub) (id : Nat) : Hub :=
  if h.hasLeft id then h
  else { h with bulletin := h.bulletin.unsubscribe id }.countSubscribers

/-- Ends a subscription and removes its mailbox. -/
def discard (h : Hub) (id : Nat) : Hub :=
  let h := h.unsubscribe id
  { h with bulletin := h.bulletin.discard id }

/-- Reads a ping, if there is one. -/
def readPing (h : Hub) (id : Nat) : Wait × Hub :=
  let (w, b) := h.bulletin.read id
  (w, { h with bulletin := b })

@[simp] theorem bulletin_store (h : Hub) (r : Record) : (h.store r).bulletin = h.bulletin := by
  cases r <;> rfl

theorem generation_record (h : Hub) (r : Record) :
    (h.record r).2.bulletin.generation = h.bulletin.generation + 1 := by
  simp only [record, announce]
  split <;> simp

end Hub

end SignalHub
