import SignalHub.Signal
import SignalHub.Version
import SignalHub.Decimal.Shortest
import SignalHub.Text.Order
/-!
# The hub's own metrics

A tally is the recorder of the hub's own metrics. It is published as a text of one sample per line,
each metric announced by a line with its type, and by a line with its description once the
descriptions are installed. A counter appears once it has been raised, a gauge once it has been set.

Results:
* `Tally.install`: sets up the one tally that a process publishes.
* `Tally.exposition`: the published lines, sorted.
-/
namespace SignalHub

/-- Counts of what the hub does. -/
structure Tally where
  /-- Whether descriptions are published, and the version with them. -/
  described : Bool
  records : PerSignal Nat
  evictions : PerSignal Nat
  /-- Scans of an archive on behalf of a query. -/
  scans : PerSignal Nat
  /-- Pings that found a full mailbox. -/
  droppedPings : Nat
  rejectedQueries : Nat
  subscribers : Option Nat
  deriving DecidableEq, Repr

namespace Tally

/-- Nothing has been counted. -/
def empty : Tally := ⟨false, .uniform 0, .uniform 0, .uniform 0, 0, 0, none⟩

instance : Inhabited Tally := ⟨empty⟩

/-- Descriptions installed. -/
def describe (t : Tally) : Tally := { t with described := true }

/-- Sets up the tally that a process publishes, with descriptions, unless it has one. -/
def install : Option Tally → Except String Tally
  | none => .ok empty.describe
  | some _ => .error "Failed to install Prometheus recorder"

/-- One more record. -/
def addRecord (t : Tally) (s : Signal) : Tally := { t with records := t.records.modify s (· + 1) }

/-- One more eviction. -/
def addEviction (t : Tally) (s : Signal) : Tally :=
  { t with evictions := t.evictions.modify s (· + 1) }

/-- One more scan. -/
def addScan (t : Tally) (s : Signal) : Tally := { t with scans := t.scans.modify s (· + 1) }

/-- More dropped pings. -/
def addDropped (t : Tally) (n : Nat) : Tally := { t with droppedPings := t.droppedPings + n }

/-- One more rejected query. -/
def addRejected (t : Tally) : Tally := { t with rejectedQueries := t.rejectedQueries + 1 }

/-- The number of subscribers. -/
def setSubscribers (t : Tally) (n : Nat) : Tally := { t with subscribers := some n }

/-- A sample of a metric: its label in braces, if any, and its value. -/
abbrev Sample := String × String

/-- A published metric. -/
structure Metric where
  name : String
  type : String
  description : String
  samples : List Sample

/-- A label with its value, in braces. -/
def labelled (label value : String) : String :=
  "\x7b" ++ label ++ "=\"" ++ value ++ "\"\x7d"

/-- The samples of counters that have been raised, one for each signal. -/
def signalSamples (suffix : String) (counts : PerSignal Nat) : List Sample :=
  [Signal.traces, .logs, .metrics].filterMap fun s =>
    if counts.get s = 0 then none
    else some (suffix ++ labelled "kind" s.label, toString (counts.get s))

/-- The sample of a counter that has been raised. -/
def counterSample (count : Nat) : List Sample :=
  if count = 0 then [] else [("", toString count)]

/-- All metrics with the samples they have. -/
def metrics (t : Tally) : List Metric :=
  [⟨"telemetry_records_total", "counter", "Total number of telemetry records accepted",
     signalSamples "" t.records⟩,
   ⟨"telemetry_evictions_total", "counter",
     "Total number of records evicted from full ring buffers", signalSamples "" t.evictions⟩,
   ⟨"telemetry_notifications_dropped_total", "counter",
     "Change notifications collapsed into an already pending one",
     counterSample t.droppedPings⟩,
   ⟨"telemetry_query_errors_total", "counter", "Total number of rejected queries",
     counterSample t.rejectedQueries⟩,
   ⟨"telemetry_subscribers", "gauge", "Number of live subscriptions",
     match t.subscribers with
     | some n => [("", Decimal.positional (Float.ofNat n))]
     | none => []⟩,
   ⟨"telemetry_query_duration_seconds", "summary", "Query scan duration in seconds",
     signalSamples "_count" t.scans⟩,
   ⟨"telemetry_hub_info", "gauge", "Telemetry hub version and build information",
     if t.described then [(labelled "version" version, "1")] else []⟩]

/-- The lines of one metric. -/
def Metric.lines (described : Bool) (m : Metric) : List String :=
  if m.samples.isEmpty then []
  else
    (if described then ["# HELP " ++ m.name ++ " " ++ m.description] else []) ++
      ("# TYPE " ++ m.name ++ " " ++ m.type) ::
        m.samples.map fun (label, value) => m.name ++ label ++ " " ++ value

/-- The published lines, sorted. -/
def exposition (t : Tally) : List String :=
  (t.metrics.flatMap (Metric.lines t.described)).mergeSort fun a b => !Text.precedes b a

end Tally

end SignalHub
