import SignalHub.Archive
import SignalHub.Filter
import SignalHub.Tally
/-!
# Searching archives

This is the query engine. A search reads an archive newest first and stops at a limit, so the limit
always keeps the newest matches. It does not read at all if the filter cannot match the kind of
record, or names a service that the archive has never seen.

Results:
* `Limits.resolve`: the limit of a search.
* `Search.scan`: the matches in one archive.
-/
namespace SignalHub

/-- Records that filters are about. -/
class Telemetry (α : Type) where
  signal : Signal
  service : α → String
  satisfies : Filter → α → Bool

instance : Telemetry Span := ⟨.traces, Span.service, Filter.matchesSpan⟩

instance : Telemetry LogEntry := ⟨.logs, LogEntry.service, Filter.matchesLog⟩

instance : Telemetry MetricPoint := ⟨.metrics, MetricPoint.service, Filter.matchesMetric⟩

/-- How many matches a search yields if the filter does not say, and how many at most. -/
structure Limits where
  standard : Nat
  most : Nat
  most_pos : 0 < most
  standard_pos : 0 < standard
  standard_le : standard ≤ most
  deriving DecidableEq, Repr

namespace Limits

/-- The nearest sensible limits: at least one match, and no more by default than at most. -/
def make (standard most : Nat) : Limits where
  standard := min (max standard 1) (max most 1)
  most := max most 1
  most_pos := Nat.le_max_right most 1
  standard_pos := Nat.lt_min.2 ⟨Nat.le_max_right standard 1, Nat.le_max_right most 1⟩
  standard_le := Nat.min_le_right _ _

instance : Inhabited Limits := ⟨make 1000 10000⟩

/-- The limit of a search. A limit that is no size counts as the largest. -/
def resolve (l : Limits) (f : Filter) : Nat :=
  match f.limit with
  | none => l.standard
  | some n => if n < 0 then l.most else min n.toInt.toNat l.most

end Limits

namespace Search

variable {α : Type} [Telemetry α]

/-- Whether a search with this filter reads the archive. -/
def reads (a : Archive α) (f : Filter) : Bool :=
  f.appliesTo (Telemetry.signal α) && f.service.all a.knows

/-- The newest matches in an archive, newest first, at most `limit` of them. -/
def scan (a : Archive α) (f : Filter) (limit : Nat) : List α :=
  if reads a f then a.window.newest limit (Telemetry.satisfies f) else []

/-- Counts the scan of an archive if there is one. -/
def note (a : Archive α) (f : Filter) (t : Tally) : Tally :=
  if reads a f then t.addScan (Telemetry.signal α) else t

end Search

end SignalHub
