/-!
# Signals

The hub keeps three kinds of telemetry apart: spans of traces, log entries and metric points.

Results:
* `Signal.label`: the name of a signal.
* `PerSignal`: one value for each signal, with `get` and `set`.
-/
namespace SignalHub

/-- A kind of telemetry. -/
inductive Signal where
  | traces
  | logs
  | metrics
  deriving DecidableEq, Repr

/-- The name of a signal. -/
def Signal.label : Signal → String
  | .traces => "traces"
  | .logs => "logs"
  | .metrics => "metrics"

/-- All signals under their names. -/
def Signal.all : List (String × Signal) :=
  [("traces", .traces), ("logs", .logs), ("metrics", .metrics)]

/-- One value for each signal. -/
structure PerSignal (α : Type) where
  traces : α
  logs : α
  metrics : α
  deriving DecidableEq, Repr

namespace PerSignal

variable {α : Type}

/-- The same value for each signal. -/
def uniform (a : α) : PerSignal α := ⟨a, a, a⟩

/-- The value of one signal. -/
def get (p : PerSignal α) : Signal → α
  | .traces => p.traces
  | .logs => p.logs
  | .metrics => p.metrics

/-- Replaces the value of one signal. -/
def set (p : PerSignal α) (s : Signal) (a : α) : PerSignal α :=
  match s with
  | .traces => { p with traces := a }
  | .logs => { p with logs := a }
  | .metrics => { p with metrics := a }

/-- Changes the value of one signal. -/
def modify (p : PerSignal α) (s : Signal) (f : α → α) : PerSignal α := p.set s (f (p.get s))

@[simp] theorem get_set (p : PerSignal α) (s t : Signal) (a : α) :
    (p.set s a).get t = if t = s then a else p.get t := by
  cases s <;> cases t <;> rfl

end PerSignal

end SignalHub
