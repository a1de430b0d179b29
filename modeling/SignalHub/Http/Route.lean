import SignalHub.Http.Matching
import SignalHub.Http.Message
import SignalHub.Settings.Basic
/-!
# Routes

Results:
* `Router.make`: the routes of the hub, unless the metrics endpoint does not fit in.
* `Router.find`: the route of a path.
-/
namespace SignalHub.Http

/-- What a route leads to. -/
inductive Endpoint where
  | health
  | getSpans
  | getLogs
  | getMetrics
  | postSpans
  | postLogs
  | postMetrics
  | query
  | trace
  | services
  | status
  | live
  | pause
  | resume
  | exposition
  deriving DecidableEq, Repr

/-- A method that a route is meant for; a route for reading serves `HEAD` as well. -/
inductive Verb where
  | read
  | write
  deriving DecidableEq, Repr

/-- The methods of a verb. -/
def Verb.label : Verb → String
  | .read => "GET,HEAD"
  | .write => "POST"

/-- A pattern and what it leads to. -/
structure Route where
  pattern : Pattern
  handlers : List (Verb × Endpoint)
  deriving DecidableEq, Repr

/-- The handler for a method. -/
def Route.handler? (r : Route) : Method → Option Endpoint
  | .get | .head => r.handlers.lookup .read
  | .post => r.handlers.lookup .write
  | .other => none

/-- The methods of a route. -/
def Route.allow (r : Route) : String := ",".intercalate (r.handlers.map fun h => h.1.label)

/-- The routes of a hub. -/
abbrev Router := List Route

namespace Router

/-- A literal path. -/
def literal (s : String) : Pattern := (Text.bytes s).map .literal

/-- A path under which there is a parameter, and more. -/
def under (s name more : String) : Pattern :=
  literal s ++ [.param (Text.bytes name)] ++ literal more

/-- The routes that every hub has. -/
def base : Router :=
  [⟨literal "/health", [(.read, .health)]⟩,
   ⟨literal "/api/v1/spans", [(.read, .getSpans), (.write, .postSpans)]⟩,
   ⟨literal "/api/v1/logs", [(.read, .getLogs), (.write, .postLogs)]⟩,
   ⟨literal "/api/v1/metrics", [(.read, .getMetrics), (.write, .postMetrics)]⟩,
   ⟨literal "/api/v1/query", [(.read, .query)]⟩,
   ⟨under "/api/v1/traces/" "trace_id" "", [(.read, .trace)]⟩,
   ⟨literal "/api/v1/services", [(.read, .services)]⟩,
   ⟨literal "/api/v1/status", [(.read, .status)]⟩,
   ⟨literal "/api/v1/live", [(.read, .live)]⟩,
   ⟨under "/api/v1/live/" "subscriber_id" "/pause", [(.write, .pause)]⟩,
   ⟨under "/api/v1/live/" "subscriber_id" "/resume", [(.write, .resume)]⟩]

/-- Adds the handler of the exposition under a pattern. -/
def mount (pattern : Pattern) : Router → Except PatternError Router
  | [] => .ok [⟨pattern, [(.read, .exposition)]⟩]
  | r :: rest =>
    if r.pattern = pattern then
      if (r.handlers.lookup .read).isSome then .error .taken
      else .ok ({ r with handlers := r.handlers ++ [(.read, .exposition)] } :: rest)
    else if r.pattern.conflicts pattern then .error .conflict
    else (mount pattern rest).map (r :: ·)

/-- The routes of a hub, unless the metrics endpoint does not fit in. -/
def make (m : MetricsSettings) : Except PatternError Router :=
  if m.enabled then do
    let pattern ← Pattern.parse m.endpoint
    mount pattern base
  else .ok base

/-- The route of a path, and the values of its parameters. -/
def find (router : Router) (path : List UInt8) : Option (Route × List (List UInt8)) :=
  Branch.match? (router.map fun r => ⟨r.pattern, r⟩) path

end Router

end SignalHub.Http
