import SignalHub.CommandLine.Session
import SignalHub.Http.Transcript
import Std.Time.DateTime
/-!
# The command line program

Reads the arguments, the environment and the settings files, and does what the command line asks
for. A running hub takes one request per line from standard input and answers on standard output,
until the input ends.
-/
namespace SignalHub.Main

/-- The variables in the environment block of a process. -/
def variablesOf (block : String) : List (String × String) :=
  (block.splitOn "\x00").filterMap fun entry =>
    let cs := entry.toList
    let name := cs.takeWhile (· != '=')
    if name.isEmpty then none
    else some (String.ofList name, String.ofList (cs.drop (name.length + 1)))

/-- The content of a file, if it can be read. -/
def contentOf? (path : String) : IO (Option String) := do
  try
    let bytes ← IO.FS.readBinFile path
    pure (some (Text.lossy bytes.data.toList))
  catch _ => pure none

/-- The files that a settings path may mean. -/
def filesFor (path : String) : IO (List (String × String)) :=
  (path :: (alternatives path).map (·.1)).filterMapM fun p => do
    pure ((← contentOf? p).map fun content => (p, content))

/-- What surrounds a command line. -/
def surroundings (args : List String) : IO CommandLine.Surroundings := do
  let block ← contentOf? "/proc/self/environ"
  let files ← match CommandLine.parseArguments args with
    | .run _ path => filesFor path
    | _ => pure []
  pure { directory := ⟨files⟩, vars := variablesOf (block.getD "") }

/-- The time since 1970, in nanoseconds. -/
def receivedAt : IO UInt64 := do
  let t ← Std.Time.Timestamp.now
  pure (UInt64.ofNat t.toNanosecondsSinceUnixEpoch.val.toNat)

/-- Prints the events that are ready on a stream. -/
def printEvents (site : Site) (s : Http.EventStream) : IO (Http.EventStream × Site) := do
  let (events, s, site) := s.read none site
  for e in events do
    IO.print e.written
  pure (s, site)

/-- Prints the events that are ready on all streams. -/
def printAll (site : Site) : List Http.EventStream → IO (List Http.EventStream × Site)
  | [] => pure ([], site)
  | s :: rest => do
    let (s, site) ← printEvents site s
    let (rest, site) ← printAll site rest
    pure (if s.hasEnded then rest else s :: rest, site)

/-- Answers requests until the input ends. -/
partial def answerLines (input : IO.FS.Stream) (started : Nat) (router : Http.Router) (site : Site)
    (streams : List Http.EventStream) : IO Unit := do
  let line ← input.getLine
  let now ← IO.monoMsNow
  let site := (site.advance (now - started - site.now)).settle
  if line.isEmpty then
    discard (printAll site.shutdown.2.settle streams)
  else
    match Http.Request.ofLine? line with
    | none => answerLines input started router site streams
    | some r => do
      let (answer, site) := Http.serve router (← receivedAt) site r
      IO.print answer.written
      let streams := match answer.body with
        | .events n paused => streams ++ [Http.EventStream.opened n paused]
        | _ => streams
      let (streams, site) ← printAll site.settle streams
      (← IO.getStdout).flush
      answerLines input started router site streams

/-- Runs a hub. -/
def runHub (s : Settings) (router : Http.Router) : IO Unit := do
  let tally ← if s.metrics.enabled then IO.ofExcept (Tally.install none) else pure .empty
  let hub := { Hub.empty s.storage with tally := tally }
  answerLines (← IO.getStdin) (← IO.monoMsNow) router (.start hub s.stream) []

end SignalHub.Main

/-- Does what the command line asks for. -/
def main (args : List String) : IO UInt32 := do
  match SignalHub.CommandLine.perform (← SignalHub.Main.surroundings args) args with
  | .exit code out err => do
    IO.print out
    IO.eprint err
    pure (UInt32.ofNat code)
  | .serving s router _ out => do
    IO.print out
    SignalHub.Main.runHub s router
    pure 0
