import SignalHub.Hub
/-!
# Live feeds

A feed reads, for each signal, the records from its cursor up to the head of the archive, and moves
the cursor to the head. It starts some records behind the head. While it is paused its cursors
stand still, so the first look after resuming finds all that is still retained.

A look at one archive first reads its head and then the records below it. What is appended in
between is left for the next look.

Results:
* `Feed.attach`: a new feed.
* `Feed.reach`, `Feed.gather`: the two parts of a look at one archive.
* `Feed.poll`: the next delta.
* `Feed.poll_paused`: a paused feed sees nothing and stays where it is.
* `Feed.cursor_poll`: a look takes every cursor to its head.
-/
namespace SignalHub

/-- The records that one look at the archives yields, oldest first. -/
structure Delta where
  /-- How many records had been accepted when the feed looked. -/
  generation : Nat
  spans : List Span
  logs : List LogEntry
  metrics : List MetricPoint

namespace Delta

/-- How many records there are. -/
def size (d : Delta) : Nat := d.spans.length + d.logs.length + d.metrics.length

/-- Whether there are no records. -/
def isEmpty (d : Delta) : Bool := d.size == 0

/-- A delta that nothing has been put into yet. -/
def blank (generation : Nat) : Delta := ⟨generation, [], [], []⟩

end Delta

/-- A live feed. -/
structure Feed where
  /-- Its number as a subscriber. -/
  id : Nat
  filter : Filter
  /-- The next position to read, for each signal. -/
  cursor : PerSignal Nat
  paused : Bool
  /-- Whether it was resumed since a running feed last took notice. -/
  resumed : Bool
  deriving DecidableEq

namespace Feed

/-- A position so many records behind another one. -/
def behind (head back : Nat) : Nat := head - back

/-- The cursor of a feed that starts so many records behind each head. -/
def startCursor (h : Hub) (backfill : PerSignal Nat) : PerSignal Nat where
  traces := behind (h.position .traces) backfill.traces
  logs := behind (h.position .logs) backfill.logs
  metrics := behind (h.position .metrics) backfill.metrics

/-- Attaches a feed to the hub. An invalid filter changes nothing. -/
def attach (h : Hub) (f : Filter) (backfill : PerSignal Nat) : Except FilterError (Feed × Hub) :=
  match f.validate with
  | .error e => .error e
  | .ok () =>
    let (id, h) := h.subscribe
    .ok (⟨id, f, startCursor h backfill, false, false⟩, h)

/-- Stops the feed where it stands. -/
def pause (f : Feed) : Feed := { f with paused := true }

/-- Lets the feed go on. -/
def resume (f : Feed) : Feed := { f with paused := false, resumed := true }

/-- The matching records of an archive from a position up to a head that was read before. -/
def fetch {α : Type} [Telemetry α] (a : Archive α) (f : Filter) (lo head : Nat) : List α :=
  if head ≤ lo ∨ ¬ f.appliesTo (Telemetry.signal α) then []
  else a.window.rangeWhere lo (head - 1) (Telemetry.satisfies f)

/-- The matching records from a cursor up to the head of an archive. -/
def unread {α : Type} [Telemetry α] (a : Archive α) (f : Filter) (cursor : Nat) : List α :=
  fetch a f cursor a.window.next

/-- A cursor after a look at an archive with that head. -/
def advanced (cursor head : Nat) : Nat := max cursor head

/-- Reads the head of an archive and moves the cursor there. -/
def reach (h : Hub) (s : Signal) (f : Feed) : Feed :=
  { f with cursor := f.cursor.set s (advanced (f.cursor.get s) (h.position s)) }

/-- Puts the matching records of a signal into a delta, from a position up to a head. -/
def gather (h : Hub) (f : Feed) (lo head : Nat) (d : Delta) : Signal → Delta
  | .traces => { d with spans := fetch h.spans f.filter lo head }
  | .logs => { d with logs := fetch h.logs f.filter lo head }
  | .metrics => { d with metrics := fetch h.metrics f.filter lo head }

/-- What a feed that is not paused sees now. -/
def look (h : Hub) (f : Feed) : Delta where
  generation := h.bulletin.generation
  spans := unread h.spans f.filter f.cursor.traces
  logs := unread h.logs f.filter f.cursor.logs
  metrics := unread h.metrics f.filter f.cursor.metrics

/-- The feed with its cursors at the heads. -/
def atHead (h : Hub) (f : Feed) : Feed :=
  { f with
    cursor :=
      { traces := advanced f.cursor.traces (h.position .traces)
        logs := advanced f.cursor.logs (h.position .logs)
        metrics := advanced f.cursor.metrics (h.position .metrics) } }

/-- The next delta, if the feed is not paused and there is something to deliver. -/
def poll (h : Hub) (f : Feed) : Option Delta × Feed :=
  if f.paused then (none, f)
  else
    let d := look h f
    (if d.isEmpty then none else some d, atHead h f)

theorem poll_paused {h : Hub} {f : Feed} (hp : f.paused = true) : poll h f = (none, f) := by
  simp [poll, hp]

theorem cursor_poll {h : Hub} {f : Feed} (hp : f.paused = false) (s : Signal) :
    (poll h f).2.cursor.get s = max (f.cursor.get s) (h.position s) := by
  cases s <;> simp [poll, hp, atHead, advanced, PerSignal.get]

end Feed

end SignalHub
