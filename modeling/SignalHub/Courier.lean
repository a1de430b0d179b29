import SignalHub.Feed
/-!
# Couriers

A courier is the task that runs a live feed by itself: it waits until something happens, looks, and
puts the delta into a sink, a channel of bounded size. While the sink is full it waits with the
delta in hand and listens to nothing but the sink being closed.

It does so in strides, and between any two of them other tasks may do something. A check asks one
question after the other, and the first one that is answered yes ends it: whether there was a call
to stop, whether the sink was closed, whether the feed was resumed, whether there is a ping, whether
a keepalive tick is due. The first tick is due at once. After the last three comes a look: whether
the feed is paused, and if not, for each signal the head of its archive and then the records.

`Courier.turn` is what the strides from the beginning of a check come to while nothing else happens.
It yields nothing when the courier has to wait.

Results:
* `Courier.stride`: one stride.
* `Courier.turn`: the strides from one check to the next.
* `Courier.settle`: turns until the courier waits.
* `Courier.take`: takes a delta out of the sink.
-/
namespace SignalHub

/-- What a courier hears of calls to stop, which are shutdown messages on a broadcast channel. -/
inductive Listener where
  /-- Nothing so far. -/
  | listening
  /-- There was a call that it has not noticed. -/
  | called
  /-- Nobody is left to call; it has not noticed. -/
  | abandoned
  /-- It noticed that nobody is left to call. -/
  | deaf
  deriving DecidableEq, Repr

/-- A queue of deltas between a courier and whoever takes them. -/
structure Sink where
  capacity : Nat
  /-- Oldest first. -/
  queue : List Delta
  /-- Whether someone still takes deltas. -/
  isOpen : Bool

/-- What a courier is doing. -/
inductive Phase where
  /-- Waiting for something to happen. -/
  | waiting
  /-- Waiting for room in the sink. -/
  | holding (d : Delta)
  /-- It has ended. -/
  | ended

/-- How far a courier has come with a check or a look. -/
inductive Stage where
  /-- It is to begin a check. -/
  | fresh
  /-- There was no call to stop. -/
  | uncalled
  /-- Nor was the sink closed. -/
  | unclosed
  /-- Nor was the feed resumed. -/
  | unresumed
  /-- Nor was there a ping. -/
  | unpinged
  /-- Something has happened, and it is to look. -/
  | roused
  /-- The feed was not paused. -/
  | unpaused
  /-- It is to read the head of an archive, having put so much into the delta. -/
  | atHead (s : Signal) (d : Delta)
  /-- It is to read the records of an archive from a position up to the head that it has read. -/
  | atRange (s : Signal) (lo head : Nat) (d : Delta)
  /-- It waits until something happens, or for room in the sink. -/
  | asleep

/-- Whether a turn has begun and is not over. -/
def Stage.underWay : Stage → Bool
  | .fresh | .asleep => false
  | _ => true

/-- A feed that runs by itself. Times are milliseconds. -/
structure Courier where
  feed : Feed
  sink : Sink
  listener : Listener
  keepalive : Nat
  /-- When the next tick is due. -/
  due : Nat
  phase : Phase
  /-- Whether it serves a live stream, so that it can be paused by its number. -/
  isLive : Bool

namespace Courier

/-- A courier that begins now. -/
def start (feed : Feed) (capacity keepalive now : Nat) (listener : Listener) (isLive : Bool) :
    Courier :=
  ⟨feed, ⟨capacity, [], true⟩, listener, keepalive, now, .waiting, isLive⟩

/-- Whether the courier has ended. -/
def hasEnded (c : Courier) : Bool :=
  match c.phase with
  | .ended => true
  | _ => false

/-- How late a tick may be noticed and still count as on time. -/
def slack : Nat := 5

/-- When the tick after one that was due is due. A tick that was noticed late counts from when it
was noticed. -/
def nextDue (due now keepalive : Nat) : Nat :=
  if due + slack < now then now + keepalive else due + keepalive

/-- Ends the courier and its subscription. -/
def finish (h : Hub) (c : Courier) : Hub × Courier :=
  (h.discard c.feed.id, { c with phase := .ended })

/-- One stride of a courier at that stage. A courier whose ticks have no distance ends. -/
def stride (now : Nat) (h : Hub) (c : Courier) (g : Stage) : (Hub × Courier) × Stage :=
  match c.phase with
  | .ended => ((h, c), .asleep)
  | .holding d =>
    if !c.sink.isOpen then (c.finish h, .fresh)
    else if c.sink.queue.length < c.sink.capacity then
      ((h, { c with
        sink := { c.sink with queue := c.sink.queue ++ [d] }
        phase := .waiting }), .fresh)
    else ((h, c), .asleep)
  | .waiting =>
    match g with
    | .fresh | .asleep =>
      if c.keepalive = 0 then (c.finish h, .fresh)
      else
        match c.listener with
        | .called => (c.finish h, .fresh)
        | .abandoned => ((h, { c with listener := .deaf }), .roused)
        | _ => ((h, c), .uncalled)
    | .uncalled => if c.sink.isOpen then ((h, c), .unclosed) else (c.finish h, .fresh)
    | .unclosed =>
      if c.feed.resumed then ((h, { c with feed := { c.feed with resumed := false } }), .roused)
      else ((h, c), .unresumed)
    | .unresumed =>
      match h.readPing c.feed.id with
      | (.pinged, h) => ((h, c), .roused)
      | (.over, _) => (c.finish h, .fresh)
      | (.pending, _) => ((h, c), .unpinged)
    | .unpinged =>
      if c.due ≤ now then ((h, { c with due := nextDue c.due now c.keepalive }), .roused)
      else ((h, c), .asleep)
    | .roused => ((h, c), if c.feed.paused then .fresh else .unpaused)
    | .unpaused => ((h, c), .atHead .traces (.blank h.bulletin.generation))
    | .atHead s d =>
      ((h, { c with feed := c.feed.reach h s }),
        .atRange s (c.feed.cursor.get s) (h.position s) d)
    | .atRange s lo head d =>
      let d := c.feed.gather h lo head d s
      match s with
      | .traces => ((h, c), .atHead .logs d)
      | .logs => ((h, c), .atHead .metrics d)
      | .metrics => ((h, if d.isEmpty then c else { c with phase := .holding d }), .fresh)

/-- Strides until a turn is over, at most so many. -/
def strides (now : Nat) : Nat → Hub → Courier → Stage → (Hub × Courier) × Stage
  | 0, h, c, g => ((h, c), g)
  | n + 1, h, c, g =>
    let (p, g) := c.stride now h g
    if g.underWay then strides now n p.1 p.2 g else (p, g)

/-- How many strides a turn takes: five questions, two before a look, and two for each signal. -/
def longestTurn : Nat := 13

/-- One turn, unless the courier has to wait. -/
def turn (now : Nat) (h : Hub) (c : Courier) : Option (Hub × Courier) :=
  match c.strides now longestTurn h .fresh with
  | (_, .asleep) => none
  | (p, _) => some p

/-- How many pings a subscriber has not read. -/
def unread (h : Hub) (c : Courier) : Nat :=
  match h.bulletin.box? c.feed.id with
  | some m => m.pending
  | none => 0

/-- A bound on the turns that a courier can take before it waits. -/
def weight (now : Nat) (h : Hub) (c : Courier) : Nat :=
  2 * (unread h c + (if c.feed.resumed then 1 else 0) + (now + 1 - c.due) +
    (if c.listener = .abandoned then 1 else 0) + 1) +
  match c.phase with
  | .holding _ => 1
  | _ => 0

/-- At most so many turns. -/
def turns (now : Nat) : Nat → Hub × Courier → Hub × Courier
  | 0, s => s
  | n + 1, (h, c) =>
    match turn now h c with
    | some s => turns now n s
    | none => (h, c)

/-- Turns until the courier waits. -/
def settle (now : Nat) (h : Hub) (c : Courier) : Hub × Courier := turns now (weight now h c) (h, c)

/-- A call to stop, for those who can hear it. -/
def call (c : Courier) : Courier :=
  if c.listener = .listening then { c with listener := .called } else c

/-- Whether the courier can hear calls to stop. -/
def hears (c : Courier) : Bool :=
  !c.hasEnded && (c.listener == .listening || c.listener == .called)

/-- What taking a delta from a sink comes to. -/
inductive Taken where
  | delta (d : Delta)
  | empty
  | closed

/-- Takes the oldest delta. -/
def take (c : Courier) : Taken × Courier :=
  match c.sink.queue with
  | d :: rest => (.delta d, { c with sink := { c.sink with queue := rest } })
  | [] => (if c.hasEnded then .closed else .empty, c)

/-- Nobody takes deltas any more, but those in the sink can still be taken. -/
def close (c : Courier) : Courier := { c with sink := { c.sink with isOpen := false } }

/-- Nobody takes deltas any more, and those in the sink are lost. -/
def abandon (c : Courier) : Courier :=
  { c with sink := { c.sink with queue := [], isOpen := false } }

end Courier

end SignalHub
