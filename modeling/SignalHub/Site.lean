import SignalHub.Courier
/-!
# A hub at work

A site is the state of the application: a hub with the couriers that run its feeds, the registry of
live streams, and a clock. Nothing happens by itself: after every event the couriers take turns
until all of them wait. A courier changes nothing that another one waits for, so they are settled
one after the other.

Results:
* `Site.settle`: all couriers take turns until they wait.
* `Site.launch`, `Site.shutdown`, `Site.advance`: what happens to couriers.
* `Site.switch?`, `Site.setPaused`: pausing live streams by number.
-/
namespace SignalHub

/-- A hub, its couriers and its clock, in milliseconds. -/
structure Site where
  hub : Hub
  stream : StreamSettings
  now : Nat
  /-- In the order they were launched. -/
  couriers : List Courier

namespace Site

/-- A hub at which nothing has happened yet. -/
def start (hub : Hub) (stream : StreamSettings) : Site := ⟨hub, stream, 0, []⟩

/-- Settles couriers one after the other. -/
def settleAll (now : Nat) : Hub → List Courier → Hub × List Courier
  | h, [] => (h, [])
  | h, c :: rest =>
    let (h, c) := c.settle now h
    let (h, cs) := settleAll now h rest
    (h, c :: cs)

/-- All couriers take turns until they wait. -/
def settle (s : Site) : Site :=
  let (hub, couriers) := settleAll s.now s.hub s.couriers
  { s with hub := hub, couriers := couriers }

/-- The courier that runs the feed of that number. -/
def courier? (s : Site) (id : Nat) : Option Courier := s.couriers.find? (·.feed.id == id)

/-- Changes the courier that runs the feed of that number. -/
def modifyCourier (s : Site) (id : Nat) (f : Courier → Courier) : Site :=
  { s with couriers := s.couriers.map fun c => if c.feed.id = id then f c else c }

/-- Lets a feed run by itself. -/
def launch (s : Site) (feed : Feed) (capacity keepalive : Nat) (listener : Listener)
    (isLive : Bool) : Site :=
  { s with couriers :=
      s.couriers ++ [Courier.start feed capacity keepalive s.now listener isLive] }

/-- Calls on all couriers to stop; yields how many can hear it. -/
def shutdown (s : Site) : Nat × Site :=
  (s.couriers.countP (·.hears), { s with couriers := s.couriers.map (·.call) })

/-- Lets time pass. -/
def advance (s : Site) (ms : Nat) : Site := { s with now := s.now + ms }

/-- Takes the oldest delta out of a sink. -/
def take (s : Site) (id : Nat) : Courier.Taken × Site :=
  match s.courier? id with
  | some c =>
    let (t, c) := c.take
    (t, s.modifyCourier id fun _ => c)
  | none => (.closed, s)

/-- Whether the live stream of that number is there, and whether it is paused. -/
def switch? (s : Site) (id : Nat) : Option Bool :=
  (s.couriers.find? fun c => c.feed.id == id && c.isLive && !c.hasEnded).map (·.feed.paused)

/-- Whether no live stream is there. -/
def hasNoLive (s : Site) : Bool := s.couriers.all fun c => !c.isLive || c.hasEnded

/-- Pauses or resumes a feed that runs by itself. -/
def setPaused (s : Site) (id : Nat) (paused : Bool) : Site :=
  s.modifyCourier id fun c =>
    { c with feed := if paused then c.feed.pause else c.feed.resume }

/-- How long the hub has been up. -/
def uptimeSeconds (s : Site) : Nat := s.now / 1000

/-- Replaces the hub. -/
def withHub (s : Site) (h : Hub) : Site := { s with hub := h }

end Site

end SignalHub
