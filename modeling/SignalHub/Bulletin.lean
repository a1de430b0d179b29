import SignalHub.Signal
/-!
# The bulletin

The bulletin is the activity cache of the hub, with the registry of subscriptions. It counts
accepted records and pings every subscriber when there is one more. A ping carries nothing: a
subscriber looks up for itself what is new. So a subscriber whose mailbox, the channel of its pings,
already holds as many as it can misses nothing when another one is dropped.

A subscriber that has left keeps the pings it has not read yet.

Results:
* `Bulletin.accept`: counts a record and pings the subscribers.
* `Bulletin.subscribe`: a new subscriber with an empty mailbox.
-/
namespace SignalHub

/-- The mailbox of a subscriber: its end of a channel. -/
structure Mailbox where
  /-- Pings that have not been read. -/
  pending : Nat
  /-- Whether the owner still subscribes. -/
  attached : Bool
  deriving DecidableEq, Repr

/-- What waiting for a ping comes to. -/
inductive Wait where
  /-- There was one. -/
  | pinged
  /-- None will come any more. -/
  | over
  /-- None yet. -/
  | pending
  deriving DecidableEq, Repr

/-- The activity cache: counts of accepted records, and the subscribers. -/
structure Bulletin where
  /-- How many records of any kind were accepted. -/
  generation : Nat
  received : PerSignal Nat
  /-- Mailboxes by the owner's number, in ascending order. -/
  boxes : List (Nat × Mailbox)
  /-- The number that the next subscriber gets. -/
  nextId : Nat
  /-- How many unread pings a mailbox holds. -/
  boxSize : Nat
  deriving DecidableEq, Repr

namespace Bulletin

/-- Nothing accepted, nobody subscribed. A mailbox holds at least one ping. -/
def empty (boxSize : Nat) : Bulletin := ⟨0, .uniform 0, [], 1, max boxSize 1⟩

/-- The mailboxes of those who subscribe. -/
def subscribers (b : Bulletin) : List (Nat × Mailbox) := b.boxes.filter fun e => e.2.attached

/-- How many subscribe. -/
def count (b : Bulletin) : Nat := b.subscribers.length

/-- The mailbox of that number. -/
def box? (b : Bulletin) (id : Nat) : Option Mailbox := b.boxes.lookup id

/-- Changes the mailbox of that number. -/
def modifyBox (b : Bulletin) (id : Nat) (f : Mailbox → Mailbox) : Bulletin :=
  { b with boxes := b.boxes.map fun e => if e.1 = id then (e.1, f e.2) else e }

/-- Whether a ping would be dropped. -/
def isFull (b : Bulletin) (m : Mailbox) : Bool := m.attached && b.boxSize ≤ m.pending

/-- A mailbox after a ping has been sent. -/
def ping (b : Bulletin) (m : Mailbox) : Mailbox :=
  if m.attached && m.pending < b.boxSize then { m with pending := m.pending + 1 } else m

/-- How many pings would be dropped now. -/
def drops (b : Bulletin) : Nat := b.boxes.countP fun e => b.isFull e.2

/-- Counts a record and pings every subscriber. -/
def accept (b : Bulletin) (s : Signal) : Bulletin :=
  { b with
    generation := b.generation + 1
    received := b.received.modify s (· + 1)
    boxes := b.boxes.map fun e => (e.1, b.ping e.2) }

/-- Adds a subscriber with an empty mailbox. -/
def subscribe (b : Bulletin) : Bulletin :=
  { b with boxes := b.boxes ++ [(b.nextId, ⟨0, true⟩)], nextId := b.nextId + 1 }

/-- Ends a subscription. The mailbox keeps its pings. -/
def unsubscribe (b : Bulletin) (id : Nat) : Bulletin :=
  b.modifyBox id fun m => { m with attached := false }

/-- Removes a mailbox. -/
def discard (b : Bulletin) (id : Nat) : Bulletin :=
  { b with boxes := b.boxes.filter fun e => e.1 ≠ id }

/-- Reads a ping, if there is one. -/
def read (b : Bulletin) (id : Nat) : Wait × Bulletin :=
  match b.box? id with
  | none => (.over, b)
  | some m =>
    if m.pending = 0 then (if m.attached then .pending else .over, b)
    else (.pinged, b.modifyBox id fun m => { m with pending := m.pending - 1 })

@[simp] theorem generation_accept (b : Bulletin) (s : Signal) :
    (b.accept s).generation = b.generation + 1 := rfl

end Bulletin

end SignalHub
