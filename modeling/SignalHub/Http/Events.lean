import SignalHub.Http.Service
/-!
# Live streams as events

A live stream begins with an event that names its feed, followed by an event for each delta. The
stream ends when its courier has ended and all deltas have been taken.

Results:
* `EventStream.next`: the next event.
-/
namespace SignalHub.Http

/-- An event of a live stream. -/
structure Event where
  name : String
  data : Json
  id : Option String

/-- The reading end of a live stream. -/
structure EventStream where
  subscriber : Nat
  /-- Whether the feed was attached paused, as long as this has not been told. -/
  greeting : Option Bool
  /-- Whether the end has been seen. -/
  hasEnded : Bool
  deriving DecidableEq, Repr

/-- What reading from a stream comes to. -/
inductive Next where
  | event (e : Event)
  /-- Nothing yet. -/
  | pending
  | over

namespace EventStream

/-- The reading end of the stream of a feed that was attached paused or not. -/
def opened (subscriber : Nat) (paused : Bool) : EventStream := ⟨subscriber, some paused, false⟩

/-- The event of a delta; its id is the delta's generation. -/
def deltaEvent (d : Delta) : Event := ⟨"delta", d.toJson, some (toString d.generation)⟩

/-- Reads the next event. -/
def next (site : Site) (s : EventStream) : Next × EventStream × Site :=
  match s.greeting with
  | some paused =>
    (.event ⟨"attached", feedJson s.subscriber paused, none⟩, { s with greeting := none }, site)
  | none =>
    match site.take s.subscriber with
    | (.delta d, site) => (.event (deltaEvent d), s, site)
    | (.empty, site) => (.pending, s, site)
    | (.closed, site) => (.over, { s with hasEnded := true }, site)

/-- How many events can be ready at most, the end of the stream not counted. -/
def readyBound (site : Site) (s : EventStream) : Nat :=
  match site.courier? s.subscriber with
  | some c => c.sink.queue.length + Courier.weight site.now site.hub c + 2
  | none => 2

/-- Reads events until none is ready, at most `n` of them; couriers take turns before each. -/
def readUpTo : Nat → Site → EventStream → List Event × EventStream × Site
  | 0, site, s => ([], s, site)
  | n + 1, site, s =>
    match next site.settle s with
    | (.event e, s, site) =>
      let (es, s, site) := readUpTo n site s
      (e :: es, s, site)
    | (_, s, site) => ([], s, site)

/-- Reads events until none is ready, at most `limit` of them if a limit is given. -/
def read (limit : Option Nat) (site : Site) (s : EventStream) : List Event × EventStream × Site :=
  let bound := readyBound site s
  readUpTo (match limit with
    | some n => min n bound
    | none => bound) site s

end EventStream

end SignalHub.Http
