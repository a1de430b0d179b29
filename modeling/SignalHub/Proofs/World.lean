import Mathlib.Data.List.Nodup
import SignalHub.Http.Service
import SignalHub.Proofs.Turn
/-!
# Everything that can happen at a hub

A world is a site together with the feeds that someone polls by hand. Events happen one at a time in
any order: records are accepted, feeds are attached, polled, paused, resumed and dropped, live
streams are opened, couriers take single turns, readers take deltas and go away, there are calls to
stop, and time passes.

A courier's turn is one event here: its strides from one check to the next, while no other task does
anything. So are a poll and a record. A runtime with one thread runs like this, as tasks give way to
each other only where they wait. With several threads other tasks may act between two strides, and
`SignalHub.Proofs.Concurrency` is about that.

Beside the state a world keeps a diary of each feed, and all records that were accepted. Nothing
depends on these.

Results:
* `World.step`, `World.run`: what events do.
-/
namespace SignalHub

/-- A site, the feeds that are polled by hand, and the past. -/
structure World where
  site : Site
  /-- The feeds that are polled by hand. -/
  feeds : List Feed
  /-- All records that were accepted, in this order. -/
  accepted : List Record
  /-- The diaries of the feeds by their numbers. -/
  diary : Nat → Diary

/-- Something that happens. Feeds are named by their numbers. -/
inductive Event where
  | record (r : Record)
  /-- A feed is attached, to be polled by hand. -/
  | attach (f : Filter) (backfill : PerSignal Nat)
  /-- A live stream is opened. -/
  | live (r : Http.LiveRequest)
  | poll (id : Nat)
  | pause (id : Nat)
  | resume (id : Nat)
  /-- A feed that is polled by hand is given up. -/
  | drop (id : Nat)
  /-- A feed that was polled by hand is run by a courier from now on. -/
  | launch (id capacity keepalive : Nat) (listener : Listener)
  /-- The courier of a feed takes a turn, and nothing else happens meanwhile. -/
  | turn (id : Nat)
  /-- The reader takes a delta out of the sink. -/
  | take (id : Nat)
  /-- The reader takes no more deltas than there are in the sink. -/
  | close (id : Nat)
  /-- The reader goes away. -/
  | leave (id : Nat)
  /-- All couriers are called to stop. -/
  | shutdown
  /-- Time passes. -/
  | advance (ms : Nat)

/-- Whether a turn from one state to the other was a look. -/
def Courier.looksInto (c c' : Courier) : Bool :=
  match c.phase with
  | .waiting => !c'.hasEnded
  | _ => false

namespace World

/-- Nothing has happened yet. -/
def start (storage : StorageSettings) (stream : StreamSettings) : World :=
  ⟨.start (.empty storage) stream, [], [], fun _ => .opened (.empty storage) (.uniform 0)⟩

/-- The hub. -/
def hub (w : World) : Hub := w.site.hub

/-- The time. -/
def now (w : World) : Nat := w.site.now

/-- The couriers. -/
def couriers (w : World) : List Courier := w.site.couriers

/-- The feed of that number, if it is polled by hand. -/
def feed? (w : World) (id : Nat) : Option Feed := w.feeds.find? (·.id == id)

/-- Changes the feed of that number, if it is polled by hand. -/
def modifyFeed (w : World) (id : Nat) (g : Feed → Feed) : World :=
  { w with feeds := w.feeds.map fun f => if f.id = id then g f else f }

/-- Replaces the diary of a feed. -/
def write (w : World) (id : Nat) (d : Diary) : World :=
  { w with diary := fun i => if i = id then d else w.diary i }

/-- What an event does. Nothing, if it is about a feed that is not there. -/
def step (w : World) : Event → World
  | .record r =>
    { w with site := w.site.withHub (w.hub.record r).2, accepted := w.accepted ++ [r] }
  | .attach f backfill =>
    match Feed.attach w.hub f backfill with
    | .error _ => w
    | .ok (feed, h) =>
      { w with site := w.site.withHub h, feeds := w.feeds ++ [feed] }.write feed.id
        (.opened w.hub backfill)
  | .live r =>
    match Http.openLive w.site r with
    | .error _ => w
    | .ok (_, site) =>
      { w with site := site }.write w.hub.bulletin.nextId (.opened w.hub (r.window w.site.stream))
  | .poll id =>
    match w.feed? id with
    | none => w
    | some f =>
      (w.modifyFeed id fun f => (f.poll w.hub).2).write id ((w.diary id).poll w.hub f).handOver
  | .pause id => { w.modifyFeed id Feed.pause with site := w.site.setPaused id true }
  | .resume id => { w.modifyFeed id Feed.resume with site := w.site.setPaused id false }
  | .drop id =>
    match w.feed? id with
    | none => w
    | some _ =>
      { w with
        site := w.site.withHub (w.hub.discard id)
        feeds := w.feeds.filter fun f => f.id ≠ id }
  | .launch id capacity keepalive listener =>
    match w.feed? id with
    | none => w
    | some f =>
      { w with
        site := w.site.launch f capacity keepalive listener false
        feeds := w.feeds.filter fun f => f.id ≠ id }
  | .turn id =>
    match w.site.courier? id with
    | none => w
    | some c =>
      match c.turn w.now w.hub with
      | none => w
      | some (h, c') =>
        { w with site := (w.site.withHub h).modifyCourier id fun _ => c' }.write id
          (if c.looksInto c' then (w.diary id).poll w.hub c.feed else w.diary id)
  | .take id =>
    match w.site.take id with
    | (.delta d, site) => { w with site := site }.write id ((w.diary id).take d)
    | (_, site) => { w with site := site }
  | .close id => { w with site := w.site.modifyCourier id Courier.close }
  | .leave id => { w with site := w.site.modifyCourier id Courier.abandon }
  | .shutdown => { w with site := w.site.shutdown.2 }
  | .advance ms => { w with site := w.site.advance ms }

/-- What events do, one after the other. -/
def run (w : World) (es : List Event) : World := es.foldl step w

/-- A line of a log. -/
def line : Record := .log ⟨0, "", "INFO", "", none, none, .empty⟩

/-- A live stream of everything that comes. -/
def everything : Http.LiveRequest :=
  ⟨none, none, none, none, none, none, none, false, some 0, false⟩

variable {w : World} {id i : Nat} {d : Diary}

@[simp] theorem diary_write_self (w : World) (id : Nat) (d : Diary) :
    (w.write id d).diary id = d := if_pos rfl

theorem diary_write_of_ne (h : i ≠ id) : (w.write id d).diary i = w.diary i := if_neg h

theorem run_cons (w : World) (e : Event) (es : List Event) :
    w.run (e :: es) = (w.step e).run es :=
  rfl

theorem run_append (w : World) (es es' : List Event) : w.run (es ++ es') = (w.run es).run es' :=
  List.foldl_append ..

theorem write_diary (w : World) (id : Nat) : w.write id (w.diary id) = w := by
  have hd : (fun i => if i = id then w.diary id else w.diary i) = w.diary := by
    funext i; split
    · rename_i h; rw [h]
    · rfl
  rw [write, hd]

end World

end SignalHub
