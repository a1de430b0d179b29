import SignalHub.Proofs.Invariant
/-!
# Feeds and limits

A filter may carry a limit on how many records are wanted. It counts for searches only: a world in
which the feeds have no limits goes through the same states.

Results:
* `Feed.poll_unlimited`, `Courier.turn_unlimited`: polls and turns do not depend on the limit.
* `World.run_unlimited`: nor does what happens in a run.
-/
namespace SignalHub

/-- The same conditions, without a limit. -/
def Filter.unlimited (f : Filter) : Filter := { f with limit := none }

namespace Feed

/-- The feed without a limit. -/
def unlimited (f : Feed) : Feed := { f with filter := f.filter.unlimited }

theorem look_unlimited (h : Hub) (f : Feed) : f.unlimited.look h = f.look h := rfl

theorem poll_unlimited (h : Hub) (f : Feed) :
    f.unlimited.poll h = ((f.poll h).1, (f.poll h).2.unlimited) := by
  unfold poll
  rw [look_unlimited, show f.unlimited.paused = f.paused from rfl]
  cases f.paused <;> rfl

end Feed

namespace Courier

variable {now : Nat} {h : Hub} {c : Courier}

/-- The courier of the feed without a limit. -/
def unlimited (c : Courier) : Courier := { c with feed := c.feed.unlimited }

theorem look_unlimited (h : Hub) (c : Courier) :
    c.unlimited.look h = ((c.look h).1, (c.look h).2.unlimited) := by
  simp only [look, unlimited, Feed.poll_unlimited]

theorem answer_unlimited :
    c.unlimited.answer now h = (c.answer now h).map fun p => (p.1, p.2.unlimited) := by
  have hlook := look_unlimited h { c with feed := { c.feed with resumed := false } }
  have hdue := look_unlimited h { c with due := nextDue c.due now c.keepalive }
  unfold answer
  rw [show c.unlimited.feed.resumed = c.feed.resumed from rfl,
    show c.unlimited.feed.id = c.feed.id from rfl, show c.unlimited.due = c.due from rfl]
  split
  · exact congrArg some hlook
  · split
    · exact congrArg some (look_unlimited _ c)
    · rfl
    · split
      · exact congrArg some hdue
      · rfl

theorem turn_unlimited :
    c.unlimited.turn now h = (c.turn now h).map fun p => (p.1, p.2.unlimited) := by
  have hdeaf := look_unlimited h { c with listener := .deaf }
  rw [turn_eq, turn_eq]
  rw [show c.unlimited.phase = c.phase from rfl, show c.unlimited.sink = c.sink from rfl,
    show c.unlimited.keepalive = c.keepalive from rfl,
    show c.unlimited.listener = c.listener from rfl]
  split
  · rfl
  · split
    · rfl
    · split <;> rfl
  · split
    · rfl
    · split
      · rfl
      · exact congrArg some hdeaf
      · split
        · rfl
        · exact answer_unlimited

end Courier

/-- The same, but a limit that is valid is left out. -/
def Event.unlimited : Event → Event
  | .attach f backfill =>
    match f.validate with
    | .ok () => .attach f.unlimited backfill
    | .error _ => .attach f backfill
  | e => e

namespace Site

/-- The site in which the feeds of all couriers have no limits. -/
def unlimited (s : Site) : Site := { s with couriers := s.couriers.map (·.unlimited) }

theorem courier?_unlimited (s : Site) (id : Nat) :
    s.unlimited.courier? id = (s.courier? id).map (·.unlimited) := List.find?_map ..

theorem modifyCourier_unlimited (s : Site) (id : Nat) {g k : Courier → Courier}
    (hg : ∀ c, (g c).unlimited = k c.unlimited) :
    (s.modifyCourier id g).unlimited = s.unlimited.modifyCourier id k := by
  have hmap : ∀ c : Courier, (if c.feed.id = id then g c else c).unlimited =
      if c.unlimited.feed.id = id then k c.unlimited else c.unlimited := by
    intro c
    rw [show c.unlimited.feed.id = c.feed.id from rfl]
    split
    · exact hg c
    · rfl
  simp only [modifyCourier, unlimited, List.map_map, Function.comp_def, hmap]

theorem launch_unlimited (s : Site) (f : Feed) (capacity keepalive : Nat) (l : Listener)
    (isLive : Bool) : (s.launch f capacity keepalive l isLive).unlimited =
      s.unlimited.launch f.unlimited capacity keepalive l isLive := by
  simp only [unlimited, launch, List.map_append, List.map_cons, List.map_nil]
  rfl

theorem shutdown_unlimited (s : Site) : s.shutdown.2.unlimited = s.unlimited.shutdown.2 := by
  have hcall : ∀ c : Courier, c.call.unlimited = c.unlimited.call := by
    intro c
    unfold Courier.call
    rw [show c.unlimited.listener = c.listener from rfl]
    split <;> rfl
  simp only [shutdown, unlimited, List.map_map, Function.comp_def, hcall]

theorem take_unlimited (s : Site) (id : Nat) :
    s.unlimited.take id = ((s.take id).1, (s.take id).2.unlimited) := by
  rw [take, courier?_unlimited, take]
  cases s.courier? id with
  | none => rfl
  | some c =>
    have hc : c.unlimited.take = (c.take.1, c.take.2.unlimited) := by
      unfold Courier.take
      rw [show c.unlimited.sink = c.sink from rfl]
      split <;> rfl
    simp only [Option.map_some, hc]
    exact congrArg _ (modifyCourier_unlimited s id (g := fun _ => c.take.2)
      (k := fun _ => c.take.2.unlimited) fun _ => rfl).symm

end Site

namespace World

/-- The world in which the feeds have no limits. -/
def unlimited (w : World) : World :=
  { w with site := w.site.unlimited, feeds := w.feeds.map (·.unlimited) }

theorem feed?_unlimited (w : World) (id : Nat) :
    w.unlimited.feed? id = (w.feed? id).map (·.unlimited) := List.find?_map ..

theorem modifyFeed_unlimited (w : World) (id : Nat) {g : Feed → Feed}
    (hg : ∀ f, (g f).unlimited = g f.unlimited) :
    (w.modifyFeed id g).unlimited = w.unlimited.modifyFeed id g := by
  have hmap : ∀ f : Feed, (if f.id = id then g f else f).unlimited =
      if f.unlimited.id = id then g f.unlimited else f.unlimited := by
    intro f
    rw [show f.unlimited.id = f.id from rfl]
    split
    · exact hg f
    · rfl
  simp only [modifyFeed, unlimited, List.map_map, Function.comp_def, hmap]

theorem filter_ne_unlimited (fs : List Feed) (id : Nat) :
    (fs.filter fun f => f.id ≠ id).map (·.unlimited) =
      (fs.map (·.unlimited)).filter fun f => f.id ≠ id := by
  rw [List.filter_map]; rfl

theorem poll_diary_unlimited (d : Diary) (h : Hub) (f : Feed) :
    d.poll h f.unlimited = d.poll h f := by
  simp only [Diary.poll, Feed.poll_unlimited]
  rfl

variable {w : World}

theorem attach_unlimited (f : Filter) (b : PerSignal Nat) :
    (w.step (.attach f b)).unlimited = w.unlimited.step (Event.attach f b).unlimited := by
  cases hv : f.validate with
  | error e =>
    simp only [Event.unlimited, step, Feed.attach, hv]
  | ok =>
    simp only [Event.unlimited, step, Feed.attach, hv]
    simp only [unlimited, write, List.map_append]
    rfl

theorem live_unlimited (r : Http.LiveRequest) :
    (w.step (.live r)).unlimited = w.unlimited.step (.live r) := by
  simp only [step, openLive_eq, unlimited, write, Site.launch_unlimited]
  rfl

theorem turn_unlimited (id : Nat) :
    (w.step (.turn id)).unlimited = w.unlimited.step (.turn id) := by
  simp only [step]
  rw [show w.unlimited.site = w.site.unlimited from rfl, Site.courier?_unlimited]
  cases w.site.courier? id with
  | none => rfl
  | some c =>
    simp only [Option.map_some]
    rw [show w.unlimited.now = w.now from rfl, show w.unlimited.hub = w.hub from rfl,
      Courier.turn_unlimited]
    cases ht : c.turn w.now w.hub with
    | none => rfl
    | some p =>
      simp only [Option.map_some, unlimited, write]
      rw [Site.modifyCourier_unlimited _ id (g := fun _ => p.2) (k := fun _ => p.2.unlimited)
          fun _ => rfl,
        show c.unlimited.feed = c.feed.unlimited from rfl, poll_diary_unlimited]
      rfl

theorem step_unlimited (w : World) (e : Event) :
    (w.step e).unlimited = w.unlimited.step e.unlimited := by
  cases e with
  | attach f b => exact attach_unlimited f b
  | live r => exact live_unlimited r
  | turn id => exact turn_unlimited id
  | record r => rfl
  | advance ms => rfl
  | poll id =>
    simp only [step, Event.unlimited, feed?_unlimited]
    cases w.feed? id with
    | none => rfl
    | some f =>
      have hmod := modifyFeed_unlimited w id (g := fun f => (f.poll w.hub).2)
        fun f => by rw [Feed.poll_unlimited]
      simp only [Option.map_some, poll_diary_unlimited]
      exact congrArg (fun w' : World => w'.write id ((w.diary id).poll w.hub f).handOver) hmod
  | pause id =>
    have hsite := w.site.modifyCourier_unlimited id (g := fun c => { c with feed := c.feed.pause })
      (k := fun c => { c with feed := c.feed.pause }) fun _ => rfl
    exact congrArg₂ (fun (w' : World) s => { w' with site := s })
      (modifyFeed_unlimited w id (g := Feed.pause) fun _ => rfl) hsite
  | resume id =>
    have hsite := w.site.modifyCourier_unlimited id (g := fun c => { c with feed := c.feed.resume })
      (k := fun c => { c with feed := c.feed.resume }) fun _ => rfl
    exact congrArg₂ (fun (w' : World) s => { w' with site := s })
      (modifyFeed_unlimited w id (g := Feed.resume) fun _ => rfl) hsite
  | drop id =>
    simp only [step, Event.unlimited, feed?_unlimited]
    cases w.feed? id with
    | none => rfl
    | some f =>
      simp only [Option.map_some, unlimited, filter_ne_unlimited]
      rfl
  | launch id capacity keepalive l =>
    simp only [step, Event.unlimited, feed?_unlimited]
    cases w.feed? id with
    | none => rfl
    | some f => simp only [Option.map_some, unlimited, filter_ne_unlimited, Site.launch_unlimited]
  | take id =>
    simp only [step, Event.unlimited]
    rw [show w.unlimited.site = w.site.unlimited from rfl, Site.take_unlimited]
    obtain ⟨t, site⟩ := w.site.take id
    cases t <;> rfl
  | close id =>
    exact congrArg (fun s => { w.unlimited with site := s })
      (w.site.modifyCourier_unlimited id (g := Courier.close) (k := Courier.close) fun _ => rfl)
  | leave id =>
    exact congrArg (fun s => { w.unlimited with site := s })
      (w.site.modifyCourier_unlimited id (g := Courier.abandon) (k := Courier.abandon) fun _ => rfl)
  | shutdown =>
    exact congrArg (fun s => { w.unlimited with site := s }) w.site.shutdown_unlimited

/-- A run goes the same way without limits. -/
theorem run_unlimited (es : List Event) (w : World) :
    (w.run es).unlimited = w.unlimited.run (es.map (·.unlimited)) := by
  induction es generalizing w with
  | nil => rfl
  | cons e es ih => rw [run_cons, ih, step_unlimited, List.map_cons, run_cons]

end World

end SignalHub
