import SignalHub.Http.Events
import SignalHub.Proofs.Lives
import SignalHub.Proofs.Settling
import SignalHub.Proofs.Stamps
/-!
# What readers receive

A reader gets the deltas of a feed one after the other and leaves none out: what it has taken are
the first of them. So the events that it reads from a live stream bear the numbers of its deltas,
which become larger and larger.

Results:
* `Courier.Serves`: what was taken and what is in the sink are the first deltas of a feed.
* `World.Serves.step`, `Scene.serves_run`: it stays so.
* `World.exists_read`: reading from a stream is letting couriers take turns and taking deltas.
* `Scene.deltas_stamped`: the numbers of deltas, and those that readers see.
-/
namespace SignalHub

/-! ## Couriers -/

namespace Courier

variable {now : Nat} {h : Hub} {rs : List Record} {o : Occurrence} {e : Event} {c c' : Courier}
  {d d' : Diary}

/-- What was taken, and after that what is in the sink, are the first deltas of the feed. -/
def Serves (c : Courier) (d : Diary) : Prop := d.taken ++ c.sink.queue <+: d.deltas

theorem Serves.taken (hs : c.Serves d) : d.taken <+: d.deltas :=
  (List.prefix_append _ _).trans hs

theorem Serves.poll (hs : c.Serves d) (h : Hub) (f : Feed) (hq : c'.sink.queue = c.sink.queue) :
    c'.Serves (d.poll h f) := by
  rw [Serves, Diary.taken_poll, Diary.deltas_poll, hq]
  exact hs.trans (List.prefix_append _ _)

/-- Whatever is done to a courier, it goes on with the next delta. -/
theorem Undergoes.serves (hu : c.Undergoes o d c' d') (hs : c.Serves d) : c'.Serves d' := by
  cases hu with
  | stays | pauses | resumes | closes => exact hs
  | @takes _ delta rest hq =>
    rw [Serves, hq] at hs
    simpa [Serves, Diary.take] using hs
  | leaves =>
    show d.taken ++ [] <+: d.deltas
    rw [List.append_nil]
    exact hs.taken
  | hears =>
    have hsink : c.call.sink = c.sink := by unfold call; split <;> rfl
    rw [Serves, hsink]
    exact hs
  | hushes =>
    have hsink : c.forsake.sink = c.sink := by unfold forsake; split <;> rfl
    rw [Serves, hsink]
    exact hs

/-- The same holds of what it does itself. -/
theorem Lives.serves (hl : c.Lives now h e d c' d') (hc : c.Sound now h rs d) (hs : c.Serves d) :
    c'.Serves d' := by
  cases hl with
  | undergoes hu => exact hu.serves hs
  | turns ht =>
    cases ht with
    | ends =>
      split
      · exact hs.poll h c.feed rfl
      · exact hs
    | @puts delta hp ho =>
      -- What it puts into the sink is the last delta of the feed, and was in hand.
      have hqueued := hc.queued ho
      rw [inHand, hp, List.append_assoc] at hqueued
      rw [if_neg (by simp [looksInto, hp])]
      show d.taken ++ (c.sink.queue ++ [delta]) <+: d.deltas
      rw [hqueued]
    | looks hp =>
      rw [if_pos (by simp [looksInto, hp, hasEnded_looked])]
      exact hs.poll h c.feed rfl

end Courier

/-! ## Worlds -/

namespace World

variable {w w' : World} {i id : Nat} {d : Diary}

/-- Nobody has taken anything but the first deltas of a feed, and what couriers have in their sinks
comes next. -/
structure Serves (w : World) : Prop where
  taken : ∀ i, (w.diary i).taken <+: (w.diary i).deltas
  queued : ∀ c ∈ w.couriers, c.Serves (w.diary c.feed.id)

theorem Serves.writes (hs : w.Serves) (hd : w.Writes i d) : d.taken <+: d.deltas := by
  cases hd with
  | stays => exact hs.taken i
  | opens => exact List.prefix_rfl
  | polls => exact List.prefix_rfl
  | looks =>
    rw [Diary.taken_poll, Diary.deltas_poll]
    exact (hs.taken i).trans (List.prefix_append _ _)
  | @takes c x rest hc hid hq =>
    have hserves := hs.queued c hc
    rw [Courier.Serves, hid, hq] at hserves
    refine List.IsPrefix.trans ?_ hserves
    exact (List.prefix_append_right_inj _).2 ⟨rest, rfl⟩

theorem Serves.step (hs : w.Serves) (hw : w.Sound) (e : Event) : (w.step e).Serves where
  taken i := hs.writes (w.writes_step e i)
  queued c' hc' := by
    rcases moves_or_begins_step hw e hc' with ⟨c, hc, hmoves⟩ | hbegins
    · obtain ⟨c'', hc'', hl⟩ := lives_step hw.orderly (hw.courier?_eq hc) e
      obtain ⟨hmem, hid⟩ := mem_of_courier? hc''
      have hsame : c'' = c' :=
        (hw.step e).eq_of_id_eq hmem hc' (hid.trans (hmoves.id_eq hw.bulletin).symm)
      rw [hmoves.id_eq hw.bulletin, ← hsame]
      exact hl.serves (hw.couriers c hc) (hs.queued c hc)
    · have hempty : c'.sink.queue = [] := by cases hbegins <;> rfl
      rw [Courier.Serves, hempty, List.append_nil]
      exact hs.writes (w.writes_step e c'.feed.id)

theorem Serves.run (hs : w.Serves) (hw : w.Sound) (es : List Event) : (w.run es).Serves := by
  induction es generalizing w with
  | nil => exact hs
  | cons e es ih => exact ih (hs.step hw e) (hw.step e)

/-- Couriers may change as long as their sinks do not. -/
theorem Serves.map (hs : w.Serves) (hdiary : w'.diary = w.diary) {g : Courier → Courier}
    (hcouriers : w'.couriers = w.couriers.map g)
    (hg : ∀ c, (g c).feed.id = c.feed.id ∧ (g c).sink = c.sink) : w'.Serves where
  taken i := by
    rw [hdiary]
    exact hs.taken i
  queued c' hc' := by
    rw [hcouriers] at hc'
    obtain ⟨c, hc, rfl⟩ := List.mem_map.1 hc'
    rw [Courier.Serves, hdiary, (hg c).1, (hg c).2]
    exact hs.queued c hc

theorem Serves.act (hs : w.Serves) (hw : w.Sound) (a : Act) : (w.act a).Serves := by
  cases a with
  | event e => exact hs.step hw e
  | query about f => exact hs.map (g := id) rfl (List.map_id _).symm fun _ => ⟨rfl, rfl⟩
  | trace value =>
    rw [act_trace]
    exact hs
  | post s receivedAt r =>
    rw [act_post]
    exact hs.run hw _

end World

/-! ## Scenes -/

namespace Scene

variable {s : Scene}

theorem serves_start (storage : StorageSettings) (stream : StreamSettings) :
    (start storage stream).world.Serves where
  taken _ := List.prefix_rfl
  queued c hc := by cases hc

theorem serves_step (hserves : s.world.Serves) (hs : s.Sound) (d : Deed) :
    (s.step d).world.Serves := by
  have hhub (h : Hub) : (s.withHub h).world.Serves :=
    hserves.map (g := id) rfl (List.map_id _).symm fun _ => ⟨rfl, rfl⟩
  cases d with
  | act a => exact hserves.act hs.world a
  | subscribe => exact hhub _
  | read | unsubscribe | release =>
    rw [step]
    split
    · exact hserves
    · exact hhub _
  | switch value paused =>
    rw [step, Http.answer_serveSwitch]
    split
    · exact hserves
    · split
      · refine hserves.map rfl rfl fun c => ?_
        split
        · cases paused <;> exact ⟨rfl, rfl⟩
        · exact ⟨rfl, rfl⟩
      · exact hserves

theorem serves_run (hserves : s.world.Serves) (hs : s.Sound) (ds : List Deed) :
    (s.run ds).world.Serves := by
  induction ds generalizing s with
  | nil => exact hserves
  | cons d ds ih => exact ih (serves_step hserves hs d) (hs.step d)

end Scene

/-! ## Reading -/

namespace World

variable {w : World} {i : Nat}

theorem taken_step_turn (w : World) (id i : Nat) :
    ((w.step (.turn id)).diary i).taken = (w.diary i).taken := by
  simp only [step]
  split
  · rfl
  split
  · rfl
  by_cases hi : i = id
  · subst hi
    rw [diary_write_self]
    split
    · exact Diary.taken_poll _ _ _
    · rfl
  · rw [diary_write_of_ne hi]

theorem taken_run_turns (ids : List Nat) (w : World) (i : Nat) :
    ((w.run (ids.map .turn)).diary i).taken = (w.diary i).taken := by
  induction ids generalizing w with
  | nil => rfl
  | cons id ids ih => rw [List.map_cons, run_cons, ih, taken_step_turn]

/-- A poll by hand yields what it says. -/
theorem deltas_step_poll {f : Feed} (hf : w.feed? i = some f) :
    ((w.step (.poll i)).diary i).deltas = (w.diary i).deltas ++ (f.poll w.hub).1.toList := by
  simp only [step, hf, diary_write_self]
  exact Diary.deltas_poll _ _ _

/-- What is read from a stream, and what happens to the site meanwhile: the events bring the deltas
that are taken. -/
structure Reads (w : World) (i : Nat) (events : List Http.Event) (site : Site) (es : List Event)
    (got : List Delta) : Prop where
  site_eq : (w.run es).site = site
  taken_eq : ((w.run es).diary i).taken = (w.diary i).taken ++ got
  events_eq : events.filter (·.name == "delta") = got.map Http.EventStream.deltaEvent

namespace Reads

variable {events : List Http.Event} {site : Site} {es : List Event} {got : List Delta}

theorem nil (w : World) (i : Nat) : w.Reads i [] w.site [] [] :=
  ⟨rfl, (List.append_nil _).symm, rfl⟩

/-- Before anything is read, couriers may take turns. -/
theorem turns {ids : List Nat} (hr : (w.run (ids.map .turn)).Reads i events site es got) :
    w.Reads i events site (ids.map .turn ++ es) got where
  site_eq := by
    rw [run_append]
    exact hr.site_eq
  taken_eq := by
    rw [run_append, hr.taken_eq, taken_run_turns]
  events_eq := hr.events_eq

/-- The event that names the feed brings no delta. -/
theorem greeting (hr : w.Reads i events site es got) {e : Http.Event} (he : e.name ≠ "delta") :
    w.Reads i (e :: events) site es got where
  site_eq := hr.site_eq
  taken_eq := hr.taken_eq
  events_eq := by
    rw [List.filter_cons_of_neg (by simpa using he)]
    exact hr.events_eq

theorem delta {x : Delta} {site' : Site} (htake : w.site.take i = (.delta x, site'))
    (hr : (w.step (.take i)).Reads i events site es got) :
    w.Reads i (Http.EventStream.deltaEvent x :: events) site (.take i :: es) (x :: got) where
  site_eq := hr.site_eq
  taken_eq := by
    have htaken : ((w.step (.take i)).diary i).taken = (w.diary i).taken ++ [x] := by
      simp only [step, htake]
      exact congrArg Diary.taken (diary_write_self _ _ _)
    rw [run_cons, hr.taken_eq, htaken, List.append_assoc]
    rfl
  events_eq := by
    rw [List.filter_cons_of_pos (by rfl), hr.events_eq]
    rfl

/-- There is nothing to take. -/
theorem nothing {t : Courier.Taken} (htake : w.site.take i = (t, site)) (ht : ∀ x, t ≠ .delta x) :
    w.Reads i [] site [.take i] [] := by
  have hstep : w.step (.take i) = { w with site := site } := by
    cases t with
    | delta x => exact absurd rfl (ht x)
    | empty | closed => simp only [step, htake]
  refine ⟨?_, ?_, rfl⟩
  · rw [run_cons, hstep]
    rfl
  · rw [run_cons, hstep]
    exact (List.append_nil _).symm

end Reads

/-- Whatever is read from a stream, couriers take turns and deltas are taken meanwhile. -/
theorem exists_readUpTo (n : Nat) {w : World} (hw : w.Sound) (stream : Http.EventStream) :
    ∃ es got, w.Reads stream.subscriber (stream.readUpTo n w.site).1
      (stream.readUpTo n w.site).2.2 es got := by
  induction n generalizing w stream with
  | zero => exact ⟨[], [], .nil w stream.subscriber⟩
  | succ n ih =>
    obtain ⟨ids, hids⟩ := (run_settle hw).1
    have hw₁ := hw.run (ids.map .turn)
    rw [Http.EventStream.readUpTo, ← hids, Http.EventStream.next]
    cases hgreeting : stream.greeting with
    | some paused =>
      obtain ⟨es, got, hr⟩ := ih hw₁ { stream with greeting := none }
      exact ⟨_, got, .turns (hr.greeting (by simp))⟩
    | none =>
      cases htake : (w.run (ids.map .turn)).site.take stream.subscriber with
      | mk t site =>
        have hsite : ((w.run (ids.map .turn)).step (.take stream.subscriber)).site = site := by
          rw [site_take, htake]
        cases t with
        | delta x =>
          obtain ⟨es, got, hr⟩ := ih (hw₁.step (.take stream.subscriber)) stream
          rw [hsite] at hr
          exact ⟨_, x :: got, .turns (.delta htake hr)⟩
        | empty => exact ⟨_, [], .turns (.nothing htake (by simp))⟩
        | closed => exact ⟨_, [], .turns (.nothing htake (by simp))⟩

theorem exists_read (limit : Option Nat) (hw : w.Sound) (stream : Http.EventStream) :
    ∃ es got, w.Reads stream.subscriber (stream.read limit w.site).1
      (stream.read limit w.site).2.2 es got :=
  exists_readUpTo _ hw stream

end World

namespace Scene

variable {s : Scene}

theorem world_run_events (s : Scene) (es : List Event) :
    (s.run (es.map fun e => .act (.event e))).world = s.world.run es := by
  induction es generalizing s with
  | nil => rfl
  | cons e es ih => exact ih (s.step (.act (.event e)))

/-- After any deeds, what each delta of a feed brings was accepted before the delta was found, and
after the feed's delta before it. So deltas bear larger and larger numbers. Whatever is done next,
the feed gets at most one more delta, which bears the number of records accepted so far; a poll by
hand gets what it yields. Readers have taken the first deltas of the feed; and if they read on in a
live stream, then the ids of the events that bring deltas are the numbers of those that they take
next. -/
theorem deltas_stamped (storage : StorageSettings) (stream : StreamSettings) (ds : List Deed)
    (id : Nat) :
    let s := (start storage stream).run ds
    let accepted := ds.flatMap Deed.accepts
    let diary := s.world.diary id
    (∀ before x after, diary.deltas = before ++ x :: after →
      x.Fresh (Delta.stamp before) accepted) ∧
    (diary.deltas.map (·.generation)).Pairwise (· < ·) ∧
    (∀ d, ∃ new : Option Delta,
      ((s.step d).world.diary id).deltas = diary.deltas ++ new.toList ∧
      ∀ x ∈ new, x.generation = accepted.length) ∧
    (∀ f, s.world.feed? id = some f → ((s.step (.act (.event (.poll id)))).world.diary id).deltas =
      diary.deltas ++ (f.poll s.hub).1.toList) ∧
    diary.taken <+: diary.deltas ∧
    ∀ (events : Http.EventStream) (limit : Option Nat), events.subscriber = id →
      let read := events.read limit s.world.site
      ∃ more got, (s.run more).world.site = read.2.2 ∧
        ((s.run more).world.diary id).taken = diary.taken ++ got ∧
        (read.1.filter (·.name == "delta")).map (·.id) =
          got.map (fun x => some (toString x.generation)) ∧
        ((diary.taken ++ got).map (·.generation)).Pairwise (· < ·) := by
  intro s accepted diary
  have hstart : (start storage stream).Sound := sound_start storage stream
  have hs : s.Sound := hstart.run ds
  have hdated : s.Dated := dated_run (dated_start storage stream) hstart ds
  have hserves : s.world.Serves := serves_run (serves_start storage stream) hstart ds
  have hblank : s.world.Blank := blank_run (fun _ _ => ⟨rfl, rfl⟩) hstart ds
  have haccepted : s.world.accepted = accepted := accepted_run (start storage stream) ds
  have hdiary := hdated.diaries id
  rw [haccepted] at hdiary
  refine ⟨hdiary.fresh, hdiary.pairwise, fun d => ?_,
    fun f hf => World.deltas_step_poll hf, hserves.taken id, fun events limit hid => ?_⟩
  · rw [← haccepted]
    exact (s.writes_step d id).exists_deltas hblank hdated.generation_eq
  · subst hid
    obtain ⟨es, got, hr⟩ := World.exists_read limit hs.world events
    refine ⟨es.map fun e => .act (.event e), got, ?_, ?_, ?_, ?_⟩
    · rw [world_run_events]
      exact hr.site_eq
    · rw [world_run_events]
      exact hr.taken_eq
    · rw [hr.events_eq, List.map_map]
      rfl
    · rw [← hr.taken_eq, ← world_run_events]
      have hrun := (dated_run hdated hs (es.map fun e => .act (.event e))).diaries
        events.subscriber
      have htaken := (serves_run hserves hs (es.map fun e => .act (.event e))).taken
        events.subscriber
      exact hrun.pairwise.sublist (htaken.sublist.map _)

/-- Lines come before a live stream is opened, before its first delta and after it. Another feed is
attached meanwhile. -/
def interrupted : List Deed :=
  let line := .act (.event (.record World.line))
  let turn := .act (.event (.turn 1))
  let attach := .act (.event (.attach World.everything.filter (.uniform 0)))
  [line, .act (.event (.live World.everything)), attach, line, turn, turn, line, turn, turn]

theorem later_delta_fresh :
    let s := (start {} {}).run interrupted
    let delta (generation : Nat) : Delta :=
      ⟨generation, [], [⟨0, "", "INFO", "", none, none, .empty⟩], []⟩
    let read := ((Http.EventStream.opened 1 false).read none s.world.site).1
    (s.world.diary 1).deltas = [delta 2, delta 3] ∧
    (delta 3).Fresh 2 [World.line, World.line, World.line] ∧
    ((s.step (.act (.event (.poll 2)))).world.diary 2).deltas.map (·.generation) = [3] ∧
    (read.filter (·.name == "delta")).map (·.id) = [some "2", some "3"] ∧
    ∃ got : List Delta, (read.filter (·.name == "delta")).map (·.id) =
      got.map (fun x => some (toString x.generation)) ∧
      (got.map (·.generation)).Pairwise (· < ·) := by
  intro s delta read
  have hdeltas : (s.world.diary 1).deltas = [delta 2] ++ [delta 3] := by rfl
  obtain ⟨hfresh, -, -, -, -, hread⟩ := deltas_stamped {} {} interrupted 1
  obtain ⟨more, got, -, -, hids, hpairwise⟩ := hread (.opened 1 false) none rfl
  obtain ⟨-, -, -, hpoll, -⟩ := deltas_stamped {} {} interrupted 2
  refine ⟨hdeltas, hfresh [delta 2] (delta 3) [] hdeltas, ?_, by decide +kernel, got, hids,
    hpairwise⟩
  rw [hpoll _ (Option.some_get (show (s.world.feed? 2).isSome by decide)).symm]
  decide +kernel

end Scene

end SignalHub
