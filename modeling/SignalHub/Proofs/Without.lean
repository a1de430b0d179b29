import SignalHub.Proofs.Absence
import SignalHub.Proofs.Running
/-!
# A world without one of its subscribers

What somebody does makes no difference to a world in which it is absent. What others do, or what
happens to all, makes the same of both worlds, but for numbers.

Results:
* `World.Lacks`: a world and the world without one of its subscribers.
* `World.Blank.lacks`: before its coming both are the same.
* `World.Lacks.step_self`, `World.Lacks.step`: what one subscriber does, and what others do.
* `World.Lacks.act`: what clients ask for.
-/
namespace SignalHub

/-- The feed that an event is about. -/
def Event.about : Event → Option Nat
  | .poll id | .pause id | .resume id | .drop id | .launch id _ _ _ | .turn id | .take id
  | .close id | .leave id => some id
  | .record _ | .attach _ _ | .live _ | .shutdown | .advance _ => none

/-- The event in the absence of `b`. -/
def Event.renumber (b : Nat) : Event → Event
  | .poll id => .poll (shift b id)
  | .pause id => .pause (shift b id)
  | .resume id => .resume (shift b id)
  | .drop id => .drop (shift b id)
  | .launch id capacity keepalive listener => .launch (shift b id) capacity keepalive listener
  | .turn id => .turn (shift b id)
  | .take id => .take (shift b id)
  | .close id => .close (shift b id)
  | .leave id => .leave (shift b id)
  | .record r => .record r
  | .attach f backfill => .attach f backfill
  | .live r => .live r
  | .shutdown => .shutdown
  | .advance ms => .advance ms

/-- The feed that an act is about. -/
def Act.about : Act → Option Nat
  | .event e => e.about
  | .query _ _ | .trace _ | .post _ _ _ => none

/-- The act in the absence of `b`. -/
def Act.renumber (b : Nat) : Act → Act
  | .event e => .event (e.renumber b)
  | .query about f => .query about f
  | .trace value => .trace value
  | .post s receivedAt r => .post s receivedAt r

/-- Two diaries tell of the same deltas. -/
def Diary.Tells (d d' : Diary) : Prop := d'.deltas = d.deltas ∧ d'.taken = d.taken

namespace World

/-- The second world is what the first one is in the absence of `b`. -/
structure Lacks (b : Nat) (w w' : World) : Prop where
  hub : w.hub.Lacks b w'.hub
  stream_eq : w'.site.stream = w.site.stream
  now_eq : w'.now = w.now
  couriers_eq : w'.couriers = leaveOut (fun c => c.feed.id) (Courier.renumber b) b w.couriers
  feeds_eq : w'.feeds = leaveOut Feed.id (Feed.renumber b) b w.feeds
  accepted_eq : w'.accepted = w.accepted
  tells : ∀ i, i ≠ b → (w.diary i).Tells (w'.diary (shift b i))

/-- The feed that is attached next. -/
def attached (w : World) (f : Filter) (backfill : PerSignal Nat) : Feed :=
  ⟨w.hub.bulletin.nextId, f, Feed.startCursor w.hub backfill, false, false⟩

variable {b i : Nat} {w w' : World}

theorem step_attach (w : World) {f : Filter} {backfill : PerSignal Nat} (hv : f.validate = .ok ()) :
    w.step (.attach f backfill) =
      ({ w with
        site := w.site.withHub w.hub.subscribe.2
        feeds := w.feeds ++ [w.attached f backfill] } : World).write w.hub.bulletin.nextId
          (.opened w.hub backfill) := by
  simp only [step, Feed.attach, hv]
  rfl

/-- The diaries of those who are still to come are blank. -/
def Blank (w : World) : Prop :=
  ∀ i, w.hub.bulletin.nextId ≤ i → (w.diary i).deltas = [] ∧ (w.diary i).taken = []

theorem diary_step (hw : w.Sound) (e : Event) (hi : (w.step e).hub.bulletin.nextId ≤ i) :
    (w.step e).diary i = w.diary i := by
  have hle := nextId_le_step hw e
  have hne {id : Nat} (hid : id ∈ w.ids) : i ≠ id :=
    Nat.ne_of_gt (Nat.lt_of_lt_of_le (hw.lt_nextId id hid) (Nat.le_trans hle hi))
  cases e with
  | record | pause | resume | close | leave | shutdown | advance => rfl
  | attach f backfill =>
    cases hv : f.validate with
    | error e => simp only [step, Feed.attach, hv]
    | ok =>
      rw [step_attach w hv] at hi ⊢
      exact diary_write_of_ne (Nat.ne_of_gt hi)
  | live r =>
    simp only [step, openLive_eq] at hi ⊢
    exact diary_write_of_ne (Nat.ne_of_gt hi)
  | poll id =>
    cases hf : w.feed? id with
    | none => simp only [step, hf]
    | some f =>
      obtain ⟨hmem, rfl⟩ := mem_of_feed? hf
      simp only [step, hf]
      exact diary_write_of_ne (hne (id_mem_of_feed hmem))
  | drop id =>
    simp only [step]
    split <;> rfl
  | launch id capacity keepalive listener =>
    simp only [step]
    split <;> rfl
  | turn id =>
    cases hc : w.site.courier? id with
    | none => simp only [step, hc]
    | some c =>
      obtain ⟨hmem, rfl⟩ := mem_of_courier? hc
      cases ht : c.turn w.now w.hub with
      | none => simp only [step, hc, ht]
      | some p =>
        simp only [step, hc, ht]
        exact diary_write_of_ne (hne (id_mem_of_courier hmem))
  | take id =>
    cases hc : w.site.courier? id with
    | none => simp only [step, Site.take, hc]
    | some c =>
      obtain ⟨hmem, rfl⟩ := mem_of_courier? hc
      simp only [step, Site.take, hc]
      split
      · exact diary_write_of_ne (hne (id_mem_of_courier hmem))
      · rfl

theorem Blank.step (hblank : w.Blank) (hw : w.Sound) (e : Event) : (w.step e).Blank := by
  intro i hi
  rw [diary_step hw e hi]
  exact hblank i (Nat.le_trans (nextId_le_step hw e) hi)

theorem Blank.run (hblank : w.Blank) (hw : w.Sound) (es : List Event) : (w.run es).Blank := by
  induction es generalizing w with
  | nil => exact hblank
  | cons e es ih => exact ih (hblank.step hw e) (hw.step e)

theorem Blank.act (hblank : w.Blank) (hw : w.Sound) (a : Act) : (w.act a).Blank := by
  cases a with
  | event e => exact hblank.step hw e
  | query about f =>
    intro i hi
    refine hblank i (Nat.le_trans (Nat.le_of_eq ?_) hi)
    exact congrArg Bulletin.nextId (w.hub.bulletin_ask about f).1.symm
  | trace value =>
    rw [act_trace]
    exact hblank
  | post s receivedAt r =>
    rw [act_post]
    exact hblank.run hw _

/-- Before its coming nobody is absent. -/
theorem Blank.lacks (hblank : w.Blank) (hw : w.Sound) : w.Lacks w.hub.bulletin.nextId w := by
  refine ⟨Hub.lacks_nextId hw.bulletin, rfl, rfl, ?_, ?_, rfl, fun i hi => ?_⟩
  · refine (leaveOut_of_lt (fun c : Courier => c.feed.id) _ (fun c hc => ?_) fun c hc => ?_).symm
    · exact hw.lt_nextId _ (id_mem_of_courier hc)
    · rw [Courier.renumber, shift_of_lt hc]
      rfl
  · refine (leaveOut_of_lt Feed.id _ (fun f hf => ?_) fun f hf => ?_).symm
    · exact hw.lt_nextId _ (id_mem_of_feed hf)
    · rw [Feed.renumber, shift_of_lt hf]
      rfl
  · rcases Nat.lt_or_gt_of_ne hi with hlt | hgt
    · rw [shift_of_lt hlt]
      exact ⟨rfl, rfl⟩
    · obtain ⟨hdeltas, htaken⟩ := hblank i (Nat.le_of_lt hgt)
      obtain ⟨hdeltas', htaken'⟩ := hblank (shift w.hub.bulletin.nextId i) (le_shift hgt)
      exact ⟨hdeltas'.trans hdeltas.symm, htaken'.trans htaken.symm⟩

namespace Lacks

theorem feed?_eq (hw : w.Lacks b w') (hi : i ≠ b) :
    w'.feed? (shift b i) = (w.feed? i).map (·.renumber b) := by
  rw [feed?, hw.feeds_eq]
  exact find?_key_leaveOut Feed.id (Feed.renumber b) (fun _ => rfl) hi

theorem courier?_eq (hw : w.Lacks b w') (hi : i ≠ b) :
    w'.site.courier? (shift b i) = (w.site.courier? i).map (·.renumber b) := by
  rw [Site.courier?, show w'.site.couriers = w'.couriers from rfl, hw.couriers_eq]
  exact find?_key_leaveOut (fun c : Courier => c.feed.id) (Courier.renumber b) (fun _ => rfl) hi

/-! ## Changes -/

theorem withHub (hw : w.Lacks b w') {h h' : Hub} (hh : h.Lacks b h') :
    ({ w with site := w.site.withHub h } : World).Lacks b
      { w' with site := w'.site.withHub h' } :=
  ⟨hh, hw.stream_eq, hw.now_eq, hw.couriers_eq, hw.feeds_eq, hw.accepted_eq, hw.tells⟩

theorem withHub_self (hw : w.Lacks b w') {h : Hub} (hh : h.Lacks b w'.hub) :
    ({ w with site := w.site.withHub h } : World).Lacks b w' := hw.withHub hh

theorem nextId_eq (hw : w.Lacks b w') :
    w'.hub.bulletin.nextId = shift b w.hub.bulletin.nextId := by
  rw [hw.hub.bulletin_eq]
  rfl

theorem write (hw : w.Lacks b w') (hi : i ≠ b) {d d' : Diary} (hd : d.Tells d') :
    (w.write i d).Lacks b (w'.write (shift b i) d') := by
  refine ⟨hw.hub, hw.stream_eq, hw.now_eq, hw.couriers_eq, hw.feeds_eq, hw.accepted_eq,
    fun j hj => ?_⟩
  by_cases hji : j = i
  · rw [hji, diary_write_self, diary_write_self]
    exact hd
  · rw [diary_write_of_ne hji, diary_write_of_ne (mt (shift_inj hj hi).1 hji)]
    exact hw.tells j hj

theorem write_self (hw : w.Lacks b w') (d : Diary) : (w.write b d).Lacks b w' := by
  refine ⟨hw.hub, hw.stream_eq, hw.now_eq, hw.couriers_eq, hw.feeds_eq, hw.accepted_eq,
    fun j hj => ?_⟩
  rw [diary_write_of_ne hj]
  exact hw.tells j hj

/-- There is one more subscriber, and its diary is opened. -/
theorem subscribe (hw : w.Lacks b w') (hb : b < w.hub.bulletin.nextId) (backfill : PerSignal Nat) :
    ({ w with site := w.site.withHub w.hub.subscribe.2 }.write w.hub.bulletin.nextId
      (.opened w.hub backfill)).Lacks b
      ({ w' with site := w'.site.withHub w'.hub.subscribe.2 }.write w'.hub.bulletin.nextId
        (.opened w'.hub backfill)) := by
  rw [hw.nextId_eq]
  exact (hw.withHub (hw.hub.subscribe hb)).write (Nat.ne_of_gt hb) ⟨rfl, rfl⟩

theorem modifyCourier (hw : w.Lacks b w') (hi : i ≠ b) {g k : Courier → Courier}
    (hkey : ∀ c, c.feed.id = i → (g c).feed.id = i)
    (hg : ∀ c, c.feed.id = i → (g c).renumber b = k (c.renumber b)) :
    ({ w with site := w.site.modifyCourier i g } : World).Lacks b
      { w' with site := w'.site.modifyCourier (shift b i) k } := by
  refine ⟨hw.hub, hw.stream_eq, hw.now_eq, ?_, hw.feeds_eq, hw.accepted_eq, hw.tells⟩
  have hcouriers := leaveOut_modify (fun c : Courier => c.feed.id) (Courier.renumber b)
    (l := w.couriers) (fun _ => rfl) hi hkey hg
  rw [← hw.couriers_eq] at hcouriers
  exact hcouriers.symm

theorem modifyCourier_self (hw : w.Lacks b w') {g : Courier → Courier}
    (hkey : ∀ c, c.feed.id = b → (g c).feed.id = b) :
    ({ w with site := w.site.modifyCourier b g } : World).Lacks b w' := by
  refine ⟨hw.hub, hw.stream_eq, hw.now_eq, ?_, hw.feeds_eq, hw.accepted_eq, hw.tells⟩
  rw [hw.couriers_eq]
  exact (leaveOut_modify_self (fun c : Courier => c.feed.id) (Courier.renumber b) hkey).symm

theorem setPaused (hw : w.Lacks b w') (hi : i ≠ b) (paused : Bool) :
    ({ w with site := w.site.setPaused i paused } : World).Lacks b
      { w' with site := w'.site.setPaused (shift b i) paused } :=
  hw.modifyCourier hi (fun c hc => by cases paused <;> exact hc) fun c _ => by cases paused <;> rfl

theorem setPaused_self (hw : w.Lacks b w') (paused : Bool) :
    ({ w with site := w.site.setPaused b paused } : World).Lacks b w' :=
  hw.modifyCourier_self fun c hc => by cases paused <;> exact hc

theorem modifyFeed (hw : w.Lacks b w') (hi : i ≠ b) {g k : Feed → Feed}
    (hkey : ∀ f, (g f).id = f.id) (hg : ∀ f, (g f).renumber b = k (f.renumber b)) :
    (w.modifyFeed i g).Lacks b (w'.modifyFeed (shift b i) k) := by
  refine ⟨hw.hub, hw.stream_eq, hw.now_eq, hw.couriers_eq, ?_, hw.accepted_eq, hw.tells⟩
  have hfeeds := leaveOut_modify Feed.id (Feed.renumber b) (l := w.feeds) (fun _ => rfl) hi
    (fun f hf => (hkey f).trans hf) fun f _ => hg f
  rw [← hw.feeds_eq] at hfeeds
  exact hfeeds.symm

theorem modifyFeed_self (hw : w.Lacks b w') {g : Feed → Feed} (hkey : ∀ f, (g f).id = f.id) :
    (w.modifyFeed b g).Lacks b w' := by
  refine ⟨hw.hub, hw.stream_eq, hw.now_eq, hw.couriers_eq, ?_, hw.accepted_eq, hw.tells⟩
  rw [hw.feeds_eq]
  exact (leaveOut_modify_self Feed.id (Feed.renumber b) fun f hf => (hkey f).trans hf).symm

theorem dropFeed (hw : w.Lacks b w') (hi : i ≠ b) :
    ({ w with feeds := w.feeds.filter fun f => f.id ≠ i } : World).Lacks b
      { w' with feeds := w'.feeds.filter fun f => f.id ≠ shift b i } := by
  refine ⟨hw.hub, hw.stream_eq, hw.now_eq, hw.couriers_eq, ?_, hw.accepted_eq, hw.tells⟩
  have hfeeds := leaveOut_filter_ne Feed.id (Feed.renumber b) (l := w.feeds) (fun _ => rfl) hi
  rw [← hw.feeds_eq] at hfeeds
  exact hfeeds.symm

theorem dropFeed_self (hw : w.Lacks b w') :
    ({ w with feeds := w.feeds.filter fun f => f.id ≠ b } : World).Lacks b w' := by
  refine ⟨hw.hub, hw.stream_eq, hw.now_eq, hw.couriers_eq, ?_, hw.accepted_eq, hw.tells⟩
  rw [hw.feeds_eq]
  exact (leaveOut_filter_ne_self Feed.id (Feed.renumber b)).symm

theorem addFeed (hw : w.Lacks b w') {f : Feed} (hf : f.id ≠ b) :
    ({ w with feeds := w.feeds ++ [f] } : World).Lacks b
      { w' with feeds := w'.feeds ++ [f.renumber b] } := by
  refine ⟨hw.hub, hw.stream_eq, hw.now_eq, hw.couriers_eq, ?_, hw.accepted_eq, hw.tells⟩
  rw [hw.feeds_eq]
  exact (leaveOut_concat Feed.id (Feed.renumber b) hf w.feeds).symm

theorem addFeed_self (hw : w.Lacks b w') {f : Feed} (hf : f.id = b) :
    ({ w with feeds := w.feeds ++ [f] } : World).Lacks b w' := by
  refine ⟨hw.hub, hw.stream_eq, hw.now_eq, hw.couriers_eq, ?_, hw.accepted_eq, hw.tells⟩
  rw [hw.feeds_eq]
  exact (leaveOut_concat_self Feed.id (Feed.renumber b) hf w.feeds).symm

theorem launch (hw : w.Lacks b w') {f : Feed} (hf : f.id ≠ b) (capacity keepalive : Nat)
    (listener : Listener) (isLive : Bool) :
    ({ w with site := w.site.launch f capacity keepalive listener isLive } : World).Lacks b
      { w' with site := w'.site.launch (f.renumber b) capacity keepalive listener isLive } := by
  refine ⟨hw.hub, hw.stream_eq, hw.now_eq, ?_, hw.feeds_eq, hw.accepted_eq, hw.tells⟩
  have hcouriers := leaveOut_concat (fun c : Courier => c.feed.id) (Courier.renumber b)
    (a := .start f capacity keepalive w.now listener isLive) hf w.couriers
  rw [← hw.couriers_eq] at hcouriers
  refine Eq.trans ?_ hcouriers.symm
  rw [show ∀ n, Courier.renumber b (.start f capacity keepalive n listener isLive) =
    .start (f.renumber b) capacity keepalive n listener isLive from fun _ => rfl, ← hw.now_eq]
  rfl

theorem launch_self (hw : w.Lacks b w') {f : Feed} (hf : f.id = b) (capacity keepalive : Nat)
    (listener : Listener) (isLive : Bool) :
    ({ w with site := w.site.launch f capacity keepalive listener isLive } : World).Lacks b w' := by
  refine ⟨hw.hub, hw.stream_eq, hw.now_eq, ?_, hw.feeds_eq, hw.accepted_eq, hw.tells⟩
  rw [hw.couriers_eq]
  exact (leaveOut_concat_self (fun c : Courier => c.feed.id) (Courier.renumber b)
    (a := .start f capacity keepalive w.now listener isLive) hf w.couriers).symm

theorem poll_tells (hw : w.Lacks b w') (hi : i ≠ b) (f : Feed) : ((w.diary i).poll w.hub f).Tells
      ((w'.diary (shift b i)).poll w'.hub (f.renumber b)) := by
  obtain ⟨hdeltas, htaken⟩ := hw.tells i hi
  refine ⟨?_, ?_⟩
  · rw [Diary.deltas_poll, Diary.deltas_poll, Feed.poll_renumber hw.hub, hdeltas]
  · rw [Diary.taken_poll, Diary.taken_poll, htaken]

/-! ## What it does itself -/

theorem turn_self (hw : w.Lacks b w') : (w.step (.turn b)).Lacks b w' := by
  cases hc : w.site.courier? b with
  | none => simpa only [World.step, hc] using hw
  | some c =>
    obtain ⟨-, hid⟩ := mem_of_courier? hc
    cases ht : c.turn w.now w.hub with
    | none => simpa only [World.step, hc, ht] using hw
    | some p =>
      obtain ⟨g, c'⟩ := p
      have hturns := Courier.turns_of_turn ht
      simp only [World.step, hc, ht]
      have hturned := (hw.withHub_self (hturns.lacks hid hw.hub)).modifyCourier_self
        (g := fun _ => c') fun _ _ => hturns.id_eq.trans hid
      exact hturned.write_self _

theorem take_self (hw : w.Lacks b w') : (w.step (.take b)).Lacks b w' := by
  simp only [World.step, Site.take]
  cases hc : w.site.courier? b with
  | none => exact hw
  | some c =>
    have hid : c.take.2.feed.id = b := by
      rw [Courier.feed_take]
      exact (mem_of_courier? hc).2
    have htaken := hw.modifyCourier_self (g := fun _ => c.take.2) fun _ _ => hid
    cases hq : c.take.1 with
    | delta d =>
      simp only [hq]
      exact htaken.write_self _
    | empty | closed =>
      simp only [hq]
      exact htaken

/-- What somebody does is nothing in its absence. -/
theorem step_self (hw : w.Lacks b w') {e : Event} (he : e.about = some b) :
    (w.step e).Lacks b w' := by
  cases e with
  | record | attach | live | shutdown | advance => cases he
  | poll id =>
    obtain rfl := Option.some.inj he
    simp only [step]
    split
    · exact hw
    · exact (hw.modifyFeed_self (Feed.id_poll w.hub)).write_self _
  | pause id =>
    obtain rfl := Option.some.inj he
    exact (hw.modifyFeed_self (g := Feed.pause) fun _ => rfl).setPaused_self true
  | resume id =>
    obtain rfl := Option.some.inj he
    exact (hw.modifyFeed_self (g := Feed.resume) fun _ => rfl).setPaused_self false
  | drop id =>
    obtain rfl := Option.some.inj he
    simp only [step]
    split
    · exact hw
    · exact (hw.withHub_self hw.hub.discard_self).dropFeed_self
  | launch id capacity keepalive listener =>
    obtain rfl := Option.some.inj he
    cases hf : w.feed? id with
    | none => simpa only [step, hf] using hw
    | some f =>
      simp only [step, hf]
      exact (hw.launch_self (mem_of_feed? hf).2 capacity keepalive listener false).dropFeed_self
  | turn id =>
    obtain rfl := Option.some.inj he
    exact hw.turn_self
  | take id =>
    obtain rfl := Option.some.inj he
    exact hw.take_self
  | close id =>
    obtain rfl := Option.some.inj he
    exact hw.modifyCourier_self fun _ hc => hc
  | leave id =>
    obtain rfl := Option.some.inj he
    exact hw.modifyCourier_self fun _ hc => hc

/-- Its coming is nothing in its absence. -/
theorem subscribe_self (hw : w.Lacks w.hub.bulletin.nextId w') (d : Diary) :
    ({ w with site := w.site.withHub w.hub.subscribe.2 }.write w.hub.bulletin.nextId d).Lacks
      w.hub.bulletin.nextId w' := by
  exact (hw.withHub_self hw.hub.subscribe_self).write_self d

theorem attach_self (hw : w.Lacks w.hub.bulletin.nextId w') {f : Filter}
    (hv : f.validate = .ok ()) (backfill : PerSignal Nat) :
    (w.step (.attach f backfill)).Lacks w.hub.bulletin.nextId w' := by
  rw [step_attach w hv]
  exact (hw.subscribe_self _).addFeed_self rfl

theorem live_self (hw : w.Lacks w.hub.bulletin.nextId w') (r : Http.LiveRequest) :
    (w.step (.live r)).Lacks w.hub.bulletin.nextId w' := by
  simp only [World.step, openLive_eq]
  exact (hw.subscribe_self _).launch_self (f := r.feed w.site) rfl _ _ _ _

/-! ## What others do -/

theorem turn (hw : w.Lacks b w') (hi : i ≠ b) :
    (w.step (.turn i)).Lacks b (w'.step (.turn (shift b i))) := by
  simp only [step]
  rw [hw.courier?_eq hi]
  cases hc : w.site.courier? i with
  | none => exact hw
  | some c =>
    obtain ⟨-, hid⟩ := mem_of_courier? hc
    have hrel := Courier.turn_lacks hw.hub (hid ▸ hi) w.now
    simp only [Option.map_some]
    rw [hw.now_eq]
    cases ht : c.turn w.now w.hub with
    | none =>
      rw [ht] at hrel
      cases ht' : (c.renumber b).turn w.now w'.hub with
      | none => exact hw
      | some => rw [ht'] at hrel; cases hrel
    | some p =>
      rw [ht] at hrel
      cases ht' : (c.renumber b).turn w.now w'.hub with
      | none => rw [ht'] at hrel; cases hrel
      | some q =>
        rw [ht'] at hrel
        obtain ⟨g, c'⟩ := p
        obtain ⟨g', c''⟩ := q
        cases hrel with
        | some hmatches =>
          obtain ⟨hhub, rfl⟩ := hmatches
          have hturns := Courier.turns_of_turn ht
          refine ((hw.withHub hhub).modifyCourier hi
            (fun _ _ => hturns.id_eq.trans hid) fun _ _ => rfl).write hi ?_
          rw [show (c.renumber b).looksInto (c'.renumber b) = c.looksInto c' from rfl]
          split
          · exact hw.poll_tells hi c.feed
          · exact hw.tells i hi

theorem take (hw : w.Lacks b w') (hi : i ≠ b) :
    (w.step (.take i)).Lacks b (w'.step (.take (shift b i))) := by
  simp only [step, Site.take]
  rw [hw.courier?_eq hi]
  cases hc : w.site.courier? i with
  | none => exact hw
  | some c =>
    have hid : c.take.2.feed.id = i := by
      rw [Courier.feed_take]
      exact (mem_of_courier? hc).2
    have htake : (c.renumber b).take = (c.take.1, c.take.2.renumber b) := by
      unfold Courier.take
      rw [show (c.renumber b).sink = c.sink from rfl]
      split <;> rfl
    have htaken := hw.modifyCourier hi (g := fun _ => c.take.2) (k := fun _ => c.take.2.renumber b)
      (fun _ _ => hid) fun _ _ => rfl
    simp only [Option.map_some, htake]
    cases hq : c.take.1 with
    | delta d =>
      refine htaken.write hi ?_
      obtain ⟨hdeltas, htold⟩ := hw.tells i hi
      exact ⟨hdeltas, by simp only [Diary.take, htold]⟩
    | empty | closed => exact htaken

theorem attached_eq (hw : w.Lacks b w') {f : Filter} {backfill : PerSignal Nat} :
    w'.attached f backfill = (w.attached f backfill).renumber b := by
  simp only [attached, hw.nextId_eq, Feed.startCursor_lacks hw.hub]
  rfl

theorem attach (hw : w.Lacks b w') (hb : b < w.hub.bulletin.nextId) (f : Filter)
    (backfill : PerSignal Nat) :
    (w.step (.attach f backfill)).Lacks b (w'.step (.attach f backfill)) := by
  cases hv : f.validate with
  | error e => simpa only [World.step, Feed.attach, hv] using hw
  | ok =>
    rw [step_attach w hv, step_attach w' hv, hw.attached_eq]
    exact (hw.subscribe hb backfill).addFeed (f := w.attached f backfill) (Nat.ne_of_gt hb)

theorem live (hw : w.Lacks b w') (hb : b < w.hub.bulletin.nextId) (r : Http.LiveRequest) :
    (w.step (.live r)).Lacks b (w'.step (.live r)) := by
  have hnew : w.hub.bulletin.nextId ≠ b := Nat.ne_of_gt hb
  have hfeed : r.feed w'.site = (r.feed w.site).renumber b := by
    rw [Http.LiveRequest.feed, show w'.site.hub = w'.hub from rfl, hw.nextId_eq,
      Feed.startCursor_lacks hw.hub, hw.stream_eq]
    rfl
  simp only [World.step, openLive_eq, hfeed, hw.stream_eq]
  exact (hw.subscribe hb (r.window w.site.stream)).launch (f := r.feed w.site) hnew _ _ _ _

/-- What others do, and what happens to all, makes the same of both worlds. -/
theorem step (hw : w.Lacks b w') (hb : b < w.hub.bulletin.nextId) {e : Event}
    (he : e.about ≠ some b) : (w.step e).Lacks b (w'.step (e.renumber b)) := by
  have hne {id : Nat} (hid : some id ≠ some b) : id ≠ b := fun h => hid (congrArg some h)
  cases e with
  | record r =>
    have hhub := hw.withHub (hw.hub.record r)
    exact ⟨hhub.hub, hhub.stream_eq, hhub.now_eq, hhub.couriers_eq, hhub.feeds_eq,
      congrArg (· ++ [r]) hw.accepted_eq, hhub.tells⟩
  | attach f backfill => exact hw.attach hb f backfill
  | live r => exact hw.live hb r
  | poll id =>
    have hi := hne he
    simp only [World.step, Event.renumber]
    rw [hw.feed?_eq hi]
    cases w.feed? id with
    | none => exact hw
    | some f =>
      simp only [Option.map_some]
      refine (hw.modifyFeed hi (Feed.id_poll w.hub) fun a => by
        rw [Feed.poll_renumber hw.hub]).write hi ?_
      have hdeltas := (hw.poll_tells hi f).1
      exact ⟨hdeltas, hdeltas⟩
  | pause id =>
    exact (hw.modifyFeed (hne he) (g := Feed.pause) (k := Feed.pause) (fun _ => rfl)
      fun _ => rfl).setPaused (hne he) true
  | resume id =>
    exact (hw.modifyFeed (hne he) (g := Feed.resume) (k := Feed.resume) (fun _ => rfl)
      fun _ => rfl).setPaused (hne he) false
  | drop id =>
    have hi := hne he
    simp only [World.step, Event.renumber]
    rw [hw.feed?_eq hi]
    cases w.feed? id with
    | none => exact hw
    | some f => exact (hw.withHub (hw.hub.discard hi)).dropFeed hi
  | launch id capacity keepalive listener =>
    have hi := hne he
    simp only [World.step, Event.renumber]
    rw [hw.feed?_eq hi]
    cases hf : w.feed? id with
    | none => exact hw
    | some f =>
      have hid : f.id ≠ b := (mem_of_feed? hf).2 ▸ hi
      exact (hw.launch hid capacity keepalive listener false).dropFeed hi
  | turn id => exact hw.turn (hne he)
  | take id => exact hw.take (hne he)
  | close id => exact hw.modifyCourier (hne he) (fun _ hc => hc) fun _ _ => rfl
  | leave id => exact hw.modifyCourier (hne he) (fun _ hc => hc) fun _ _ => rfl
  | shutdown =>
    refine ⟨hw.hub, hw.stream_eq, hw.now_eq, ?_, hw.feeds_eq, hw.accepted_eq, hw.tells⟩
    have hcall : ∀ c : Courier, c.call.renumber b = (c.renumber b).call := by
      intro c
      unfold Courier.call
      rw [show (c.renumber b).listener = c.listener from rfl]
      split <;> rfl
    have hcouriers := leaveOut_map (fun c : Courier => c.feed.id) (Courier.renumber b) (b := b)
      (l := w.couriers) (g := Courier.call) (k := Courier.call)
      (fun c => by rw [Courier.feed_call]) fun c _ => hcall c
    rw [← hw.couriers_eq] at hcouriers
    exact hcouriers.symm
  | advance ms =>
    exact ⟨hw.hub, hw.stream_eq, congrArg (· + ms) hw.now_eq, hw.couriers_eq, hw.feeds_eq,
      hw.accepted_eq, hw.tells⟩

end Lacks

/-! ## Acts -/

theorem Lacks.run_record (hw : w.Lacks b w') (hs : w.Sound) (hb : b < w.hub.bulletin.nextId)
    (rs : List Record) : (w.run (rs.map .record)).Lacks b (w'.run (rs.map .record)) := by
  induction rs generalizing w w' with
  | nil => exact hw
  | cons r rs ih =>
    have hstep := hw.step hb (e := .record r) (by simp [Event.about])
    exact ih hstep (hs.step _) (Nat.lt_of_lt_of_le hb (nextId_le_step hs _))

theorem Lacks.act (hw : w.Lacks b w') (hs : w.Sound) (hb : b < w.hub.bulletin.nextId) {a : Act}
    (ha : a.about ≠ some b) : (w.act a).Lacks b (w'.act (a.renumber b)) := by
  cases a with
  | event e => exact hw.step hb ha
  | query about f =>
    exact hw.withHub (hw.hub.ask about f)
  | trace value =>
    rw [Act.renumber, act_trace, act_trace]
    exact hw
  | post s receivedAt r =>
    rw [Act.renumber, act_post, act_post]
    exact hw.run_record hs hb _

/-! ## Live streams -/

theorem Lacks.opened?_eq (hw : w.Lacks b w') (a : Act) :
    w'.opened? (a.renumber b) = (w.opened? a).map (shift b) := by
  cases a with
  | event e =>
    cases e with
    | live r =>
      rw [opened?_live, Act.renumber, Event.renumber, opened?_live, hw.nextId_eq]
      rfl
    | _ => rfl
  | _ => rfl

theorem Lacks.closed?_eq (hw : w.Lacks b w') {a : Act} (ha : a.about ≠ some b) :
    w'.closed? (a.renumber b) = (w.closed? a).map (shift b) := by
  cases a with
  | event e =>
    cases e with
    | turn id =>
      have hi : id ≠ b := fun h => ha (congrArg some h)
      simp only [Act.renumber, Event.renumber, closed?]
      rw [hw.courier?_eq hi]
      cases hc : w.site.courier? id with
      | none => rfl
      | some c =>
        have hid : c.feed.id ≠ b := (mem_of_courier? hc).2 ▸ hi
        have hrel := Courier.turn_lacks hw.hub hid w.now
        simp only [Option.map_some]
        rw [hw.now_eq]
        generalize c.turn w.now w.hub = t at hrel
        generalize (c.renumber b).turn w.now w'.hub = t' at hrel
        cases hrel with
        | none => rfl
        | @some p q hmatches =>
          obtain ⟨g, c'⟩ := p
          obtain ⟨g', c''⟩ := q
          obtain ⟨-, rfl⟩ := hmatches
          show (if c'.isLive && c'.hasEnded then _ else _) = _
          split
          · rename_i hended
            simp [hended]
          · rename_i hended
            simp [hended]
    | _ => rfl
  | _ => rfl

theorem closed?_of_about {a : Act} (hclosed : w.closed? a = some i) : a.about = some i := by
  cases a with
  | event e =>
    cases e with
    | turn id =>
      simp only [closed?] at hclosed
      split at hclosed
      · cases hclosed
      · split at hclosed
        · split at hclosed
          · exact hclosed
          · cases hclosed
        · cases hclosed
    | _ => cases hclosed
  | _ => cases hclosed

theorem opened?_of_about {a : Act} (ha : a.about = some i) : w.opened? a = none := by
  cases a with
  | event e =>
    cases e with
    | live r => cases ha
    | _ => rfl
  | _ => rfl

theorem opened?_eq_some {a : Act} (hopened : w.opened? a = some i) :
    i = w.hub.bulletin.nextId := by
  cases a with
  | event e =>
    cases e with
    | live r =>
      rw [opened?_live] at hopened
      exact (Option.some.inj hopened).symm
    | _ => cases hopened
  | _ => cases hopened

end World

end SignalHub
