import SignalHub.Proofs.Lives
import SignalHub.Proofs.Strides
/-!
# Couriers among other tasks

A hub serves many tasks at the same time. So a courier may be in the middle of a turn while records
are accepted, feeds are paused, couriers are called to stop and other couriers look. Here whatever
happens between two strides of a courier happens in any order, and a record may be stored before
subscribers are pinged.

What a courier finds at a later stride it need not have found at an earlier one, so the invariant of
worlds in which turns are taken in one go does not hold. What is left of it is that numbers and
mailboxes are in order.

Results:
* `Concurrent.occur`, `Concurrent.pass`: what occurrences do.
* `Concurrent.orderly_pass`: numbers and archives stay in order.
* `Concurrent.happens_occur`: what an occurrence is to one courier.
* `Concurrent.attached_occur`: a courier stays subscribed as long as it has not ended.
-/
namespace SignalHub

/-- A world in which couriers may be in the middle of a turn. -/
structure Concurrent where
  world : World
  /-- How far the courier of each feed has come. -/
  stage : Nat → Stage

namespace Concurrent

/-- Nothing has happened yet. -/
def start (storage : StorageSettings) (stream : StreamSettings) : Concurrent :=
  ⟨.start storage stream, fun _ => .fresh⟩

/-- The courier of a feed takes one stride. -/
def stride (w : Concurrent) (id : Nat) : Concurrent :=
  match w.world.site.courier? id with
  | none => w
  | some c =>
    let ((h, c'), g) := c.stride w.world.now w.world.hub (w.stage id)
    { world := { w.world with site := (w.world.site.withHub h).modifyCourier id fun _ => c' }
      stage := fun i => if i = id then g else w.stage i }

/-- What an occurrence does. A turn is one stride here, and what comes after it may come later. -/
def occur (w : Concurrent) : Occurrence → Concurrent
  | .event (.turn id) => w.stride id
  | .event e => { w with world := w.world.step e }
  | .stores r =>
    { w with world := { w.world with
        site := w.world.site.withHub (w.world.hub.store r)
        accepted := w.world.accepted ++ [r] } }
  | .announces s =>
    { w with world := { w.world with site := w.world.site.withHub (w.world.hub.announce s) } }
  | .hush => { w with world := w.world.hush }

/-- What occurrences do, one after the other. -/
def pass (w : Concurrent) (os : List Occurrence) : Concurrent := os.foldl occur w

variable {w : Concurrent}

theorem pass_append (w : Concurrent) (os os' : List Occurrence) :
    w.pass (os ++ os') = (w.pass os).pass os' := List.foldl_append ..

theorem occur_event (w : Concurrent) {e : Event} (he : ∀ id, e ≠ .turn id) :
    w.occur (.event e) = { w with world := w.world.step e } := by
  cases e with
  | turn id => exact absurd rfl (he id)
  | _ => rfl

/-- A stride, with what made it possible. -/
theorem exists_strides {id : Nat} {c : Courier} (hc : w.world.site.courier? id = some c) :
    ∃ h c' g, c.Strides w.world.now w.world.hub (w.stage id) h c' g ∧
      w.stride id =
        { world := { w.world with site := (w.world.site.withHub h).modifyCourier id fun _ => c' }
          stage := fun i => if i = id then g else w.stage i } := by
  cases hs : c.stride w.world.now w.world.hub (w.stage id) with | mk p g => ?_
  obtain ⟨h, c'⟩ := p
  refine ⟨h, c', g, Courier.strides_of_stride hs, ?_⟩
  simp only [stride, hc, hs]

end Concurrent

/-! ## Order -/

namespace World

variable {w w' : World}

/-- Feeds and couriers may change and go away as long as they keep their numbers. -/
theorem Orderly.of_subset (hw : w.Orderly) (hholds : w'.hub.Holds w'.accepted)
    (hbulletin : w'.hub.bulletin.Sound)
    (hnext : w.hub.bulletin.nextId ≤ w'.hub.bulletin.nextId)
    (hfeeds : ∀ f' ∈ w'.feeds, ∃ f ∈ w.feeds, f.id = f'.id)
    (hcouriers : ∀ c' ∈ w'.couriers, ∃ c ∈ w.couriers, c.feed.id = c'.feed.id) : w'.Orderly where
  holds := hholds
  bulletin := hbulletin
  lt_nextId i hi := by
    apply Nat.lt_of_lt_of_le (m := w.hub.bulletin.nextId) _ hnext
    apply hw.lt_nextId
    rcases mem_ids.1 hi with ⟨f', hf', rfl⟩ | ⟨c', hc', rfl⟩
    · obtain ⟨f, hf, hid⟩ := hfeeds f' hf'
      exact mem_ids.2 (.inl ⟨f, hf, hid⟩)
    · obtain ⟨c, hc, hid⟩ := hcouriers c' hc'
      exact mem_ids.2 (.inr ⟨c, hc, hid⟩)
  apart f' hf' c' hc' := by
    obtain ⟨f, hf, hfid⟩ := hfeeds f' hf'
    obtain ⟨c, hc, hcid⟩ := hcouriers c' hc'
    rw [← hfid, ← hcid]
    exact hw.apart f hf c hc

theorem exists_of_modifyFeed {id : Nat} {g : Feed → Feed} (hg : ∀ f, (g f).id = f.id) :
    ∀ f' ∈ (w.modifyFeed id g).feeds, ∃ f ∈ w.feeds, f.id = f'.id := by
  intro f' hf'
  obtain ⟨f, hf, rfl⟩ := List.mem_map.1 hf'
  refine ⟨f, hf, ?_⟩
  split
  · exact (hg f).symm
  · rfl

theorem exists_of_modifyCourier {s : Site} {id : Nat} {g : Courier → Courier}
    (hg : ∀ c ∈ s.couriers, c.feed.id = id → (g c).feed.id = c.feed.id) :
    ∀ c' ∈ (s.modifyCourier id g).couriers, ∃ c ∈ s.couriers, c.feed.id = c'.feed.id := by
  intro c' hc'
  obtain ⟨c, hc, rfl⟩ := List.mem_map.1 hc'
  refine ⟨c, hc, ?_⟩
  split
  · exact (hg c hc ‹_›).symm
  · rfl

theorem exists_of_map {g : Courier → Courier} (hg : ∀ c, (g c).feed = c.feed)
    (cs : List Courier) : ∀ c' ∈ cs.map g, ∃ c ∈ cs, c.feed.id = c'.feed.id := by
  intro c' hc'
  obtain ⟨c, hc, rfl⟩ := List.mem_map.1 hc'
  exact ⟨c, hc, by rw [hg]⟩

theorem exists_feed_of_take (id : Nat) :
    ∀ f' ∈ (w.step (.take id)).feeds, ∃ f ∈ w.feeds, f.id = f'.id := by
  have hfeeds : (w.step (.take id)).feeds = w.feeds := by
    simp only [step]
    split <;> rfl
  rw [hfeeds]
  exact fun f hf => ⟨f, hf, rfl⟩

theorem exists_of_take (id : Nat) :
    ∀ c' ∈ (w.step (.take id)).couriers, ∃ c ∈ w.couriers, c.feed.id = c'.feed.id := by
  rw [couriers, site_take, Site.take]
  cases hc : w.site.courier? id with
  | none => exact fun c hc => ⟨c, hc, rfl⟩
  | some c =>
    obtain ⟨-, rfl⟩ := mem_of_courier? hc
    refine exists_of_modifyCourier fun c' _ hid => ?_
    rw [Courier.feed_take, hid]

/-- What an event leaves of the hub holds what was accepted. -/
theorem Orderly.hub_step (hw : w.Orderly) (e : Event) :
    (w.step e).hub.Holds (w.step e).accepted ∧ (w.step e).hub.bulletin.Sound ∧
      w.hub.bulletin.nextId ≤ (w.step e).hub.bulletin.nextId := by
  rw [accepted_step]
  refine Hub.Becomes.preserves (P := fun h rs => h.Holds rs ∧ h.bulletin.Sound ∧
    w.hub.bulletin.nextId ≤ h.bulletin.nextId) ?_ ?_ ?_ ?_ (w.becomes_step e)
    ⟨hw.holds, hw.bulletin, Nat.le_refl _⟩
  · intro h rs ⟨hh, hb, hn⟩ r
    refine ⟨hh.record r, Hub.sound_record hb r, ?_⟩
    rw [Hub.bulletin_record]
    exact hn
  · intro h rs ⟨hh, hb, hn⟩
    exact ⟨h.agree_subscribe.holds hh, hb.subscribe, Nat.le_succ_of_le hn⟩
  · intro h rs ⟨hh, hb, hn⟩ id
    exact ⟨(h.agree_discard id).holds hh, Hub.sound_discard hb id,
      Nat.le_trans hn (Nat.le_of_eq (h.nextId_discard id).symm)⟩
  · intro h rs ⟨hh, hb, hn⟩ id
    exact ⟨(h.agree_readPing id).holds hh, hb.read id,
      Nat.le_trans hn (Nat.le_of_eq (h.nextId_readPing id).symm)⟩

theorem Orderly.feed_lt (hw : w.Orderly) {f : Feed} (hf : f ∈ w.feeds) :
    f.id < w.hub.bulletin.nextId := hw.lt_nextId _ (id_mem_of_feed hf)

theorem Orderly.courier_lt (hw : w.Orderly) {c : Courier} (hc : c ∈ w.couriers) :
    c.feed.id < w.hub.bulletin.nextId := hw.lt_nextId _ (id_mem_of_courier hc)

/-- Who joins gets a number that nobody has. -/
theorem Orderly.join (hw : w.Orderly) (hholds : w'.hub.Holds w'.accepted)
    (hbulletin : w'.hub.bulletin.Sound)
    (hnext : w.hub.bulletin.nextId < w'.hub.bulletin.nextId)
    (hfeeds : ∀ f ∈ w'.feeds, f ∈ w.feeds ∨
      f.id = w.hub.bulletin.nextId ∧ w'.couriers = w.couriers)
    (hcouriers : ∀ c ∈ w'.couriers, c ∈ w.couriers ∨
      c.feed.id = w.hub.bulletin.nextId ∧ w'.feeds = w.feeds) : w'.Orderly where
  holds := hholds
  bulletin := hbulletin
  lt_nextId i hi := by
    rcases mem_ids.1 hi with ⟨f, hf, rfl⟩ | ⟨c, hc, rfl⟩
    · rcases hfeeds f hf with hold | ⟨hid, -⟩
      · exact Nat.lt_trans (hw.feed_lt hold) hnext
      · rw [hid]
        exact hnext
    · rcases hcouriers c hc with hold | ⟨hid, -⟩
      · exact Nat.lt_trans (hw.courier_lt hold) hnext
      · rw [hid]
        exact hnext
  apart f hf c hc := by
    rcases hfeeds f hf with hold | ⟨hid, hsame⟩
    · rcases hcouriers c hc with hold' | ⟨hid', -⟩
      · exact hw.apart f hold c hold'
      · rw [hid']
        exact Nat.ne_of_lt (hw.feed_lt hold)
    · rw [hsame] at hc
      rw [hid]
      exact (Nat.ne_of_lt (hw.courier_lt hc)).symm

/-- A feed that is launched keeps its number, and is no longer polled by hand. -/
theorem Orderly.launch (hw : w.Orderly) (id capacity keepalive : Nat) (listener : Listener) :
    (w.step (.launch id capacity keepalive listener)).Orderly := by
  cases hf : w.feed? id with
  | none => simpa only [step, hf] using hw
  | some f =>
    obtain ⟨hmem, rfl⟩ := mem_of_feed? hf
    have hstep : w.step (.launch f.id capacity keepalive listener) =
        { w with
          site := w.site.launch f capacity keepalive listener false
          feeds := w.feeds.filter fun f' => f'.id ≠ f.id } := by
      simp only [step, hf]
    rw [hstep]
    refine ⟨hw.holds, hw.bulletin, fun i hi => ?_, fun f' hf' c hc => ?_⟩
    · rcases mem_ids.1 hi with ⟨f', hf', rfl⟩ | ⟨c, hc, rfl⟩
      · exact hw.feed_lt (List.mem_filter.1 hf').1
      · rcases List.mem_append.1 hc with hc | hc
        · exact hw.courier_lt hc
        · rw [List.mem_singleton.1 hc]
          exact hw.feed_lt hmem
    · obtain ⟨hf', hne⟩ := List.mem_filter.1 hf'
      rcases List.mem_append.1 hc with hc | hc
      · exact hw.apart f' hf' c hc
      · rw [List.mem_singleton.1 hc]
        exact of_decide_eq_true hne

/-- Any other event than a turn leaves things in order. -/
theorem Orderly.step (hw : w.Orderly) {e : Event} (he : ∀ id, e ≠ .turn id) :
    (w.step e).Orderly := by
  obtain ⟨hholds, hbulletin, hnext⟩ := hw.hub_step e
  have hfeeds : ∀ f ∈ w.feeds, ∃ f₀ ∈ w.feeds, f₀.id = f.id := fun f hf => ⟨f, hf, rfl⟩
  have hcouriers : ∀ c ∈ w.couriers, ∃ c₀ ∈ w.couriers, c₀.feed.id = c.feed.id :=
    fun c hc => ⟨c, hc, rfl⟩
  cases e with
  | turn id => exact absurd rfl (he id)
  | record | advance => exact hw.of_subset hholds hbulletin hnext hfeeds hcouriers
  | attach f b =>
    cases hv : f.validate with
    | error => simpa only [World.step, Feed.attach, hv] using hw
    | ok =>
      simp only [World.step, Feed.attach, hv] at hholds hbulletin ⊢
      refine hw.join hholds hbulletin (Nat.lt_succ_self _) (fun f' hf' => ?_) fun c hc => .inl hc
      rcases List.mem_append.1 hf' with hf' | hf'
      · exact .inl hf'
      · rw [List.mem_singleton.1 hf']
        exact .inr ⟨rfl, rfl⟩
  | live r =>
    simp only [World.step, openLive_eq] at hholds hbulletin ⊢
    refine hw.join hholds hbulletin (Nat.lt_succ_self _) (fun f hf => .inl hf) fun c hc => ?_
    rcases List.mem_append.1 hc with hc | hc
    · exact .inl hc
    · rw [List.mem_singleton.1 hc]
      exact .inr ⟨rfl, rfl⟩
  | poll id =>
    cases hf : w.feed? id with
    | none => simpa only [World.step, hf] using hw
    | some f =>
      simp only [World.step, hf] at hholds hbulletin hnext ⊢
      exact hw.of_subset hholds hbulletin hnext
        (exists_of_modifyFeed (Feed.id_poll w.hub)) hcouriers
  | pause id | resume id =>
    exact hw.of_subset hholds hbulletin hnext (exists_of_modifyFeed fun _ => rfl)
      (exists_of_modifyCourier fun _ _ _ => rfl)
  | drop id =>
    cases hf : w.feed? id with
    | none => simpa only [World.step, hf] using hw
    | some f =>
      simp only [World.step, hf] at hholds hbulletin hnext ⊢
      exact hw.of_subset hholds hbulletin hnext
        (fun f hf => hfeeds f (List.mem_filter.1 hf).1) hcouriers
  | launch id capacity keepalive listener => exact hw.launch id capacity keepalive listener
  | take id =>
    exact hw.of_subset hholds hbulletin hnext (exists_feed_of_take id) (exists_of_take id)
  | close id | leave id =>
    exact hw.of_subset hholds hbulletin hnext hfeeds (exists_of_modifyCourier fun _ _ _ => rfl)
  | shutdown =>
    exact hw.of_subset hholds hbulletin hnext hfeeds (exists_of_map Courier.feed_call _)

end World

namespace Concurrent

variable {w : Concurrent} {i : Nat} {c : Courier}

/-- Numbers and archives are in order, and no courier has come anywhere before it was launched. -/
structure Orderly (w : Concurrent) : Prop where
  world : w.world.Orderly
  fresh : ∀ i, w.world.hub.bulletin.nextId ≤ i → w.stage i = .fresh

theorem orderly_start (storage : StorageSettings) (stream : StreamSettings) :
    (start storage stream).Orderly where
  world := (World.sound_start storage stream).orderly
  fresh _ _ := rfl

theorem Orderly.stride (hw : w.Orderly) (id : Nat) : (w.stride id).Orderly := by
  cases hc : w.world.site.courier? id with
  | none => simpa only [Concurrent.stride, hc] using hw
  | some c =>
    obtain ⟨h, c', g, hs, hstride⟩ := exists_strides hc
    obtain ⟨hmem, rfl⟩ := World.mem_of_courier? hc
    obtain ⟨hagree, hsound, -⟩ := hs.touches.others hw.world.bulletin
    rw [hstride]
    constructor
    · refine hw.world.of_subset (hagree.holds hw.world.holds) hsound
        (Nat.le_of_eq hs.touches.nextId_eq.symm) (fun f hf => ⟨f, hf, rfl⟩) ?_
      exact World.exists_of_modifyCourier fun a _ ha => hs.id_eq.trans ha.symm
    · intro i hi
      have hle : w.world.hub.bulletin.nextId ≤ i := by
        rw [← hs.touches.nextId_eq]
        exact hi
      have hne : i ≠ c.feed.id :=
        (Nat.ne_of_lt (Nat.lt_of_lt_of_le (hw.world.courier_lt hmem) hle)).symm
      exact (if_neg hne).trans (hw.fresh i hle)

theorem Orderly.occur (hw : w.Orderly) (o : Occurrence) : (w.occur o).Orderly := by
  have hfeeds : ∀ f ∈ w.world.feeds, ∃ f₀ ∈ w.world.feeds, f₀.id = f.id := fun f hf => ⟨f, hf, rfl⟩
  have hcouriers : ∀ c ∈ w.world.couriers, ∃ c₀ ∈ w.world.couriers, c₀.feed.id = c.feed.id :=
    fun c hc => ⟨c, hc, rfl⟩
  cases o with
  | event e =>
    by_cases he : ∃ id, e = .turn id
    · obtain ⟨id, rfl⟩ := he
      exact hw.stride id
    · rw [not_exists] at he
      rw [occur_event w he]
      exact ⟨hw.world.step he, fun i hi => hw.fresh i (Nat.le_trans (hw.world.hub_step e).2.2 hi)⟩
  | stores r =>
    have hbulletin : (w.world.hub.store r).bulletin = w.world.hub.bulletin := Hub.bulletin_store _ r
    have hnext : (w.world.hub.store r).bulletin.nextId = w.world.hub.bulletin.nextId := by
      rw [hbulletin]
    refine ⟨hw.world.of_subset (hw.world.holds.store r) ?_ (Nat.le_of_eq hnext.symm) hfeeds
      hcouriers, fun i hi => hw.fresh i (hnext ▸ hi)⟩
    show (w.world.hub.store r).bulletin.Sound
    rw [hbulletin]
    exact hw.world.bulletin
  | announces s =>
    have hagree : w.world.hub.Agree (w.world.hub.announce s) := ⟨rfl, rfl, rfl⟩
    exact ⟨hw.world.of_subset (hagree.holds hw.world.holds) (hw.world.bulletin.accept s)
      (Nat.le_refl _) hfeeds hcouriers, hw.fresh⟩
  | hush =>
    exact ⟨hw.world.of_subset hw.world.holds hw.world.bulletin (Nat.le_refl _) hfeeds
      (World.exists_of_map Courier.feed_forsake _), hw.fresh⟩

/-- Numbers and archives stay in order, whatever happens. -/
theorem orderly_pass (hw : w.Orderly) (os : List Occurrence) : (w.pass os).Orderly := by
  induction os generalizing w with
  | nil => exact hw
  | cons o os ih => exact ih (hw.occur o)

end Concurrent

/-! ## One courier -/

/-- What an occurrence can make of one courier, of how far it has come, and of its diary. -/
inductive Courier.Happens (now : Nat) (h : Hub) (c : Courier) (g : Stage) (d : Diary) :
    Occurrence → Courier → Stage → Diary → Prop where
  | strides {h' : Hub} {c' : Courier} {g' : Stage} (hs : c.Strides now h g h' c' g') :
    Happens now h c g d (.event (.turn c.feed.id)) c' g' d
  | undergoes {o : Occurrence} {c' : Courier} {d' : Diary} (hu : c.Undergoes o d c' d') :
    Happens now h c g d o c' g d'

namespace Courier

variable {now : Nat} {h : Hub} {c c' : Courier} {g g' : Stage} {d d' : Diary} {o : Occurrence}

/-- A courier that is in the middle of a turn has no delta in hand. -/
theorem Happens.waiting (hh : c.Happens now h g d o c' g' d')
    (hg : g.underWay = true → c.phase = .waiting) (hg' : g'.underWay = true) :
    c'.phase = .waiting := by
  cases hh with
  | strides hs =>
    cases hs with
    | ends | puts | rests | refrains | finds | holds => cases hg'
    | begins _ hp | asks _ hp | rouses _ hp | goesOn hp | looks hp | reaches hp | gathers hp =>
      exact hp
  | undergoes hu =>
    have hp := hg hg'
    cases hu with
    | stays | pauses | resumes | takes | closes | leaves => exact hp
    | hears => unfold call; split <;> exact hp
    | hushes => unfold forsake; split <;> exact hp

/-- What has ended goes on no more. -/
theorem Happens.hasEnded (hh : c.Happens now h g d o c' g' d') (hended : c.hasEnded) :
    c'.hasEnded := by
  cases hh with
  | strides hs =>
    rw [hasEnded_iff] at hended
    cases hs with
    | ends => rfl
    | rests => exact hasEnded_iff.2 hended
    | puts _ hp => rw [hended] at hp; cases hp
    | begins _ hp | asks _ hp | rouses _ hp | refrains hp | goesOn hp | looks hp | reaches hp
    | gathers hp | finds hp | holds hp => rw [hended] at hp; cases hp
  | undergoes hu =>
    cases hu with
    | stays | pauses | resumes | takes | closes | leaves => exact hended
    | hears => unfold call; split <;> exact hended
    | hushes => unfold forsake; split <;> exact hended

/-- A courier that hears calls hears them until nobody is left to call it. -/
theorem Happens.hears (hh : c.Happens now h g d o c' g' d') (ho : o ≠ .hush)
    (hc : c.listener = .listening ∨ c.listener = .called) :
    c'.listener = .listening ∨ c'.listener = .called := by
  cases hh with
  | strides hs =>
    have hne : c.listener ≠ .abandoned := by
      rcases hc with hl | hl <;> rw [hl] <;> exact Listener.noConfusion
    rw [hs.listener_eq hne]
    exact hc
  | undergoes hu =>
    cases hu with
    | stays | pauses | resumes | takes | closes | leaves => exact hc
    | hears =>
      unfold call
      split
      · exact .inr rfl
      · exact hc
    | hushes => exact absurd rfl ho

end Courier

namespace Concurrent

variable {w : Concurrent} {i : Nat} {c : Courier}

theorem courier?_stride {id : Nat} {a c' : Courier} (h : Hub)
    (ha : w.world.site.courier? id = some a) (hid : c'.feed.id = id) (i : Nat) :
    ((w.world.site.withHub h).modifyCourier id fun _ => c').courier? i =
      if i = id then some c' else w.world.site.courier? i := by
  refine ((w.world.site.withHub h).courier?_modifyCourier (fun _ _ _ => hid) i).trans ?_
  show (w.world.site.courier? i).map _ = _
  by_cases hi : i = id
  · simp [hi, ha]
  · simp [hi]

theorem happens_stride (hc : w.world.site.courier? i = some c) (id : Nat) :
    ∃ c', (w.stride id).world.site.courier? i = some c' ∧
      c.Happens w.world.now w.world.hub (w.stage i) (w.world.diary i) (.event (.turn id)) c'
        ((w.stride id).stage i) ((w.stride id).world.diary i) := by
  have hstays : c.Undergoes (.event (.turn id)) (w.world.diary i) c (w.world.diary i) :=
    .stays (by simp) c _
  cases ha : w.world.site.courier? id with
  | none =>
    simp only [stride, ha]
    exact ⟨c, hc, .undergoes hstays⟩
  | some a =>
    obtain ⟨h, a', g, hs, hstride⟩ := exists_strides ha
    obtain ⟨-, rfl⟩ := World.mem_of_courier? ha
    have hcourier := courier?_stride h ha hs.id_eq i
    rw [hstride]
    by_cases hi : i = a.feed.id
    · subst hi
      obtain rfl : a = c := Option.some.inj (ha.symm.trans hc)
      refine ⟨a', hcourier.trans (if_pos rfl), ?_⟩
      show a.Happens _ _ _ _ _ a' (if a.feed.id = a.feed.id then g else _) _
      rw [if_pos rfl]
      exact .strides hs
    · refine ⟨c, hcourier.trans ((if_neg hi).trans hc), ?_⟩
      show c.Happens _ _ _ _ _ c (if i = a.feed.id then g else w.stage i) _
      rw [if_neg hi]
      exact .undergoes hstays

/-- What an occurrence is to one courier. -/
theorem happens_occur (hw : w.Orderly) (hc : w.world.site.courier? i = some c) (o : Occurrence) :
    ∃ c', (w.occur o).world.site.courier? i = some c' ∧
      c.Happens w.world.now w.world.hub (w.stage i) (w.world.diary i) o c' ((w.occur o).stage i)
        ((w.occur o).world.diary i) := by
  cases o with
  | event e =>
    by_cases he : ∃ id, e = .turn id
    · obtain ⟨id, rfl⟩ := he
      exact happens_stride hc id
    · rw [not_exists] at he
      rw [occur_event w he]
      obtain ⟨c', hc', hu⟩ := World.undergoes_step hw.world hc he
      exact ⟨c', hc', .undergoes hu⟩
  | stores r => exact ⟨c, hc, .undergoes (.stays (by simp) c _)⟩
  | announces s => exact ⟨c, hc, .undergoes (.stays (by simp) c _)⟩
  | hush =>
    obtain ⟨c', hc', hu⟩ := World.undergoes_hush hc
    exact ⟨c', hc', .undergoes hu⟩

/-! ## Staying subscribed -/

/-- The feed of that number is a subscriber. -/
def Attached (w : Concurrent) (i : Nat) : Prop :=
  ∃ n, w.world.hub.bulletin.box? i = some ⟨n, true⟩

theorem Attached.stride (ha : w.Attached i) (hw : w.Orderly) (id : Nat) {c' : Courier}
    (hc' : (w.stride id).world.site.courier? i = some c') (hended : c'.hasEnded = false) :
    (w.stride id).Attached i := by
  cases hc : w.world.site.courier? id with
  | none => simpa only [Concurrent.stride, hc] using ha
  | some c =>
    obtain ⟨h, a, g, hs, hstride⟩ := exists_strides hc
    obtain ⟨-, rfl⟩ := World.mem_of_courier? hc
    have hcourier := courier?_stride h hc hs.id_eq i
    rw [hstride] at hc' ⊢
    by_cases hi : i = c.feed.id
    · subst hi
      obtain rfl : a = c' := Option.some.inj ((hcourier.trans (if_pos rfl)).symm.trans hc')
      exact hs.attached hended ha
    · obtain ⟨n, hn⟩ := ha
      refine ⟨n, ?_⟩
      exact ((hs.touches.others hw.world.bulletin).2.2 i hi).trans hn

theorem Attached.event (ha : w.Attached i) (hw : w.Orderly)
    (hc : w.world.site.courier? i = some c) {e : Event} (he : ∀ id, e ≠ .turn id) :
    (w.occur (.event e)).Attached i := by
  obtain ⟨n, hn⟩ := ha
  rw [occur_event w he]
  by_cases hdrop : e = .drop i
  · subst hdrop
    have hnone : w.world.feed? i = none := by
      cases hf : w.world.feed? i with
      | none => rfl
      | some f =>
        obtain ⟨hmem, hid⟩ := World.mem_of_feed? hf
        obtain ⟨hcmem, hcid⟩ := World.mem_of_courier? hc
        exact absurd (hid.trans hcid.symm) (hw.world.apart f hmem c hcmem)
    refine ⟨n, ?_⟩
    simpa only [World.step, hnone] using hn
  · refine (World.turnover_step hw.world e).box?_of_ne hw.world.bulletin (fun id _ hid => ?_) hn
    rcases hid with rfl | rfl
    · intro hi
      exact hdrop (by rw [hi])
    · exact absurd rfl (he id)

/-- A courier stays subscribed as long as it has not ended. -/
theorem attached_occur (ha : w.Attached i) (hw : w.Orderly)
    (hc : w.world.site.courier? i = some c) (o : Occurrence) {c' : Courier}
    (hc' : (w.occur o).world.site.courier? i = some c') (hended : c'.hasEnded = false) :
    (w.occur o).Attached i := by
  cases o with
  | event e =>
    by_cases he : ∃ id, e = .turn id
    · obtain ⟨id, rfl⟩ := he
      exact ha.stride hw id hc' hended
    · rw [not_exists] at he
      exact ha.event hw hc he
  | stores r =>
    obtain ⟨n, hn⟩ := ha
    refine ⟨n, ?_⟩
    show (w.world.hub.store r).bulletin.box? i = _
    rw [Hub.bulletin_store]
    exact hn
  | announces s =>
    obtain ⟨n, hn⟩ := ha
    refine ⟨(w.world.hub.bulletin.ping ⟨n, true⟩).pending, ?_⟩
    show (w.world.hub.bulletin.accept s).box? i = _
    rw [Bulletin.box?_accept, hn, Option.map_some, Bulletin.ping]
    split <;> rfl
  | hush => exact ha

end Concurrent

end SignalHub
