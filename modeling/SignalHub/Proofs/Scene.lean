import SignalHub.Proofs.Pings
import SignalHub.Proofs.Running
/-!
# Subscriptions of every kind

Beside feeds there are subscriptions that somebody holds without a feed: their pings are read, they
are ended, more than once if need be, and they are released. A scene is a world with such holders
and with the register of live streams, through which they are paused by number. A number is entered
when the stream is opened, and struck off when its courier ends.

Results:
* `Scene.step`, `Scene.run`: what deeds do.
* `Scene.Sound`: who has a mailbox, and which numbers are registered.
* `Scene.Sound.step`, `Scene.Sound.run`: deeds keep it.
-/
namespace SignalHub

/-- A subscription that somebody holds without a feed. -/
structure Holder where
  id : Nat
  /-- Whether it was ended. -/
  unsubscribed : Bool
  deriving DecidableEq, Repr

/-- A world, the subscriptions without feeds, and the register of live streams. -/
structure Scene where
  world : World
  holders : List Holder
  /-- The numbers of live streams that can be paused. -/
  register : List Nat

/-- Something that is done. Subscriptions are named by their numbers. -/
inductive Deed where
  | act (a : Act)
  /-- Somebody subscribes without a feed. -/
  | subscribe
  /-- A holder reads a ping, if there is one. -/
  | read (id : Nat)
  /-- A holder ends its subscription. -/
  | unsubscribe (id : Nat)
  /-- A holder gives up its subscription. -/
  | release (id : Nat)
  /-- A live stream is paused or resumed by its number, as it stands in a path. -/
  | switch (value : List UInt8) (paused : Bool)

/-- The answer to a pause switch, and what it changes. -/
theorem Http.answer_serveSwitch (site : Site) (value : List UInt8) (paused : Bool) :
    answer site (serveSwitch site value paused) =
      match pathWord "subscriber_id" value with
      | .error e => (e.response, site)
      | .ok id =>
        if (site.switch? id).isSome then
          (.json 200 (feedJson id paused), site.setPaused id paused)
        else
          ((ApiError.notFound ("live feed " ++ toString id ++ " is not attached")).response,
            site) := by
  rw [serveSwitch]
  cases pathWord "subscriber_id" value with
  | error e => rfl
  | ok id =>
    simp only [bind, Except.bind]
    cases site.switch? id <;> rfl

namespace World

variable {w : World}

theorem keyed_act (hb : w.hub.bulletin.Keyed) (a : Act) : (w.act a).hub.bulletin.Keyed := by
  rcases w.hub_act a with ⟨about, f, rfl, hasked⟩ | ⟨-, hbecomes⟩
  · rw [hasked, (w.hub.bulletin_ask about f).1]
    exact hb
  · refine @Hub.Becomes.preserves (fun h _ => h.bulletin.Keyed) (fun hb r => ?_)
      (fun hb => hb.subscribe) (fun hb id => ?_) (fun hb id => hb.read id) _ _ [] _ hbecomes hb
    · rw [Hub.bulletin_record]
      exact hb.accept r.signal
    · exact Hub.keyed_discard hb id

end World

namespace Scene

/-- Nothing has happened yet. -/
def start (storage : StorageSettings) (stream : StreamSettings) : Scene :=
  ⟨.start storage stream, [], []⟩

/-- The hub. -/
def hub (s : Scene) : Hub := s.world.hub

/-- Replaces the hub. -/
def withHub (s : Scene) (h : Hub) : Scene :=
  { s with world := { s.world with site := s.world.site.withHub h } }

/-- The holder of that number. -/
def holder? (s : Scene) (id : Nat) : Option Holder := s.holders.find? (·.id == id)

/-- What a deed does. Nothing, if it is about a subscription that is not there. -/
def step (s : Scene) : Deed → Scene
  | .act a =>
    { s with
      world := s.world.act a
      register := (s.register.filter fun id => s.world.closed? a ≠ some id) ++
        (s.world.opened? a).toList }
  | .subscribe =>
    { s.withHub s.hub.subscribe.2 with holders := s.holders ++ [⟨s.hub.subscribe.1, false⟩] }
  | .read id =>
    match s.holder? id with
    | none => s
    | some _ => s.withHub (s.hub.readPing id).2
  | .unsubscribe id =>
    match s.holder? id with
    | none => s
    | some _ =>
      { s.withHub (s.hub.unsubscribe id) with
        holders := s.holders.map fun o => if o.id = id then { o with unsubscribed := true } else o }
  | .release id =>
    match s.holder? id with
    | none => s
    | some _ =>
      { s.withHub (s.hub.discard id) with holders := s.holders.filter fun o => o.id ≠ id }
  | .switch value paused =>
    { s with
      world := { s.world with
        site := (Http.answer s.world.site (Http.serveSwitch s.world.site value paused)).2 } }

/-- What deeds do, one after the other. -/
def run (s : Scene) (ds : List Deed) : Scene := ds.foldl step s

/-- What holds of every scene. -/
structure Sound (s : Scene) : Prop where
  world : s.world.Sound
  keyed : s.hub.bulletin.Keyed
  nodup : (s.holders.map (·.id)).Nodup
  apart : ∀ o ∈ s.holders, o.id ∉ s.world.ids
  held : ∀ o ∈ s.holders, ∃ n, s.hub.bulletin.box? o.id = some ⟨n, !o.unsubscribed⟩
  /-- No mailbox is without its owner. -/
  owned : ∀ i, s.hub.bulletin.box? i ≠ none → i ∈ s.world.ids ∨ ∃ o ∈ s.holders, o.id = i
  register_iff : ∀ i, i ∈ s.register ↔ s.world.Runs i
  register_nodup : s.register.Nodup

variable {s : Scene} {i id : Nat}

theorem run_cons (s : Scene) (d : Deed) (ds : List Deed) :
    s.run (d :: ds) = (s.step d).run ds := rfl

theorem sound_start (storage : StorageSettings) (stream : StreamSettings) :
    (start storage stream).Sound where
  world := World.sound_start storage stream
  keyed := Bulletin.keyed_empty _
  nodup := List.nodup_nil
  apart := by simp [start]
  held := by simp [start]
  owned i h := absurd rfl h
  register_iff i := by simp [start, World.Runs, World.start, World.couriers, Site.start]
  register_nodup := List.nodup_nil

namespace Sound

/-- What somebody without a feed does to the hub. -/
theorem change (hs : s.Sound) {h : Hub} {holders : List Holder} (ha : s.hub.Agree h)
    (hk : h.bulletin.Keyed) (hnext : s.hub.bulletin.nextId ≤ h.bulletin.nextId)
    (hbox : ∀ i ∈ s.world.ids, h.bulletin.box? i = s.hub.bulletin.box? i)
    (hnodup : (holders.map (·.id)).Nodup) (hapart : ∀ o ∈ holders, o.id ∉ s.world.ids)
    (hheld : ∀ o ∈ holders, ∃ n, h.bulletin.box? o.id = some ⟨n, !o.unsubscribed⟩)
    (howned : ∀ i ∉ s.world.ids, h.bulletin.box? i ≠ none → ∃ o ∈ holders, o.id = i) :
    ({ s.withHub h with holders := holders } : Scene).Sound where
  world := hs.world.withHub ha hk.sound hnext hbox
  keyed := hk
  nodup := hnodup
  apart := hapart
  held := hheld
  owned i hi := or_iff_not_imp_left.2 fun hmem => howned i hmem hi
  register_iff i := (hs.register_iff i).trans (World.runs_congr rfl).symm
  register_nodup := hs.register_nodup

theorem lt_nextId (hs : s.Sound) {o : Holder} (ho : o ∈ s.holders) :
    o.id < s.hub.bulletin.nextId := by
  obtain ⟨n, hn⟩ := hs.held o ho
  exact Bulletin.lt_nextId_of_box? hs.keyed.sound hn

theorem subscribe (hs : s.Sound) : (s.step .subscribe).Sound := by
  have hb := hs.keyed.sound
  have hbox := Hub.box?_subscribe hb
  have hold : ∀ i, i < s.hub.bulletin.nextId →
      s.hub.subscribe.2.bulletin.box? i = s.hub.bulletin.box? i := fun i hi => by
    rw [hbox, if_neg (Nat.ne_of_lt hi)]
  refine hs.change s.hub.agree_subscribe hs.keyed.subscribe (Nat.le_succ _)
    (fun i hi => hold i (hs.world.lt_nextId i hi)) ?_ (fun o ho => ?_) (fun o ho => ?_)
    fun i hi hne => ?_
  · rw [List.map_append, List.nodup_append]
    refine ⟨hs.nodup, by simp, fun i hi j hj => ?_⟩
    obtain ⟨o, ho, rfl⟩ := List.mem_map.1 hi
    rw [List.mem_singleton.1 hj]
    exact Nat.ne_of_lt (hs.lt_nextId ho)
  · rcases List.mem_append.1 ho with ho | ho
    · exact hs.apart o ho
    · rw [List.mem_singleton.1 ho]
      exact hs.world.nextId_not_mem
  · rcases List.mem_append.1 ho with ho | ho
    · rw [hold o.id (hs.lt_nextId ho)]
      exact hs.held o ho
    · rw [List.mem_singleton.1 ho]
      exact ⟨0, by rw [hbox]; exact if_pos rfl⟩
  · rw [hbox] at hne
    by_cases hnext : i = s.hub.bulletin.nextId
    · exact ⟨_, List.mem_append_right _ (List.mem_singleton_self _), hnext.symm⟩
    · rw [if_neg hnext] at hne
      obtain ⟨o, ho, rfl⟩ := (hs.owned i hne).resolve_left hi
      exact ⟨o, List.mem_append_left _ ho, rfl⟩

theorem mem_of_holder? {o : Holder} (ho : s.holder? id = some o) : o ∈ s.holders ∧ o.id = id :=
  ⟨List.mem_of_find?_eq_some ho, by simpa using List.find?_some ho⟩

theorem read (hs : s.Sound) (id : Nat) : (s.step (.read id)).Sound := by
  cases ho : s.holder? id with
  | none => simpa only [step, ho] using hs
  | some o =>
    obtain ⟨hmem, rfl⟩ := mem_of_holder? ho
    simp only [step, ho]
    refine hs.change (s.hub.agree_readPing o.id) (hs.keyed.read o.id)
      (Nat.le_of_eq (s.hub.nextId_readPing o.id).symm) (fun i hi => ?_) hs.nodup hs.apart
      (fun a ha => ?_) fun i hi hne => ?_
    · have hother : i ≠ o.id := fun h => hs.apart o hmem (h ▸ hi)
      rw [Hub.box?_readPing]
      simp [hother]
    · obtain ⟨n, hn⟩ := hs.held a ha
      rw [Hub.box?_readPing, hn, Option.map_some]
      split <;> exact ⟨_, rfl⟩
    · refine (hs.owned i fun hnone => hne ?_).resolve_left hi
      rw [Hub.box?_readPing, hnone, Option.map_none]

theorem unsubscribe (hs : s.Sound) (id : Nat) : (s.step (.unsubscribe id)).Sound := by
  cases ho : s.holder? id with
  | none => simpa only [step, ho] using hs
  | some o =>
    obtain ⟨hmem, rfl⟩ := mem_of_holder? ho
    simp only [step, ho]
    have hids : ∀ a : Holder,
        (if a.id = o.id then { a with unsubscribed := true } else a).id = a.id := by
      intro a
      split <;> rfl
    refine hs.change (s.hub.agree_unsubscribe o.id) (Hub.keyed_unsubscribe hs.keyed o.id)
      (Nat.le_of_eq (s.hub.nextId_unsubscribe o.id).symm) (fun i hi => ?_) ?_ (fun a ha => ?_)
      (fun a ha => ?_) fun i hi hne => ?_
    · have hother : i ≠ o.id := fun h => hs.apart o hmem (h ▸ hi)
      rw [Hub.box?_unsubscribe]
      simp [hother]
    · rw [List.map_map]
      simp only [Function.comp_def, hids]
      exact hs.nodup
    · obtain ⟨b, hb, rfl⟩ := List.mem_map.1 ha
      rw [hids]
      exact hs.apart b hb
    · obtain ⟨b, hb, rfl⟩ := List.mem_map.1 ha
      obtain ⟨n, hn⟩ := hs.held b hb
      refine ⟨n, ?_⟩
      rw [hids, Hub.box?_unsubscribe, hn, Option.map_some]
      split <;> rfl
    · obtain ⟨b, hb, rfl⟩ := (hs.owned i fun hnone => hne (by
        rw [Hub.box?_unsubscribe, hnone, Option.map_none])).resolve_left hi
      exact ⟨_, List.mem_map_of_mem hb, hids b⟩

theorem release (hs : s.Sound) (id : Nat) : (s.step (.release id)).Sound := by
  cases ho : s.holder? id with
  | none => simpa only [step, ho] using hs
  | some o =>
    obtain ⟨hmem, rfl⟩ := mem_of_holder? ho
    simp only [step, ho]
    refine hs.change (s.hub.agree_discard o.id) (Hub.keyed_discard hs.keyed o.id)
      (Nat.le_of_eq (s.hub.nextId_discard o.id).symm) (fun i hi => ?_)
      ((List.filter_sublist.map _).nodup hs.nodup) (fun a ha => hs.apart a (List.mem_filter.1 ha).1)
      (fun a ha => ?_) fun i hi hne => ?_
    · have hother : i ≠ o.id := fun h => hs.apart o hmem (h ▸ hi)
      rw [Hub.box?_discard, if_neg hother]
    · obtain ⟨ha, hne⟩ := List.mem_filter.1 ha
      rw [Hub.box?_discard, if_neg (of_decide_eq_true hne)]
      exact hs.held a ha
    · rw [Hub.box?_discard] at hne
      by_cases hio : i = o.id
      · rw [if_pos hio] at hne
        exact absurd rfl hne
      · rw [if_neg hio] at hne
        obtain ⟨b, hb, rfl⟩ := (hs.owned i hne).resolve_left hi
        exact ⟨b, List.mem_filter.2 ⟨hb, decide_eq_true hio⟩, rfl⟩

theorem event (hs : s.Sound) (e : Event) : (s.step (.act (.event e))).Sound := by
  have hturnover := World.turnover_step hs.world.orderly e
  have hregister : ∀ i, i ∈ (s.step (.act (.event e))).register ↔
      (i ∈ s.register ∧ s.world.closed? (.event e) ≠ some i) ∨
        s.world.opened? (.event e) = some i := by
    intro i
    simp only [step, List.mem_append, List.mem_filter, decide_eq_true_eq, Option.mem_toList]
  refine ⟨hs.world.step e, World.keyed_act hs.keyed (.event e), hs.nodup, fun o ho hmem => ?_,
    fun o ho => ?_, fun i hi => ?_, fun i => ?_, ?_⟩
  · rcases hturnover.mem_ids hmem with hold | hnext
    · exact hs.apart o ho hold
    · exact Nat.ne_of_lt (hs.lt_nextId ho) hnext
  · obtain ⟨n, hn⟩ := hs.held o ho
    refine hturnover.box?_of_ne hs.keyed.sound (fun id hid _ he => ?_) hn
    exact hs.apart o ho (he.symm ▸ hid)
  · rcases hturnover.owner hi with hmem | ⟨hmem, hbox⟩
    · exact .inl hmem
    · exact .inr ((hs.owned i hbox).resolve_left hmem)
  · rw [hregister, hs.register_iff]
    exact (World.runs_step hs.world e).symm
  · refine List.nodup_append.2 ⟨hs.register_nodup.filter _, ?_, fun i hi j hj => ?_⟩
    · cases s.world.opened? (.event e) <;> simp
    · -- The number of a stream that is opened is new.
      obtain ⟨c, hc, rfl, -⟩ := (hs.register_iff i).1 (List.mem_filter.1 hi).1
      have hlt := hs.world.lt_nextId _ (World.id_mem_of_courier hc)
      cases e with
      | live r =>
        rw [World.opened?_live] at hj
        rw [← Option.mem_some.1 (Option.mem_toList.1 hj)]
        exact Nat.ne_of_lt hlt
      | _ => cases hj

/-- The courier of a live stream is paused or resumed. -/
theorem setPaused (hs : s.Sound) (id : Nat) (paused : Bool) :
    ({ s with world :=
      { s.world with site := s.world.site.setPaused id paused } } : Scene).Sound := by
  have hid : ∀ c : Courier,
      ({ c with feed := if paused then c.feed.pause else c.feed.resume } : Courier).feed.id =
        c.feed.id := by
    intro c
    cases paused <;> rfl
  have hworld := hs.world.modifyCourier id hid fun c hc => by
    cases paused with
    | true => exact (hs.world.couriers c hc).pause
    | false => exact (hs.world.couriers c hc).resume
  have hids := World.ids_modifyCourier (w := s.world) fun c _ (_ : c.feed.id = id) => hid c
  refine ⟨hworld, hs.keyed, hs.nodup, fun o ho hmem => hs.apart o ho (hids ▸ hmem), hs.held,
    fun i hi => (hs.owned i hi).imp_left fun h => hids ▸ h, fun i => ?_, hs.register_nodup⟩
  refine (hs.register_iff i).trans (World.runs_modify rfl fun c _ _ => ⟨hid c, rfl, rfl⟩).symm

theorem switch (hs : s.Sound) (value : List UInt8) (paused : Bool) :
    (s.step (.switch value paused)).Sound := by
  simp only [step, Http.answer_serveSwitch]
  split
  · exact hs
  · split
    · exact hs.setPaused _ paused
    · exact hs

/-- A deed that is an act, if it opens no live stream and none ends by it. -/
theorem quiet {a : Act} {w' : World} (hw : s.world.act a = w') (hopened : s.world.opened? a = none)
    (hclosed : s.world.closed? a = none) : s.step (.act a) = { s with world := w' } := by
  simp [step, hw, hopened, hclosed]

theorem run_records (s : Scene) (rs : List Record) :
    s.run (rs.map fun r => .act (.event (.record r))) =
      { s with world := s.world.run (rs.map .record) } := by
  induction rs generalizing s with
  | nil => rfl
  | cons r rs ih =>
    have hact : s.world.act (.event (.record r)) = s.world.step (.record r) := rfl
    rw [List.map_cons, run_cons, ih, quiet hact rfl rfl]
    rfl

theorem run_events (hs : s.Sound) (es : List Event) :
    (s.run (es.map fun e => .act (.event e))).Sound := by
  induction es generalizing s with
  | nil => exact hs
  | cons e es ih => exact ih (hs.event e)

theorem act (hs : s.Sound) (a : Act) : (s.step (.act a)).Sound := by
  cases a with
  | event e => exact hs.event e
  | query about f =>
    rw [quiet rfl rfl rfl]
    obtain ⟨hbulletin, hagree⟩ := s.hub.bulletin_ask about f
    have hbox : ∀ i, (s.hub.ask about f).bulletin.box? i = s.hub.bulletin.box? i := fun i => by
      rw [hbulletin]
    exact hs.change (h := s.hub.ask about f) hagree (hbulletin.symm ▸ hs.keyed)
      (by rw [hbulletin]) (fun i _ => hbox i) hs.nodup hs.apart
      (fun o ho => by rw [hbox]; exact hs.held o ho)
      fun i hi hne => (hs.owned i (hbox i ▸ hne)).resolve_left hi
  | trace value =>
    rw [quiet (s.world.act_trace value) rfl rfl]
    exact hs
  | post signal receivedAt r =>
    rw [quiet (s.world.act_post signal receivedAt r) rfl rfl, ← run_records]
    have hrun := hs.run_events ((Http.kept signal receivedAt r).map .record)
    rwa [List.map_map] at hrun

/-- Every deed keeps what holds of scenes. -/
theorem step (hs : s.Sound) (d : Deed) : (s.step d).Sound := by
  cases d with
  | act a => exact hs.act a
  | subscribe => exact hs.subscribe
  | read id => exact hs.read id
  | unsubscribe id => exact hs.unsubscribe id
  | release id => exact hs.release id
  | switch value paused => exact hs.switch value paused

theorem run (hs : s.Sound) (ds : List Deed) : (s.run ds).Sound := by
  induction ds generalizing s with
  | nil => exact hs
  | cons d ds ih => exact ih (hs.step d)

end Sound

end Scene

end SignalHub
