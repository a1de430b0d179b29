import SignalHub.Proofs.Soundness
/-!
# What holds of every world

Results:
* `World.Sound`: the invariant.
* `World.Orderly`: the part of it that is not about what feeds have read.
* `World.Sound.step`, `World.Sound.run`: events keep it.
-/
namespace SignalHub

/-- The feed of a live stream that has just been opened. -/
def Http.LiveRequest.feed (r : LiveRequest) (site : Site) : Feed :=
  ⟨site.hub.bulletin.nextId, r.filter, Feed.startCursor site.hub (r.window site.stream), r.paused,
    false⟩

/-- Live streams are always opened, since there is no limit that could be wrong. -/
theorem openLive_eq (site : Site) (r : Http.LiveRequest) : Http.openLive site r =
    .ok (⟨200, some "text/event-stream", .events (r.feed site).id r.paused, none⟩,
      (site.withHub site.hub.subscribe.2).launch (r.feed site) Http.liveCapacity
        (site.stream.keepaliveSeconds.toNat * 1000) .listening true) := by
  cases hp : r.paused <;>
    simp [Http.openLive, Http.LiveRequest.feed, Feed.attach, Filter.validate,
      Http.LiveRequest.filter, Hub.subscribe, Except.mapError, hp, Feed.pause] <;> rfl

namespace World

variable {w : World}

/-- The numbers of all feeds. -/
def ids (w : World) : List Nat := w.feeds.map (·.id) ++ w.couriers.map (·.feed.id)

/-- The invariant. -/
structure Sound (w : World) : Prop where
  holds : w.hub.Holds w.accepted
  bulletin : w.hub.bulletin.Sound
  nodup : w.ids.Nodup
  lt_nextId : ∀ i ∈ w.ids, i < w.hub.bulletin.nextId
  feeds : ∀ f ∈ w.feeds, f.Sound w.hub w.accepted (w.diary f.id)
  couriers : ∀ c ∈ w.couriers, c.Sound w.now w.hub w.accepted (w.diary c.feed.id)

/-- The archives hold what was accepted, and every number was given to one feed only, which is
polled by hand or run by a courier. -/
structure Orderly (w : World) : Prop where
  holds : w.hub.Holds w.accepted
  bulletin : w.hub.bulletin.Sound
  lt_nextId : ∀ i ∈ w.ids, i < w.hub.bulletin.nextId
  apart : ∀ f ∈ w.feeds, ∀ c ∈ w.couriers, f.id ≠ c.feed.id

theorem sound_start (storage : StorageSettings) (stream : StreamSettings) :
    (start storage stream).Sound where
  holds := Hub.holds_empty storage
  bulletin := Bulletin.sound_empty _
  nodup := List.nodup_nil
  lt_nextId := by simp [start, ids, couriers, Site.start]
  feeds := by simp [start]
  couriers := by simp [start, couriers, Site.start]

theorem id_mem_of_feed {f : Feed} (hf : f ∈ w.feeds) : f.id ∈ w.ids :=
  List.mem_append_left _ (List.mem_map_of_mem hf)

theorem id_mem_of_courier {c : Courier} (hc : c ∈ w.couriers) : c.feed.id ∈ w.ids :=
  List.mem_append_right _ (List.mem_map_of_mem hc)

theorem mem_of_feed? {id : Nat} {f : Feed} (hf : w.feed? id = some f) : f ∈ w.feeds ∧ f.id = id :=
  ⟨List.mem_of_find?_eq_some hf, by simpa using List.find?_some hf⟩

theorem mem_of_courier? {id : Nat} {c : Courier} (hc : w.site.courier? id = some c) :
    c ∈ w.couriers ∧ c.feed.id = id :=
  ⟨List.mem_of_find?_eq_some hc, by simpa using List.find?_some hc⟩

namespace Sound

variable {w' : World}

theorem eq_of_id_eq (hw : w.Sound) {c c' : Courier} (hc : c ∈ w.couriers) (hc' : c' ∈ w.couriers)
    (h : c.feed.id = c'.feed.id) : c = c' :=
  List.inj_on_of_nodup_map (List.Nodup.of_append_right hw.nodup) hc hc' h

theorem eq_of_feed_id_eq (hw : w.Sound) {f f' : Feed} (hf : f ∈ w.feeds) (hf' : f' ∈ w.feeds)
    (h : f.id = f'.id) : f = f' :=
  List.inj_on_of_nodup_map (List.Nodup.of_append_left hw.nodup) hf hf' h

theorem feed_id_ne (hw : w.Sound) {f : Feed} {c : Courier} (hf : f ∈ w.feeds)
    (hc : c ∈ w.couriers) : f.id ≠ c.feed.id :=
  (List.nodup_append.1 hw.nodup).2.2 _ (List.mem_map_of_mem hf) _ (List.mem_map_of_mem hc)

theorem orderly (hw : w.Sound) : w.Orderly :=
  ⟨hw.holds, hw.bulletin, hw.lt_nextId, fun _ hf _ hc => hw.feed_id_ne hf hc⟩

/-- Feeds and couriers may change as long as they keep their numbers and stay sound. -/
theorem map (hw : w.Sound) {k : Feed → Feed} {g : Courier → Courier}
    (hfeeds : w'.feeds = w.feeds.map k) (hcouriers : w'.couriers = w.couriers.map g)
    (hk : ∀ f, (k f).id = f.id) (hg : ∀ c, (g c).feed.id = c.feed.id)
    (hholds : w'.hub.Holds w'.accepted) (hbulletin : w'.hub.bulletin.Sound)
    (hnext : w.hub.bulletin.nextId ≤ w'.hub.bulletin.nextId)
    (hf : ∀ f ∈ w.feeds, (k f).Sound w'.hub w'.accepted (w'.diary f.id))
    (hc : ∀ c ∈ w.couriers, (g c).Sound w'.now w'.hub w'.accepted (w'.diary c.feed.id)) :
    w'.Sound := by
  have hids : w'.ids = w.ids := by
    simp only [ids, hfeeds, hcouriers, List.map_map, Function.comp_def, hk, hg]
  refine ⟨hholds, hbulletin, by rw [hids]; exact hw.nodup, fun i hi => ?_, fun f hf' => ?_,
    fun c hc' => ?_⟩
  · rw [hids] at hi
    exact Nat.lt_of_lt_of_le (hw.lt_nextId i hi) hnext
  · rw [hfeeds] at hf'
    obtain ⟨f₀, hf₀, rfl⟩ := List.mem_map.1 hf'
    rw [hk]; exact hf f₀ hf₀
  · rw [hcouriers] at hc'
    obtain ⟨c₀, hc₀, rfl⟩ := List.mem_map.1 hc'
    rw [hg]; exact hc c₀ hc₀

/-- The hub may change as long as its archives and the mailboxes of all feeds are the same. -/
theorem withHub (hw : w.Sound) {h : Hub} (ha : w.hub.Agree h) (hb : h.bulletin.Sound)
    (hnext : w.hub.bulletin.nextId ≤ h.bulletin.nextId)
    (hbox : ∀ i ∈ w.ids, h.bulletin.box? i = w.hub.bulletin.box? i) :
    ({ w with site := w.site.withHub h }).Sound := by
  refine hw.map (List.map_id' _).symm (List.map_id' _).symm (fun _ => rfl) (fun _ => rfl)
    (ha.holds hw.holds) hb hnext (fun f hf => ?_) (fun c hc => ?_)
  · exact (hw.feeds f hf).frame ha (hbox _ (id_mem_of_feed hf))
  · exact (hw.couriers c hc).frame (Nat.le_refl _) ha (hbox _ (id_mem_of_courier hc))

/-- The diary of a feed that is not there may change. -/
theorem write (hw : w.Sound) {id : Nat} (hid : id ∉ w.ids) (d : Diary) : (w.write id d).Sound := by
  refine ⟨hw.holds, hw.bulletin, hw.nodup, hw.lt_nextId, fun f hf => ?_, fun c hc => ?_⟩
  · have hne : f.id ≠ id := fun he => hid (he ▸ id_mem_of_feed hf)
    rw [diary_write_of_ne hne]; exact hw.feeds f hf
  · have hne : c.feed.id ≠ id := fun he => hid (he ▸ id_mem_of_courier hc)
    rw [diary_write_of_ne hne]; exact hw.couriers c hc

theorem addFeed (hw : w.Sound) {f : Feed} {d : Diary} (hid : f.id ∉ w.ids)
    (hlt : f.id < w.hub.bulletin.nextId) (hd : w.diary f.id = d)
    (hf : f.Sound w.hub w.accepted d) :
    ({ w with feeds := w.feeds ++ [f] }).Sound := by
  have hids : ({ w with feeds := w.feeds ++ [f] } : World).ids.Perm (f.id :: w.ids) := by
    simp only [ids, List.map_append, List.map_cons, List.map_nil, List.append_assoc]
    exact List.perm_middle
  refine ⟨hw.holds, hw.bulletin, hids.nodup_iff.2 (List.nodup_cons.2 ⟨hid, hw.nodup⟩),
    fun i hi => ?_, fun f' hf' => ?_, hw.couriers⟩
  · rcases List.mem_cons.1 (hids.mem_iff.1 hi) with rfl | hi
    · exact hlt
    · exact hw.lt_nextId i hi
  · rcases List.mem_append.1 hf' with hf' | hf'
    · exact hw.feeds f' hf'
    · rw [List.mem_singleton.1 hf']; exact hd ▸ hf

theorem addCourier (hw : w.Sound) {c : Courier} {d : Diary} (hid : c.feed.id ∉ w.ids)
    (hlt : c.feed.id < w.hub.bulletin.nextId) (hd : w.diary c.feed.id = d)
    (hc : c.Sound w.now w.hub w.accepted d) :
    ({ w with site := { w.site with couriers := w.site.couriers ++ [c] } }).Sound := by
  have hids : ({ w with site := { w.site with couriers := w.site.couriers ++ [c] } } : World).ids =
      w.ids ++ [c.feed.id] := by
    simp only [ids, World.couriers, List.map_append, List.map_cons, List.map_nil,
      List.append_assoc]
  refine ⟨hw.holds, hw.bulletin, ?_, fun i hi => ?_, hw.feeds, fun c' hc' => ?_⟩
  · rw [hids, List.nodup_append]
    refine ⟨hw.nodup, by simp, fun a ha b hb => ?_⟩
    rw [List.mem_singleton.1 hb]
    exact fun he => hid (he ▸ ha)
  · rw [hids] at hi
    rcases List.mem_append.1 hi with hi | hi
    · exact hw.lt_nextId i hi
    · rw [List.mem_singleton.1 hi]; exact hlt
  · rcases List.mem_append.1 hc' with hc' | hc'
    · exact hw.couriers c' hc'
    · rw [List.mem_singleton.1 hc']; exact hd ▸ hc

theorem dropFeed (hw : w.Sound) (id : Nat) :
    ({ w with feeds := w.feeds.filter fun f => f.id ≠ id }).Sound := by
  have hsub : List.Sublist ({ w with feeds := w.feeds.filter fun f => f.id ≠ id } : World).ids
      w.ids := (List.filter_sublist.map _).append (List.Sublist.refl _)
  exact ⟨hw.holds, hw.bulletin, hsub.nodup hw.nodup, fun i hi => hw.lt_nextId i (hsub.subset hi),
    fun f hf => hw.feeds f (List.mem_filter.1 hf).1, hw.couriers⟩

/-! ## Subscribing -/

theorem nextId_not_mem (hw : w.Sound) : w.hub.bulletin.nextId ∉ w.ids :=
  fun h => Nat.lt_irrefl _ (hw.lt_nextId _ h)

/-- There is one more subscriber, and its diary is opened. -/
theorem subscribe (hw : w.Sound) (b : PerSignal Nat) :
    ({ w with site := w.site.withHub w.hub.subscribe.2 }.write w.hub.bulletin.nextId
      (.opened w.hub b)).Sound := by
  have hsub := hw.withHub w.hub.agree_subscribe hw.bulletin.subscribe (Nat.le_succ _)
    fun i hi => by
      rw [Hub.box?_subscribe hw.bulletin, if_neg (Nat.ne_of_lt (hw.lt_nextId i hi))]
  exact hsub.write hw.nextId_not_mem _

theorem box?_subscribe_self (hw : w.Sound) :
    w.hub.subscribe.2.bulletin.box? w.hub.bulletin.nextId = some ⟨0, true⟩ := by
  rw [Hub.box?_subscribe hw.bulletin, if_pos rfl]

theorem follows_subscribe (b : PerSignal Nat) {f : Feed}
    (hf : f.cursor = Feed.startCursor w.hub b) :
    f.Follows (Diary.opened w.hub b) w.hub.subscribe.2 w.accepted :=
  (Feed.follows_startCursor hf).agree w.hub.agree_subscribe

/-! ## Events -/

theorem record (hw : w.Sound) (r : Record) : (w.step (.record r)).Sound := by
  refine hw.map (List.map_id' _).symm (List.map_id' _).symm (fun _ => rfl) (fun _ => rfl)
    (hw.holds.record r) (Hub.sound_record hw.bulletin r) ?_ (fun f hf => ?_) (fun c hc => ?_)
  · show _ ≤ (w.hub.record r).2.bulletin.nextId
    rw [Hub.bulletin_record]; exact Nat.le_refl _
  · exact (hw.feeds f hf).record hw.holds hw.bulletin r
  · exact (hw.couriers c hc).record hw.holds hw.bulletin r

theorem attach (hw : w.Sound) (f : Filter) (b : PerSignal Nat) : (w.step (.attach f b)).Sound := by
  cases hv : f.validate with
  | error e => simpa only [step, Feed.attach, hv] using hw
  | ok =>
    simp only [step, Feed.attach, hv]
    refine (hw.subscribe b).addFeed hw.nextId_not_mem (Nat.lt_succ_self _)
      (diary_write_self _ _ _) ?_
    exact ⟨follows_subscribe b rfl, ⟨0, hw.box?_subscribe_self⟩, rfl⟩

theorem live (hw : w.Sound) (r : Http.LiveRequest) : (w.step (.live r)).Sound := by
  simp only [step, openLive_eq]
  refine (hw.subscribe (r.window w.site.stream)).addCourier hw.nextId_not_mem
    (Nat.lt_succ_self _) (diary_write_self _ _ _) ?_
  exact ⟨follows_subscribe _ rfl,
    fun _ => ⟨0, hw.box?_subscribe_self, fun _ _ => Or.inr (Or.inr (Nat.le_refl _))⟩,
    fun he => by simp [Courier.start, Courier.hasEnded] at he,
    fun _ => rfl, fun _ => ⟨rfl, Or.inl rfl⟩⟩

/-! ## Events about one feed -/

theorem courier?_eq (hw : w.Sound) {c : Courier} (hc : c ∈ World.couriers w) :
    w.site.courier? c.feed.id = some c := by
  have hsome : (w.site.courier? c.feed.id).isSome := by
    rw [Site.courier?, List.find?_isSome]
    exact ⟨c, hc, by simp⟩
  obtain ⟨a, ha⟩ := Option.isSome_iff_exists.1 hsome
  obtain ⟨hmem, hid⟩ := mem_of_courier? ha
  rw [ha, hw.eq_of_id_eq hmem hc hid]

/-- A courier may change, with its diary and the hub, if others do not notice. -/
theorem changeCourier (hw : w.Sound) {id : Nat} {c c' : Courier} {h : Hub} {d : Diary}
    (hc : w.site.courier? id = some c) (hid : c'.feed.id = id) (ha : w.hub.Agree h)
    (hb : h.bulletin.Sound) (hnext : w.hub.bulletin.nextId ≤ h.bulletin.nextId)
    (hbox : ∀ i, i ≠ id → h.bulletin.box? i = w.hub.bulletin.box? i)
    (hc' : c'.Sound w.now h w.accepted d) :
    ({ w with site := (w.site.withHub h).modifyCourier id fun _ => c' }.write id d).Sound := by
  obtain ⟨hmem, hcid⟩ := mem_of_courier? hc
  refine hw.map (g := fun a => if a.feed.id = id then c' else a) (List.map_id' _).symm rfl
    (fun _ => rfl) (fun a => ?_) (ha.holds hw.holds) hb hnext (fun f hf => ?_) (fun a hmem' => ?_)
  · split
    · rename_i he; rw [hid, he]
    · rfl
  · have hne : f.id ≠ id := hcid ▸ hw.feed_id_ne hf hmem
    rw [diary_write_of_ne hne]
    exact (hw.feeds f hf).frame ha (hbox _ hne)
  · by_cases he : a.feed.id = id
    · rw [if_pos he, he, diary_write_self]
      exact hc'
    · rw [if_neg he, diary_write_of_ne he]
      exact (hw.couriers a hmem').frame (Nat.le_refl _) ha (hbox _ he)

theorem turn (hw : w.Sound) (id : Nat) : (w.step (.turn id)).Sound := by
  cases hc : w.site.courier? id with
  | none => simpa only [step, hc] using hw
  | some c =>
    cases ht : c.turn w.now w.hub with
    | none => simpa only [step, hc, ht] using hw
    | some p =>
      obtain ⟨h', c'⟩ := p
      obtain ⟨hmem, rfl⟩ := mem_of_courier? hc
      have hturns := Courier.turns_of_turn ht
      obtain ⟨hagree, hbul, hnext, hid, hbox⟩ := hturns.others hw.bulletin
      simp only [step, hc, ht]
      exact hw.changeCourier hc hid hagree hbul (Nat.le_of_eq hnext.symm) hbox
        ((hw.couriers c hmem).turn hw.holds hturns)

theorem take (hw : w.Sound) (id : Nat) : (w.step (.take id)).Sound := by
  cases hc : w.site.courier? id with
  | none => simpa only [step, Site.take, hc] using hw
  | some c =>
    obtain ⟨hmem, rfl⟩ := mem_of_courier? hc
    have hs := hw.couriers c hmem
    cases hq : c.sink.queue with
    | nil =>
      have hsame := hw.changeCourier hc rfl (Hub.Agree.refl _) hw.bulletin (Nat.le_refl _)
        (fun _ _ => rfl) hs
      have hwrite := write_diary { w with site := w.site.modifyCourier c.feed.id fun _ => c }
        c.feed.id
      have hstep : w.step (.take c.feed.id) =
          { w with site := w.site.modifyCourier c.feed.id fun _ => c } := by
        simp only [step, Site.take, hc, Courier.take, hq]
        split
        · rename_i he; split at he <;> cases he
        · rename_i he; cases he; rfl
      rw [hstep, ← hwrite]
      exact hsame
    | cons delta rest =>
      simp only [step, Site.take, hc, Courier.take, hq]
      exact hw.changeCourier hc rfl (Hub.Agree.refl _) hw.bulletin (Nat.le_refl _)
        (fun _ _ => rfl) (hs.take hq)

/-- What is done to the courier of one feed, without a word in its diary. -/
theorem modifyCourier (hw : w.Sound) (id : Nat) {g : Courier → Courier}
    (hid : ∀ c, (g c).feed.id = c.feed.id)
    (hg : ∀ c ∈ World.couriers w, (g c).Sound w.now w.hub w.accepted (w.diary c.feed.id)) :
    ({ w with site := w.site.modifyCourier id g } : World).Sound := by
  refine hw.map (g := fun c => if c.feed.id = id then g c else c) (List.map_id' _).symm rfl
    (fun _ => rfl) (fun c => ?_) hw.holds hw.bulletin (Nat.le_refl _) hw.feeds (fun c hc => ?_)
  · split
    · exact hid c
    · rfl
  · show (if c.feed.id = id then g c else c).Sound w.now w.hub w.accepted (w.diary c.feed.id)
    split
    · exact hg c hc
    · exact hw.couriers c hc

/-- What is done to a feed that is polled by hand. -/
theorem modifyFeed (hw : w.Sound) (id : Nat) {g : Feed → Feed} {d : Diary}
    (hid : ∀ f, (g f).id = f.id) (hmem : ∃ f ∈ w.feeds, f.id = id)
    (hg : ∀ f ∈ w.feeds, f.id = id → (g f).Sound w.hub w.accepted d) :
    ((w.modifyFeed id g).write id d).Sound := by
  obtain ⟨f₀, hf₀, rfl⟩ := hmem
  refine hw.map (k := fun f => if f.id = f₀.id then g f else f) rfl (List.map_id' _).symm
    (fun f => ?_) (fun _ => rfl) hw.holds hw.bulletin (Nat.le_refl _) (fun f hf => ?_)
    (fun c hc => ?_)
  · split
    · exact hid f
    · rfl
  · by_cases he : f.id = f₀.id
    · rw [if_pos he, he, diary_write_self]
      exact hg f hf he
    · rw [if_neg he, diary_write_of_ne he]
      exact hw.feeds f hf
  · rw [diary_write_of_ne (hw.feed_id_ne hf₀ hc).symm]
    exact hw.couriers c hc

theorem poll (hw : w.Sound) (id : Nat) : (w.step (.poll id)).Sound := by
  cases hf : w.feed? id with
  | none => simpa only [step, hf] using hw
  | some f =>
    obtain ⟨hmem, hfid⟩ := mem_of_feed? hf
    simp only [step, hf]
    refine hw.modifyFeed id (Feed.id_poll w.hub) ⟨f, hmem, hfid⟩ fun f' hmem' hf'id => ?_
    obtain rfl : f' = f := hw.eq_of_feed_id_eq hmem' hmem (hf'id.trans hfid.symm)
    have hs := hw.feeds f' hmem'
    rw [hf'id] at hs
    exact ⟨(hs.follows.poll hw.holds).handOver, by rw [Feed.id_poll]; exact hs.subscribed, rfl⟩

/-- A feed is paused or resumed, whoever runs it. -/
theorem setPaused (hw : w.Sound) (id : Nat) (b : Bool) :
    ({ w.modifyFeed id (fun f => if b then f.pause else f.resume) with
      site := w.site.setPaused id b } : World).Sound := by
  refine hw.map (k := fun f => if f.id = id then if b then f.pause else f.resume else f)
    (g := fun c => if c.feed.id = id then
      { c with feed := if b then c.feed.pause else c.feed.resume } else c)
    rfl rfl (fun f => ?_) (fun c => ?_) hw.holds hw.bulletin (Nat.le_refl _) (fun f hf => ?_)
    (fun c hc => ?_)
  · split
    · cases b <;> rfl
    · rfl
  · split
    · cases b <;> rfl
    · rfl
  · have hs := hw.feeds f hf
    show (if f.id = id then if b then f.pause else f.resume else f).Sound w.hub w.accepted _
    split
    · cases b
      · exact hs.resume
      · exact hs.pause
    · exact hs
  · have hs := hw.couriers c hc
    show (if c.feed.id = id then { c with feed := if b then c.feed.pause else c.feed.resume }
      else c).Sound w.now w.hub w.accepted _
    split
    · cases b
      · exact hs.resume
      · exact hs.pause
    · exact hs

/-- After a feed is taken out of the list its number is free. -/
theorem not_mem_ids_dropFeed (hw : w.Sound) {f : Feed} (hf : f ∈ w.feeds) :
    f.id ∉ ({ w with feeds := w.feeds.filter fun f' => f'.id ≠ f.id } : World).ids := by
  intro hmem
  rcases List.mem_append.1 hmem with hmem | hmem
  · obtain ⟨f', hf', he⟩ := List.mem_map.1 hmem
    have := (List.mem_filter.1 hf').2
    simp [he] at this
  · obtain ⟨c, hc, he⟩ := List.mem_map.1 hmem
    exact hw.feed_id_ne hf hc he.symm

theorem drop (hw : w.Sound) (id : Nat) : (w.step (.drop id)).Sound := by
  cases hf : w.feed? id with
  | none => simpa only [step, hf] using hw
  | some f =>
    obtain ⟨hmem, rfl⟩ := mem_of_feed? hf
    simp only [step, hf]
    have hfree := hw.not_mem_ids_dropFeed hmem
    refine (hw.dropFeed f.id).withHub (w.hub.agree_discard f.id)
      (Hub.sound_discard hw.bulletin f.id) (Nat.le_of_eq (w.hub.nextId_discard f.id).symm)
      fun i hi => ?_
    have hne : i ≠ f.id := fun he => hfree (he ▸ hi)
    show (w.hub.discard f.id).bulletin.box? i = _
    rw [Hub.box?_discard, if_neg hne]
    rfl

theorem launch (hw : w.Sound) (id capacity keepalive : Nat) (listener : Listener) :
    (w.step (.launch id capacity keepalive listener)).Sound := by
  cases hf : w.feed? id with
  | none => simpa only [step, hf] using hw
  | some f =>
    obtain ⟨hmem, rfl⟩ := mem_of_feed? hf
    simp only [step, hf]
    have hs := hw.feeds f hmem
    refine (hw.dropFeed f.id).addCourier (hw.not_mem_ids_dropFeed hmem)
      (hw.lt_nextId _ (id_mem_of_feed hmem)) rfl ?_
    obtain ⟨n, hbox⟩ := hs.subscribed
    exact ⟨hs.follows, fun _ => ⟨n, hbox, fun _ _ => Or.inr (Or.inr (Nat.le_refl _))⟩,
      fun he => by simp [Courier.start, Courier.hasEnded] at he,
      fun _ => by simp [Courier.start, Courier.inHand, hs.handed],
      fun hl => by simp [Courier.start] at hl⟩

theorem shutdown (hw : w.Sound) : (w.step .shutdown).Sound := by
  refine hw.map (List.map_id' _).symm rfl (fun _ => rfl) (fun c => ?_) hw.holds hw.bulletin
    (Nat.le_refl _) hw.feeds (fun c hc => (hw.couriers c hc).call)
  unfold Courier.call; split <;> rfl

theorem advance (hw : w.Sound) (ms : Nat) : (w.step (.advance ms)).Sound :=
  hw.map (List.map_id' _).symm (List.map_id' _).symm (fun _ => rfl) (fun _ => rfl) hw.holds
    hw.bulletin (Nat.le_refl _) hw.feeds fun c hc =>
      (hw.couriers c hc).frame (Nat.le_add_right _ _) (Hub.Agree.refl _) rfl

/-- Every event keeps the invariant. -/
theorem step (hw : w.Sound) (e : Event) : (w.step e).Sound := by
  cases e with
  | record r => exact hw.record r
  | attach f b => exact hw.attach f b
  | live r => exact hw.live r
  | poll id => exact hw.poll id
  | pause id => exact hw.setPaused id true
  | resume id => exact hw.setPaused id false
  | drop id => exact hw.drop id
  | launch id capacity keepalive listener => exact hw.launch id capacity keepalive listener
  | turn id => exact hw.turn id
  | take id => exact hw.take id
  | close id => exact hw.modifyCourier id (fun _ => rfl) fun c hc => (hw.couriers c hc).shut _
  | leave id => exact hw.modifyCourier id (fun _ => rfl) fun c hc => (hw.couriers c hc).shut _
  | shutdown => exact hw.shutdown
  | advance ms => exact hw.advance ms

/-- The invariant holds after every run. -/
theorem run (hw : w.Sound) (es : List Event) : (w.run es).Sound := by
  induction es generalizing w with
  | nil => exact hw
  | cons e es ih => exact ih (hw.step e)

end Sound

end World

end SignalHub
