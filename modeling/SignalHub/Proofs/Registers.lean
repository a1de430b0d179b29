import SignalHub.Proofs.Scene
import SignalHub.Proofs.Switching
/-!
# The two registers

Whoever subscribes is entered in the bulletin and whoever serves a live stream in the register of
pause switches. Entries are removed on several ways: subscriptions are ended and given up, feeds
dropped, couriers end. In every scene the bulletin has exactly the subscriptions that are alive and
not ended, each of them can take a ping, and the register has exactly the live streams that run.

Results:
* `Scene.Sound.mem_subscribers_iff`: who is in the bulletin.
* `Scene.subscribers_step`: only its own end takes a subscriber out of the bulletin.
* `Scene.pairwise_given`: numbers are given in ascending order.
* `Scene.registers_agree`: both registers after any deeds, and what a pause switch does.
-/
namespace SignalHub

/-- Whether a deed can be the end of the subscription of that number. -/
def Deed.ends : Deed → Nat → Prop
  | .unsubscribe id, i => id = i
  | .release id, i => id = i
  | .act (.event (.drop id)), i => id = i
  | .act (.event (.turn id)), i => id = i
  | _, _ => False

namespace Bulletin

/-- The numbers of those who subscribe. -/
def keys (b : Bulletin) : List Nat := b.subscribers.map (·.1)

variable {b : Bulletin} {i : Nat}

theorem Keyed.nodup_keys (hb : b.Keyed) : b.keys.Nodup :=
  (List.filter_sublist.map _).nodup hb.nodup

theorem Keyed.mem_keys (hb : b.Keyed) : i ∈ b.keys ↔ ∃ n, b.box? i = some ⟨n, true⟩ := by
  constructor
  · intro hi
    obtain ⟨⟨k, n, a⟩, he, rfl⟩ := List.mem_map.1 hi
    obtain ⟨hmem, hattached⟩ := List.mem_filter.1 he
    obtain rfl : a = true := hattached
    exact ⟨n, hb.box?_of_mem hmem⟩
  · rintro ⟨n, hn⟩
    obtain ⟨l₁, l₂, hboxes, -⟩ := List.lookup_eq_some_iff.1 hn
    refine List.mem_map.2 ⟨(i, ⟨n, true⟩), List.mem_filter.2 ⟨?_, rfl⟩, rfl⟩
    rw [hboxes]
    simp

end Bulletin

namespace Scene

/-- The numbers of subscriptions that are alive and not ended: those that somebody holds, those of
feeds that are polled by hand, and those of couriers. -/
def owners (s : Scene) : List Nat :=
  ((s.holders.filter fun o => !o.unsubscribed).map (·.id)) ++ (s.world.feeds.map (·.id) ++
    ((s.world.couriers.filter fun c => !c.hasEnded).map (·.feed.id)))

/-- The numbers of all who can take a ping. -/
def receivers (s : Scene) : List Nat :=
  (s.holders.map (·.id)) ++ (s.world.feeds.map (·.id) ++
    ((s.world.couriers.filter fun c => !c.hasEnded).map (·.feed.id)))

/-- The numbers that a deed gives to new subscriptions. -/
def given (s : Scene) : Deed → List Nat
  | .subscribe => [s.hub.subscribe.1]
  | .act (.event (.attach f b)) =>
    match Feed.attach s.hub f b with
    | .ok (feed, _) => [feed.id]
    | .error _ => []
  | .act a => (s.world.opened? a).toList
  | _ => []

/-- The numbers that deeds give, one after the other. -/
def allGiven : Scene → List Deed → List Nat
  | _, [] => []
  | s, d :: ds => s.given d ++ allGiven (s.step d) ds

variable {s : Scene} {i : Nat}

/-! ## Who subscribes -/

theorem Sound.nodup_owners (hs : s.Sound) : s.owners.Nodup := by
  have hworld : (s.world.feeds.map (·.id) ++
      ((s.world.couriers.filter fun c => !c.hasEnded).map (·.feed.id))).Sublist s.world.ids :=
    (List.Sublist.refl _).append (List.filter_sublist.map _)
  refine List.nodup_append.2 ⟨(List.filter_sublist.map _).nodup hs.nodup,
    hworld.nodup hs.world.nodup, fun i hi j hj => ?_⟩
  obtain ⟨o, ho, rfl⟩ := List.mem_map.1 hi
  rintro rfl
  exact hs.apart o (List.mem_filter.1 ho).1 (hworld.subset hj)

theorem mem_owners : i ∈ s.owners ↔ (∃ o ∈ s.holders, o.unsubscribed = false ∧ o.id = i) ∨
    (∃ f ∈ s.world.feeds, f.id = i) ∨
      ∃ c ∈ s.world.couriers, c.hasEnded = false ∧ c.feed.id = i := by
  simp only [owners, List.mem_append, List.mem_map, List.mem_filter, Bool.not_eq_true', and_assoc]

theorem Sound.mem_keys_iff (hs : s.Sound) : i ∈ s.hub.bulletin.keys ↔ i ∈ s.owners := by
  rw [hs.keyed.mem_keys, mem_owners]
  constructor
  · rintro ⟨n, hn⟩
    rcases hs.owned i (by rw [hn]; simp) with hmem | ⟨o, ho, rfl⟩
    · rcases World.mem_ids.1 hmem with hf | ⟨c, hc, rfl⟩
      · exact .inr (.inl hf)
      · refine .inr (.inr ⟨c, hc, ?_, rfl⟩)
        cases hended : c.hasEnded with
        | false => rfl
        | true =>
          have hnone := (hs.world.box?_eq_none_iff hc).2 hended
          rw [show s.world.hub = s.hub from rfl, hn] at hnone
          cases hnone
    · obtain ⟨m, hm⟩ := hs.held o ho
      rw [hm] at hn
      cases hunsubscribed : o.unsubscribed with
      | false => exact .inl ⟨o, ho, hunsubscribed, rfl⟩
      | true => rw [hunsubscribed] at hn; cases hn
  · rintro (⟨o, ho, hunsubscribed, rfl⟩ | ⟨f, hf, rfl⟩ | ⟨c, hc, hended, rfl⟩)
    · obtain ⟨n, hn⟩ := hs.held o ho
      exact ⟨n, by rw [hn, hunsubscribed]; rfl⟩
    · exact (hs.world.feeds f hf).subscribed
    · obtain ⟨n, hn, -⟩ := (hs.world.couriers c hc).roused hended
      exact ⟨n, hn⟩

theorem Sound.keys_perm (hs : s.Sound) : s.hub.bulletin.keys.Perm s.owners :=
  (List.perm_ext_iff_of_nodup hs.keyed.nodup_keys hs.nodup_owners).2 fun _ => hs.mem_keys_iff

theorem owners_subset_receivers : i ∈ s.owners → i ∈ s.receivers := by
  intro hi
  rcases List.mem_append.1 hi with hi | hi
  · exact List.mem_append_left _ ((List.filter_sublist.map _).subset hi)
  · exact List.mem_append_right _ hi

/-! ## Who stays -/

theorem keys_event (hs : s.Sound) {e : Event} (hi : i ∈ s.hub.bulletin.keys) :
    i ∈ (s.step (.act (.event e))).hub.bulletin.keys ∨ (Deed.act (.event e)).ends i := by
  by_cases hends : (Deed.act (.event e)).ends i
  · exact .inr hends
  · obtain ⟨n, hn⟩ := hs.keyed.mem_keys.1 hi
    refine .inl ((hs.event e).keyed.mem_keys.2 ?_)
    refine (World.turnover_step hs.world.orderly e).box?_of_ne hs.keyed.sound
      (fun id _ he hid => ?_) hn
    rcases he with rfl | rfl
    · exact hends hid.symm
    · exact hends hid.symm

theorem keys_records (hs : s.Sound) (rs : List Record) (hi : i ∈ s.hub.bulletin.keys) :
    i ∈ (s.run (rs.map fun r => .act (.event (.record r)))).hub.bulletin.keys := by
  induction rs generalizing s with
  | nil => exact hi
  | cons r rs ih => exact ih (hs.event _) ((keys_event hs hi).resolve_right fun h => h)

/-- Only what can be its own end takes a subscriber out of the bulletin. -/
theorem keys_step (hs : s.Sound) (d : Deed) (hi : i ∈ s.hub.bulletin.keys) :
    i ∈ (s.step d).hub.bulletin.keys ∨ d.ends i := by
  obtain ⟨n, hn⟩ := hs.keyed.mem_keys.1 hi
  have hstay : (∃ k, (s.step d).hub.bulletin.box? i = some ⟨k, true⟩) →
      i ∈ (s.step d).hub.bulletin.keys ∨ d.ends i := fun h =>
    .inl ((hs.step d).keyed.mem_keys.2 h)
  cases d with
  | act a =>
    cases a with
    | event e => exact keys_event hs hi
    | query about f =>
      refine hstay ⟨n, ?_⟩
      rw [Sound.quiet rfl rfl rfl]
      exact (congrArg (Bulletin.box? · i) (s.hub.bulletin_ask about f).1).trans hn
    | trace value =>
      rw [Sound.quiet (s.world.act_trace value) rfl rfl]
      exact .inl hi
    | post signal receivedAt r =>
      rw [Sound.quiet (s.world.act_post signal receivedAt r) rfl rfl, ← Sound.run_records]
      exact .inl (keys_records hs _ hi)
  | subscribe =>
    have hlt := Bulletin.lt_nextId_of_box? hs.keyed.sound hn
    refine hstay ⟨n, (Hub.box?_subscribe hs.keyed.sound i).trans ?_⟩
    rw [if_neg (Nat.ne_of_lt hlt), hn]
  | read id =>
    cases ho : s.holder? id with
    | none => simp only [step, ho]; exact .inl hi
    | some o =>
      simp only [step, ho] at hstay ⊢
      refine hstay ⟨if i = id then n - 1 else n, (s.hub.box?_readPing id i).trans ?_⟩
      rw [hn, Option.map_some]
      split <;> rfl
  | unsubscribe id =>
    cases ho : s.holder? id with
    | none => simp only [step, ho]; exact .inl hi
    | some o =>
      by_cases hid : id = i
      · exact .inr hid
      · simp only [step, ho] at hstay ⊢
        refine hstay ⟨n, (s.hub.box?_unsubscribe id i).trans ?_⟩
        rw [hn, Option.map_some, if_neg (Ne.symm hid)]
  | release id =>
    cases ho : s.holder? id with
    | none => simp only [step, ho]; exact .inl hi
    | some o =>
      by_cases hid : id = i
      · exact .inr hid
      · simp only [step, ho] at hstay ⊢
        exact hstay ⟨n, (s.hub.box?_discard id i).trans (by rw [if_neg (Ne.symm hid), hn])⟩
  | switch value paused =>
    simp only [step, Http.answer_serveSwitch]
    split
    · exact .inl hi
    · split <;> exact .inl hi

/-! ## Numbers -/

/-- A deed gives the next number or none, and it is not given again. -/
theorem given_step (hs : s.Sound) (d : Deed) :
    s.given d = [] ∧ s.hub.bulletin.nextId ≤ (s.step d).hub.bulletin.nextId ∨
      s.given d = [s.hub.bulletin.nextId] ∧
        s.hub.bulletin.nextId < (s.step d).hub.bulletin.nextId := by
  cases d with
  | act a =>
    have hle : s.hub.bulletin.nextId ≤ (s.step (.act a)).hub.bulletin.nextId :=
      World.nextId_le_act hs.world a
    cases a with
    | event e =>
      cases e with
      | attach f b =>
        cases hv : f.validate with
        | error e => exact .inl ⟨by simp only [given, Feed.attach, hv], hle⟩
        | ok =>
          refine .inr ⟨by simp only [given, Feed.attach, hv]; rfl, ?_⟩
          simp only [step, hub, World.act, World.step, Feed.attach, hv]
          exact Nat.lt_succ_self _
      | live r =>
        refine .inr ⟨by simp only [given, World.opened?_live]; rfl, ?_⟩
        simp only [step, hub, World.act, World.step, openLive_eq]
        exact Nat.lt_succ_self _
      | _ => exact .inl ⟨rfl, hle⟩
    | _ => exact .inl ⟨rfl, hle⟩
  | subscribe => exact .inr ⟨rfl, Nat.lt_succ_self _⟩
  | read id =>
    refine .inl ⟨rfl, ?_⟩
    simp only [step]
    split
    · exact Nat.le_refl _
    · exact Nat.le_of_eq (s.hub.nextId_readPing id).symm
  | unsubscribe id =>
    refine .inl ⟨rfl, ?_⟩
    simp only [step]
    split
    · exact Nat.le_refl _
    · exact Nat.le_of_eq (s.hub.nextId_unsubscribe id).symm
  | release id =>
    refine .inl ⟨rfl, ?_⟩
    simp only [step]
    split
    · exact Nat.le_refl _
    · exact Nat.le_of_eq (s.hub.nextId_discard id).symm
  | switch value paused =>
    refine .inl ⟨rfl, ?_⟩
    simp only [step, Http.answer_serveSwitch]
    split
    · exact Nat.le_refl _
    · split <;> exact Nat.le_refl _

theorem pairwise_given (hs : s.Sound) (ds : List Deed) : (s.allGiven ds).Pairwise (· < ·) ∧
    ∀ i ∈ s.allGiven ds, s.hub.bulletin.nextId ≤ i := by
  induction ds generalizing s with
  | nil => exact ⟨.nil, fun i hi => by cases hi⟩
  | cons d ds ih =>
    obtain ⟨hpairwise, hle⟩ := ih (hs.step d)
    rcases given_step hs d with ⟨hnone, hnext⟩ | ⟨hone, hnext⟩
    · rw [allGiven, hnone, List.nil_append]
      exact ⟨hpairwise, fun i hi => Nat.le_trans hnext (hle i hi)⟩
    · rw [allGiven, hone, List.singleton_append]
      refine ⟨hpairwise.cons fun i hi => Nat.lt_of_lt_of_le hnext (hle i hi), fun i hi => ?_⟩
      rcases List.mem_cons.1 hi with rfl | hi
      · exact Nat.le_refl _
      · exact Nat.le_trans (Nat.le_of_lt hnext) (hle i hi)

/-! ## The register -/

theorem Sound.switch?_isSome_iff (hs : s.Sound) :
    (s.world.site.switch? i).isSome ↔ i ∈ s.register := by
  rw [hs.register_iff, Site.switch?, Option.isSome_map, List.find?_isSome]
  refine exists_congr fun c => and_congr_right fun _ => ?_
  simp [and_assoc]

/-- Whoever runs a live stream subscribes. -/
theorem Sound.mem_keys_of_register (hs : s.Sound) (hi : i ∈ s.register) :
    i ∈ s.hub.bulletin.keys := by
  obtain ⟨c, hc, hid, -, hended⟩ := (hs.register_iff i).1 hi
  exact hs.mem_keys_iff.2 (mem_owners.2 (.inr (.inr ⟨c, hc, hended, hid⟩)))

theorem courier?_setPaused (site : Site) (id : Nat) (paused : Bool) (i : Nat) :
    (site.setPaused id paused).courier? i = (site.courier? i).map fun c =>
      if i = id then { c with feed := if paused then c.feed.pause else c.feed.resume } else c := by
  refine site.courier?_modifyCourier (fun c _ hid => ?_) i
  cases paused <;> exact hid

/-- A repeated end of a subscription changes nothing. -/
theorem Sound.unsubscribe_again (hs : s.Sound) {o : Holder} (ho : o ∈ s.holders)
    (hended : o.unsubscribed = true) : s.step (.unsubscribe o.id) = s := by
  have hhub : s.hub.unsubscribe o.id = s.hub := by
    obtain ⟨n, hn⟩ := hs.held o ho
    rw [hended] at hn
    have hleft : s.hub.hasLeft o.id = true :=
      Hub.hasLeft_eq_true_iff.2 fun m hm => by rw [hn] at hm; cases hm; rfl
    rw [Hub.unsubscribe, if_pos hleft]
  have hholders : (s.holders.map fun a =>
      if a.id = o.id then { a with unsubscribed := true } else a) = s.holders := by
    refine (List.map_congr_left fun a ha => ?_).trans (List.map_id' _)
    split
    · rename_i hid
      rw [List.inj_on_of_nodup_map hs.nodup ha ho hid, ← hended]
    · rfl
  simp only [Scene.step]
  split
  · rfl
  · rw [hhub, hholders]
    rfl

/-- After any deeds: the bulletin has exactly the subscriptions that are alive and not ended, each
of which can take a ping; numbers are given in ascending order, so that only its own end takes a
subscriber out, and a repeated end changes nothing. The register has exactly the live streams that
run, and all of them subscribe. With every metrics endpoint that takes no path from another route,
and with none, a pause switch is found under the numbers in the register: it changes that live
stream and nothing else, and any other number changes nothing. A feed whose filter is invalid is
refused without a trace. -/
theorem registers_agree (storage : StorageSettings) (stream : StreamSettings) (ds : List Deed) :
    let s₀ := start storage stream
    let s := s₀.run ds
    (s.hub.bulletin.keys.Perm s.owners ∧ s.owners.Nodup) ∧
    (∀ i ∈ s.hub.bulletin.keys, i ∈ s.receivers) ∧
    (s₀.allGiven ds).Pairwise (· < ·) ∧
    (∀ d, ∀ i ∈ s.hub.bulletin.keys, i ∈ (s.step d).hub.bulletin.keys ∨ d.ends i) ∧
    (∀ o ∈ s.holders, o.unsubscribed = true → s.step (.unsubscribe o.id) = s) ∧
    s.register.Nodup ∧
    (∀ i, i ∈ s.register ↔ s.world.Runs i) ∧
    (∀ i ∈ s.register, i ∈ s.hub.bulletin.keys) ∧
    (∀ m router, Http.Router.make m = .ok router → (m.enabled → router.Serves m) →
      ∀ value paused id receivedAt r, (0x2F : UInt8) ∉ value →
      Http.pathWord "subscriber_id" value = .ok id → r.method = .post →
      r.target.path = Http.switchPath value paused →
      let (answer, site) := Http.serve router receivedAt s.world.site r
      s.step (.switch value paused) = { s with world := { s.world with site := site } } ∧
      if id ∈ s.register then
        answer = .json 200 (Http.feedJson id paused) ∧
        site = { s.world.site with couriers := site.couriers } ∧
        ∀ i, site.courier? i = (s.world.site.courier? i).map fun c =>
          if i = id then { c with feed := if paused then c.feed.pause else c.feed.resume } else c
      else
        answer = (Http.ApiError.notFound
          ("live feed " ++ toString id ++ " is not attached")).response ∧
        site = s.world.site) ∧
    (∀ id ≤ Word.top, (0x2F : UInt8) ∉ Text.bytes (toString id) ∧
      Http.pathWord "subscriber_id" (Text.bytes (toString id)) = .ok id) ∧
    ∀ f b e, f.validate = .error e →
      Feed.attach s.hub f b = .error e ∧ s.step (.act (.event (.attach f b))) = s := by
  intro s₀ s
  have hs₀ : s₀.Sound := sound_start storage stream
  have hs : s.Sound := hs₀.run ds
  refine ⟨⟨hs.keys_perm, hs.nodup_owners⟩,
    fun i hi => owners_subset_receivers (hs.mem_keys_iff.1 hi), (pairwise_given hs₀ ds).1,
    fun d i hi => keys_step hs d hi, fun o ho hended => hs.unsubscribe_again ho hended,
    hs.register_nodup, hs.register_iff, fun i hi => hs.mem_keys_of_register hi,
    fun m router hmake hserves value paused id receivedAt r hvalue hid hmethod hpath => ?_,
    fun id hid => ⟨Http.slash_not_mem_toString id, Http.pathWord_toString _ hid⟩,
    fun f b e hv => ?_⟩
  · rw [Http.serve_switch hmake hserves hvalue paused receivedAt s.world.site hmethod hpath]
    rw [Http.answer_serveSwitch, hid]
    simp only [hs.switch?_isSome_iff]
    refine ⟨by simp only [step, Http.answer_serveSwitch, hid, hs.switch?_isSome_iff], ?_⟩
    by_cases hmem : id ∈ s.register
    · rw [if_pos hmem, if_pos hmem]
      exact ⟨rfl, rfl, courier?_setPaused s.world.site id paused⟩
    · rw [if_neg hmem, if_neg hmem]
      exact ⟨rfl, rfl⟩
  · have hrefused : Feed.attach s.hub f b = .error e := by simp only [Feed.attach, hv]
    refine ⟨hrefused, ?_⟩
    have hact : s.world.act (.event (.attach f b)) = s.world := by
      show s.world.step (.attach f b) = s.world
      simp only [World.step]
      rw [show s.world.hub = s.hub from rfl, hrefused]
    exact Sound.quiet hact rfl rfl

example :
    let s := (start {} {}).run [.subscribe, .act (.event (.live World.everything)), .unsubscribe 1,
      .act (.event (.attach World.everything.filter (.uniform 0))), .unsubscribe 1,
      .act (.event (.leave 2)), .act (.event (.turn 2))]
    s.hub.bulletin.keys = [3] ∧ s.receivers = [1, 3] ∧ s.register = [] := by decide

end Scene

end SignalHub
