import SignalHub.Proofs.Snapshot
/-!
# What only records change

Subscribers come and go, read pings and poll, and queries are counted. None of that touches the
archives, the limits, the number of records accepted or the size of mailboxes. So for these, a hub
that has met any deeds is like one that has only recorded the records that the deeds accepted.

Results:
* `Hub.Twin`: two hubs that differ in their subscribers and tallies at most.
* `Hub.Twin.record`: they stay so when both record the same.
* `Scene.twin_step`, `Scene.twin_run`: a hub after deeds, and one that only records.
-/
namespace SignalHub

namespace Hub

/-- The other hub has the same archives, limits and size of mailboxes, and as many records were
accepted by it. -/
structure Twin (h h' : Hub) : Prop extends h.Agree h' where
  limits_eq : h'.limits = h.limits
  generation_eq : h'.bulletin.generation = h.bulletin.generation
  boxSize_eq : h'.bulletin.boxSize = h.bulletin.boxSize

variable {h h' h'' : Hub}

theorem Twin.refl (h : Hub) : h.Twin h := ⟨.refl h, rfl, rfl, rfl⟩

theorem Twin.trans (ha : h.Twin h') (hb : h'.Twin h'') : h.Twin h'' where
  toAgree := ha.toAgree.trans hb.toAgree
  limits_eq := hb.limits_eq.trans ha.limits_eq
  generation_eq := hb.generation_eq.trans ha.generation_eq
  boxSize_eq := hb.boxSize_eq.trans ha.boxSize_eq

/-! ## Subscribers and queries -/

theorem twin_subscribe (h : Hub) : h.Twin h.subscribe.2 := ⟨h.agree_subscribe, rfl, rfl, rfl⟩

theorem twin_unsubscribe (h : Hub) (id : Nat) : h.Twin (h.unsubscribe id) := by
  refine ⟨h.agree_unsubscribe id, ?_, ?_, ?_⟩ <;>
  · rw [unsubscribe]
    split <;> rfl

theorem twin_discard (h : Hub) (id : Nat) : h.Twin (h.discard id) := by
  have ha := h.twin_unsubscribe id
  exact ⟨h.agree_discard id, h.limits_discard id, ha.generation_eq, ha.boxSize_eq⟩

theorem twin_readPing (h : Hub) (id : Nat) : h.Twin (h.readPing id).2 :=
  ⟨h.agree_readPing id, rfl, Courier.generation_readPing h id, h.boxSize_deal (.read id)⟩

theorem twin_ask (h : Hub) (about : Option Signal) (f : Filter) : h.Twin (h.ask about f) := by
  obtain ⟨hbulletin, hagree⟩ := h.bulletin_ask about f
  refine ⟨hagree, ?_, by rw [hbulletin], by rw [hbulletin]⟩
  cases about with
  | none => exact (h.agree_search f _ _).2
  | some s => cases s <;> exact (h.agree_search f _ _).2

/-! ## Records -/

theorem limits_record (h : Hub) (r : Record) : (h.record r).2.limits = h.limits := by
  simp only [record, announce]
  split <;> cases r <;> rfl

theorem boxSize_record (h : Hub) (r : Record) :
    (h.record r).2.bulletin.boxSize = h.bulletin.boxSize := by
  rw [bulletin_record]
  rfl

/-- What a record makes of the archives does not depend on anything else. -/
theorem Agree.store (ha : h.Agree h') (r : Record) : (h.store r).Agree (h'.store r) := by
  obtain ⟨hspans, hlogs, hmetrics⟩ := ha
  cases r <;> constructor <;> simp only [Hub.store, hspans, hlogs, hmetrics]

theorem Twin.record (ha : h.Twin h') (r : Record) : (h.record r).2.Twin (h'.record r).2 where
  toAgree := ((h.agree_record r).symm.trans (ha.toAgree.store r)).trans (h'.agree_record r)
  limits_eq := by rw [limits_record, limits_record, ha.limits_eq]
  generation_eq := by rw [generation_record, generation_record, ha.generation_eq]
  boxSize_eq := by rw [boxSize_record, boxSize_record, ha.boxSize_eq]

theorem Twin.recordAll (ha : h.Twin h') (rs : List Record) :
    (h.recordAll rs).Twin (h'.recordAll rs) := by
  induction rs generalizing h h' with
  | nil => exact ha
  | cons r rs ih => exact ih (ha.record r)

theorem generation_recordAll (h : Hub) (rs : List Record) :
    (h.recordAll rs).bulletin.generation = h.bulletin.generation + rs.length := by
  induction rs generalizing h with
  | nil => rfl
  | cons r rs ih =>
    rw [recordAll_cons, ih, generation_record, List.length_cons]
    omega

theorem boxSize_recordAll (h : Hub) (rs : List Record) :
    (h.recordAll rs).bulletin.boxSize = h.bulletin.boxSize := by
  induction rs generalizing h with
  | nil => rfl
  | cons r rs ih => rw [recordAll_cons, ih, boxSize_record]

end Hub

/-! ## Deeds -/

theorem Hub.Becomes.twin {h h' : Hub} {rs : List Record} (hb : h.Becomes rs h') :
    (h.recordAll rs).Twin h' := by
  cases hb with
  | accepts => exact .refl _
  | subscribes => exact h.twin_subscribe
  | discards id => exact h.twin_discard id
  | readsPing id => exact h.twin_readPing id

theorem World.twin_act (w : World) (a : Act) : (w.hub.recordAll a.accepts).Twin (w.act a).hub := by
  rcases w.hub_act a with ⟨about, f, rfl, hasked⟩ | ⟨-, hbecomes⟩
  · rw [hasked]
    exact w.hub.twin_ask about f
  · exact hbecomes.twin

namespace Scene

/-- A deed does to a hub what its records do, up to subscribers and counts. -/
theorem twin_step (s : Scene) (d : Deed) : (s.hub.recordAll d.accepts).Twin (s.step d).hub := by
  cases d with
  | act a => exact s.world.twin_act a
  | subscribe => exact s.hub.twin_subscribe
  | read id =>
    rw [step]
    split
    · exact .refl _
    · exact s.hub.twin_readPing id
  | unsubscribe id =>
    rw [step]
    split
    · exact .refl _
    · exact s.hub.twin_unsubscribe id
  | release id =>
    rw [step]
    split
    · exact .refl _
    · exact s.hub.twin_discard id
  | switch value paused =>
    rw [step, Http.answer_serveSwitch]
    split
    · exact .refl _
    · split <;> exact .refl _

/-- So do deeds one after the other. -/
theorem twin_run (s : Scene) (ds : List Deed) :
    (s.hub.recordAll (ds.flatMap Deed.accepts)).Twin (s.run ds).hub := by
  induction ds generalizing s with
  | nil => exact .refl _
  | cons d ds ih =>
    rw [List.flatMap_cons, Hub.recordAll_append]
    exact ((s.twin_step d).recordAll _).trans (ih (s.step d))

theorem twin_start (storage : StorageSettings) (stream : StreamSettings) (ds : List Deed) :
    ((Hub.empty storage).recordAll (ds.flatMap Deed.accepts)).Twin
      ((start storage stream).run ds).hub :=
  twin_run (start storage stream) ds

end Scene

/-! ## What was accepted -/

namespace Scene

theorem accepted_step (s : Scene) (d : Deed) :
    (s.step d).world.accepted = s.world.accepted ++ d.accepts := by
  cases d with
  | act a => exact s.world.accepted_act a
  | subscribe => exact (List.append_nil _).symm
  | read id | unsubscribe id | release id =>
    rw [step]
    split <;> exact (List.append_nil _).symm
  | switch value paused => exact (List.append_nil _).symm

theorem accepted_run (s : Scene) (ds : List Deed) :
    (s.run ds).world.accepted = s.world.accepted ++ ds.flatMap Deed.accepts := by
  induction ds generalizing s with
  | nil => exact (List.append_nil _).symm
  | cons d ds ih => rw [run_cons, ih, accepted_step, List.flatMap_cons, List.append_assoc]

/-- Mailboxes keep the size that the settings give them, which is at least one. -/
theorem boxSize_run (storage : StorageSettings) (stream : StreamSettings) (ds : List Deed) :
    ((start storage stream).run ds).hub.bulletin.boxSize = max storage.mailboxSize.toNat 1 := by
  rw [(twin_start storage stream ds).boxSize_eq, Hub.boxSize_recordAll]
  rfl

end Scene

end SignalHub
