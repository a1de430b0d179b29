import SignalHub.Proofs.Acts
/-!
# Who comes and who goes

An event adds a subscriber, removes one, lets one act for itself, or pings them all. Whoever it is
not about keeps its mailbox, up to pings.

Results:
* `World.turnover_step`: what an event does to numbers and mailboxes.
* `World.act_post`: a posted batch as the events of its records.
-/
namespace SignalHub

/-- Looking for something by its number, after something has changed and kept its number. -/
theorem find?_map_modify {α : Type} (key : α → Nat) {id : Nat} {g : α → α} (i : Nat) :
    ∀ {l : List α}, (∀ a ∈ l, key a = id → key (g a) = id) →
    (l.map fun a => if key a = id then g a else a).find? (key · == i) =
      (l.find? (key · == i)).map fun a => if i = id then g a else a
  | [], _ => rfl
  | a :: l, hg => by
    have ih := find?_map_modify key i (l := l) fun b hb => hg b (List.mem_cons_of_mem _ hb)
    rw [List.map_cons, List.find?_cons, List.find?_cons, ih]
    by_cases ha : key a = id
    · rw [if_pos ha, hg a List.mem_cons_self ha, ha]
      cases hi : id == i with
      | true => simp [eq_of_beq hi]
      | false => rfl
    · rw [if_neg ha]
      cases hi : key a == i with
      | true => simp [eq_of_beq hi ▸ ha]
      | false => rfl

theorem Site.courier?_modifyCourier (s : Site) {id : Nat} {g : Courier → Courier}
    (hg : ∀ c ∈ s.couriers, c.feed.id = id → (g c).feed.id = id) (i : Nat) :
    (s.modifyCourier id g).courier? i =
      (s.courier? i).map fun c => if i = id then g c else c :=
  find?_map_modify (fun c : Courier => c.feed.id) i hg

/-- A query changes nothing but the tally. -/
theorem Hub.bulletin_ask (h : Hub) (about : Option Signal) (f : Filter) :
    (h.ask about f).bulletin = h.bulletin ∧ h.Agree (h.ask about f) := by
  have hsearch {ρ : Type} (run : Nat → ρ) (note : Tally → Tally) :
      (h.search f run note).2.bulletin = h.bulletin ∧ h.Agree (h.search f run note).2 := by
    rw [Hub.search]
    split <;> exact ⟨rfl, rfl, rfl, rfl⟩
  cases about with
  | none => exact hsearch _ _
  | some s => cases s <;> exact hsearch _ _

namespace World

variable {w w' : World} {e : Event} {i : Nat}

/-! ## Numbers -/

theorem mem_ids : i ∈ w.ids ↔ (∃ f ∈ w.feeds, f.id = i) ∨ ∃ c ∈ w.couriers, c.feed.id = i := by
  simp only [ids, List.mem_append, List.mem_map]

/-- Feeds and couriers that change keep their numbers. -/
theorem ids_map {k : Feed → Feed} {g : Courier → Courier} (hfeeds : w'.feeds = w.feeds.map k)
    (hcouriers : w'.couriers = w.couriers.map g) (hk : ∀ f ∈ w.feeds, (k f).id = f.id)
    (hg : ∀ c ∈ w.couriers, (g c).feed.id = c.feed.id) : w'.ids = w.ids := by
  simp only [ids, hfeeds, hcouriers, List.map_map]
  exact congrArg₂ _ (List.map_congr_left hk) (List.map_congr_left hg)

theorem ids_modifyFeed {id : Nat} {k : Feed → Feed} (hk : ∀ f, (k f).id = f.id) :
    (w.modifyFeed id k).ids = w.ids := by
  refine ids_map rfl (List.map_id' _).symm (fun f _ => ?_) fun _ _ => rfl
  split
  · exact hk f
  · rfl

theorem ids_modifyCourier {id : Nat} {g : Courier → Courier}
    (hg : ∀ c ∈ w.couriers, c.feed.id = id → (g c).feed.id = c.feed.id) :
    ({ w with site := w.site.modifyCourier id g } : World).ids = w.ids := by
  refine ids_map (List.map_id' _).symm rfl (fun _ _ => rfl) fun c hc => ?_
  split
  · exact hg c hc ‹_›
  · rfl

/-- What an event makes of numbers and mailboxes. -/
inductive Turnover (w w' : World) : Event → Prop where
  /-- Nobody comes or goes. -/
  | quiet (e : Event) (hids : ∀ i, i ∈ w'.ids ↔ i ∈ w.ids)
      (hbox : ∀ i, w'.hub.bulletin.box? i = w.hub.bulletin.box? i) : Turnover w w' e
  /-- All are pinged. -/
  | pinged (e : Event) (hids : ∀ i, i ∈ w'.ids ↔ i ∈ w.ids)
      (hbox : ∀ i, w'.hub.bulletin.box? i = (w.hub.bulletin.box? i).map w.hub.bulletin.ping) :
      Turnover w w' e
  /-- Somebody gets the next number. -/
  | joined (e : Event) (hids : ∀ i, i ∈ w'.ids ↔ i ∈ w.ids ∨ i = w.hub.bulletin.nextId)
      (hbox : ∀ i, w'.hub.bulletin.box? i =
        if i = w.hub.bulletin.nextId then some ⟨0, true⟩ else w.hub.bulletin.box? i) :
      Turnover w w' e
  /-- Somebody takes its mailbox along. -/
  | dropped (id : Nat) (hid : id ∈ w.ids) (hids : ∀ i, i ∈ w'.ids ↔ i ∈ w.ids ∧ i ≠ id)
      (hbox : ∀ i, w'.hub.bulletin.box? i = if i = id then none else w.hub.bulletin.box? i) :
      Turnover w w' (.drop id)
  /-- Somebody does something about its own mailbox. -/
  | acted (id : Nat) (hid : id ∈ w.ids) (hids : ∀ i, i ∈ w'.ids ↔ i ∈ w.ids)
      (hbox : ∀ i, i ≠ id → w'.hub.bulletin.box? i = w.hub.bulletin.box? i) :
      Turnover w w' (.turn id)

theorem turnover_refl (w : World) (e : Event) : w.Turnover w e :=
  .quiet e (fun _ => Iff.rfl) fun _ => rfl

theorem turnover_of_eq (hids : w'.ids = w.ids) (hbox : w'.hub.bulletin = w.hub.bulletin) :
    w.Turnover w' e := .quiet e (fun i => by rw [hids]) fun i => by rw [hbox]

theorem courier?_step_turn {id : Nat} {c c' : Courier} {h' : Hub}
    (hc : w.site.courier? id = some c) (ht : c.turn w.now w.hub = some (h', c'))
    (hid : c'.feed.id = id) (i : Nat) :
    (w.step (.turn id)).site.courier? i = if i = id then some c' else w.site.courier? i := by
  simp only [step, hc, ht]
  refine ((w.site.withHub h').courier?_modifyCourier (fun _ _ _ => hid) i).trans ?_
  show (w.site.courier? i).map _ = _
  by_cases hi : i = id
  · simp [hi, hc]
  · simp [hi]

theorem turnover_turn (hw : w.Orderly) (id : Nat) : w.Turnover (w.step (.turn id)) (.turn id) := by
  cases hc : w.site.courier? id with
  | none => simpa only [step, hc] using w.turnover_refl _
  | some c =>
    cases ht : c.turn w.now w.hub with
    | none => simpa only [step, hc, ht] using w.turnover_refl _
    | some p =>
      obtain ⟨h', c'⟩ := p
      obtain ⟨hmem, rfl⟩ := mem_of_courier? hc
      obtain ⟨-, -, -, hid, hothers⟩ := (Courier.turns_of_turn ht).others hw.bulletin
      simp only [step, hc, ht]
      refine .acted c.feed.id (id_mem_of_courier hmem) (fun i => ?_) hothers
      have hids := ids_modifyCourier (w := { w with site := w.site.withHub h' })
        (g := fun _ => c') fun a _ ha => hid.trans ha.symm
      exact (congrArg (i ∈ ·) hids).to_iff

theorem turnover_drop (hw : w.Orderly) (id : Nat) : w.Turnover (w.step (.drop id)) (.drop id) := by
  cases hf : w.feed? id with
  | none => simpa only [step, hf] using w.turnover_refl _
  | some f =>
    obtain ⟨hmem, rfl⟩ := mem_of_feed? hf
    simp only [step, hf]
    refine .dropped f.id (id_mem_of_feed hmem) (fun i => ?_) fun i => w.hub.box?_discard f.id i
    simp only [mem_ids, List.mem_filter, decide_eq_true_eq]
    constructor
    · rintro (⟨f', ⟨hf', hne⟩, rfl⟩ | ⟨c, hc, rfl⟩)
      · exact ⟨.inl ⟨f', hf', rfl⟩, hne⟩
      · exact ⟨.inr ⟨c, hc, rfl⟩, (hw.apart f hmem c hc).symm⟩
    · rintro ⟨⟨f', hf', rfl⟩ | hc, hne⟩
      · exact .inl ⟨f', ⟨hf', hne⟩, rfl⟩
      · exact .inr hc

/-- A feed that is launched is a courier's from then on. -/
theorem turnover_launch (id capacity keepalive : Nat) (listener : Listener) :
    w.Turnover (w.step (.launch id capacity keepalive listener))
      (.launch id capacity keepalive listener) := by
  cases hf : w.feed? id with
  | none => simpa only [step, hf] using w.turnover_refl _
  | some f =>
    obtain ⟨hmem, rfl⟩ := mem_of_feed? hf
    simp only [step, hf]
    refine .quiet _ (fun i => ?_) fun _ => rfl
    simp only [mem_ids, couriers, Site.launch, List.mem_filter, decide_eq_true_eq,
      List.mem_append, List.mem_singleton]
    constructor
    · rintro (⟨f', ⟨hf', -⟩, rfl⟩ | ⟨c, hc | rfl, rfl⟩)
      · exact .inl ⟨f', hf', rfl⟩
      · exact .inr ⟨c, hc, rfl⟩
      · exact .inl ⟨f, hmem, rfl⟩
    · rintro (⟨f', hf', rfl⟩ | ⟨c, hc, rfl⟩)
      · by_cases hne : f'.id = f.id
        · exact .inr ⟨_, .inr rfl, hne.symm⟩
        · exact .inl ⟨f', ⟨hf', hne⟩, rfl⟩
      · exact .inr ⟨c, .inl hc, rfl⟩

theorem turnover_take (id : Nat) : w.Turnover (w.step (.take id)) (.take id) := by
  have hsite := site_take w id
  cases hc : w.site.courier? id with
  | none =>
    refine turnover_of_eq ?_ ?_
    · simp only [step, Site.take, hc]
    · simp only [step, Site.take, hc]
  | some c =>
    obtain ⟨-, rfl⟩ := mem_of_courier? hc
    have hfeeds : (w.step (.take c.feed.id)).feeds = w.feeds := by
      simp only [step]
      split <;> rfl
    have hids : (w.step (.take c.feed.id)).ids = w.ids := by
      refine ids_map (k := fun f => f)
        (g := fun a => if a.feed.id = c.feed.id then c.take.2 else a)
        (by rw [hfeeds, List.map_id']) ?_ (fun _ _ => rfl) fun a _ => ?_
      · rw [couriers, hsite, Site.take, hc]
        rfl
      · split
        · rename_i ha
          rw [ha, Courier.feed_take]
        · rfl
    refine turnover_of_eq hids ?_
    rw [hub, hsite, Site.take, hc]
    rfl

/-- What an event does to numbers and mailboxes. -/
theorem turnover_step (hw : w.Orderly) (e : Event) : w.Turnover (w.step e) e := by
  cases e with
  | record r =>
    refine .pinged _ (fun _ => Iff.rfl) fun i => ?_
    show (w.hub.record r).2.bulletin.box? i = _
    rw [Hub.bulletin_record, Bulletin.box?_accept]
  | attach f b =>
    cases hv : f.validate with
    | error e => simpa only [step, Feed.attach, hv] using w.turnover_refl _
    | ok =>
      simp only [step, Feed.attach, hv]
      refine .joined _ (fun i => ?_) fun i => Hub.box?_subscribe hw.bulletin i
      simp only [ids, write, List.map_append, List.map_cons, List.map_nil, List.mem_append,
        List.mem_singleton]
      exact or_right_comm
  | live r =>
    simp only [step, openLive_eq]
    refine .joined _ (fun i => ?_) fun i => Hub.box?_subscribe hw.bulletin i
    simp only [ids, write, couriers, Site.launch, Site.withHub, List.map_append, List.map_cons,
      List.map_nil, List.mem_append, List.mem_singleton]
    exact or_assoc.symm
  | poll id =>
    simp only [step]
    split
    · exact w.turnover_refl _
    · exact turnover_of_eq (ids_modifyFeed (w := w) (Feed.id_poll w.hub)) rfl
  | pause id =>
    refine turnover_of_eq ?_ rfl
    exact (ids_modifyCourier (w := w.modifyFeed id Feed.pause)
      (g := fun c => { c with feed := c.feed.pause }) fun _ _ _ => rfl).trans
      (ids_modifyFeed fun _ => rfl)
  | resume id =>
    refine turnover_of_eq ?_ rfl
    exact (ids_modifyCourier (w := w.modifyFeed id Feed.resume)
      (g := fun c => { c with feed := c.feed.resume }) fun _ _ _ => rfl).trans
      (ids_modifyFeed fun _ => rfl)
  | drop id => exact turnover_drop hw id
  | launch id capacity keepalive listener => exact turnover_launch id capacity keepalive listener
  | turn id => exact turnover_turn hw id
  | take id => exact turnover_take id
  | close id => exact turnover_of_eq (ids_modifyCourier fun _ _ _ => rfl) rfl
  | leave id => exact turnover_of_eq (ids_modifyCourier fun _ _ _ => rfl) rfl
  | shutdown =>
    refine turnover_of_eq (ids_map (List.map_id' _).symm rfl (fun _ _ => rfl) fun c _ => ?_) rfl
    rw [Courier.feed_call]
  | advance ms => exact turnover_of_eq rfl rfl

/-- Nobody but who joins gets a number. -/
theorem Turnover.mem_ids (ht : w.Turnover w' e) (hi : i ∈ w'.ids) :
    i ∈ w.ids ∨ i = w.hub.bulletin.nextId := by
  cases ht with
  | quiet _ hids | pinged _ hids => exact .inl ((hids i).1 hi)
  | joined _ hids => exact (hids i).1 hi
  | dropped id _ hids => exact .inl ((hids i).1 hi).1
  | acted id _ hids => exact .inl ((hids i).1 hi)

/-- Whoever the event is not about keeps its mailbox, and subscribes or not as before. -/
theorem Turnover.box?_of_ne (ht : w.Turnover w' e) (hb : w.hub.bulletin.Sound)
    (hi : ∀ id ∈ w.ids, e = .drop id ∨ e = .turn id → i ≠ id) {m : Mailbox}
    (hm : w.hub.bulletin.box? i = some m) :
    ∃ n, w'.hub.bulletin.box? i = some ⟨n, m.attached⟩ := by
  have hsame : w'.hub.bulletin.box? i = w.hub.bulletin.box? i →
      ∃ n, w'.hub.bulletin.box? i = some ⟨n, m.attached⟩ := fun h => ⟨m.pending, h.trans hm⟩
  cases ht with
  | quiet _ _ hbox => exact hsame (hbox i)
  | pinged _ _ hbox =>
    refine ⟨(w.hub.bulletin.ping m).pending, ?_⟩
    rw [hbox, hm, Option.map_some, Bulletin.ping]
    split <;> rfl
  | joined _ _ hbox =>
    refine hsame ?_
    rw [hbox, if_neg (Nat.ne_of_lt (Bulletin.lt_nextId_of_box? hb hm))]
  | dropped id hid _ hbox =>
    exact hsame (by rw [hbox, if_neg (hi id hid (.inl rfl))])
  | acted id hid _ hbox => exact hsame (hbox i (hi id hid (.inr rfl)))

/-- Whoever has a mailbox then has a feed, or had the mailbox before without having a feed. -/
theorem Turnover.owner (ht : w.Turnover w' e) (hi : w'.hub.bulletin.box? i ≠ none) :
    i ∈ w'.ids ∨ i ∉ w.ids ∧ w.hub.bulletin.box? i ≠ none := by
  have hstay : (i ∈ w.ids → i ∈ w'.ids) → w.hub.bulletin.box? i ≠ none →
      i ∈ w'.ids ∨ i ∉ w.ids ∧ w.hub.bulletin.box? i ≠ none := by
    intro hids hbox
    by_cases hmem : i ∈ w.ids
    · exact .inl (hids hmem)
    · exact .inr ⟨hmem, hbox⟩
  cases ht with
  | quiet _ hids hbox => exact hstay (hids i).2 (hbox i ▸ hi)
  | pinged _ hids hbox =>
    refine hstay (hids i).2 fun hnone => hi ?_
    rw [hbox, hnone, Option.map_none]
  | joined _ hids hbox =>
    by_cases hnext : i = w.hub.bulletin.nextId
    · exact .inl ((hids i).2 (.inr hnext))
    · rw [hbox, if_neg hnext] at hi
      exact hstay (fun h => (hids i).2 (.inl h)) hi
  | dropped id _ hids hbox =>
    by_cases hid : i = id
    · rw [hbox, if_pos hid] at hi
      exact absurd rfl hi
    · rw [hbox, if_neg hid] at hi
      exact hstay (fun h => (hids i).2 ⟨h, hid⟩) hi
  | acted id hid hids hbox =>
    by_cases hne : i = id
    · exact .inl ((hids i).2 (hne ▸ hid))
    · exact hstay (hids i).2 (hbox i hne ▸ hi)

/-! ## Acts -/

theorem run_record (w : World) (rs : List Record) : w.run (rs.map .record) =
    { w with site := w.site.withHub (w.hub.recordAll rs), accepted := w.accepted ++ rs } := by
  induction rs generalizing w with
  | nil =>
    show w = { w with site := w.site.withHub w.hub, accepted := w.accepted ++ [] }
    rw [List.append_nil]
    rfl
  | cons r rs ih =>
    rw [List.map_cons, run_cons, ih]
    simp only [step, List.append_assoc, List.singleton_append]
    rfl

/-- Records that are posted are recorded one after the other. -/
theorem act_post (w : World) (s : Signal) (receivedAt : UInt64) (r : Http.Request) :
    w.act (.post s receivedAt r) = w.run ((Http.kept s receivedAt r).map .record) := by
  obtain ⟨answer, after, hhandle, hintake⟩ := Http.intake_handle s receivedAt w.site r []
  rw [run_record]
  show { w with
    site := (Http.handle receivedAt w.site r [] (Http.intakeEndpoint s)).2
    accepted := w.accepted ++ Http.kept s receivedAt r } = _
  rw [hhandle, hintake.after_eq]
  rfl

theorem nextId_le_run (hw : w.Sound) (es : List Event) :
    w.hub.bulletin.nextId ≤ (w.run es).hub.bulletin.nextId := by
  induction es generalizing w with
  | nil => exact Nat.le_refl _
  | cons e es ih => exact Nat.le_trans (nextId_le_step hw e) (ih (hw.step e))

theorem nextId_le_act (hw : w.Sound) (a : Act) :
    w.hub.bulletin.nextId ≤ (w.act a).hub.bulletin.nextId := by
  cases a with
  | event e => exact nextId_le_step hw e
  | query about f =>
    exact Nat.le_of_eq (congrArg Bulletin.nextId (w.hub.bulletin_ask about f).1).symm
  | trace value => exact Nat.le_of_eq (by rw [act_trace])
  | post s receivedAt r =>
    rw [act_post]
    exact nextId_le_run hw _

end World

end SignalHub
