import SignalHub.Proofs.Moves
/-!
# Couriers come to rest

Each turn uses up a reason to take one, or puts down the delta in hand. So a courier that nothing
happens to comes to rest, and it does so within the bound that `Courier.settle` works with.

Results:
* `Courier.weight_lt`: a turn lowers the bound, unless the courier ends.
* `Courier.turn_settle`: a courier that was settled takes no turn.
* `World.run_settle`: a site is settled by turns, after which all couriers are at rest.
-/
namespace SignalHub

namespace Courier

variable {now : Nat} {h h' : Hub} {c c' : Courier}

/-- The reasons that a courier has to go on, apart from the delta in hand. -/
def reasons (now : Nat) (h : Hub) (c : Courier) : Nat :=
  unread h c + (if c.feed.resumed then 1 else 0) + (now + 1 - c.due) +
    (if c.listener = .abandoned then 1 else 0)

theorem weight_of_waiting (hp : c.phase = .waiting) :
    weight now h c = 2 * (reasons now h c + 1) := by
  simp [weight, hp, reasons]

theorem weight_of_holding {d : Delta} (hp : c.phase = .holding d) :
    weight now h c = 2 * (reasons now h c + 1) + 1 := by
  simp [weight, hp, reasons]

theorem weight_le (now : Nat) (h : Hub) (c : Courier) :
    weight now h c ≤ 2 * (reasons now h c + 1) + 1 := by
  cases hp : c.phase with
  | waiting => rw [weight_of_waiting hp]; exact Nat.le_succ _
  | holding d => exact Nat.le_of_eq (weight_of_holding hp)
  | ended => simp [weight, hp, reasons]

theorem lt_nextDue {due now keepalive : Nat} (hk : keepalive ≠ 0) (hd : due ≤ now) :
    now + 1 - nextDue due now keepalive < now + 1 - due := by
  unfold nextDue
  split <;> omega

theorem reasons_looked_lt {g : Hub} {l : Listener} {b : Bool} {due : Nat} (hk : c.keepalive ≠ 0)
    (hr : c.Rouses now h g l b due) : reasons now g (c.looked h l b due) < reasons now h c := by
  have hid : (c.feed.poll h).2.id = c.feed.id := Feed.id_poll h c.feed
  cases hr with
  | abandoned hl => simp [reasons, looked, unread, hl]
  | resumed hr => simp [reasons, looked, unread, hr]
  | ticked hd =>
    have hlt := lt_nextDue hk hd
    simp only [reasons, looked, unread, hid]
    omega
  | @pinged m hb hm =>
    have hbox : (h.readPing c.feed.id).2.bulletin.box? c.feed.id =
        some { m with pending := m.pending - 1 } := by
      rw [Hub.box?_readPing, hb]; simp
    simp only [reasons, looked, unread, hid, hbox, hb]
    omega

/-- A turn lowers the bound, unless the courier ends. -/
theorem weight_lt (ht : c.Turns now h h' c') (he : c'.hasEnded = false) :
    weight now h' c' < weight now h c := by
  cases ht with
  | ends => simp [hasEnded] at he
  | puts hp =>
    rw [weight_of_holding hp, weight_of_waiting rfl]
    exact Nat.lt_succ_self _
  | looks hp hk _ hr =>
    have hlt := reasons_looked_lt hk hr
    apply Nat.lt_of_le_of_lt (weight_le _ _ _)
    rw [weight_of_waiting hp]
    omega

theorem turns_of_turn_eq_none (ht : c.turn now h = none) (n : Nat) :
    turns now n (h, c) = (h, c) := by
  cases n with
  | zero => rfl
  | succ n => rw [turns, ht]

/-- With turns enough a courier comes to rest. -/
theorem turn_turns (n : Nat) : ∀ (h : Hub) (c : Courier), weight now h c ≤ n →
    (turns now n (h, c)).2.turn now (turns now n (h, c)).1 = none := by
  induction n with
  | zero =>
    intro h c hn
    rw [weight] at hn
    omega
  | succ n ih =>
    intro h c hn
    cases ht : c.turn now h with
    | none => rw [turns_of_turn_eq_none ht]; exact ht
    | some p =>
      obtain ⟨h', c'⟩ := p
      rw [turns, ht]
      cases he : c'.hasEnded with
      | true =>
        have hrest : c'.turn now h' = none := turn_eq_none_iff.2 (Or.inl he)
        simp only [turns_of_turn_eq_none hrest]
        exact hrest
      | false =>
        have hlt := weight_lt (turns_of_turn ht) he
        exact ih h' c' (by omega)

/-- A courier that was settled takes no turn. -/
theorem turn_settle (now : Nat) (h : Hub) (c : Courier) :
    (settle now h c).2.turn now (settle now h c).1 = none := turn_turns _ h c (Nat.le_refl _)

/-- Whether a courier takes a turn depends on its own mailbox only. -/
theorem turn_eq_none_congr (hb : h'.bulletin.box? c.feed.id = h.bulletin.box? c.feed.id) :
    c.turn now h' = none ↔ c.turn now h = none := by
  have hidle : c.Idle now h' ↔ c.Idle now h :=
    ⟨fun hi => ⟨hi.1, hi.2, hi.3, hi.4, hi.5, hi.6, hb ▸ hi.7, hi.8⟩,
      fun hi => ⟨hi.1, hi.2, hi.3, hi.4, hi.5, hi.6, hb ▸ hi.7, hi.8⟩⟩
  rw [turn_eq_none_iff, turn_eq_none_iff, hidle]

/-- Others do not notice turns. -/
theorem turns_others (now n : Nat) : ∀ (h : Hub) (c : Courier), h.bulletin.Sound →
    (turns now n (h, c)).1.bulletin.Sound ∧ (turns now n (h, c)).2.feed.id = c.feed.id ∧
      ∀ i, i ≠ c.feed.id → (turns now n (h, c)).1.bulletin.box? i = h.bulletin.box? i := by
  induction n with
  | zero => exact fun h c hb => ⟨hb, rfl, fun _ _ => rfl⟩
  | succ n ih =>
    intro h c hb
    cases ht : c.turn now h with
    | none => rw [turns_of_turn_eq_none ht]; exact ⟨hb, rfl, fun _ _ => rfl⟩
    | some p =>
      obtain ⟨h', c'⟩ := p
      obtain ⟨-, hb', -, hid, hbox⟩ := (turns_of_turn ht).others hb
      obtain ⟨hb'', hid', hbox'⟩ := ih h' c' hb'
      rw [turns, ht]
      exact ⟨hb'', hid'.trans hid, fun i hi => (hbox' i (hid ▸ hi)).trans (hbox i hi)⟩

end Courier

namespace Site

/-- When couriers have been settled one after the other, all of them are at rest. -/
theorem turn_settleAll (now : Nat) (cs : List Courier) : ∀ (h : Hub), h.bulletin.Sound →
    (cs.map (·.feed.id)).Nodup →
    (∀ c ∈ (settleAll now h cs).2, c.turn now (settleAll now h cs).1 = none) ∧
      ∀ i, i ∉ cs.map (·.feed.id) →
        (settleAll now h cs).1.bulletin.box? i = h.bulletin.box? i := by
  induction cs with
  | nil => exact fun h _ _ => ⟨by simp [settleAll], fun _ _ => rfl⟩
  | cons c rest ih =>
    intro h hb hnodup
    obtain ⟨hfresh, hnodup'⟩ := List.nodup_cons.1 hnodup
    obtain ⟨hb', hid, hbox⟩ := Courier.turns_others now (c.weight now h) h c hb
    obtain ⟨hrest, hbox'⟩ := ih (c.settle now h).1 hb' hnodup'
    refine ⟨fun a ha => ?_, fun i hi => ?_⟩
    · rcases List.mem_cons.1 ha with rfl | ha
      · refine (Courier.turn_eq_none_congr ?_).2 (Courier.turn_settle now h c)
        exact hbox' _ (hid ▸ hfresh)
      · exact hrest a ha
    · have hne : i ≠ c.feed.id := fun he => hi (he ▸ List.mem_cons_self)
      exact (hbox' i fun hm => hi (List.mem_cons_of_mem _ hm)).trans (hbox i hne)

end Site

namespace World

variable {w : World} {c : Courier}

theorem step_turn_of_none (hw : w.Sound) (hc : c ∈ w.couriers)
    (ht : c.turn w.now w.hub = none) : w.step (.turn c.feed.id) = w := by
  simp only [step, hw.courier?_eq hc, ht]

theorem site_step_turn (hw : w.Sound) (hc : c ∈ w.couriers) {h' : Hub} {c' : Courier}
    (ht : c.turn w.now w.hub = some (h', c')) : (w.step (.turn c.feed.id)).site =
      (w.site.withHub h').modifyCourier c.feed.id fun _ => c' := by
  simp only [step, hw.courier?_eq hc, ht]
  rfl

theorem modifyCourier_self (hw : w.Sound) (hc : c ∈ w.couriers) :
    (w.site.modifyCourier c.feed.id fun _ => c) = w.site := by
  have hmap : w.site.couriers.map (fun a => if a.feed.id = c.feed.id then c else a) =
      w.site.couriers := by
    conv => rhs; rw [← List.map_id w.site.couriers]
    refine List.map_congr_left fun a ha => ?_
    split
    · exact (hw.eq_of_id_eq ha hc ‹_›).symm
    · rfl
  rw [Site.modifyCourier, hmap]

/-- Of two changes to one courier the last one counts. -/
theorem modifyCourier_modifyCourier (s : Site) {id : Nat} {c' c'' : Courier} {h' h'' : Hub}
    (hid : c'.feed.id = id) :
    (((s.withHub h').modifyCourier id fun _ => c').withHub h'').modifyCourier id (fun _ => c'') =
      (s.withHub h'').modifyCourier id fun _ => c'' := by
  have hmap : ∀ a : Courier, (if (if a.feed.id = id then c' else a).feed.id = id then c''
      else if a.feed.id = id then c' else a) = if a.feed.id = id then c'' else a := by
    intro a
    by_cases ha : a.feed.id = id
    · simp [ha, hid]
    · simp [ha]
  simp only [Site.modifyCourier, Site.withHub, List.map_map, Function.comp_def, hmap]

/-- Turns of one courier, as events. -/
theorem run_turns (n : Nat) : ∀ {w : World} {c : Courier}, w.Sound → c ∈ w.couriers →
    (w.run (List.replicate n (.turn c.feed.id))).site =
      (w.site.withHub (Courier.turns w.now n (w.hub, c)).1).modifyCourier c.feed.id
        fun _ => (Courier.turns w.now n (w.hub, c)).2 := by
  induction n with
  | zero => exact fun hw hc => (modifyCourier_self hw hc).symm
  | succ n ih =>
    intro w c hw hc
    rw [List.replicate_succ, run_cons]
    cases ht : c.turn w.now w.hub with
    | none =>
      rw [step_turn_of_none hw hc ht, ih hw hc, Courier.turns_of_turn_eq_none ht,
        Courier.turns_of_turn_eq_none ht]
    | some p =>
      obtain ⟨h', c'⟩ := p
      have hid : c'.feed.id = c.feed.id :=
        ((Courier.turns_of_turn ht).others hw.bulletin).2.2.2.1
      have hsite := site_step_turn hw hc ht
      have hmem : c' ∈ (w.step (.turn c.feed.id)).couriers := by
        rw [couriers, hsite]
        exact List.mem_map.2 ⟨c, hc, if_pos rfl⟩
      have hrun := ih (hw.step (.turn c.feed.id)) hmem
      rw [hid] at hrun
      rw [hrun, now, hub, hsite, Courier.turns, ht]
      exact modifyCourier_modifyCourier w.site hid

/-- The courier at one place is replaced, and the hub. -/
theorem modifyCourier_middle (hw : w.Sound) {before after : List Courier}
    (hcs : w.couriers = before ++ c :: after) (h' : Hub) (c' : Courier) :
    ((w.site.withHub h').modifyCourier c.feed.id fun _ => c') =
      ⟨h', w.site.stream, w.site.now, before ++ c' :: after⟩ := by
  have hnodup : ((before ++ c :: after).map (·.feed.id)).Nodup := by
    rw [← hcs]; exact List.Nodup.of_append_right hw.nodup
  rw [List.map_append, List.map_cons, List.nodup_middle, ← List.map_append] at hnodup
  have hne : ∀ a ∈ before ++ after, a.feed.id ≠ c.feed.id := fun a ha he =>
    (List.nodup_cons.1 hnodup).1 (he ▸ List.mem_map_of_mem ha)
  have hkeep : ∀ cs : List Courier, (∀ a ∈ cs, a.feed.id ≠ c.feed.id) →
      cs.map (fun a => if a.feed.id = c.feed.id then c' else a) = cs := by
    intro cs hcs
    conv => rhs; rw [← List.map_id cs]
    exact List.map_congr_left fun a ha => if_neg (hcs a ha)
  have hmap : w.couriers.map (fun a => if a.feed.id = c.feed.id then c' else a) =
      before ++ c' :: after := by
    rw [hcs, List.map_append, List.map_cons, if_pos rfl,
      hkeep before fun a ha => hne a (List.mem_append_left _ ha),
      hkeep after fun a ha => hne a (List.mem_append_right _ ha)]
  exact congrArg (Site.mk h' w.site.stream w.site.now) hmap

/-- To settle couriers one after the other is to let them take turns. -/
theorem exists_run_settleAll (todo : List Courier) : ∀ (done : List Courier) {w : World}, w.Sound →
    w.couriers = done ++ todo → ∃ ids : List Nat, (w.run (ids.map .turn)).site =
      ⟨(Site.settleAll w.now w.hub todo).1, w.site.stream, w.site.now,
        done ++ (Site.settleAll w.now w.hub todo).2⟩ := by
  induction todo with
  | nil =>
    intro done w _ hcs
    exact ⟨[], congrArg (Site.mk w.hub w.site.stream w.site.now) hcs⟩
  | cons c rest ih =>
    intro done w hw hcs
    have hc : c ∈ w.couriers := by rw [hcs]; simp
    have hsite := (run_turns (c.weight w.now w.hub) hw hc).trans
      (modifyCourier_middle hw hcs _ _)
    obtain ⟨ids, hids⟩ := ih (done ++ [(c.settle w.now w.hub).2]) (hw.run _) (by
      rw [couriers, hsite, List.append_assoc]; rfl)
    refine ⟨List.replicate (c.weight w.now w.hub) c.feed.id ++ ids, ?_⟩
    rw [List.map_append, List.map_replicate, run_append]
    generalize w.run (List.replicate (c.weight w.now w.hub) (.turn c.feed.id)) = w₁ at hsite hids ⊢
    rw [hids, show w₁.now = w₁.site.now from rfl, show w₁.hub = w₁.site.hub from rfl, hsite,
      List.append_assoc]
    rfl

/-- To settle a site is to let its couriers take turns, and then all of them are at rest. -/
theorem run_settle (hw : w.Sound) :
    (∃ ids : List Nat, (w.run (ids.map .turn)).site = w.site.settle) ∧
      ∀ c ∈ w.site.settle.couriers, c.turn w.site.settle.now w.site.settle.hub = none :=
  ⟨exists_run_settleAll w.site.couriers [] hw rfl,
    (Site.turn_settleAll w.now w.site.couriers w.hub hw.bulletin
      (List.Nodup.of_append_right hw.nodup)).1⟩

end World

end SignalHub
