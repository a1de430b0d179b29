import SignalHub.Proofs.Invariant
/-!
# What an event does to the couriers

An event changes couriers where they are and may add one at the end. None is ever removed.

Results:
* `World.couriers_step`: the couriers after an event.
* `World.exists_moves_step`, `World.moves_or_begins_step`: the same, seen from a courier before the
  event and from one after it.
* `World.nextId_le_step`: numbers are never given again.
-/
namespace SignalHub

/-- What an event can make of one courier. -/
inductive Courier.Moves (now : Nat) (h : Hub) : Event → Courier → Courier → Prop where
  | stays (e : Event) (c : Courier) : Moves now h e c c
  | pauses (c : Courier) : Moves now h (.pause c.feed.id) c { c with feed := c.feed.pause }
  | resumes (c : Courier) : Moves now h (.resume c.feed.id) c { c with feed := c.feed.resume }
  | turns {c : Courier} {h' : Hub} {c' : Courier} (ht : c.Turns now h h' c') :
    Moves now h (.turn c.feed.id) c c'
  | takes (c : Courier) : Moves now h (.take c.feed.id) c c.take.2
  | closes (c : Courier) : Moves now h (.close c.feed.id) c c.close
  | leaves (c : Courier) : Moves now h (.leave c.feed.id) c c.abandon
  | hears (c : Courier) : Moves now h .shutdown c c.call

theorem Courier.Moves.id_eq {now : Nat} {h : Hub} {e : Event} {c c' : Courier}
    (hm : c.Moves now h e c') (hb : h.bulletin.Sound) : c'.feed.id = c.feed.id := by
  cases hm with
  | stays | pauses | resumes | closes | leaves => rfl
  | turns ht => exact (ht.others hb).2.2.2.1
  | takes => unfold Courier.take; split <;> rfl
  | hears => unfold Courier.call; split <;> rfl

namespace World

variable {w : World}

/-- The couriers that an event can add. -/
inductive Begins (w : World) : Courier → Prop where
  | live (r : Http.LiveRequest) :
    Begins w (.start (r.feed w.site) Http.liveCapacity
      (w.site.stream.keepaliveSeconds.toNat * 1000) w.now .listening true)
  | launch (f : Feed) (capacity keepalive : Nat) (listener : Listener) :
    Begins w (.start f capacity keepalive w.now listener false)

/-- What an event makes of all couriers. -/
def Succeeds (w : World) (e : Event) (cs : List Courier) : Prop :=
  ∃ (g : Courier → Courier) (new : List Courier), cs = w.couriers.map g ++ new ∧
    (∀ c ∈ w.couriers, c.Moves w.now w.hub e (g c)) ∧ ∀ c ∈ new, w.Begins c

theorem succeeds_map {e : Event} {g : Courier → Courier}
    (hg : ∀ c ∈ w.couriers, c.Moves w.now w.hub e (g c)) : w.Succeeds e (w.couriers.map g) :=
  ⟨g, [], by simp, hg, by simp⟩

theorem succeeds_self (e : Event) : w.Succeeds e w.couriers :=
  ⟨id, [], by simp, fun c _ => .stays e c, by simp⟩

theorem succeeds_concat (e : Event) {c : Courier} (hc : w.Begins c) :
    w.Succeeds e (w.couriers ++ [c]) :=
  ⟨id, [c], by simp, fun c _ => .stays e c, by simpa using hc⟩

/-- The courier of one feed changes. -/
theorem succeeds_modify {e : Event} {id : Nat} {g : Courier → Courier}
    (hg : ∀ c ∈ w.couriers, c.feed.id = id → c.Moves w.now w.hub e (g c)) :
    w.Succeeds e (w.couriers.map fun c => if c.feed.id = id then g c else c) := by
  refine succeeds_map fun c hc => ?_
  split
  · exact hg c hc ‹_›
  · exact .stays e c

theorem succeeds_turn (hw : w.Sound) (id : Nat) :
    w.Succeeds (.turn id) (w.step (.turn id)).couriers := by
  cases hc : w.site.courier? id with
  | none => simpa only [step, hc] using succeeds_self _
  | some c =>
    cases ht : c.turn w.now w.hub with
    | none => simpa only [step, hc, ht] using succeeds_self _
    | some p =>
      obtain ⟨h', c'⟩ := p
      obtain ⟨hmem, rfl⟩ := mem_of_courier? hc
      simp only [step, hc, ht]
      refine succeeds_modify (g := fun _ => c') fun a ha haid => ?_
      obtain rfl := hw.eq_of_id_eq ha hmem haid
      exact .turns (Courier.turns_of_turn ht)

theorem site_take (w : World) (id : Nat) : (w.step (.take id)).site = (w.site.take id).2 := by
  simp only [step]
  split
  · rename_i he; rw [he]; rfl
  · rename_i he; rw [he]

theorem succeeds_take (hw : w.Sound) (id : Nat) :
    w.Succeeds (.take id) (w.step (.take id)).couriers := by
  rw [couriers, site_take, Site.take]
  cases hc : w.site.courier? id with
  | none => exact succeeds_self _
  | some c =>
    obtain ⟨hmem, rfl⟩ := mem_of_courier? hc
    refine succeeds_modify (g := fun _ => c.take.2) fun a ha haid => ?_
    obtain rfl := hw.eq_of_id_eq ha hmem haid
    exact .takes a

/-- What an event makes of the couriers. -/
theorem couriers_step (hw : w.Sound) (e : Event) : w.Succeeds e (w.step e).couriers := by
  cases e with
  | record r => exact succeeds_self _
  | advance ms => exact succeeds_self _
  | attach f b =>
    simp only [step]
    split <;> exact succeeds_self _
  | live r =>
    simp only [step, openLive_eq]
    exact succeeds_concat _ (.live r)
  | poll id =>
    simp only [step]
    split <;> exact succeeds_self _
  | pause id => exact succeeds_modify fun c _ hid => hid ▸ .pauses c
  | resume id => exact succeeds_modify fun c _ hid => hid ▸ .resumes c
  | drop id =>
    simp only [step]
    split <;> exact succeeds_self _
  | launch id capacity keepalive listener =>
    simp only [step]
    split
    · exact succeeds_self _
    · exact succeeds_concat _ (.launch _ capacity keepalive listener)
  | turn id => exact succeeds_turn hw id
  | take id => exact succeeds_take hw id
  | close id => exact succeeds_modify fun c _ hid => hid ▸ .closes c
  | leave id => exact succeeds_modify fun c _ hid => hid ▸ .leaves c
  | shutdown => exact succeeds_map fun c _ => .hears c

theorem exists_moves_step (hw : w.Sound) (e : Event) {c : Courier} (hc : c ∈ w.couriers) :
    ∃ c' ∈ (w.step e).couriers, c.Moves w.now w.hub e c' := by
  obtain ⟨g, new, he, hg, -⟩ := couriers_step hw e
  refine ⟨g c, ?_, hg c hc⟩
  rw [he]
  exact List.mem_append_left _ (List.mem_map_of_mem hc)

theorem moves_or_begins_step (hw : w.Sound) (e : Event) {c' : Courier}
    (hc : c' ∈ (w.step e).couriers) :
    (∃ c ∈ w.couriers, c.Moves w.now w.hub e c') ∨ w.Begins c' := by
  obtain ⟨g, new, he, hg, hnew⟩ := couriers_step hw e
  rw [he] at hc
  rcases List.mem_append.1 hc with hc | hc
  · obtain ⟨c, hmem, rfl⟩ := List.mem_map.1 hc
    exact Or.inl ⟨c, hmem, hg c hmem⟩
  · exact Or.inr (hnew c' hc)

/-- Numbers are given in ascending order. -/
theorem nextId_le_step (hw : w.Sound) (e : Event) :
    w.hub.bulletin.nextId ≤ (w.step e).hub.bulletin.nextId := by
  cases e with
  | record r =>
    show _ ≤ (w.hub.record r).2.bulletin.nextId
    rw [Hub.bulletin_record]; exact Nat.le_refl _
  | attach f b =>
    simp only [step, Feed.attach]
    split
    · exact Nat.le_refl _
    · split at * <;> rename_i he <;> cases he
      exact Nat.le_succ _
  | live r =>
    simp only [step, openLive_eq]
    exact Nat.le_succ _
  | drop id =>
    simp only [step]
    split
    · exact Nat.le_refl _
    · exact Nat.le_of_eq (w.hub.nextId_discard id).symm
  | turn id =>
    simp only [step]
    split
    · exact Nat.le_refl _
    · split
      · exact Nat.le_refl _
      · rename_i ht
        exact Nat.le_of_eq ((Courier.turns_of_turn ht).others hw.bulletin).2.2.1.symm
  | poll id | launch id capacity keepalive listener =>
    simp only [step]
    split <;> exact Nat.le_refl _
  | take id =>
    rw [hub, hub, site_take, Site.take]
    split <;> exact Nat.le_refl _
  | pause | resume | close | leave | shutdown | advance => exact Nat.le_refl _

end World

end SignalHub
