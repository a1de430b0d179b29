import SignalHub.Proofs.Turnover
/-!
# The life of one courier

Seen from one courier, what happens is something that it does or that is done to it, or it is
nothing. Each leaves its mark in the diary.

Besides events there are the two parts of recording, which may come apart when several tasks run at
the same time, and the hush, when the last one goes away who could call couriers to stop. Every
courier that still listens finds out; that alone does not make it stop.

Results:
* `Courier.Undergoes`: what can be done to one courier, and what its diary then says.
* `Courier.Lives`: the same with its own turns.
* `World.undergoes_step`, `World.undergoes_hush`, `World.lives_step`: what happens to one courier.
-/
namespace SignalHub

/-- Something that happens. -/
inductive Occurrence where
  | event (e : Event)
  /-- A record is put into its archive, and subscribers are not pinged yet. -/
  | stores (r : Record)
  /-- Subscribers are pinged on account of a record of that signal. -/
  | announces (s : Signal)
  /-- The last one goes away who could call couriers to stop. -/
  | hush

namespace Courier

/-- Nobody is left to call a courier. -/
def forsake (c : Courier) : Courier :=
  if c.listener = .listening then { c with listener := .abandoned } else c

theorem feed_forsake (c : Courier) : c.forsake.feed = c.feed := by
  unfold forsake
  split <;> rfl

/-- What can be done to one courier, and what becomes of its diary. -/
inductive Undergoes : Occurrence → Courier → Diary → Courier → Diary → Prop where
  | stays {o : Occurrence} (ho : o ≠ .event .shutdown ∧ o ≠ .hush) (c : Courier) (d : Diary) :
    Undergoes o c d c d
  | pauses (c : Courier) (d : Diary) :
    Undergoes (.event (.pause c.feed.id)) c d { c with feed := c.feed.pause } d
  | resumes (c : Courier) (d : Diary) :
    Undergoes (.event (.resume c.feed.id)) c d { c with feed := c.feed.resume } d
  | takes {c : Courier} {delta : Delta} {rest : List Delta} (hq : c.sink.queue = delta :: rest)
      (d : Diary) :
    Undergoes (.event (.take c.feed.id)) c d { c with sink := { c.sink with queue := rest } }
      (d.take delta)
  | closes (c : Courier) (d : Diary) : Undergoes (.event (.close c.feed.id)) c d c.close d
  | leaves (c : Courier) (d : Diary) : Undergoes (.event (.leave c.feed.id)) c d c.abandon d
  | hears (c : Courier) (d : Diary) : Undergoes (.event .shutdown) c d c.call d
  | hushes (c : Courier) (d : Diary) : Undergoes .hush c d c.forsake d

/-- What an event can make of one courier and its diary. -/
inductive Lives (now : Nat) (h : Hub) : Event → Courier → Diary → Courier → Diary → Prop where
  | undergoes {e : Event} {c c' : Courier} {d d' : Diary} (hu : c.Undergoes (.event e) d c' d') :
    Lives now h e c d c' d'
  | turns {c : Courier} {h' : Hub} {c' : Courier} (ht : c.Turns now h h' c') (d : Diary) :
    Lives now h (.turn c.feed.id) c d c' (if c.looksInto c' then d.poll h c.feed else d)

end Courier

namespace World

variable {w : World} {i : Nat} {c : Courier}

/-! ## Events -/

/-- The courier and its diary stay as they are. -/
theorem undergoes_same {o : Occurrence} (ho : o ≠ .event .shutdown ∧ o ≠ .hush) {w' : World}
    (hc : w'.site.courier? i = some c) (hd : w'.diary i = w.diary i) :
    ∃ c', w'.site.courier? i = some c' ∧ c.Undergoes o (w.diary i) c' (w'.diary i) :=
  ⟨c, hc, hd ▸ .stays ho _ _⟩

/-- The courier of one feed changes, without a word in its diary. -/
theorem undergoes_modify {e : Event} (he : e ≠ .shutdown) {id : Nat} {g : Courier → Courier}
    (hid : ∀ a, (g a).feed.id = a.feed.id) (hc : w.site.courier? i = some c)
    (hg : i = id → c.Undergoes (.event e) (w.diary i) (g c) (w.diary i)) :
    ∃ c', (w.site.modifyCourier id g).courier? i = some c' ∧
      c.Undergoes (.event e) (w.diary i) c' (w.diary i) := by
  refine ⟨if i = id then g c else c, ?_, ?_⟩
  · rw [w.site.courier?_modifyCourier (fun a _ ha => (hid a).trans ha), hc]
    rfl
  · split
    · exact hg ‹_›
    · exact .stays (by simpa using he) _ _

theorem undergoes_take (hc : w.site.courier? i = some c) (id : Nat) :
    ∃ c', (w.step (.take id)).site.courier? i = some c' ∧
      c.Undergoes (.event (.take id)) (w.diary i) c' ((w.step (.take id)).diary i) := by
  cases ha : w.site.courier? id with
  | none =>
    simp only [step, Site.take, ha]
    exact undergoes_same (by simp) hc rfl
  | some a =>
    obtain ⟨-, rfl⟩ := mem_of_courier? ha
    have hcourier (b : Courier) (hb : b.feed = a.feed) :
        (w.site.modifyCourier a.feed.id fun _ => b).courier? i =
          if i = a.feed.id then some b else w.site.courier? i := by
      rw [w.site.courier?_modifyCourier (fun _ _ _ => congrArg Feed.id hb), hc]
      split <;> rfl
    have hsame (hi : i = a.feed.id) : a = c := Option.some.inj (ha.symm.trans (hi ▸ hc))
    cases hq : a.sink.queue with
    | nil =>
      have hstep : w.step (.take a.feed.id) =
          { w with site := w.site.modifyCourier a.feed.id fun _ => a } := by
        simp only [step, Site.take, ha, Courier.take, hq]
        split
        · rename_i he; split at he <;> cases he
        · rename_i he; cases he; rfl
      rw [hstep]
      refine undergoes_same (by simp) ((hcourier a rfl).trans ?_) rfl
      split
      · rename_i hi; rw [hsame hi]
      · exact hc
    | cons delta rest =>
      simp only [step, Site.take, ha, Courier.take, hq]
      by_cases hi : i = a.feed.id
      · subst hi
        obtain rfl := hsame rfl
        refine ⟨{ a with sink := { a.sink with queue := rest } },
          (hcourier { a with sink := { a.sink with queue := rest } } rfl).trans (if_pos rfl), ?_⟩
        rw [diary_write_self]
        exact .takes hq _
      · refine undergoes_same (by simp) ?_ (diary_write_of_ne hi)
        have hother := hcourier { a with sink := { a.sink with queue := rest } } rfl
        exact hother.trans ((if_neg hi).trans hc)

/-- What any other event than a turn makes of a courier and its diary. -/
theorem undergoes_step (hw : w.Orderly) (hc : w.site.courier? i = some c) {e : Event}
    (he : ∀ id, e ≠ .turn id) :
    ∃ c', (w.step e).site.courier? i = some c' ∧
      c.Undergoes (.event e) (w.diary i) c' ((w.step e).diary i) := by
  obtain ⟨hmem, hid⟩ := mem_of_courier? hc
  have hold : i ≠ w.hub.bulletin.nextId :=
    hid ▸ Nat.ne_of_lt (hw.lt_nextId _ (id_mem_of_courier hmem))
  have hfeed {id : Nat} {f : Feed} (hf : w.feed? id = some f) : i ≠ id := by
    obtain ⟨hfmem, rfl⟩ := mem_of_feed? hf
    exact hid ▸ (hw.apart _ hfmem c hmem).symm
  have hconcat (new : Courier) :
      (w.site.couriers ++ [new]).find? (fun a => a.feed.id == i) = some c := by
    rw [List.find?_append, show w.site.couriers.find? (fun a => a.feed.id == i) = some c from hc]
    rfl
  cases e with
  | record | advance => exact undergoes_same (by simp) hc rfl
  | attach f b =>
    simp only [step, Feed.attach]
    split
    · exact undergoes_same (by simp) hc rfl
    · rename_i he
      split at he <;> cases he
      exact undergoes_same (by simp) hc (diary_write_of_ne hold)
  | live r =>
    simp only [step, openLive_eq]
    exact undergoes_same (by simp) (hconcat _) (diary_write_of_ne hold)
  | poll id =>
    cases hf : w.feed? id with
    | none => simpa only [step, hf] using undergoes_same (by simp) hc rfl
    | some f =>
      simp only [step, hf]
      exact undergoes_same (by simp) hc (diary_write_of_ne (hfeed hf))
  | pause id =>
    exact undergoes_modify (by simp) (fun _ => rfl) hc fun hi => hi ▸ hid ▸ .pauses c _
  | resume id =>
    exact undergoes_modify (by simp) (fun _ => rfl) hc fun hi => hi ▸ hid ▸ .resumes c _
  | drop id =>
    simp only [step]
    split <;> exact undergoes_same (by simp) hc rfl
  | launch id capacity keepalive listener =>
    simp only [step]
    split
    · exact undergoes_same (by simp) hc rfl
    · exact undergoes_same (by simp) (hconcat _) rfl
  | turn id => exact absurd rfl (he id)
  | take id => exact undergoes_take hc id
  | close id => exact undergoes_modify (by simp) (fun _ => rfl) hc fun hi => hi ▸ hid ▸ .closes c _
  | leave id => exact undergoes_modify (by simp) (fun _ => rfl) hc fun hi => hi ▸ hid ▸ .leaves c _
  | shutdown =>
    refine ⟨c.call, ?_, .hears c _⟩
    have hcall : (fun a : Courier => a.call.feed.id == i) = fun a => a.feed.id == i :=
      funext fun a => by rw [Courier.feed_call]
    refine List.find?_map.trans ?_
    show (w.site.couriers.find? fun a => a.call.feed.id == i).map _ = _
    rw [hcall, show w.site.couriers.find? (fun a => a.feed.id == i) = some c from hc]
    rfl

theorem lives_turn (hw : w.Orderly) (hc : w.site.courier? i = some c) (id : Nat) :
    ∃ c', (w.step (.turn id)).site.courier? i = some c' ∧
      c.Lives w.now w.hub (.turn id) (w.diary i) c' ((w.step (.turn id)).diary i) := by
  have hsame {w' : World} (hc' : w'.site.courier? i = some c) (hd : w'.diary i = w.diary i) :
      ∃ c', w'.site.courier? i = some c' ∧
        c.Lives w.now w.hub (.turn id) (w.diary i) c' (w'.diary i) := by
    obtain ⟨c', hc'', hu⟩ := undergoes_same (o := .event (.turn id)) (by simp) hc' hd
    exact ⟨c', hc'', .undergoes hu⟩
  cases ha : w.site.courier? id with
  | none =>
    simp only [step, ha]
    exact hsame hc rfl
  | some a =>
    cases ht : a.turn w.now w.hub with
    | none =>
      simp only [step, ha, ht]
      exact hsame hc rfl
    | some p =>
      obtain ⟨h', a'⟩ := p
      obtain ⟨-, rfl⟩ := mem_of_courier? ha
      have hturns := Courier.turns_of_turn ht
      have hcourier := courier?_step_turn ha ht (hturns.others hw.bulletin).2.2.2.1 i
      by_cases hi : i = a.feed.id
      · subst hi
        obtain rfl : a = c := Option.some.inj (ha.symm.trans hc)
        refine ⟨a', hcourier.trans (if_pos rfl), ?_⟩
        simp only [step, ha, ht, diary_write_self]
        exact .turns hturns _
      · refine hsame (hcourier.trans ((if_neg hi).trans hc)) ?_
        simp only [step, ha, ht]
        exact diary_write_of_ne hi

/-- What an event makes of a courier and its diary. -/
theorem lives_step (hw : w.Orderly) (hc : w.site.courier? i = some c) (e : Event) :
    ∃ c', (w.step e).site.courier? i = some c' ∧
      c.Lives w.now w.hub e (w.diary i) c' ((w.step e).diary i) := by
  by_cases he : ∃ id, e = .turn id
  · obtain ⟨id, rfl⟩ := he
    exact lives_turn hw hc id
  · rw [not_exists] at he
    obtain ⟨c', hc', hu⟩ := undergoes_step hw hc he
    exact ⟨c', hc', .undergoes hu⟩

/-! ## The hush -/

/-- The world after nobody is left to call couriers. -/
def hush (w : World) : World :=
  { w with site := { w.site with couriers := w.site.couriers.map (·.forsake) } }

theorem undergoes_hush (hc : w.site.courier? i = some c) :
    ∃ c', w.hush.site.courier? i = some c' ∧
      c.Undergoes .hush (w.diary i) c' (w.hush.diary i) := by
  have hforsake : (fun a : Courier => a.forsake.feed.id == i) = fun a => a.feed.id == i :=
    funext fun a => by rw [Courier.feed_forsake]
  refine ⟨c.forsake, ?_, .hushes c _⟩
  refine List.find?_map.trans ?_
  show (w.site.couriers.find? fun a => a.forsake.feed.id == i).map _ = _
  rw [hforsake, show w.site.couriers.find? (fun a => a.feed.id == i) = some c from hc]
  rfl

end World

end SignalHub
