import SignalHub.Proofs.Shutdown
import SignalHub.Proofs.Turnover
/-!
# Live streams that run

A live stream runs from the event that opens it to the turn in which its courier ends. No other
event changes which of them run.

Results:
* `World.runs_step`: which live streams run after an event.
-/
namespace SignalHub

namespace World

/-- The live stream that an act opens. -/
def opened? (w : World) : Act → Option Nat
  | .event (.live r) =>
    match Http.openLive w.site r with
    | .ok (⟨_, _, .events id _, _⟩, _) => some id
    | _ => none
  | _ => none

/-- The live stream whose courier ends by an act. -/
def closed? (w : World) : Act → Option Nat
  | .event (.turn id) =>
    match w.site.courier? id with
    | none => none
    | some c =>
      match c.turn w.now w.hub with
      | some (_, c') => if c'.isLive && c'.hasEnded then some id else none
      | none => none
  | _ => none

/-- The live stream of that number is running. -/
def Runs (w : World) (id : Nat) : Prop :=
  ∃ c ∈ w.couriers, c.feed.id = id ∧ c.isLive = true ∧ c.hasEnded = false

variable {w w' : World} {i : Nat}

/-! ## Running live streams -/

theorem runs_congr (hc : w'.couriers = w.couriers) : w'.Runs i ↔ w.Runs i := by
  rw [Runs, Runs, hc]

theorem runs_map {g : Courier → Courier} (hc : w'.couriers = w.couriers.map g)
    (hg : ∀ c ∈ w.couriers, (g c).feed.id = c.feed.id ∧ (g c).isLive = c.isLive ∧
      (g c).hasEnded = c.hasEnded) : w'.Runs i ↔ w.Runs i := by
  rw [Runs, Runs, hc]
  constructor
  · rintro ⟨c', hc', hid, hlive, hended⟩
    obtain ⟨c, hmem, rfl⟩ := List.mem_map.1 hc'
    obtain ⟨hid', hlive', hended'⟩ := hg c hmem
    exact ⟨c, hmem, hid' ▸ hid, hlive' ▸ hlive, hended' ▸ hended⟩
  · rintro ⟨c, hmem, hid, hlive, hended⟩
    obtain ⟨hid', hlive', hended'⟩ := hg c hmem
    exact ⟨g c, List.mem_map_of_mem hmem, hid'.trans hid, hlive'.trans hlive,
      hended'.trans hended⟩

theorem runs_modify {id : Nat} {g : Courier → Courier}
    (hc : w'.couriers = w.couriers.map fun c => if c.feed.id = id then g c else c)
    (hg : ∀ c ∈ w.couriers, c.feed.id = id → (g c).feed.id = c.feed.id ∧
      (g c).isLive = c.isLive ∧ (g c).hasEnded = c.hasEnded) : w'.Runs i ↔ w.Runs i := by
  refine runs_map hc fun c hmem => ?_
  split
  · exact hg c hmem ‹_›
  · exact ⟨rfl, rfl, rfl⟩

theorem runs_concat {c : Courier} (hc : w'.couriers = w.couriers ++ [c])
    (hended : c.hasEnded = false) : w'.Runs i ↔ w.Runs i ∨ c.isLive = true ∧ c.feed.id = i := by
  rw [Runs, Runs, hc]
  constructor
  · rintro ⟨c', hc', hid, hlive, hended'⟩
    rcases List.mem_append.1 hc' with hc' | hc'
    · exact .inl ⟨c', hc', hid, hlive, hended'⟩
    · obtain rfl := List.mem_singleton.1 hc'
      exact .inr ⟨hlive, hid⟩
  · rintro (⟨c', hc', hrest⟩ | ⟨hlive, hid⟩)
    · exact ⟨c', List.mem_append_left _ hc', hrest⟩
    · exact ⟨c, List.mem_append_right _ (List.mem_singleton_self c), hid, hlive, hended⟩

theorem opened?_live (w : World) (r : Http.LiveRequest) :
    w.opened? (.event (.live r)) = some w.hub.bulletin.nextId := by
  simp only [opened?, openLive_eq]
  rfl

theorem Sound.runs_iff (hw : w.Sound) :
    w.Runs i ↔ (w.site.courier? i).any (fun c => c.isLive && !c.hasEnded) := by
  constructor
  · rintro ⟨c, hc, rfl, hlive, hended⟩
    simp [hw.courier?_eq hc, hlive, hended]
  · intro hany
    obtain ⟨c, hc, hstate⟩ := (Option.any_eq_true _ _).1 hany
    obtain ⟨hmem, hid⟩ := mem_of_courier? hc
    rw [Bool.and_eq_true, Bool.not_eq_true'] at hstate
    exact ⟨c, hmem, hid, hstate⟩

theorem runs_turn (hw : w.Sound) (id : Nat) : (w.step (.turn id)).Runs i ↔
    w.Runs i ∧ w.closed? (.event (.turn id)) ≠ some i := by
  cases hc : w.site.courier? id with
  | none => simp [step, closed?, hc]
  | some c =>
    cases ht : c.turn w.now w.hub with
    | none => simp [step, closed?, hc, ht]
    | some p =>
      obtain ⟨h', c'⟩ := p
      obtain ⟨hmem, rfl⟩ := mem_of_courier? hc
      have hmove := Courier.Moves.turns (Courier.turns_of_turn ht)
      have hrunning : c.hasEnded = false := by
        cases hended : c.hasEnded with
        | false => rfl
        | true => rw [Courier.turn_eq_none_iff.2 (.inl hended)] at ht; cases ht
      have hcourier := courier?_step_turn hc ht (hmove.id_eq hw.bulletin) i
      rw [(hw.step _).runs_iff, hw.runs_iff, hcourier]
      simp only [closed?, hc, ht, hmove.isLive_eq]
      by_cases hi : i = c.feed.id
      · subst hi
        rw [if_pos rfl, hc, Option.any_some, Option.any_some, hmove.isLive_eq, hrunning]
        cases hlive : c.isLive <;> cases hended : c'.hasEnded <;> simp
      · rw [if_neg hi]
        split <;> simp [Ne.symm hi]

/-- A live stream is running if it has been opened and its courier has not ended. -/
theorem runs_step (hw : w.Sound) (e : Event) : (w.step e).Runs i ↔
    (w.Runs i ∧ w.closed? (.event e) ≠ some i) ∨ w.opened? (.event e) = some i := by
  have hquiet : ((w.step e).Runs i ↔ w.Runs i) → w.closed? (.event e) = none →
      w.opened? (.event e) = none → ((w.step e).Runs i ↔
        (w.Runs i ∧ w.closed? (.event e) ≠ some i) ∨ w.opened? (.event e) = some i) := by
    intro hruns hclosed hopened
    simp [hruns, hclosed, hopened]
  cases e with
  | record | advance => exact hquiet (runs_congr rfl) rfl rfl
  | attach f b =>
    refine hquiet (runs_congr ?_) rfl rfl
    simp only [step]
    split <;> rfl
  | live r =>
    rw [opened?_live]
    have hcouriers : (w.step (.live r)).couriers = w.couriers ++ [.start (r.feed w.site)
        Http.liveCapacity (w.site.stream.keepaliveSeconds.toNat * 1000) w.now .listening true] := by
      simp only [step, openLive_eq]
      rfl
    rw [runs_concat hcouriers rfl]
    simp only [closed?, Courier.start, ne_eq, reduceCtorEq, not_false_eq_true, and_true, true_and,
      Option.some.injEq]
    rfl
  | poll id =>
    refine hquiet (runs_congr ?_) rfl rfl
    simp only [step]
    split <;> rfl
  | pause id =>
    exact hquiet (runs_modify (g := fun c => { c with feed := c.feed.pause }) rfl
      fun _ _ _ => ⟨rfl, rfl, rfl⟩) rfl rfl
  | resume id =>
    exact hquiet (runs_modify (g := fun c => { c with feed := c.feed.resume }) rfl
      fun _ _ _ => ⟨rfl, rfl, rfl⟩) rfl rfl
  | drop id =>
    refine hquiet (runs_congr ?_) rfl rfl
    simp only [step]
    split <;> rfl
  | launch id capacity keepalive listener =>
    refine hquiet ?_ rfl rfl
    cases hf : w.feed? id with
    | none => simp only [step, hf]
    | some f =>
      have hcouriers : (w.step (.launch id capacity keepalive listener)).couriers =
          w.couriers ++ [.start f capacity keepalive w.now listener false] := by
        simp only [step, hf]
        rfl
      rw [runs_concat hcouriers rfl]
      simp [Courier.start]
  | turn id =>
    rw [runs_turn hw id]
    simp [opened?]
  | take id =>
    refine hquiet ?_ rfl rfl
    cases hc : w.site.courier? id with
    | none => simp only [step, Site.take, hc]
    | some c =>
      obtain ⟨hmem, rfl⟩ := mem_of_courier? hc
      refine runs_modify (g := fun _ => c.take.2) ?_ fun a ha (hid : _ = c.feed.id) => ?_
      · rw [couriers, site_take, Site.take, hc]
        rfl
      · obtain rfl := hw.eq_of_id_eq ha hmem hid
        unfold Courier.take
        split <;> exact ⟨rfl, rfl, rfl⟩
  | close id =>
    exact hquiet (runs_modify (g := Courier.close) rfl fun _ _ _ => ⟨rfl, rfl, rfl⟩) rfl rfl
  | leave id =>
    exact hquiet (runs_modify (g := Courier.abandon) rfl fun _ _ _ => ⟨rfl, rfl, rfl⟩) rfl rfl
  | shutdown =>
    refine hquiet (runs_map (g := Courier.call) rfl fun c _ => ?_) rfl rfl
    unfold Courier.call
    split <;> exact ⟨rfl, rfl, rfl⟩

end World

end SignalHub
