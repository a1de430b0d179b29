import SignalHub.Proofs.Drafts
import SignalHub.Proofs.Finishing
/-!
# What ends a live stream, and what stops it

A live stream ends if couriers are called to stop while it listens, or if its reader goes away, and
for no other reason. A courier that was called begins no turn any more, and neither does one whose
feed is paused. But other tasks run at the same time, and a turn that was under way goes on: each
cursor may move once more, and the reader may get one delta more than was on its way.

Results:
* `Courier.Unharmed`: a courier that nothing has stopped.
* `World.head_live`: who asks for the head of a live stream opens it and goes away.
* `Concurrent.Winds`: no turn is begun, and one at most is finished.
* `Concurrent.live_stream_life`: what holds of a live stream after any occurrences.
* `Concurrent.turn_under_way_goes_on`: a turn that goes on after a call, and one after a pause.
-/
namespace SignalHub

/-- Couriers were called to stop before nobody was left to call, or the reader of a feed went
away. -/
def Stopped (id : Nat) (os : List Occurrence) : Prop :=
  (∃ mid rest, os = mid ++ .event .shutdown :: rest ∧ .hush ∉ mid) ∨
    .event (.close id) ∈ os ∨ .event (.leave id) ∈ os

variable {id : Nat} {os : List Occurrence} {o : Occurrence}

theorem Stopped.append (hs : Stopped id os) (os' : List Occurrence) : Stopped id (os ++ os') := by
  rcases hs with ⟨mid, rest, rfl, hmid⟩ | hmem | hmem
  · exact .inl ⟨mid, rest ++ os', by simp, hmid⟩
  · exact .inr (.inl (List.mem_append_left _ hmem))
  · exact .inr (.inr (List.mem_append_left _ hmem))

theorem stopped_of_shutdown (hos : .hush ∉ os) : Stopped id (os ++ [.event .shutdown]) :=
  .inl ⟨os, [], rfl, hos⟩

namespace Courier

variable {now : Nat} {h h' : Hub} {c c' : Courier} {g g' : Stage} {d d' : Diary} {gone : Prop}

/-! ## What ends it -/

/-- A courier that nothing has stopped. It listens, unless nobody is left to call it. -/
structure Unharmed (gone : Prop) (c : Courier) : Prop where
  keepalive_ne : c.keepalive ≠ 0
  hasEnded_eq : c.hasEnded = false
  isOpen : c.sink.isOpen
  listens : ¬ gone → c.listener = .listening
  misses : gone → c.listener = .abandoned ∨ c.listener = .deaf

theorem Unharmed.not_called (hu : c.Unharmed gone) : c.listener ≠ .called := by
  intro hcalled
  by_cases hgone : gone
  · rcases hu.misses hgone with hl | hl <;> rw [hcalled] at hl <;> cases hl
  · have hl := hu.listens hgone
    rw [hcalled] at hl
    cases hl

/-- No stride ends it. -/
theorem Unharmed.strides (hu : c.Unharmed gone)
    (hbox : ∃ n, h.bulletin.box? c.feed.id = some ⟨n, true⟩)
    (hs : c.Strides now h g h' c' g') : c'.Unharmed gone := by
  cases hs with
  | ends _ hl =>
    exfalso
    have hopen := hu.isOpen
    cases hl with
    | refused _ ho => rw [hopen] at ho; cases ho
    | ticksTooFast _ hk => exact hu.keepalive_ne hk
    | called _ hl => exact hu.not_called hl
    | closed _ ho => rw [hopen] at ho; cases ho
    | forgotten _ hnone =>
      obtain ⟨n, hn⟩ := hbox
      exact hnone n hn
  | puts | holds => exact ⟨hu.keepalive_ne, rfl, hu.isOpen, hu.listens, hu.misses⟩
  | rests | begins | asks | refrains | goesOn | looks | gathers | finds => exact hu
  | reaches => exact ⟨hu.keepalive_ne, hu.hasEnded_eq, hu.isOpen, hu.listens, hu.misses⟩
  | rouses _ _ hr =>
    refine ⟨hu.keepalive_ne, hu.hasEnded_eq, hu.isOpen, fun hgone => ?_, fun hgone => ?_⟩
    · have hl := hu.listens hgone
      exact (hr.listener_eq (by rw [hl]; exact Listener.noConfusion)).trans hl
    · cases hr with
      | abandoned => exact .inr rfl
      | resumed | pinged | ticked => exact hu.misses hgone

theorem Unharmed.undergoes (hu : c.Unharmed gone) (hl : c.Undergoes o d c' d') (ho : o ≠ .hush)
    (hcall : o = .event .shutdown → gone) (hclose : o ≠ .event (.close c.feed.id))
    (hleave : o ≠ .event (.leave c.feed.id)) : c'.Unharmed gone := by
  cases hl with
  | stays => exact hu
  | pauses | resumes | takes =>
    exact ⟨hu.keepalive_ne, hu.hasEnded_eq, hu.isOpen, hu.listens, hu.misses⟩
  | closes => exact absurd rfl hclose
  | leaves => exact absurd rfl hleave
  | hushes => exact absurd rfl ho
  | hears =>
    have hdeaf : c.listener ≠ .listening := by
      rcases hu.misses (hcall rfl) with hl | hl <;> rw [hl] <;> exact Listener.noConfusion
    rw [call, if_neg hdeaf]
    exact hu

theorem Unharmed.forsake (hu : c.Unharmed gone) : c.forsake.Unharmed True := by
  unfold Courier.forsake
  split
  · exact ⟨hu.keepalive_ne, hu.hasEnded_eq, hu.isOpen, fun h => absurd trivial h,
      fun _ => .inl rfl⟩
  · rename_i hne
    refine ⟨hu.keepalive_ne, hu.hasEnded_eq, hu.isOpen, fun h => absurd trivial h, fun _ => ?_⟩
    by_cases hgone : gone
    · exact hu.misses hgone
    · exact absurd (hu.listens hgone) hne

end Courier

namespace World

theorem stream_step (w : World) (e : Event) : (w.step e).site.stream = w.site.stream := by
  cases e with
  | record | pause | resume | close | leave | shutdown | advance => rfl
  | attach f b =>
    simp only [step]
    split <;> rfl
  | live r =>
    simp only [step, openLive_eq]
    rfl
  | poll | drop | launch =>
    simp only [step]
    split <;> rfl
  | turn =>
    simp only [step]
    split
    · rfl
    · split <;> rfl
  | take =>
    rw [site_take, Site.take]
    split <;> rfl

/-- Whoever asks for the head of a live stream only opens it and goes away. -/
theorem head_live {w : World} {r : Http.LiveRequest} {p : Http.Response × Site}
    (hp : Http.openLive w.site r = .ok p) :
    (Http.headOnly p).2 =
      ((w.step (.live r)).step (.leave w.hub.bulletin.nextId)).site := by
  rw [openLive_eq] at hp
  cases hp
  simp only [Http.headOnly, step, openLive_eq]
  rfl

/-- A live stream is opened under the next number. -/
theorem courier?_live {w : World} (hw : w.Orderly) (r : Http.LiveRequest) :
    (w.step (.live r)).site.courier? w.hub.bulletin.nextId =
      some (.start (r.feed w.site) Http.liveCapacity (w.site.stream.keepaliveSeconds.toNat * 1000)
        w.now .listening true) := by
  have hnone : w.site.couriers.find? (fun a => a.feed.id == w.hub.bulletin.nextId) = none := by
    rw [List.find?_eq_none]
    intro a ha hid
    exact absurd (eq_of_beq hid) (Nat.ne_of_lt (hw.courier_lt ha))
  simp only [step, openLive_eq]
  refine List.find?_append.trans ?_
  show ((w.site.couriers.find? fun a => a.feed.id == w.hub.bulletin.nextId).or _) = _
  rw [hnone, Option.none_or]
  exact List.find?_cons_of_pos (beq_self_eq_true w.hub.bulletin.nextId)

end World

namespace Concurrent

open Courier (Finishes Stilled)
open World (everything line)

variable {w : Concurrent} {c : Courier} {id : Nat} {os : List Occurrence}

theorem stream_occur (w : Concurrent) (o : Occurrence) :
    (w.occur o).world.site.stream = w.world.site.stream := by
  cases o with
  | event e =>
    by_cases he : ∃ id, e = .turn id
    · obtain ⟨id, rfl⟩ := he
      simp only [occur, stride]
      split <;> rfl
    · rw [not_exists] at he
      rw [occur_event w he]
      exact w.world.stream_step e
  | stores | announces | hush => rfl

theorem stream_pass (w : Concurrent) (os : List Occurrence) :
    (w.pass os).world.site.stream = w.world.site.stream := by
  induction os generalizing w with
  | nil => rfl
  | cons o os ih => exact (ih (w.occur o)).trans (w.stream_occur o)

theorem accepted_occur (w : Concurrent) (o : Occurrence) :
    w.world.accepted <+: (w.occur o).world.accepted := by
  cases o with
  | event e =>
    by_cases he : ∃ id, e = .turn id
    · obtain ⟨id, rfl⟩ := he
      simp only [occur, stride]
      split <;> exact List.prefix_rfl
    · rw [not_exists] at he
      rw [occur_event w he]
      exact ⟨e.accepts, (w.world.accepted_step e).symm⟩
  | stores r => exact ⟨[r], rfl⟩
  | announces | hush => exact List.prefix_rfl

/-- What holds of the courier of a live stream after these occurrences. -/
structure Tends (id : Nat) (os : List Occurrence) (w : Concurrent) (c : Courier) : Prop where
  courier : w.world.site.courier? id = some c
  attached : c.hasEnded = false → w.Attached id
  unharmed : ¬ Stopped id os → c.Unharmed (.hush ∈ os)
  hears : .hush ∉ os → c.listener = .listening ∨ c.listener = .called
  waiting : (w.stage id).underWay → c.phase = .waiting
  keeps : c.Keeps (w.stage id) (w.world.diary id) w.world.accepted

theorem Tends.unharmed_occur (ht : w.Tends id os c) (hended : ¬ Stopped id (os ++ [o]))
    {c' : Courier} {g' : Stage} {d' : Diary}
    (hh : c.Happens w.world.now w.world.hub (w.stage id) (w.world.diary id) o c' g' d') :
    c'.Unharmed (.hush ∈ os ++ [o]) := by
  have hid : c.feed.id = id := (World.mem_of_courier? ht.courier).2
  have hold : ¬ Stopped id os := fun hs => hended (hs.append _)
  have hu := ht.unharmed hold
  by_cases ho : o = .hush
  · subst ho
    have hgone : (Occurrence.hush ∈ os ++ [.hush]) = True := by simp
    rw [hgone]
    cases hh with
    | undergoes hun =>
      cases hun with
      | stays hne => exact absurd rfl hne.2
      | hushes => exact hu.forsake
  · have hgone : (Occurrence.hush ∈ os ++ [o]) = (.hush ∈ os) := by
      rw [List.mem_append, List.mem_singleton, eq_iff_iff]
      exact or_iff_left (Ne.symm ho)
    rw [hgone]
    cases hh with
    | strides hs =>
      refine hu.strides ?_ hs
      rw [hid]
      exact ht.attached hu.hasEnded_eq
    | undergoes hun =>
      refine hu.undergoes hun ho (fun he => ?_) (fun he => hended ?_) fun he => hended ?_
      · by_contra hgone
        exact hended (he ▸ stopped_of_shutdown hgone)
      · exact .inr (.inl (by simp [he, hid]))
      · exact .inr (.inr (by simp [he, hid]))

/-- It goes on holding, whatever happens. -/
theorem Tends.occur (ht : w.Tends id os c) (hw : w.Orderly) (o : Occurrence) :
    ∃ c', (w.occur o).Tends id (os ++ [o]) c' ∧
      c.Happens w.world.now w.world.hub (w.stage id) (w.world.diary id) o c'
        ((w.occur o).stage id) ((w.occur o).world.diary id) := by
  obtain ⟨c', hc', hh⟩ := happens_occur hw ht.courier o
  refine ⟨c', ⟨hc', fun hended => ?_, fun hs => ht.unharmed_occur hs hh, fun hos => ?_,
    hh.waiting ht.waiting, ?_⟩, hh⟩
  · have hended' : c.hasEnded = false :=
      Bool.eq_false_iff.2 fun he => Bool.eq_false_iff.1 hended (hh.hasEnded he)
    exact attached_occur (ht.attached hended') hw ht.courier o hc' hended
  · rw [List.mem_append, not_or, List.mem_singleton] at hos
    exact hh.hears (Ne.symm hos.2) (ht.hears hos.1)
  · exact ht.keeps.happens hw.world.holds hh (w.accepted_occur o)

theorem tends_live (hw : w.Orderly) (hk : w.world.site.stream.keepaliveSeconds ≠ 0)
    (r : Http.LiveRequest) :
    (w.occur (.event (.live r))).Tends w.world.hub.bulletin.nextId []
      (.start (r.feed w.world.site) Http.liveCapacity
        (w.world.site.stream.keepaliveSeconds.toNat * 1000) w.world.now .listening true) := by
  have hkeep : w.world.site.stream.keepaliveSeconds.toNat * 1000 ≠ 0 := by
    have hseconds : w.world.site.stream.keepaliveSeconds.toNat ≠ 0 :=
      fun hz => hk (UInt64.toNat_inj.1 hz)
    omega
  have hfresh : (w.occur (.event (.live r))).stage w.world.hub.bulletin.nextId = .fresh :=
    hw.fresh _ (Nat.le_refl _)
  refine ⟨World.courier?_live hw.world r, fun _ => ⟨0, ?_⟩, fun _ => ?_, fun _ => .inl rfl,
    fun hg => ?_, ?_⟩
  · show (w.world.step (.live r)).hub.bulletin.box? _ = _
    simp only [World.step, openLive_eq]
    exact (Hub.box?_subscribe hw.world.bulletin _).trans (if_pos rfl)
  · exact ⟨hkeep, rfl, rfl, fun _ => rfl, fun hgone => by cases hgone⟩
  · rw [hfresh] at hg
    cases hg
  · rw [hfresh]
    have hdiary : ((w.world.step (.live r)).diary w.world.hub.bulletin.nextId).taken = [] := by
      simp only [World.step, openLive_eq, World.diary_write_self]
      rfl
    refine ⟨fun x hx => ?_, fun _ hx => (by cases hx), fun _ hx => (by cases hx), trivial⟩
    rw [show (w.occur (.event (.live r))).world = w.world.step (.live r) from rfl, hdiary] at hx
    cases hx

theorem tends_pass (ht : w.Tends id os c) (hw : w.Orderly) (os' : List Occurrence) :
    ∃ c', (w.pass os').Tends id (os ++ os') c' := by
  induction os' generalizing w c os with
  | nil =>
    rw [List.append_nil]
    exact ⟨c, ht⟩
  | cons o os' ih =>
    obtain ⟨c₁, ht₁, -⟩ := ht.occur hw o
    obtain ⟨c', ht'⟩ := ih ht₁ (hw.occur o)
    rw [List.append_assoc] at ht'
    exact ⟨c', ht'⟩

/-- As long as it is not resumed, a courier that begins no turn only finishes the one under way. -/
theorem finishes_pass {left₀ : Option (List Signal)} {c₀ : Courier} {d₀ : Diary} {paused : Bool}
    (ht : w.Tends id os c) (hw : w.Orderly) (hq : c.Stilled paused)
    (hf : Finishes left₀ c₀ d₀ ((w.stage id).left paused) c (w.world.diary id))
    (os' : List Occurrence) (hos : paused = true → .event (.resume id) ∉ os') :
    ∃ c', (w.pass os').Tends id (os ++ os') c' ∧ c'.Stilled paused ∧
      Finishes left₀ c₀ d₀ (((w.pass os').stage id).left paused) c'
        ((w.pass os').world.diary id) := by
  induction os' generalizing w c os with
  | nil =>
    rw [List.append_nil]
    exact ⟨c, ht, hq, hf⟩
  | cons o os' ih =>
    obtain ⟨c₁, ht₁, hh⟩ := ht.occur hw o
    have hid : c.feed.id = id := (World.mem_of_courier? ht.courier).2
    have ho : paused = true → o ≠ .event (.resume c.feed.id) := by
      intro hpaused he
      exact hos hpaused (List.mem_cons.2 (.inl (by rw [he, hid])))
    obtain ⟨hq₁, hf₁⟩ := hf.happens hq hh ho
    obtain ⟨c', hc'⟩ := ih ht₁ (hw.occur o) hq₁ hf₁
      fun hpaused hmem => hos hpaused (List.mem_cons_of_mem o hmem)
    rw [List.append_assoc] at hc'
    exact ⟨c', hc'⟩

/-- From `w` by way of `w'` to `w''` the courier of a live stream begins no turn. -/
structure Winds (id : Nat) (paused : Bool) (w w' w'' : Concurrent) (c c' c'' : Courier) :
    Prop where
  courier' : w'.world.site.courier? id = some c'
  courier'' : w''.world.site.courier? id = some c''
  none_begun : (w.stage id).left paused = none → (w'.stage id).left paused = none
  /-- Neither does it begin one when it has finished the one that was under way. -/
  none_begun' : (w'.stage id).left paused = none → (w''.stage id).left paused = none
  /-- A cursor moves only if a turn was under way and was still to read its head, -/
  cursor_eq : ∀ s, s ∉ ((w.stage id).left paused).getD [] →
    c'.feed.cursor.get s = c.feed.cursor.get s
  /-- and it moves once. -/
  once : ∀ s, c'.feed.cursor.get s = c.feed.cursor.get s ∨
    c''.feed.cursor.get s = c'.feed.cursor.get s
  /-- The reader gets no more than what was in the sink and one delta, which is the one in hand if
  no turn was under way. What it gets are records that the feed has passed. -/
  sent : ∃ got last, (w'.world.diary id).taken = (w.world.diary id).taken ++ got ∧
    got <+: c.sink.queue ++ last ∧ last.length ≤ 1 ∧
    ((w.stage id).left paused = none → last = c.inHand) ∧
    ∀ x ∈ got, c'.feed.Passed w'.world.accepted x

theorem Tends.waiting_of_left (ht : w.Tends id os c) (paused : Bool)
    (hleft : (w.stage id).left paused ≠ none) : c.phase = .waiting := by
  apply ht.waiting
  by_contra hg
  exact hleft (Stage.left_eq_none (by simpa using hg) paused)

theorem winds_of_finishes {paused : Bool} {w₁ : Concurrent} {c₁ : Courier}
    (ht₁ : w₁.Tends id os c₁) (hw₁ : w₁.Orderly) (hq : c₁.Stilled paused)
    (hf : Finishes ((w.stage id).left paused) c (w.world.diary id) ((w₁.stage id).left paused) c₁
      (w₁.world.diary id)) {os₁ os₂ : List Occurrence}
    (hos : paused = true → .event (.resume id) ∉ os₁ ++ os₂) :
    ∃ c' c'', w.Winds id paused (w₁.pass os₁) (w₁.pass (os₁ ++ os₂)) c c' c'' := by
  obtain ⟨c', ht', hq', hf'⟩ := finishes_pass ht₁ hw₁ hq hf os₁
    fun hpaused hmem => hos hpaused (List.mem_append_left _ hmem)
  obtain ⟨c'', ht'', -, hf''⟩ := finishes_pass ht' (orderly_pass hw₁ os₁) hq'
    (Courier.finishes_self _ (ht'.waiting_of_left paused)) os₂
    fun hpaused hmem => hos hpaused (List.mem_append_right _ hmem)
  rw [← pass_append] at ht''
  obtain ⟨got, last, htaken, hlen, hnone, -, hprefix, -⟩ := hf'.sent
  refine ⟨c', c'', ht'.courier, ht''.courier, hf'.none_begun, ?_, hf'.cursor_eq, fun s => ?_, got,
    last, htaken, (List.prefix_append got _).trans hprefix, hlen, hnone, fun x hx => ?_⟩
  · rw [pass_append]
    exact hf''.none_begun
  · by_cases hs : s ∈ (((w₁.pass os₁).stage id).left paused).getD []
    · exact .inl (hf'.unread s hs)
    · exact .inr (hf''.cursor_eq s hs)
  · apply ht'.keeps.taken x
    rw [htaken]
    exact List.mem_append_right _ hx

/-- Whatever tasks do at the same time, a live stream has ended only if couriers were called to stop
after it was opened, while there was someone to call them, or its reader went away. As long as it
has not ended it is a subscriber. From a call on it begins no turn: at most the turn that is under
way goes on, in which each cursor moves once more at most, and the reader gets no more than what was
in the sink and one delta. The same is so while it is paused, of a turn that had found it not paused
yet. What the reader gets are records behind the cursors. -/
theorem live_stream_life (storage : StorageSettings) (stream : StreamSettings)
    (hk : stream.keepaliveSeconds ≠ 0) (pre : List Occurrence) (r : Http.LiveRequest)
    (os : List Occurrence) :
    let w₀ := (start storage stream).pass pre
    let id := w₀.world.hub.bulletin.nextId
    let w := (w₀.occur (.event (.live r))).pass os
    ∃ c, w.world.site.courier? id = some c ∧
      (c.hasEnded → Stopped id os) ∧
      (c.hasEnded = false → w.Attached id) ∧
      (.hush ∉ os → ∀ os₁ os₂, ∃ c₁ c₂, w.Winds id false
        ((w.occur (.event .shutdown)).pass os₁)
        ((w.occur (.event .shutdown)).pass (os₁ ++ os₂)) c c₁ c₂) ∧
      (c.feed.paused = true → ∀ os₁ os₂, .event (.resume id) ∉ os₁ ++ os₂ →
        ∃ c₁ c₂, w.Winds id true (w.pass os₁) (w.pass (os₁ ++ os₂)) c c₁ c₂) := by
  intro w₀ id w
  have hw₀ : w₀.Orderly := orderly_pass (orderly_start storage stream) pre
  have hstream : w₀.world.site.stream = stream := stream_pass _ pre
  have hw₁ : (w₀.occur (.event (.live r))).Orderly := hw₀.occur _
  obtain ⟨c, ht⟩ := tends_pass (tends_live hw₀ (hstream ▸ hk) r) hw₁ os
  have hw : w.Orderly := orderly_pass hw₁ os
  refine ⟨c, ht.courier, fun hended => ?_, ht.attached, fun hhush os₁ os₂ => ?_,
    fun hpaused os₁ os₂ hos => ?_⟩
  · by_contra hstop
    exact absurd hended (Bool.eq_false_iff.1 (ht.unharmed hstop).hasEnded_eq)
  · obtain ⟨c₁, ht₁, hh⟩ := ht.occur hw (.event .shutdown)
    have hself := Courier.finishes_self (w.world.diary id) (ht.waiting_of_left false)
    obtain ⟨hcalled, hf⟩ := hself.called hh (ht.hears hhush)
    exact winds_of_finishes ht₁ (hw.occur _) hcalled hf fun hpaused => by cases hpaused
  · have hq : c.Stilled true := hpaused
    exact winds_of_finishes ht hw hq (Courier.finishes_self _ (ht.waiting_of_left true))
      fun _ => hos

/-- A live stream is paused after it was asked whether it is. It goes on to read a record that comes
later, and its reader gets that, but no more. -/
theorem stream_paused_too_late_winds_down :
    let w := (((start {} {}).pass []).occur (.event (.live everything))).pass
      (List.replicate 6 (.event (.turn 1)) ++ [.event (.pause 1)])
    let os := .event (.record line) :: List.replicate 9 (.event (.turn 1)) ++ [.event (.take 1)]
    let os' := .event (.record line) :: List.replicate 9 (.event (.turn 1)) ++ [.event (.take 1)]
    ({} : StreamSettings).keepaliveSeconds ≠ 0 ∧
    ∃ c c₁ c₂, w.world.site.courier? 1 = some c ∧ c.feed.paused = true ∧
      w.Winds 1 true (w.pass os) (w.pass (os ++ os')) c c₁ c₂ ∧
      ((w.pass os).world.diary 1).taken.map (·.logs.length) = [1] ∧
      ((w.pass (os ++ os')).world.diary 1).taken.map (·.logs.length) = [1] := by
  intro w os os'
  obtain ⟨c, hc, -, -, -, hpause⟩ := live_stream_life {} {} (by decide) [] everything
    (List.replicate 6 (.event (.turn 1)) ++ [.event (.pause 1)])
  have hpaused : (w.world.site.courier? 1).all (·.feed.paused) = true := by decide +kernel
  have hc₀ : w.world.site.courier? 1 = some c := hc
  rw [hc₀] at hpaused
  obtain ⟨c₁, c₂, hwinds⟩ := hpause hpaused os os' (by simp [os, os'])
  exact ⟨by decide, c, c₁, c₂, hc₀, hpaused, hwinds, by decide +kernel, by decide +kernel⟩

/-- A live stream is in the middle of a turn, with nothing on its way, when it is called to stop,
and another one when it is paused. Then a record is accepted; both cursors move on, and both readers
get the record. A third stream has been asked for its head only: it ends without a call. -/
theorem turn_under_way_goes_on :
    let begun := (start {} {}).pass
      (.event (.live everything) :: List.replicate 6 (.event (.turn 1)))
    let os := .event (.record line) :: List.replicate 9 (.event (.turn 1)) ++ [.event (.take 1)]
    let called := (begun.occur (.event .shutdown)).pass os
    let paused := (begun.occur (.event (.pause 1))).pass os
    let request : Http.Request := ⟨.head, ⟨[], []⟩, none, .empty⟩
    let answered := Http.headOnly (Http.handle 0 (World.start {} {}).site request [] .live)
    let headed : Concurrent := ⟨{ World.start {} {} with site := answered.2 }, fun _ => .fresh⟩
    let asked := headed.pass [.event (.turn 1), .event (.turn 1)]
    (begun.world.site.courier? 1).map (fun c =>
        (c.feed.cursor.logs, c.sink.queue.length, c.inHand.length)) = some (0, 0, 0) ∧
      (called.world.site.courier? 1).map (·.feed.cursor.logs) = some 1 ∧
      (called.world.diary 1).taken.map (·.logs.length) = [1] ∧
      (paused.world.site.courier? 1).map (·.feed.cursor.logs) = some 1 ∧
      (paused.world.diary 1).taken.map (·.logs.length) = [1] ∧
      (headed.world.site.courier? 1).map (·.hasEnded) = some false ∧
      (asked.world.site.courier? 1).map (·.hasEnded) = some true := by
  decide +kernel

end Concurrent

end SignalHub
