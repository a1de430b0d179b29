import SignalHub.Courier
import SignalHub.Proofs.Diary
import SignalHub.Proofs.Mailbox
/-!
# What a courier can do

A turn is strides between which nothing else happens, so it answers the first question that is to be
answered yes, and sees all archives as they are at one time. It has one of three outcomes: the
courier ends, it puts the delta in hand into the sink, or it has been roused and looks. A courier
that takes no turn has ended, is stuck with a delta in hand before a full sink, or waits and nothing
has happened that would rouse it.

Results:
* `Courier.turn_eq`: what the strides of a turn come to.
* `Courier.turns_of_turn`: the outcomes of a turn, with what made each possible.
* `Courier.turn_eq_none_iff`: when a courier takes no turn.
-/
namespace SignalHub.Courier

variable {now : Nat} {h h' : Hub} {c c' : Courier} {f g : Stage} {p : Hub × Courier}

/-! ## Strides in one go -/

/-- Looks, and takes the delta in hand. -/
def look (h : Hub) (c : Courier) : Hub × Courier :=
  let (d, feed) := c.feed.poll h
  (h, { c with
    feed := feed
    phase := match d with
      | some d => .holding d
      | none => .waiting })

/-- Answers to what has happened after the sink was found open: being resumed, a ping, a tick. -/
def answer (now : Nat) (h : Hub) (c : Courier) : Option (Hub × Courier) :=
  if c.feed.resumed then some (look h { c with feed := { c.feed with resumed := false } })
  else
    match h.readPing c.feed.id with
    | (.pinged, h) => some (look h c)
    | (.over, _) => some (finish h c)
    | (.pending, _) =>
      if c.due ≤ now then some (look h { c with due := nextDue c.due now c.keepalive }) else none

theorem strides_on (hs : c.stride now h f = (p, g)) (hg : g.underWay = true) (n : Nat) :
    c.strides now (n + 1) h f = p.2.strides now n p.1 g := by
  rw [strides, hs]
  exact if_pos hg

theorem strides_over (hs : c.stride now h f = (p, g)) (hg : g.underWay = false) (n : Nat) :
    c.strides now (n + 1) h f = (p, g) := by
  rw [strides, hs]
  exact if_neg (by rw [hg]; exact Bool.false_ne_true)

theorem strides_roused (hp : c.phase = .waiting) (n : Nat) :
    c.strides now (n + 8) h .roused = (c.look h, .fresh) := by
  obtain ⟨feed, sink, listener, keepalive, due, phase, isLive⟩ := c
  obtain rfl : phase = .waiting := hp
  cases hpaused : feed.paused with
  | true =>
    rw [strides_over (g := .fresh) (by simp only [stride, hpaused]; rfl) rfl]
    simp [look, Feed.poll, hpaused]
  | false =>
    rw [strides_on (g := .unpaused) (by simp only [stride, hpaused]; rfl) rfl,
      strides_on rfl rfl, strides_on rfl rfl, strides_on rfl rfl, strides_on rfl rfl,
      strides_on rfl rfl, strides_on rfl rfl, strides_over rfl rfl]
    show ((h, if (Feed.look h feed).isEmpty then _ else _), _) = _
    simp only [look, Feed.poll, hpaused]
    cases (Feed.look h feed).isEmpty <;> rfl

theorem strides_unclosed (hp : c.phase = .waiting) (n : Nat) :
    c.strides now (n + 11) h .unclosed =
      match c.answer now h with
      | some p => (p, .fresh)
      | none => ((h, c), .asleep) := by
  unfold answer
  cases hres : c.feed.resumed with
  | true =>
    have hs : c.stride now h .unclosed =
        ((h, { c with feed := { c.feed with resumed := false } }), .roused) := by
      simp [stride, hp, hres]
    rw [strides_on hs rfl]
    exact strides_roused (c := { c with feed := { c.feed with resumed := false } }) hp (n + 2)
  | false =>
    rw [strides_on (p := (h, c)) (g := .unresumed) (by simp [stride, hp, hres]) rfl]
    match hr : h.readPing c.feed.id with
    | (.pinged, k) =>
      rw [strides_on (p := (k, c)) (g := .roused) (by simp [stride, hp, hr]) rfl]
      exact strides_roused hp (n + 1)
    | (.over, _) => exact strides_over (by simp [stride, hp, hr]) rfl _
    | (.pending, _) =>
      rw [strides_on (p := (h, c)) (g := .unpinged) (by simp [stride, hp, hr]) rfl]
      by_cases hdue : c.due ≤ now
      · have hs : c.stride now h .unpinged =
            ((h, { c with due := nextDue c.due now c.keepalive }), .roused) := by
          simp [stride, hp, hdue]
        rw [strides_on hs rfl]
        simp only [if_pos hdue]
        exact strides_roused (c := { c with due := nextDue c.due now c.keepalive }) hp n
      · simp only [if_neg hdue]
        exact strides_over (by simp [stride, hp, hdue]) rfl _

/-- What a turn comes to. -/
theorem turn_eq (now : Nat) (h : Hub) (c : Courier) : c.turn now h =
    match c.phase with
    | .ended => none
    | .holding d =>
      if !c.sink.isOpen then some (c.finish h)
      else if c.sink.queue.length < c.sink.capacity then
        some (h, { c with sink := { c.sink with queue := c.sink.queue ++ [d] }, phase := .waiting })
      else none
    | .waiting =>
      if c.keepalive = 0 then some (c.finish h)
      else
        match c.listener with
        | .called => some (c.finish h)
        | .abandoned => some (look h { c with listener := .deaf })
        | _ => if !c.sink.isOpen then some (c.finish h) else c.answer now h := by
  have hover {p : Hub × Courier} (hs : c.stride now h .fresh = (p, .fresh)) :
      c.turn now h = some p := by
    rw [turn, longestTurn, strides_over hs rfl]
  have hasleep (hs : c.stride now h .fresh = ((h, c), .asleep)) : c.turn now h = none := by
    rw [turn, longestTurn, strides_over hs rfl]
  cases hp : c.phase with
  | ended => exact hasleep (by simp [stride, hp])
  | holding d =>
    cases ho : c.sink.isOpen with
    | false => exact hover (by simp [stride, hp, ho])
    | true =>
      by_cases hroom : c.sink.queue.length < c.sink.capacity
      · simp only [if_pos hroom]
        exact hover (by simp [stride, hp, ho, hroom])
      · simp only [if_neg hroom]
        exact hasleep (by simp [stride, hp, ho, hroom])
  | waiting =>
    by_cases hk : c.keepalive = 0
    · simp only [if_pos hk]
      exact hover (by simp [stride, hp, hk])
    have hlistens (hs : c.stride now h .fresh = ((h, c), .uncalled)) : c.turn now h =
        if !c.sink.isOpen then some (c.finish h) else c.answer now h := by
      rw [turn, longestTurn, strides_on hs rfl]
      cases ho : c.sink.isOpen with
      | false =>
        rw [strides_over (p := c.finish h) (g := .fresh) (by simp [stride, hp, ho]) rfl]
        rfl
      | true =>
        rw [strides_on (p := (h, c)) (g := .unclosed) (by simp [stride, hp, ho]) rfl,
          strides_unclosed hp 0]
        cases c.answer now h <;> rfl
    simp only [if_neg hk]
    cases hl : c.listener with
    | called => exact hover (by simp [stride, hp, hk, hl])
    | abandoned =>
      have hs : c.stride now h .fresh = ((h, { c with listener := .deaf }), .roused) := by
        simp [stride, hp, hk, hl]
      rw [turn, longestTurn, strides_on hs rfl,
        strides_roused (c := { c with listener := .deaf }) hp 4]
      rfl
    | listening | deaf => exact hlistens (by simp [stride, hp, hk, hl])

/-! ## Outcomes -/

theorem hasEnded_iff : c.hasEnded ↔ c.phase = .ended := by
  unfold hasEnded; split <;> simp_all

/-- What makes a courier end. -/
inductive Leaves (h : Hub) (c : Courier) : Prop where
  /-- Nobody takes the delta in hand. -/
  | refused {d : Delta} (hp : c.phase = .holding d) (ho : c.sink.isOpen = false)
  /-- Its ticks have no distance. -/
  | ticksTooFast (hp : c.phase = .waiting) (hk : c.keepalive = 0)
  | called (hp : c.phase = .waiting) (hl : c.listener = .called)
  | closed (hp : c.phase = .waiting) (ho : c.sink.isOpen = false)
  /-- It is no subscriber any more. -/
  | forgotten (hp : c.phase = .waiting) (hb : ∀ n, h.bulletin.box? c.feed.id ≠ some ⟨n, true⟩)

/-- The courier after it looked. -/
def looked (h : Hub) (c : Courier) (listener : Listener) (resumed : Bool) (due : Nat) : Courier :=
  { c with
    feed := { (c.feed.poll h).2 with resumed := resumed }
    listener := listener
    due := due
    phase := match (c.feed.poll h).1 with
      | some d => .holding d
      | none => .waiting }

/-- What rouses a courier, and what is then left of the reason: the hub, what the courier hears of
calls, whether its feed was resumed, and when the next tick is due. -/
inductive Rouses (now : Nat) (h : Hub) (c : Courier) : Hub → Listener → Bool → Nat → Prop where
  | abandoned (hl : c.listener = .abandoned) : Rouses now h c h .deaf c.feed.resumed c.due
  | resumed (hr : c.feed.resumed) : Rouses now h c h c.listener false c.due
  | pinged {m : Mailbox} (hb : h.bulletin.box? c.feed.id = some m) (hm : m.pending ≠ 0) :
    Rouses now h c (h.readPing c.feed.id).2 c.listener c.feed.resumed c.due
  | ticked (hd : c.due ≤ now) :
    Rouses now h c h c.listener c.feed.resumed (nextDue c.due now c.keepalive)

/-- The outcomes of a turn. -/
inductive Turns (now : Nat) (h : Hub) (c : Courier) : Hub → Courier → Prop where
  | ends (hl : c.Leaves h) : Turns now h c (h.discard c.feed.id) { c with phase := .ended }
  | puts {d : Delta} (hp : c.phase = .holding d) (ho : c.sink.isOpen)
      (hr : c.sink.queue.length < c.sink.capacity) :
      Turns now h c h
        { c with sink := { c.sink with queue := c.sink.queue ++ [d] }, phase := .waiting }
  | looks {g : Hub} {listener : Listener} {resumed : Bool} {due : Nat} (hp : c.phase = .waiting)
      (hk : c.keepalive ≠ 0) (hc : c.listener ≠ .called)
      (hr : c.Rouses now h g listener resumed due) :
      Turns now h c g (c.looked h listener resumed due)

/-- Before a full sink with a delta in hand. -/
structure Stuck (c : Courier) : Prop where
  holding : ∃ d, c.phase = .holding d
  isOpen : c.sink.isOpen
  full : c.sink.capacity ≤ c.sink.queue.length

theorem stuck_congr (hp : c'.phase = c.phase) (hs : c'.sink = c.sink) : c'.Stuck ↔ c.Stuck := by
  constructor
  · rintro ⟨hh, ho, hf⟩
    exact ⟨hp ▸ hh, hs ▸ ho, hs ▸ hf⟩
  · rintro ⟨hh, ho, hf⟩
    exact ⟨hp ▸ hh, hs ▸ ho, hs ▸ hf⟩

/-- Waiting, and nothing has happened that would rouse it: no call to stop, the sink is open, it
was not resumed, there is no ping, and no tick is due. -/
structure Idle (now : Nat) (h : Hub) (c : Courier) : Prop where
  waiting : c.phase = .waiting
  keepalive_ne : c.keepalive ≠ 0
  not_called : c.listener ≠ .called
  not_abandoned : c.listener ≠ .abandoned
  isOpen : c.sink.isOpen
  not_resumed : c.feed.resumed = false
  no_ping : h.bulletin.box? c.feed.id = some ⟨0, true⟩
  no_tick : now < c.due

/-! ## Looking -/

theorem generation_readPing (h : Hub) (id : Nat) :
    (h.readPing id).2.bulletin.generation = h.bulletin.generation := by
  show (h.bulletin.read id).2.generation = _
  rcases h.bulletin.read_cases id with ⟨he, -⟩ | he <;> rw [he]
  rfl

/-- Reading one's pings does not change what one finds. -/
theorem poll_readPing (h : Hub) (id : Nat) (f : Feed) : f.poll (h.readPing id).2 = f.poll h := by
  have hpos := (h.agree_readPing id).position_eq
  simp only [Feed.poll, Feed.look, Feed.atHead, hpos, generation_readPing]
  rfl

/-- Looking is not about the mark that the feed was resumed. -/
theorem poll_resumed (h : Hub) (f : Feed) (b : Bool) :
    ({ f with resumed := b }).poll h = ((f.poll h).1, { (f.poll h).2 with resumed := b }) := by
  simp only [Feed.poll]
  split <;> rfl

theorem resumed_poll (h : Hub) (f : Feed) : (f.poll h).2.resumed = f.resumed := by
  unfold Feed.poll; split <;> rfl

theorem look_eq (h : Hub) (c : Courier) :
    c.look h = (h, c.looked h c.listener c.feed.resumed c.due) := by
  have hr : (c.feed.poll h).2.resumed = c.feed.resumed := resumed_poll h c.feed
  unfold look looked
  generalize c.feed.poll h = p at hr
  obtain ⟨d, f⟩ := p
  cases d <;> simp [← hr]

/-! ## Turns -/

theorem readPing_fst (h : Hub) (id : Nat) : (h.readPing id).1 =
    match h.bulletin.box? id with
    | none => .over
    | some m => if m.pending = 0 then (if m.attached then .pending else .over) else .pinged := by
  show (h.bulletin.read id).1 = _
  unfold Bulletin.read
  cases h.bulletin.box? id with
  | none => rfl
  | some m => simp only; split <;> rfl

theorem turns_of_answer (hp : c.phase = .waiting) (hk : c.keepalive ≠ 0)
    (hc : c.listener ≠ .called) (ha : c.answer now h = some (h', c')) : c.Turns now h h' c' := by
  unfold answer at ha
  split at ha
  · rename_i hres
    rw [look_eq] at ha
    cases ha
    rw [show looked h { c with feed := { c.feed with resumed := false } } c.listener false c.due =
      c.looked h c.listener false c.due by simp [looked, poll_resumed]]
    exact .looks hp hk hc (.resumed hres)
  · have hf := readPing_fst h c.feed.id
    split at ha
    · rename_i g hr
      have hg : g = (h.readPing c.feed.id).2 := by rw [hr]
      rw [hr] at hf
      rw [look_eq] at ha
      cases ha
      subst hg
      rw [show c.looked (h.readPing c.feed.id).2 c.listener c.feed.resumed c.due =
        c.looked h c.listener c.feed.resumed c.due by simp [looked, poll_readPing]]
      cases hb : h.bulletin.box? c.feed.id with
      | none => rw [hb] at hf; cases hf
      | some m =>
        refine .looks hp hk hc (.pinged hb fun hz => ?_)
        rw [hb] at hf
        cases hm : m.attached <;> simp [hz, hm] at hf
    · rename_i hr
      cases ha
      refine .ends (.forgotten hp fun n hn => ?_)
      rw [hr, hn] at hf
      by_cases hz : n = 0 <;> simp [hz] at hf
    · split at ha
      · rename_i hdue
        rw [look_eq] at ha
        cases ha
        exact .looks hp hk hc (.ticked hdue)
      · cases ha

/-- What a turn does, and what made it possible. -/
theorem turns_of_turn (ht : c.turn now h = some (h', c')) : c.Turns now h h' c' := by
  rw [turn_eq] at ht
  split at ht
  · cases ht
  · rename_i d hp
    split at ht
    · rename_i ho
      cases ht
      exact .ends (.refused hp (by simpa using ho))
    · rename_i ho
      split at ht
      · rename_i hr
        cases ht
        exact .puts hp (by simpa using ho) hr
      · cases ht
  · rename_i hp
    split at ht
    · rename_i hk
      cases ht
      exact .ends (.ticksTooFast hp hk)
    · rename_i hk
      split at ht
      · rename_i hl
        cases ht
        exact .ends (.called hp hl)
      · rename_i hl
        rw [look_eq] at ht
        cases ht
        exact .looks hp hk (by simp [hl]) (.abandoned hl)
      · rename_i hl _
        split at ht
        · rename_i ho
          cases ht
          exact .ends (.closed hp (by simpa using ho))
        · exact turns_of_answer hp hk hl ht

theorem Rouses.hub_eq {g : Hub} {l : Listener} {b : Bool} {due : Nat}
    (hr : c.Rouses now h g l b due) : g = h ∨ g = (h.readPing c.feed.id).2 := by
  cases hr with
  | pinged => exact Or.inr rfl
  | abandoned | resumed | ticked => exact Or.inl rfl

/-- Only a courier that was abandoned hears something new. -/
theorem Rouses.listener_eq {g : Hub} {l : Listener} {b : Bool} {due : Nat}
    (hr : c.Rouses now h g l b due) (hl : c.listener ≠ .abandoned) : l = c.listener := by
  cases hr with
  | abandoned ha => exact absurd ha hl
  | resumed | pinged | ticked => rfl

theorem Turns.id_eq (ht : c.Turns now h h' c') : c'.feed.id = c.feed.id := by
  cases ht with
  | ends | puts => rfl
  | looks => exact Feed.id_poll h c.feed

theorem feed_call (c : Courier) : c.call.feed = c.feed := by
  unfold call
  split <;> rfl

theorem feed_take (c : Courier) : c.take.2.feed = c.feed := by
  unfold take
  split <;> rfl

/-- All that a courier does to the hub is to leave, or to read a ping. -/
def Touches (c : Courier) (h h' : Hub) : Prop :=
  h' = h ∨ h' = h.discard c.feed.id ∨ h' = (h.readPing c.feed.id).2

theorem Turns.touches (ht : c.Turns now h h' c') : c.Touches h h' := by
  cases ht with
  | ends => exact .inr (.inl rfl)
  | puts => exact .inl rfl
  | looks _ _ _ hr =>
    rcases hr.hub_eq with he | he
    · exact .inl he
    · exact .inr (.inr he)

theorem Touches.nextId_eq (ht : c.Touches h h') : h'.bulletin.nextId = h.bulletin.nextId := by
  rcases ht with rfl | rfl | rfl
  · rfl
  · exact h.nextId_discard _
  · exact h.nextId_readPing _

/-- Others do not notice it: the archives stay as they are, and so do the other mailboxes. -/
theorem Touches.others (ht : c.Touches h h') (hb : h.bulletin.Sound) :
    h.Agree h' ∧ h'.bulletin.Sound ∧
      ∀ i, i ≠ c.feed.id → h'.bulletin.box? i = h.bulletin.box? i := by
  rcases ht with rfl | rfl | rfl
  · exact ⟨Hub.Agree.refl _, hb, fun _ _ => rfl⟩
  · refine ⟨h.agree_discard _, Hub.sound_discard hb _, fun i hi => ?_⟩
    rw [Hub.box?_discard, if_neg hi]
  · refine ⟨h.agree_readPing _, hb.read _, fun i hi => ?_⟩
    rw [Hub.box?_readPing]
    simp [hi]

theorem Turns.nextId_eq (ht : c.Turns now h h' c') :
    h'.bulletin.nextId = h.bulletin.nextId := ht.touches.nextId_eq

/-- Others do not notice a turn. -/
theorem Turns.others (ht : c.Turns now h h' c') (hb : h.bulletin.Sound) :
    h.Agree h' ∧ h'.bulletin.Sound ∧ h'.bulletin.nextId = h.bulletin.nextId ∧
      c'.feed.id = c.feed.id ∧ ∀ i, i ≠ c.feed.id → h'.bulletin.box? i = h.bulletin.box? i := by
  obtain ⟨hagree, hsound, hbox⟩ := ht.touches.others hb
  exact ⟨hagree, hsound, ht.nextId_eq, ht.id_eq, hbox⟩

/-! ## No turn -/

theorem answer_eq_none_iff : c.answer now h = none ↔
    c.feed.resumed = false ∧ h.bulletin.box? c.feed.id = some ⟨0, true⟩ ∧ now < c.due := by
  have hf := readPing_fst h c.feed.id
  unfold answer
  cases hres : c.feed.resumed with
  | true => simp
  | false =>
    cases hr : h.readPing c.feed.id with | mk w g => ?_
    rw [hr] at hf
    simp only at hf
    cases hb : h.bulletin.box? c.feed.id with
    | none => simp [hb] at hf; simp [hf]
    | some m =>
      obtain ⟨n, a⟩ := m
      rw [hb] at hf
      by_cases hz : n = 0
      · cases a with
        | true => simp [hz] at hf; simp [hf, hz]
        | false => simp [hz] at hf; simp [hf]
      · simp [hz] at hf; simp [hf, hz]

/-- A courier takes no turn exactly when it has ended, is stuck, or has no reason to go on. -/
theorem turn_eq_none_iff : c.turn now h = none ↔ c.hasEnded ∨ c.Stuck ∨ c.Idle now h := by
  cases hp : c.phase with
  | ended =>
    rw [hasEnded_iff, turn_eq, hp]
    simp
  | holding d =>
    have hended : ¬ c.hasEnded := by simp [hasEnded_iff, hp]
    have hidle : ¬ c.Idle now h := fun hi => by have := hi.waiting; simp [hp] at this
    have hstuck : c.Stuck ↔ c.sink.isOpen ∧ c.sink.capacity ≤ c.sink.queue.length :=
      ⟨fun hs => ⟨hs.isOpen, hs.full⟩, fun hs => ⟨⟨d, hp⟩, hs.1, hs.2⟩⟩
    rw [turn_eq, hp, hstuck]
    cases ho : c.sink.isOpen with
    | false => simp [hended, hidle]
    | true =>
      by_cases hr : c.sink.queue.length < c.sink.capacity
      · simp [hended, hidle, hr, Nat.not_le_of_lt hr]
      · simp [hr, Nat.le_of_not_lt hr]
  | waiting =>
    have hended : ¬ c.hasEnded := by simp [hasEnded_iff, hp]
    have hstuck : ¬ c.Stuck := fun hs => by obtain ⟨d, hd⟩ := hs.holding; simp [hp] at hd
    have hidle : c.Idle now h ↔ c.keepalive ≠ 0 ∧ c.listener ≠ .called ∧ c.listener ≠ .abandoned ∧
        c.sink.isOpen ∧ c.answer now h = none := by
      rw [answer_eq_none_iff]
      exact ⟨fun hi => ⟨hi.keepalive_ne, hi.not_called, hi.not_abandoned, hi.isOpen,
        hi.not_resumed, hi.no_ping, hi.no_tick⟩,
        fun ⟨h1, h2, h3, h4, h5, h6, h7⟩ => ⟨hp, h1, h2, h3, h4, h5, h6, h7⟩⟩
    rw [turn_eq, hp, hidle]
    by_cases hk : c.keepalive = 0
    · simp [hk, hended, hstuck]
    · cases hl : c.listener <;> cases ho : c.sink.isOpen <;> simp [hk, hended, hstuck]

end SignalHub.Courier
