import SignalHub.Proofs.Soundness
/-!
# Single strides

Between two strides of a courier anything else can happen, so what a question was answered may be
wrong by the time of the next one: a courier can be called to stop, or its feed be paused, after it
was asked whether. Then the turn goes on nevertheless. What is left of it are the heads that are
still to be read.

Results:
* `Stage.left`: what is left of a turn.
* `Courier.strides_of_stride`: what a stride does, and what made it possible.
-/
namespace SignalHub

/-- The signals that come after one in a look. -/
def Signal.later : Signal → List Signal
  | .traces => [.logs, .metrics]
  | .logs => [.metrics]
  | .metrics => []

namespace Stage

/-- What is left of the turn that is under way, if one is: the signals whose heads are still to be
read. A turn of a paused feed does not count before it was asked whether the feed is paused. -/
def left (paused : Bool) : Stage → Option (List Signal)
  | .fresh | .asleep => none
  | .unpaused => some [.traces, .logs, .metrics]
  | .atHead s _ => some (s :: s.later)
  | .atRange s _ _ _ => some s.later
  | _ => if paused then none else some [.traces, .logs, .metrics]

/-- From one question of a check to the next. -/
inductive Asks : Stage → Stage → Prop where
  | sink : Asks .uncalled .unclosed
  | resumed : Asks .unclosed .unresumed
  | ping : Asks .unresumed .unpinged

/-- A question that rouses a courier if the answer is yes. -/
inductive Rousing : Stage → Prop where
  | resumed : Rousing .unclosed
  | ping : Rousing .unresumed
  | tick : Rousing .unpinged

theorem left_eq_none {g : Stage} (hg : g.underWay = false) (paused : Bool) :
    g.left paused = none := by
  cases g <;> first | rfl | cases hg

end Stage

namespace Feed

variable {f : Feed} {h : Hub}

theorem le_cursor_reach (h : Hub) (s : Signal) (f : Feed) (t : Signal) :
    f.cursor.get t ≤ (f.reach h s).cursor.get t := by
  show _ ≤ (f.cursor.set s _).get t
  rw [PerSignal.get_set]
  split
  · rename_i ht
    subst ht
    exact Nat.le_max_left _ _
  · exact Nat.le_refl _

theorem cursor_reach_of_ne {s t : Signal} (ht : t ≠ s) :
    (f.reach h s).cursor.get t = f.cursor.get t := by
  show (f.cursor.set s _).get t = _
  rw [PerSignal.get_set, if_neg ht]

theorem position_le_cursor_reach (h : Hub) (s : Signal) (f : Feed) :
    h.position s ≤ (f.reach h s).cursor.get s := by
  show _ ≤ (f.cursor.set s _).get s
  rw [PerSignal.get_set, if_pos rfl]
  exact Nat.le_max_right _ _

end Feed

namespace Courier

variable {now : Nat} {h h' : Hub} {c c' : Courier} {g g' : Stage}

/-- What a stride does, and what made it possible. -/
inductive Strides (now : Nat) (h : Hub) (c : Courier) : Stage → Hub → Courier → Stage → Prop where
  | ends (g : Stage) (hl : c.Leaves h) :
    Strides now h c g (h.discard c.feed.id) { c with phase := .ended } .fresh
  | puts (g : Stage) {d : Delta} (hp : c.phase = .holding d) (ho : c.sink.isOpen)
      (hr : c.sink.queue.length < c.sink.capacity) :
    Strides now h c g h
      { c with sink := { c.sink with queue := c.sink.queue ++ [d] }, phase := .waiting } .fresh
  /-- There is nothing to do. -/
  | rests (g : Stage) : Strides now h c g h c .asleep
  /-- Nobody has called it to stop. -/
  | begins {g : Stage} (hg : g.underWay = false) (hp : c.phase = .waiting)
      (hc : c.listener ≠ .called) :
    Strides now h c g h c .uncalled
  | asks {g g' : Stage} (hq : g.Asks g') (hp : c.phase = .waiting) : Strides now h c g h c g'
  | rouses {g : Stage} {h' : Hub} {listener : Listener} {resumed : Bool} {due : Nat}
      (hg : g.underWay = false ∧ c.listener = .abandoned ∨ g.Rousing) (hp : c.phase = .waiting)
      (hr : c.Rouses now h h' listener resumed due) :
    Strides now h c g h'
      { c with
        feed := { c.feed with resumed := resumed }
        listener := listener
        due := due } .roused
  /-- The feed is paused. -/
  | refrains (hp : c.phase = .waiting) (hpaused : c.feed.paused) :
    Strides now h c .roused h c .fresh
  | goesOn (hp : c.phase = .waiting) (hpaused : c.feed.paused = false) :
    Strides now h c .roused h c .unpaused
  | looks (hp : c.phase = .waiting) :
    Strides now h c .unpaused h c (.atHead .traces (.blank h.bulletin.generation))
  | reaches (hp : c.phase = .waiting) (s : Signal) (d : Delta) :
    Strides now h c (.atHead s d) h { c with feed := c.feed.reach h s }
      (.atRange s (c.feed.cursor.get s) (h.position s) d)
  | gathers (hp : c.phase = .waiting) {s next : Signal} (hs : s.later = next :: next.later)
      (lo head : Nat) (d : Delta) :
    Strides now h c (.atRange s lo head d) h c (.atHead next (c.feed.gather h lo head d s))
  /-- There was nothing to deliver. -/
  | finds (hp : c.phase = .waiting) (lo head : Nat) (d : Delta) :
    Strides now h c (.atRange .metrics lo head d) h c .fresh
  | holds (hp : c.phase = .waiting) (lo head : Nat) (d : Delta) :
    Strides now h c (.atRange .metrics lo head d) h
      { c with phase := .holding (c.feed.gather h lo head d .metrics) } .fresh

theorem strides_of_check (hp : c.phase = .waiting) (hg : g.underWay = false)
    (hs : c.stride now h .fresh = ((h', c'), g')) : c.Strides now h g h' c' g' := by
  obtain ⟨feed, sink, listener, keepalive, due, phase, isLive⟩ := c
  obtain rfl : phase = .waiting := hp
  simp only [stride] at hs
  by_cases hk : keepalive = 0
  · rw [if_pos hk] at hs
    cases hs
    exact .ends g (.ticksTooFast rfl hk)
  rw [if_neg hk] at hs
  cases listener with
  | called =>
    cases hs
    exact .ends g (.called rfl rfl)
  | abandoned =>
    cases hs
    exact .rouses (.inl ⟨hg, rfl⟩) rfl (.abandoned rfl)
  | listening | deaf =>
    cases hs
    exact .begins hg rfl Listener.noConfusion

theorem strides_of_ping (hp : c.phase = .waiting)
    (hs : c.stride now h .unresumed = ((h', c'), g')) : c.Strides now h .unresumed h' c' g' := by
  have hf := readPing_fst h c.feed.id
  simp only [stride, hp] at hs
  split at hs
  · rename_i hr
    cases hs
    rw [hr] at hf
    cases hb : h.bulletin.box? c.feed.id with
    | none => rw [hb] at hf; cases hf
    | some m =>
      rw [hb] at hf
      have hm : m.pending ≠ 0 := by
        intro hz
        cases hm : m.attached <;> simp [hz, hm] at hf
      rw [show h' = (h.readPing c.feed.id).2 by rw [hr]]
      exact .rouses (.inr .ping) hp (.pinged hb hm)
  · rename_i hr
    cases hs
    refine .ends _ (.forgotten hp fun n hn => ?_)
    rw [hr, hn] at hf
    by_cases hz : n = 0 <;> simp [hz] at hf
  · cases hs
    exact .asks .ping hp

theorem strides_of_holding {d : Delta} (hp : c.phase = .holding d)
    (hs : c.stride now h g = ((h', c'), g')) : c.Strides now h g h' c' g' := by
  simp only [stride, hp] at hs
  by_cases ho : c.sink.isOpen = true
  · rw [if_neg (by simp [ho])] at hs
    by_cases hroom : c.sink.queue.length < c.sink.capacity
    · rw [if_pos hroom] at hs
      cases hs
      exact .puts g hp ho hroom
    · rw [if_neg hroom] at hs
      cases hs
      exact .rests g
  · rw [if_pos (by simp [ho])] at hs
    cases hs
    exact .ends g (.refused hp (by simpa using ho))

theorem strides_of_waiting (hp : c.phase = .waiting) (hs : c.stride now h g = ((h', c'), g')) :
    c.Strides now h g h' c' g' := by
  obtain ⟨feed, sink, listener, keepalive, due, phase, isLive⟩ := c
  obtain rfl : phase = .waiting := hp
  cases g with
  | fresh => exact strides_of_check rfl rfl hs
  | asleep => exact strides_of_check rfl rfl hs
  | uncalled =>
    simp only [stride] at hs
    by_cases ho : sink.isOpen = true
    · rw [if_pos ho] at hs
      cases hs
      exact .asks .sink rfl
    · rw [if_neg ho] at hs
      cases hs
      exact .ends _ (.closed rfl (by simpa using ho))
  | unclosed =>
    simp only [stride] at hs
    by_cases hr : feed.resumed = true
    · rw [if_pos hr] at hs
      cases hs
      exact .rouses (.inr .resumed) rfl (.resumed hr)
    · rw [if_neg hr] at hs
      cases hs
      exact .asks .resumed rfl
  | unresumed => exact strides_of_ping rfl hs
  | unpinged =>
    simp only [stride] at hs
    by_cases hdue : due ≤ now
    · rw [if_pos hdue] at hs
      cases hs
      exact .rouses (.inr .tick) rfl (.ticked hdue)
    · rw [if_neg hdue] at hs
      cases hs
      exact .rests _
  | roused =>
    simp only [stride] at hs
    cases hs
    by_cases hpaused : feed.paused = true
    · rw [if_pos hpaused]
      exact .refrains rfl hpaused
    · rw [if_neg hpaused]
      exact .goesOn rfl (by simpa using hpaused)
  | unpaused =>
    cases hs
    exact .looks rfl
  | atHead s d =>
    cases hs
    exact .reaches rfl s d
  | atRange s lo head d =>
    cases s with
    | traces | logs =>
      cases hs
      exact .gathers rfl rfl lo head d
    | metrics =>
      simp only [stride] at hs
      cases hs
      split
      · exact .finds rfl lo head d
      · exact .holds rfl lo head d

/-- What a stride does, and what made it possible. -/
theorem strides_of_stride (hs : c.stride now h g = ((h', c'), g')) :
    c.Strides now h g h' c' g' := by
  cases hp : c.phase with
  | ended =>
    simp only [stride, hp] at hs
    cases hs
    exact .rests g
  | holding d => exact strides_of_holding hp hs
  | waiting => exact strides_of_waiting hp hs

theorem Strides.touches (hs : c.Strides now h g h' c' g') : c.Touches h h' := by
  cases hs with
  | ends => exact .inr (.inl rfl)
  | rouses _ _ hr =>
    rcases hr.hub_eq with he | he
    · exact .inl he
    · exact .inr (.inr he)
  | _ => exact .inl rfl

theorem Strides.id_eq (hs : c.Strides now h g h' c' g') : c'.feed.id = c.feed.id := by
  cases hs <;> rfl

theorem Strides.paused_eq (hs : c.Strides now h g h' c' g') :
    c'.feed.paused = c.feed.paused := by
  cases hs <;> rfl

theorem Strides.listener_eq (hs : c.Strides now h g h' c' g') (hl : c.listener ≠ .abandoned) :
    c'.listener = c.listener := by
  cases hs with
  | rouses _ _ hr => exact hr.listener_eq hl
  | _ => rfl

/-- No stride but the last ends the subscription. -/
theorem Strides.attached (hs : c.Strides now h g h' c' g') (hended : c'.hasEnded = false)
    (hbox : ∃ n, h.bulletin.box? c.feed.id = some ⟨n, true⟩) :
    ∃ n, h'.bulletin.box? c.feed.id = some ⟨n, true⟩ := by
  obtain ⟨n, hn⟩ := hbox
  cases hs with
  | ends => cases hended
  | rouses _ _ hr =>
    rcases hr.hub_eq with rfl | rfl
    · exact ⟨n, hn⟩
    · refine ⟨n - 1, ?_⟩
      rw [Hub.box?_readPing, hn, Option.map_some, if_pos rfl]
  | _ => exact ⟨n, hn⟩

end Courier

end SignalHub
