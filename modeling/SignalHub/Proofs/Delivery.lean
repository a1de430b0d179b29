import SignalHub.Proofs.Unlimited
/-!
# What feeds deliver

Whatever happens at a hub, a feed delivers each matching record that it passes over once and in
order, except those that had been evicted before it first looked after they were accepted.

Results:
* `World.feeds_deliver_owed`: what has been delivered by every feed in every world.
* `World.waiting_courier_caught_up`: a courier that waits has passed over everything.
-/
namespace SignalHub.World

/-- The feeds that are polled by hand and those that are run by couriers. -/
def allFeeds (w : World) : List Feed := w.feeds ++ w.couriers.map (·.feed)

variable {w : World} {f : Feed}

theorem Sound.follows (hw : w.Sound) (hf : f ∈ w.allFeeds) :
    f.Follows (w.diary f.id) w.hub w.accepted := by
  rcases List.mem_append.1 hf with hf | hf
  · exact (hw.feeds f hf).follows
  · obtain ⟨c, hc, rfl⟩ := List.mem_map.1 hf
    exact (hw.couriers c hc).follows

/-- After any events a feed has delivered, for each signal, what it owes: the matching records from
where it started up to its cursor, in order, but for those missed. Its cursors are not beyond the
heads. A poll while it is paused yields nothing and moves nothing; else it takes all cursors to the
heads, and yields nothing exactly when no retained record beyond them matches. A limit makes no
difference to what the feed has delivered. -/
theorem feeds_deliver_owed (storage : StorageSettings) (stream : StreamSettings) (es : List Event)
    (f : Feed) :
    let w := (start storage stream).run es
    f ∈ w.allFeeds →
    (∀ s, (w.diary f.id).delivered s =
      (w.diary f.id).owed f.filter s (f.cursor.get s) (Record.ofSignal s w.accepted)) ∧
    (∀ s, f.cursor.get s ≤ w.hub.position s) ∧
    (f.paused = true → f.poll w.hub = (none, f)) ∧
    (f.paused = false →
      (∀ s, (f.poll w.hub).2.cursor.get s = w.hub.position s) ∧
      ((f.poll w.hub).1 = none ↔ ∀ s r p, (Record.ofSignal s w.accepted)[p]? = some r →
        f.cursor.get s ≤ p → w.hub.first s ≤ p → f.filter.matchesRecord r = false)) ∧
    ((start storage stream).run (es.map (·.unlimited))).diary f.id = w.diary f.id := by
  intro w hf
  have hw : w.Sound := (sound_start storage stream).run es
  have hs : f.Follows (w.diary f.id) w.hub w.accepted := hw.follows hf
  refine ⟨hs.delivered_eq, hs.cursor_le, Feed.poll_paused, fun hp => ?_, ?_⟩
  · exact ⟨hs.cursor_poll_eq hp, Feed.poll_eq_none_iff hw.holds hp⟩
  · have hrun := run_unlimited es (start storage stream)
    exact congrFun (congrArg diary hrun).symm f.id

theorem feed_delivers_line :
    let w := (start {} {}).run [.attach .all (.uniform 0), .record line, .poll 1]
    let f : Feed := ⟨1, .all, ⟨0, 1, 0⟩, false, false⟩
    f ∈ w.allFeeds ∧ ∀ s, (w.diary 1).delivered s =
      (w.diary 1).owed .all s (f.cursor.get s) (Record.ofSignal s w.accepted) :=
  ⟨by decide, (feeds_deliver_owed {} {} [.attach .all (.uniform 0), .record line, .poll 1]
    ⟨1, .all, ⟨0, 1, 0⟩, false, false⟩ (by decide)).1⟩

/-- A courier that waits while nothing can rouse it is at all heads, unless its feed is paused. What
it has put into the sink, taken or not, is what its feed owes. -/
theorem waiting_courier_caught_up (storage : StorageSettings) (stream : StreamSettings)
    (es : List Event) (c : Courier) :
    let w := (start storage stream).run es
    c ∈ w.couriers → c.phase = .waiting → c.turn w.now w.hub = none →
    (c.feed.paused = false → ∀ s, c.feed.cursor.get s = w.hub.position s) ∧
    (∀ s, ((w.diary c.feed.id).taken ++ c.sink.queue).flatMap (·.records s) =
      (w.diary c.feed.id).owed c.feed.filter s (c.feed.cursor.get s)
        (Record.ofSignal s w.accepted)) := by
  intro w hc hp ht
  have hw : w.Sound := (sound_start storage stream).run es
  have hs : c.Sound w.now w.hub w.accepted (w.diary c.feed.id) := hw.couriers c hc
  have hi : c.Idle w.now w.hub := by
    rcases Courier.turn_eq_none_iff.1 ht with he | hstuck | hi
    · rw [Courier.hasEnded_iff, hp] at he; cases he
    · obtain ⟨d, hd⟩ := hstuck.holding
      rw [hp] at hd; cases hd
    · exact hi
  constructor
  · intro hpaused s
    have hbehind : ¬ c.feed.Behind w.hub := hs.not_behind_of_idle hi hpaused
    exact Nat.le_antisymm (hs.follows.cursor_le s)
      (Nat.le_of_not_lt fun hlt => hbehind ⟨s, hlt⟩)
  · intro s
    have hq := hs.queued hi.isOpen
    rw [Courier.inHand, hp, List.append_nil] at hq
    rw [← hq]
    exact hs.follows.delivered_eq s

theorem live_courier_caught_up :
    let w := (start {} {}).run [.live everything, .turn 1, .record line, .turn 1, .turn 1]
    ∃ c ∈ w.couriers, c.phase = .waiting ∧ c.turn w.now w.hub = none ∧
      ∀ s, c.feed.cursor.get s = w.hub.position s := by
  intro w
  let c := w.couriers.head (by decide)
  refine ⟨c, List.head_mem _, rfl, rfl, ?_⟩
  exact (waiting_courier_caught_up {} {} _ c (List.head_mem _) rfl rfl).1 rfl

end SignalHub.World
