import SignalHub.Proofs.Moves
/-!
# Calls to stop

A courier notices a call to stop only where it waits for something to happen. One that is stuck
before a full sink does not, until its reader takes a delta or goes away. A courier of a live stream
that is opened after the call never hears of it.

Results:
* `World.stops_iff_not_stuck`: which couriers of live streams end after a call.
* `World.outlives_call_iff`: which live streams are still there after a call.
-/
namespace SignalHub

namespace Courier

variable {now : Nat} {h h' : Hub} {e : Event} {c c' : Courier}

/-- A stuck courier takes no turn. -/
theorem Turns.not_stuck (ht : c.Turns now h h' c') : ¬ c.Stuck := by
  intro hs
  obtain ⟨d, hd⟩ := hs.holding
  have hopen := hs.isOpen
  have hfull := hs.full
  cases ht with
  | puts _ _ hr => omega
  | looks hp => rw [hd] at hp; cases hp
  | ends hl =>
    cases hl with
    | refused _ ho => rw [hopen] at ho; cases ho
    | ticksTooFast hp | called hp | closed hp | forgotten hp => rw [hd] at hp; cases hp

/-- A courier that was called takes nothing more in hand. -/
theorem Turns.not_stuck_of_called (ht : c.Turns now h h' c') (hl : c.listener = .called) :
    c'.listener = .called ∧ ¬ c'.Stuck := by
  cases ht with
  | looks _ _ hne => exact absurd hl hne
  | ends => exact ⟨hl, fun hs => by obtain ⟨d, hd⟩ := hs.holding; cases hd⟩
  | puts => exact ⟨hl, fun hs => by obtain ⟨d, hd⟩ := hs.holding; cases hd⟩

theorem Moves.isLive_eq (hm : c.Moves now h e c') : c'.isLive = c.isLive := by
  cases hm with
  | stays | pauses | resumes | closes | leaves => rfl
  | turns ht => cases ht <;> rfl
  | takes => unfold take; split <;> rfl
  | hears => unfold call; split <;> rfl

end Courier

/-- Whether the event is something that the reader of a feed does. -/
def Event.byReader (id : Nat) : Event → Bool
  | .take i | .close i | .leave i => i == id
  | _ => false

/-- Only the reader frees a stuck courier, and nothing makes one stuck that was called. -/
theorem Courier.Moves.stuck_iff {now : Nat} {h : Hub} {e : Event} {c c' : Courier}
    (hm : c.Moves now h e c') (hl : c.listener = .called) (he : e.byReader c.feed.id = false) :
    c'.listener = .called ∧ (c'.Stuck ↔ c.Stuck) := by
  cases hm with
  | stays => exact ⟨hl, Iff.rfl⟩
  | pauses | resumes => exact ⟨hl, stuck_congr rfl rfl⟩
  | turns ht =>
    obtain ⟨hl', hn⟩ := ht.not_stuck_of_called hl
    exact ⟨hl', iff_of_false hn ht.not_stuck⟩
  | takes | closes | leaves => simp [Event.byReader] at he
  | hears =>
    rw [call, if_neg (by simp [hl])]
    exact ⟨hl, Iff.rfl⟩

/-- Whether the event calls couriers to stop or is about a reader that goes away. -/
def Event.stops : Event → Bool
  | .shutdown | .close _ | .leave _ => true
  | _ => false

namespace Courier

/-- After a call, when so many numbers had been given: the courier of a live stream that was there
is called, and that of one that was opened since goes on. -/
structure Parted (n : Nat) (c : Courier) : Prop where
  called : c.isLive → c.feed.id < n → c.listener = .called
  goes_on : c.isLive → n ≤ c.feed.id →
    c.listener = .listening ∧ c.sink.isOpen ∧ (c.keepalive ≠ 0 → c.hasEnded = false)

variable {n now : Nat} {h h' : Hub} {e : Event} {c c' : Courier} {rs : List Record} {d : Diary}

theorem parted_call (hc : c.Sound now h rs d) (hid : c.feed.id < n) : c.call.Parted n := by
  unfold call
  split
  · exact ⟨fun _ _ => rfl, fun _ hle => absurd hid (Nat.not_lt_of_le hle)⟩
  · rename_i hne
    exact ⟨fun hl _ => (hc.live hl).2.resolve_left hne,
      fun _ hle => absurd hid (Nat.not_lt_of_le hle)⟩

/-- Of the live streams that go on none ends. -/
theorem Parted.turns (hp : c.Parted n) (hc : c.Sound now h rs d) (ht : c.Turns now h h' c') :
    c'.Parted n := by
  have hcalled := hp.called
  have hgoes := hp.goes_on
  cases ht with
  | puts => exact ⟨hcalled, fun hl hle => ⟨(hgoes hl hle).1, (hgoes hl hle).2.1, fun _ => rfl⟩⟩
  | looks _ _ hne hr =>
    have hid : ∀ l b due, (c.looked h l b due).feed.id = c.feed.id :=
      fun _ _ _ => Feed.id_poll h c.feed
    refine ⟨fun hl hlt => absurd (hcalled hl (hid _ _ _ ▸ hlt)) hne, fun hl hle => ?_⟩
    obtain ⟨hlisten, hopen, -⟩ := hgoes hl (hid _ _ _ ▸ hle)
    refine ⟨?_, hopen, fun _ => hasEnded_looked h c _ _ _⟩
    exact (hr.listener_eq (by simp [hlisten])).trans hlisten
  | ends hl =>
    refine ⟨hcalled, fun hlive hle => ?_⟩
    obtain ⟨hlisten, hopen, -⟩ := hgoes hlive hle
    refine ⟨hlisten, hopen, fun hk => ?_⟩
    cases hl with
    | refused _ ho => rw [hopen] at ho; cases ho
    | ticksTooFast _ hz => exact absurd hz hk
    | called _ hcall => rw [hlisten] at hcall; cases hcall
    | closed _ ho => rw [hopen] at ho; cases ho
    | forgotten hw hbox =>
      obtain ⟨k, hk, -⟩ := hc.roused (by simp [hasEnded, hw])
      exact absurd hk (hbox k)

theorem Parted.moves (hp : c.Parted n) (hc : c.Sound now h rs d)
    (he : e.stops = false) (hm : c.Moves now h e c') : c'.Parted n := by
  cases hm with
  | stays => exact hp
  | pauses | resumes => exact ⟨hp.called, hp.goes_on⟩
  | turns ht => exact hp.turns hc ht
  | takes =>
    unfold take
    split
    · exact ⟨hp.called, hp.goes_on⟩
    · exact hp
  | closes | leaves | hears => simp [Event.stops] at he

/-- The courier of a live stream that is at rest and has been read goes on or has ended. -/
theorem Parted.hasEnded_eq_false_iff (hp : c.Parted n) (hc : c.Sound now h rs d) (hl : c.isLive)
    (ht : c.turn now h = none) (hq : c.sink.queue = []) :
    c.hasEnded = false ↔ n ≤ c.feed.id ∧ c.keepalive ≠ 0 := by
  have hstuck : ¬ c.Stuck := by
    intro hs
    have hfull := hs.full
    rw [hq, (hc.live hl).1] at hfull
    simp [Http.liveCapacity] at hfull
  constructor
  · intro he
    rcases turn_eq_none_iff.1 ht with he' | hs | hi
    · rw [he] at he'; cases he'
    · exact absurd hs hstuck
    · refine ⟨Nat.le_of_not_lt fun hlt => hi.not_called (hp.called hl hlt), hi.keepalive_ne⟩
  · rintro ⟨hle, hk⟩
    exact (hp.goes_on hl hle).2.2 hk

end Courier

namespace World

variable {w : World}

/-! ## Live streams by number -/

/-- A courier is a subscriber as long as it has not ended. -/
theorem Sound.box?_eq_none_iff (hw : w.Sound) {c : Courier} (hc : c ∈ w.couriers) :
    w.hub.bulletin.box? c.feed.id = none ↔ c.hasEnded := by
  have hs := hw.couriers c hc
  constructor
  · intro hbox
    cases he : c.hasEnded with
    | true => rfl
    | false =>
      obtain ⟨n, hn, -⟩ := hs.roused he
      rw [hbox] at hn; cases hn
  · exact hs.forgotten

/-- A live stream can be paused by its number as long as its courier has not ended. -/
theorem Sound.switch?_eq_none_iff (hw : w.Sound) {c : Courier} (hc : c ∈ w.couriers)
    (hl : c.isLive) : w.site.switch? c.feed.id = none ↔ c.hasEnded := by
  rw [Site.switch?, Option.map_eq_none_iff, List.find?_eq_none]
  constructor
  · intro hnone
    simpa [hl] using hnone c hc
  · intro he a ha hthere
    simp only [Bool.and_eq_true, beq_iff_eq, Bool.not_eq_true'] at hthere
    rw [hw.eq_of_id_eq ha hc hthere.1.1, he] at hthere
    cases hthere.2

/-! ## Those who were there -/

theorem exists_called_run (hw : w.Sound) (es : List Event) {c : Courier} (hc : c ∈ w.couriers)
    (hl : c.listener = .called) (hes : ∀ e ∈ es, e.byReader c.feed.id = false) :
    ∃ c' ∈ (w.run es).couriers, c'.feed.id = c.feed.id ∧ c'.isLive = c.isLive ∧
      c'.listener = .called ∧ (c'.Stuck ↔ c.Stuck) := by
  induction es generalizing w c with
  | nil => exact ⟨c, hc, rfl, rfl, hl, Iff.rfl⟩
  | cons e es ih =>
    obtain ⟨c₁, hc₁, hm⟩ := exists_moves_step hw e hc
    have hid := hm.id_eq hw.bulletin
    obtain ⟨hl₁, hstuck₁⟩ := hm.stuck_iff hl (hes e List.mem_cons_self)
    obtain ⟨c', hc', hid', hlive, hl', hstuck⟩ := ih (hw.step e) hc₁ hl₁
      fun e' he' => hid ▸ hes e' (List.mem_cons_of_mem e he')
    exact ⟨c', hc', hid'.trans hid, hlive.trans hm.isLive_eq, hl', hstuck.trans hstuck₁⟩

/-- When a courier that was called is at rest, it has ended or is stuck. -/
theorem hasEnded_iff_not_stuck {c : Courier} {now : Nat} {h : Hub} (hl : c.listener = .called)
    (ht : c.turn now h = none) : c.hasEnded ↔ ¬ c.Stuck := by
  constructor
  · intro he hs
    obtain ⟨d, hd⟩ := hs.holding
    rw [Courier.hasEnded_iff, hd] at he; cases he
  · intro hs
    rcases Courier.turn_eq_none_iff.1 ht with he | hstuck | hi
    · exact he
    · exact absurd hstuck hs
    · exact absurd hl hi.not_called

/-- After a call to stop, and as long as the reader does nothing, the courier of a live stream that
is at rest has ended, and is neither a subscriber nor to be found by its number, exactly when it was
not stuck at the time of the call. -/
theorem stops_iff_not_stuck (storage : StorageSettings) (stream : StreamSettings)
    (pre post : List Event) (c : Courier) :
    let w₀ := (start storage stream).run pre
    let w := (w₀.step .shutdown).run post
    c ∈ w₀.couriers → c.isLive → (∀ e ∈ post, e.byReader c.feed.id = false) →
    ∃ c', w.site.courier? c.feed.id = some c' ∧
      (c'.turn w.now w.hub = none →
        (c'.hasEnded ↔ ¬ c.Stuck) ∧
        (w.hub.bulletin.box? c.feed.id = none ↔ ¬ c.Stuck) ∧
        (w.site.switch? c.feed.id = none ↔ ¬ c.Stuck)) := by
  intro w₀ w hc hl hpost
  have hw₀ : w₀.Sound := (sound_start storage stream).run pre
  have hw₁ := hw₀.step .shutdown
  have hw : w.Sound := hw₁.run post
  have hcall : c.call.feed = c.feed ∧ c.call.isLive = c.isLive ∧ c.call.listener = .called ∧
      (c.call.Stuck ↔ c.Stuck) := by
    unfold Courier.call
    split
    · exact ⟨rfl, rfl, rfl, Courier.stuck_congr rfl rfl⟩
    · rename_i hne
      exact ⟨rfl, rfl, ((hw₀.couriers c hc).live hl).2.resolve_left hne, Iff.rfl⟩
  obtain ⟨hfeed, hlive, hcalled, hstuck⟩ := hcall
  obtain ⟨c', hc', hid, hlive', hl', hstuck'⟩ := exists_called_run hw₁ post
    (List.mem_map_of_mem hc) hcalled (by rw [hfeed]; exact hpost)
  rw [hfeed] at hid
  rw [hlive, hl] at hlive'
  refine ⟨c', hid ▸ hw.courier?_eq hc', fun ht => ?_⟩
  have hended : c'.hasEnded ↔ ¬ c.Stuck := by
    rw [hasEnded_iff_not_stuck hl' ht, hstuck', hstuck]
  refine ⟨hended, ?_, ?_⟩
  · rw [← hid, hw.box?_eq_none_iff hc', hended]
  · rw [← hid, hw.switch?_eq_none_iff hc' hlive', hended]

theorem waiting_courier_stops :
    let w := (((start {} {}).run [.live everything]).step .shutdown).run [.turn 1]
    ∃ c, w.site.courier? 1 = some c ∧ c.hasEnded := by
  intro w
  let c₀ := ((start {} {}).run [.live everything]).couriers.head (by decide)
  have hstuck : ¬ c₀.Stuck := fun hs => by obtain ⟨d, hd⟩ := hs.holding; cases hd
  have hrest : (w.site.courier? 1).all (fun c => (c.turn w.now w.hub).isNone) := rfl
  obtain ⟨c, hc, h⟩ := stops_iff_not_stuck {} {} [.live everything] [.turn 1] c₀
    (List.head_mem _) rfl (by decide)
  have hc' : w.site.courier? 1 = some c := hc
  rw [hc', Option.all_some, Option.isNone_iff_eq_none] at hrest
  exact ⟨c, hc', (h hrest).1.2 hstuck⟩

/-- A live stream that nobody reads, until its sink is full and one more delta is in hand. -/
def unread : List Event :=
  .live everything :: (List.replicate 17 [.record line, .turn 1, .turn 1]).flatten

/-- Its courier does not notice the call. -/
theorem unread_courier_does_not_stop :
    let w := ((start {} {}).run unread).step .shutdown
    ∃ c ∈ w.couriers, c.isLive ∧ c.turn w.now w.hub = none ∧ c.hasEnded = false ∧
      w.hub.bulletin.box? c.feed.id ≠ none ∧ w.site.switch? c.feed.id ≠ none := by
  intro w
  let c := w.couriers.head (by decide)
  exact ⟨c, List.head_mem _, rfl, rfl, rfl, by decide, by decide⟩

/-! ## Those who came later -/

theorem parted_begins {n : Nat} (hn : n ≤ w.hub.bulletin.nextId) {c : Courier} (hc : w.Begins c) :
    c.Parted n := by
  cases hc with
  | live r => exact ⟨fun _ hlt => absurd hn (Nat.not_le_of_lt hlt),
      fun _ _ => ⟨rfl, rfl, fun _ => rfl⟩⟩
  | launch => exact ⟨fun hl => (by cases hl), fun hl => (by cases hl)⟩

/-- After a call, the couriers of live streams are parted into those called and those that go on. -/
theorem parted_run {n : Nat} (hw : w.Sound) (es : List Event) (hes : ∀ e ∈ es, e.stops = false)
    (hn : n ≤ w.hub.bulletin.nextId) (hp : ∀ c ∈ w.couriers, c.Parted n) :
    ∀ c ∈ (w.run es).couriers, c.Parted n := by
  induction es generalizing w with
  | nil => exact hp
  | cons e es ih =>
    refine ih (hw.step e) (fun e' he' => hes e' (List.mem_cons_of_mem e he'))
      (Nat.le_trans hn (nextId_le_step hw e)) fun c' hc' => ?_
    rcases moves_or_begins_step hw e hc' with ⟨c, hc, hm⟩ | hb
    · exact (hp c hc).moves (hw.couriers c hc) (hes e List.mem_cons_self) hm
    · exact parted_begins hn hb

/-- After a call to stop that everyone heard who was there, in a state in which all couriers are at
rest and all live streams have been read: a live stream goes on exactly if it was opened after the
call, unless its ticks have no distance. -/
theorem outlives_call_iff (storage : StorageSettings) (stream : StreamSettings)
    (pre post : List Event) :
    let w₀ := (start storage stream).run pre
    let n := w₀.hub.bulletin.nextId
    let w := (w₀.step .shutdown).run post
    (∀ e ∈ post, e.stops = false) → (∀ c ∈ w.couriers, c.turn w.now w.hub = none) →
    (∀ c ∈ w.couriers, c.isLive → c.sink.queue = []) →
    (∀ c ∈ w.couriers, c.isLive →
      (c.hasEnded = false ↔ n ≤ c.feed.id ∧ c.keepalive ≠ 0) ∧
      (w.hub.bulletin.box? c.feed.id ≠ none ↔ n ≤ c.feed.id ∧ c.keepalive ≠ 0) ∧
      (w.site.switch? c.feed.id ≠ none ↔ n ≤ c.feed.id ∧ c.keepalive ≠ 0)) ∧
    (w.site.hasNoLive ↔ ∀ c ∈ w.couriers, c.isLive → c.feed.id < n ∨ c.keepalive = 0) := by
  intro w₀ n w hpost hrest hread
  have hw₀ : w₀.Sound := (sound_start storage stream).run pre
  have hw₁ := hw₀.step .shutdown
  have hw : w.Sound := hw₁.run post
  have hparted : ∀ c ∈ w.couriers, c.Parted n := by
    refine parted_run hw₁ post hpost (Nat.le_refl _) fun c' hc' => ?_
    obtain ⟨c, hc, rfl⟩ := List.mem_map.1 hc'
    exact Courier.parted_call (hw₀.couriers c hc) (hw₀.lt_nextId _ (id_mem_of_courier hc))
  have hended : ∀ c ∈ w.couriers, c.isLive →
      (c.hasEnded = false ↔ n ≤ c.feed.id ∧ c.keepalive ≠ 0) := fun c hc hl =>
    (hparted c hc).hasEnded_eq_false_iff (hw.couriers c hc) hl (hrest c hc) (hread c hc hl)
  constructor
  · intro c hc hl
    refine ⟨hended c hc hl, ?_, ?_⟩
    · rw [ne_eq, hw.box?_eq_none_iff hc, Bool.not_eq_true, hended c hc hl]
    · rw [ne_eq, hw.switch?_eq_none_iff hc hl, Bool.not_eq_true, hended c hc hl]
  · rw [Site.hasNoLive, List.all_eq_true]
    refine forall₂_congr fun c hc => ?_
    cases hl : c.isLive with
    | false => simp
    | true =>
      have := hended c hc hl
      cases he : c.hasEnded <;> simp [he] at this ⊢ <;> omega

theorem late_courier_outlives_call :
    let w := (((start {} {}).run []).step .shutdown).run [.live everything, .turn 1]
    (∀ c ∈ w.couriers, c.turn w.now w.hub = none) ∧ (∀ c ∈ w.couriers, c.sink.queue = []) ∧
      ∀ c ∈ w.couriers, c.isLive → (c.hasEnded = false ↔ 1 ≤ c.feed.id ∧ c.keepalive ≠ 0) := by
  intro w
  have hone : w.couriers = [w.couriers.head (by decide)] := rfl
  have hrest : ∀ c ∈ w.couriers, c.turn w.now w.hub = none := by
    rw [hone]; intro c hc; rw [List.mem_singleton.1 hc]; rfl
  have hread : ∀ c ∈ w.couriers, c.sink.queue = [] := by
    rw [hone]; intro c hc; rw [List.mem_singleton.1 hc]; rfl
  refine ⟨hrest, hread, fun c hc hl => ?_⟩
  exact ((outlives_call_iff {} {} [] [.live everything, .turn 1] (by decide) hrest
    fun c hc _ => hread c hc).1 c hc hl).1

/-- The live stream is there, although everyone is at rest and there is nothing to be read. -/
theorem late_live_stream_stays :
    let w := (((start {} {}).run []).step .shutdown).run [.live everything, .turn 1]
    (∀ c ∈ w.couriers, c.turn w.now w.hub = none ∧ c.sink.queue = []) ∧
      w.site.hasNoLive = false ∧ w.hub.bulletin.box? 1 ≠ none := by
  intro w
  have hone : w.couriers = [w.couriers.head (by decide)] := rfl
  refine ⟨?_, rfl, by decide⟩
  rw [hone]
  intro c hc
  rw [List.mem_singleton.1 hc]
  exact ⟨rfl, rfl⟩

end World

end SignalHub
