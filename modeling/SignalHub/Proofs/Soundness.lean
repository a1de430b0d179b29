import SignalHub.Proofs.World
/-!
# What holds of every courier

A courier whose feed is behind and not paused will be roused: there is a ping in its mailbox, or the
feed was resumed, or a tick is due. A ping that is read is followed by a look in the same turn; if
the feed is paused then, the look finds nothing, but so the feed can only go on by being resumed.

Results:
* `Courier.Sound`: the invariant of one courier.
* `Courier.Sound.frame`, `Courier.Sound.record`, `Courier.Sound.turn`: it stays when something
  happens to others, when a record is accepted, and when the courier takes a turn.
-/
namespace SignalHub

/-! ## One feed -/

/-- There is a record that the feed has not passed over. -/
def Feed.Behind (f : Feed) (h : Hub) : Prop := ∃ s, f.cursor.get s < h.position s

/-- What holds of every feed that is polled by hand. -/
structure Feed.Sound (f : Feed) (h : Hub) (rs : List Record) (d : Diary) : Prop where
  follows : f.Follows d h rs
  subscribed : ∃ n, h.bulletin.box? f.id = some ⟨n, true⟩
  handed : d.deltas = d.taken

namespace Courier

/-- The delta in hand, if there is one. -/
def inHand (c : Courier) : List Delta :=
  match c.phase with
  | .holding d => [d]
  | _ => []

/-- What holds of every courier. -/
structure Sound (c : Courier) (now : Nat) (h : Hub) (rs : List Record) (d : Diary) : Prop where
  follows : c.feed.Follows d h rs
  /-- Unless it has ended it is a subscriber. If it is behind and not paused then there is a ping,
  or it was resumed, or its next tick is due. -/
  roused : c.hasEnded = false → ∃ n, h.bulletin.box? c.feed.id = some ⟨n, true⟩ ∧
    (c.feed.paused = false → c.feed.Behind h → 0 < n ∨ c.feed.resumed ∨ c.due ≤ now)
  forgotten : c.hasEnded → h.bulletin.box? c.feed.id = none
  /-- Nothing is lost between the feed and the reader. -/
  queued : c.sink.isOpen → d.deltas = d.taken ++ c.sink.queue ++ c.inHand
  live : c.isLive →
    c.sink.capacity = Http.liveCapacity ∧ (c.listener = .listening ∨ c.listener = .called)

variable {c : Courier} {now : Nat} {h : Hub} {rs : List Record} {d : Diary}

/-- What happens to others does not matter, and time may pass. -/
theorem Sound.frame (hc : c.Sound now h rs d) {now' : Nat} {h' : Hub} (hn : now ≤ now')
    (ha : h.Agree h') (hb : h'.bulletin.box? c.feed.id = h.bulletin.box? c.feed.id) :
    c.Sound now' h' rs d := by
  refine ⟨hc.follows.agree ha, fun he => ?_, fun he => ?_, hc.queued, hc.live⟩
  · obtain ⟨n, hbox, hwake⟩ := hc.roused he
    refine ⟨n, hb.trans hbox, fun hp hbeh => ?_⟩
    have hbeh' : c.feed.Behind h := by
      obtain ⟨s, hs⟩ := hbeh
      exact ⟨s, by rwa [ha.position_eq] at hs⟩
    rcases hwake hp hbeh' with h1 | h2 | h3
    · exact Or.inl h1
    · exact Or.inr (Or.inl h2)
    · exact Or.inr (Or.inr (Nat.le_trans h3 hn))
  · rw [hb]; exact hc.forgotten he

/-- A new record reaches a ping into the mailbox. -/
theorem Sound.record (hc : c.Sound now h rs d) (hh : h.Holds rs) (hb : h.bulletin.Sound)
    (r : Record) : c.Sound now (h.record r).2 (rs ++ [r]) d := by
  refine ⟨hc.follows.grow hh (Hub.position_le_record hh r), fun he => ?_, fun he => ?_, hc.queued,
    hc.live⟩
  · obtain ⟨n, hbox, -⟩ := hc.roused he
    obtain ⟨k, hk, hping⟩ := Bulletin.ping_eq hb n
    refine ⟨k, ?_, fun _ _ => Or.inl hk⟩
    rw [Hub.bulletin_record, Bulletin.box?_accept, hbox, Option.map_some, hping]
  · rw [Hub.bulletin_record, Bulletin.box?_accept, hc.forgotten he]; rfl

theorem Sound.pause (hc : c.Sound now h rs d) :
    ({ c with feed := c.feed.pause }).Sound now h rs d := by
  refine ⟨hc.follows.setPaused true, fun he => ?_, hc.forgotten, hc.queued, hc.live⟩
  obtain ⟨n, hbox, -⟩ := hc.roused he
  exact ⟨n, hbox, fun hp => by simp [Feed.pause] at hp⟩

theorem Sound.resume (hc : c.Sound now h rs d) :
    ({ c with feed := c.feed.resume }).Sound now h rs d := by
  refine ⟨(hc.follows.setPaused false).setResumed true, fun he => ?_, hc.forgotten, hc.queued,
    hc.live⟩
  obtain ⟨n, hbox, -⟩ := hc.roused he
  exact ⟨n, hbox, fun _ _ => Or.inr (Or.inl rfl)⟩

theorem Sound.call (hc : c.Sound now h rs d) : c.call.Sound now h rs d := by
  unfold Courier.call
  split
  · refine ⟨hc.follows, hc.roused, hc.forgotten, hc.queued, fun hl => ⟨(hc.live hl).1, Or.inr rfl⟩⟩
  · exact hc

/-- Whoever closes the sink has no claim to what was not taken. -/
theorem Sound.shut (hc : c.Sound now h rs d) (queue : List Delta) :
    ({ c with sink := { c.sink with queue := queue, isOpen := false } }).Sound now h rs d :=
  ⟨hc.follows, hc.roused, hc.forgotten, fun ho => by simp at ho, hc.live⟩

theorem Sound.take {delta : Delta} {rest : List Delta} (hc : c.Sound now h rs d)
    (hq : c.sink.queue = delta :: rest) :
    ({ c with sink := { c.sink with queue := rest } }).Sound now h rs (d.take delta) := by
  refine ⟨hc.follows.take delta, hc.roused, hc.forgotten, fun ho => ?_, hc.live⟩
  have hd := hc.queued ho
  rw [hq] at hd
  simp only [Diary.take, inHand] at hd ⊢
  rw [hd]
  simp

theorem inHand_looked (h : Hub) (c : Courier) (l : Listener) (b : Bool) (due : Nat) :
    (c.looked h l b due).inHand = (c.feed.poll h).1.toList := by
  simp only [inHand, looked]
  cases (c.feed.poll h).1 <;> rfl

theorem hasEnded_looked (h : Hub) (c : Courier) (l : Listener) (b : Bool) (due : Nat) :
    (c.looked h l b due).hasEnded = false := by
  simp only [hasEnded, looked]
  cases (c.feed.poll h).1 <;> rfl

/-- A feed that has looked is not behind. -/
theorem not_behind_looked (hf : c.feed.Follows d h rs) {l : Listener} {b : Bool} {due : Nat}
    {h' : Hub} (ha : h.Agree h') (hp : (c.looked h l b due).feed.paused = false) :
    ¬ (c.looked h l b due).feed.Behind h' := by
  rintro ⟨s, hs⟩
  have hp' : c.feed.paused = false := by simpa [looked] using hp
  have hcur : (c.looked h l b due).feed.cursor.get s = h.position s := hf.cursor_poll_eq hp' s
  rw [hcur, ha.position_eq] at hs
  exact Nat.lt_irrefl _ hs

/-- Nothing can rouse a courier whose feed is behind only if the feed is paused. -/
theorem Sound.not_behind_of_idle (hc : c.Sound now h rs d) (hi : c.Idle now h)
    (hp : c.feed.paused = false) : ¬ c.feed.Behind h := by
  intro hbehind
  have he : c.hasEnded = false := by simp [hasEnded, hi.waiting]
  obtain ⟨n, hbox, hwake⟩ := hc.roused he
  rw [hi.no_ping] at hbox
  cases hbox
  rcases hwake hp hbehind with h1 | h2 | h3
  · exact Nat.lt_irrefl _ h1
  · rw [hi.not_resumed] at h2; cases h2
  · exact Nat.lt_irrefl _ (Nat.lt_of_lt_of_le hi.no_tick h3)

/-- A turn keeps what holds of the courier. -/
theorem Sound.turn (hc : c.Sound now h rs d) (hh : h.Holds rs) {h' : Hub} {c' : Courier}
    (ht : c.Turns now h h' c') :
    c'.Sound now h' rs (if c.looksInto c' then d.poll h c.feed else d) := by
  cases ht with
  | ends hl =>
    have hinto : c.looksInto { c with phase := .ended } = false := by
      unfold looksInto hasEnded; split <;> rfl
    rw [hinto]
    refine ⟨hc.follows.agree (h.agree_discard _), fun he => by simp [hasEnded] at he, fun _ => ?_,
      fun ho => ?_, hc.live⟩
    · rw [Hub.box?_discard, if_pos rfl]
    · have hd := hc.queued ho
      -- With a delta in hand it only ends if the sink is closed.
      cases hl with
      | refused _ ho' => rw [show c.sink.isOpen = true from ho] at ho'; cases ho'
      | ticksTooFast hp | called hp | closed hp | forgotten hp =>
        simpa [inHand, hp] using hd
  | @puts delta hp ho hr =>
    have hinto : c.looksInto
        { c with sink := { c.sink with queue := c.sink.queue ++ [delta] }, phase := .waiting } =
        false := by simp [looksInto, hp]
    rw [hinto]
    have hlive : c.hasEnded = false := by simp [hasEnded, hp]
    refine ⟨hc.follows, fun _ => hc.roused hlive, fun he => by simp [hasEnded] at he, fun ho => ?_,
      hc.live⟩
    have hd := hc.queued ho
    simpa [inHand, hp] using hd
  | @looks _ listener resumed due hp _ _ hr =>
    have hinto : c.looksInto (c.looked h listener resumed due) = true := by
      simp [looksInto, hp, hasEnded_looked]
    rw [if_pos hinto]
    have hlive : c.hasEnded = false := by simp [hasEnded, hp]
    obtain ⟨n, hbox, -⟩ := hc.roused hlive
    have ha : h.Agree h' := by
      rcases hr.hub_eq with rfl | rfl
      · exact Hub.Agree.refl _
      · exact h.agree_readPing _
    have hbox' : ∃ k, h'.bulletin.box? c.feed.id = some ⟨k, true⟩ := by
      rcases hr.hub_eq with rfl | rfl
      · exact ⟨n, hbox⟩
      · exact ⟨n - 1, by rw [Hub.box?_readPing, hbox]; simp⟩
    obtain ⟨k, hk⟩ := hbox'
    refine ⟨((hc.follows.poll hh).setResumed resumed).agree ha, fun _ => ⟨k, ?_, ?_⟩,
      fun he => ?_, fun ho => ?_, fun hl => ?_⟩
    · simpa [looked] using hk
    · exact fun hpaused hbeh => absurd hbeh (not_behind_looked hc.follows ha hpaused)
    · rw [hasEnded_looked] at he; cases he
    · have hd := hc.queued ho
      rw [Diary.deltas_poll, Diary.taken_poll, inHand_looked, hd]
      simp [inHand, hp, looked]
    · obtain ⟨hcap, hl'⟩ := hc.live hl
      refine ⟨hcap, ?_⟩
      have hne : c.listener ≠ .abandoned := by rcases hl' with h1 | h1 <;> simp [h1]
      rw [show (c.looked h listener resumed due).listener = listener from rfl, hr.listener_eq hne]
      exact hl'

end Courier

theorem Feed.Sound.frame {f : Feed} {h : Hub} {rs : List Record} {d : Diary}
    (hf : f.Sound h rs d) {h' : Hub} (ha : h.Agree h')
    (hb : h'.bulletin.box? f.id = h.bulletin.box? f.id) : f.Sound h' rs d :=
  ⟨hf.follows.agree ha, by rw [hb]; exact hf.subscribed, hf.handed⟩

theorem Feed.Sound.record {f : Feed} {h : Hub} {rs : List Record} {d : Diary}
    (hf : f.Sound h rs d) (hh : h.Holds rs) (hb : h.bulletin.Sound) (r : Record) :
    f.Sound (h.record r).2 (rs ++ [r]) d := by
  obtain ⟨n, hbox⟩ := hf.subscribed
  obtain ⟨k, -, hping⟩ := Bulletin.ping_eq hb n
  refine ⟨hf.follows.grow hh (Hub.position_le_record hh r), ⟨k, ?_⟩, hf.handed⟩
  rw [Hub.bulletin_record, Bulletin.box?_accept, hbox, Option.map_some, hping]

theorem Feed.Sound.pause {f : Feed} {h : Hub} {rs : List Record} {d : Diary}
    (hf : f.Sound h rs d) : f.pause.Sound h rs d :=
  ⟨hf.follows.setPaused true, hf.subscribed, hf.handed⟩

theorem Feed.Sound.resume {f : Feed} {h : Hub} {rs : List Record} {d : Diary}
    (hf : f.Sound h rs d) : f.resume.Sound h rs d :=
  ⟨(hf.follows.setPaused false).setResumed true, hf.subscribed, hf.handed⟩

end SignalHub
