import Mathlib.Algebra.BigOperators.Intervals
import SignalHub.Proofs.Accounts
/-!
# Where pings go

A ping that is sent to a subscriber is read, or still pending, or lost with the mailbox, or it was
dropped since the mailbox was full. Whatever subscribers do, and however many there are, none is
sent twice and none gets lost otherwise. So a subscriber whose mailbox is empty has read a ping
since the last record was announced, and a dropped ping costs it nothing.

Results:
* `Hub.announced_add_pending`: what one dealing does to the balance of a subscriber.
* `Hub.overflows_eq_sum`: the pings dropped by one dealing, by subscriber.
* `Hub.consumed_pos`: who finds its mailbox empty has read the ping that was in it.
* `Hub.pings_accounted_for`: the balance of every subscriber after any dealings.
-/
namespace SignalHub

/-- A dealing with the bulletin of a hub. Subscribers are named by their numbers. -/
inductive Dealing where
  /-- A record of a kind is announced. -/
  | announce (s : Signal)
  | subscribe
  /-- A subscriber reads a ping, if there is one. -/
  | read (id : Nat)
  | unsubscribe (id : Nat)
  /-- A subscriber gives up its mailbox. -/
  | discard (id : Nat)

namespace Hub

/-- What a dealing does. -/
def deal (h : Hub) : Dealing → Hub
  | .announce s => h.announce s
  | .subscribe => h.subscribe.2
  | .read id => (h.readPing id).2
  | .unsubscribe id => h.unsubscribe id
  | .discard id => h.discard id

/-- What dealings do, one after the other. -/
def dealAll (h : Hub) (ds : List Dealing) : Hub := ds.foldl deal h

/-- What dealings come to, if each counts for so much at the hub as it then is. -/
def total (count : Hub → Dealing → Nat) : Hub → List Dealing → Nat
  | _, [] => 0
  | h, d :: ds => count h d + total count (h.deal d) ds

/-- How many pings wait in the mailbox of that number. -/
def pending (h : Hub) (id : Nat) : Nat :=
  match h.bulletin.box? id with
  | some m => m.pending
  | none => 0

/-- Records announced while the subscriber subscribes. -/
def announced (id : Nat) (h : Hub) : Dealing → Nat
  | .announce _ => if h.hasLeft id then 0 else 1
  | _ => 0

/-- Pings that the subscriber reads. -/
def consumed (id : Nat) (h : Hub) : Dealing → Nat
  | .read i => if i = id ∧ (h.readPing i).1 = .pinged then 1 else 0
  | _ => 0

/-- Pings to the subscriber that are dropped since its mailbox is full. -/
def overflowed (id : Nat) (h : Hub) : Dealing → Nat
  | .announce _ => if (h.bulletin.box? id).any h.bulletin.isFull then 1 else 0
  | _ => 0

/-- Pings that wait in the mailbox of the subscriber when it is given up. -/
def lost (id : Nat) (h : Hub) : Dealing → Nat
  | .discard i => if i = id then h.pending id else 0
  | _ => 0

variable {h : Hub} {id n : Nat} {d : Dealing} {ds : List Dealing}

theorem dealAll_cons (h : Hub) (d : Dealing) (ds : List Dealing) :
    h.dealAll (d :: ds) = (h.deal d).dealAll ds := rfl

theorem dealAll_append (h : Hub) (ds ds' : List Dealing) :
    h.dealAll (ds ++ ds') = (h.dealAll ds).dealAll ds' := List.foldl_append ..

/-! ## What a dealing does to one mailbox -/

theorem box?_announce (h : Hub) (s : Signal) (id : Nat) :
    (h.announce s).bulletin.box? id = (h.bulletin.box? id).map h.bulletin.ping :=
  h.bulletin.box?_accept s id

theorem keyed_unsubscribe (hb : h.bulletin.Keyed) (id : Nat) :
    (h.unsubscribe id).bulletin.Keyed := by
  rw [unsubscribe]
  split
  · exact hb
  · exact Bulletin.Keyed.modifyBox hb id fun m => { m with attached := false }

theorem keyed_discard (hb : h.bulletin.Keyed) (id : Nat) : (h.discard id).bulletin.Keyed := by
  rcases h.bulletin_discard id with he | he
  · rw [he]; exact hb.discard id
  · rw [he]; exact (hb.modifyBox id _).discard id

theorem keyed_deal (hb : h.bulletin.Keyed) (d : Dealing) : (h.deal d).bulletin.Keyed := by
  cases d with
  | announce s => exact hb.accept s
  | subscribe => exact hb.subscribe
  | read id => exact hb.read id
  | unsubscribe id => exact keyed_unsubscribe hb id
  | discard id => exact keyed_discard hb id

theorem keyed_dealAll (hb : h.bulletin.Keyed) (ds : List Dealing) :
    (h.dealAll ds).bulletin.Keyed := by
  induction ds generalizing h with
  | nil => exact hb
  | cons d ds ih => exact ih (keyed_deal hb d)

theorem nextId_le_deal (h : Hub) (d : Dealing) :
    h.bulletin.nextId ≤ (h.deal d).bulletin.nextId := by
  cases d with
  | announce => exact Nat.le_refl _
  | subscribe => exact Nat.le_succ _
  | read id => exact Nat.le_of_eq (h.nextId_readPing id).symm
  | unsubscribe id => exact Nat.le_of_eq (h.nextId_unsubscribe id).symm
  | discard id => exact Nat.le_of_eq (h.nextId_discard id).symm

theorem nextId_le_dealAll (h : Hub) (ds : List Dealing) :
    h.bulletin.nextId ≤ (h.dealAll ds).bulletin.nextId := by
  induction ds generalizing h with
  | nil => exact Nat.le_refl _
  | cons d ds ih => exact Nat.le_trans (h.nextId_le_deal d) (ih (h.deal d))

theorem boxSize_deal (h : Hub) (d : Dealing) :
    (h.deal d).bulletin.boxSize = h.bulletin.boxSize := by
  cases d with
  | announce => rfl
  | subscribe => rfl
  | read id =>
    show (h.bulletin.read id).2.boxSize = _
    rcases h.bulletin.read_cases id with ⟨he, -⟩ | he <;> rw [he]
    rfl
  | unsubscribe id =>
    rw [deal, unsubscribe]
    split <;> rfl
  | discard id => rcases h.bulletin_discard id with he | he <;> rw [deal, he] <;> rfl

/-- A mailbox that is not given up is still there. Whoever has left does not come back. -/
theorem box?_deal (hb : h.bulletin.Sound) {m : Mailbox} (hm : h.bulletin.box? id = some m)
    (hd : d ≠ .discard id) : ∃ m', (h.deal d).bulletin.box? id = some m' ∧
      (m.attached = false → m'.attached = false) := by
  cases d with
  | announce s =>
    refine ⟨h.bulletin.ping m, by rw [deal, box?_announce, hm]; rfl, fun hleft => ?_⟩
    simp [Bulletin.ping, hleft]
  | subscribe =>
    refine ⟨m, ?_, fun hleft => hleft⟩
    rw [deal, box?_subscribe hb, if_neg (Nat.ne_of_lt (Bulletin.lt_nextId_of_box? hb hm)), hm]
  | read other =>
    refine ⟨_, by rw [deal, box?_readPing, hm]; rfl, fun hleft => ?_⟩
    split <;> exact hleft
  | unsubscribe other =>
    refine ⟨_, by rw [deal, box?_unsubscribe, hm]; rfl, fun hleft => ?_⟩
    split
    · rfl
    · exact hleft
  | discard other =>
    have hne : id ≠ other := fun he => hd (he ▸ rfl)
    exact ⟨m, by rw [deal, box?_discard, if_neg hne, hm], fun hleft => hleft⟩

/-- A number whose mailbox is gone is not given again. -/
theorem box?_deal_eq_none (hb : h.bulletin.Sound) (hid : id < h.bulletin.nextId)
    (hm : h.bulletin.box? id = none) (d : Dealing) : (h.deal d).bulletin.box? id = none := by
  cases d with
  | announce s => rw [deal, box?_announce, hm]; rfl
  | subscribe => rw [deal, box?_subscribe hb, if_neg (Nat.ne_of_lt hid), hm]
  | read other => rw [deal, box?_readPing, hm]; rfl
  | unsubscribe other => rw [deal, box?_unsubscribe, hm]; rfl
  | discard other =>
    rw [deal, box?_discard, hm]
    split <;> rfl

theorem box?_dealAll_eq_none (hb : h.bulletin.Keyed) (hid : id < h.bulletin.nextId)
    (hm : h.bulletin.box? id = none) (ds : List Dealing) :
    (h.dealAll ds).bulletin.box? id = none := by
  induction ds generalizing h with
  | nil => exact hm
  | cons d ds ih =>
    exact ih (keyed_deal hb d) (Nat.lt_of_lt_of_le hid (h.nextId_le_deal d))
      (box?_deal_eq_none hb.sound hid hm d)

/-! ## The balance of one subscriber -/

/-- Only who subscribes has its mailbox overflow. -/
theorem overflowed_announce_of_left {s : Signal} (hleft : h.hasLeft id = true) :
    overflowed id h (.announce s) = 0 := by
  rw [overflowed]
  cases hm : h.bulletin.box? id with
  | none => rfl
  | some m => simp [Bulletin.isFull, hasLeft_eq_true_iff.1 hleft m hm]

theorem overflowed_le_announced (id : Nat) (h : Hub) (d : Dealing) :
    overflowed id h d ≤ announced id h d := by
  cases d with
  | announce s =>
    cases hleft : h.hasLeft id with
    | false => simp only [overflowed, announced, hleft]; split <;> simp
    | true => rw [overflowed_announce_of_left hleft]; exact Nat.zero_le _
  | subscribe | read | unsubscribe | discard => exact Nat.le_refl 0

/-- A ping that is sent is then in the mailbox, or it was dropped. -/
theorem pending_announce (h : Hub) (s : Signal) (id : Nat) :
    announced id h (.announce s) + h.pending id =
      overflowed id h (.announce s) + (h.announce s).pending id := by
  cases hleft : h.hasLeft id with
  | false =>
    obtain ⟨n, hm⟩ := hasLeft_eq_false_iff.1 hleft
    simp only [announced, hleft, overflowed, pending, box?_announce, hm, Option.map_some]
    by_cases hn : n < h.bulletin.boxSize
    · simp [Bulletin.ping, Bulletin.isFull, hn, Nat.not_le_of_lt hn, Nat.add_comm]
    · simp [Bulletin.ping, Bulletin.isFull, hn, Nat.le_of_not_lt hn]
  | true =>
    rw [overflowed_announce_of_left hleft]
    simp only [announced, hleft, pending, box?_announce]
    cases hm : h.bulletin.box? id with
    | none => rfl
    | some m => simp [Bulletin.ping, hasLeft_eq_true_iff.1 hleft m hm]

theorem pending_readPing (h : Hub) (i id : Nat) :
    h.pending id = consumed id h (.read i) + (h.readPing i).2.pending id := by
  have hread := Courier.readPing_fst h i
  simp only [consumed, pending, box?_readPing]
  cases hm : h.bulletin.box? id with
  | none =>
    by_cases hi : i = id
    · subst hi; simp [hread, hm]
    · simp [hi]
  | some m =>
    by_cases hi : i = id
    · subst hi
      rw [hm] at hread
      by_cases hz : m.pending = 0
      · cases ha : m.attached <;> simp [hread, hz, ha]
      · simp [hread, hz]; omega
    · simp [hi, Ne.symm hi]

/-- What one dealing does to the balance of a subscriber. -/
theorem announced_add_pending (hb : h.bulletin.Sound) (id : Nat) (d : Dealing) :
    announced id h d + h.pending id =
      consumed id h d + ((h.deal d).pending id + lost id h d) + overflowed id h d := by
  cases d with
  | announce s =>
    have hsent := h.pending_announce s id
    simp only [consumed, lost, deal]
    omega
  | subscribe =>
    have hbox : h.subscribe.2.pending id = h.pending id := by
      rw [pending, box?_subscribe hb, pending]
      by_cases hid : id = h.bulletin.nextId
      · rw [if_pos hid, Bulletin.box?_eq_none_of_le hb (Nat.le_of_eq hid.symm)]
      · rw [if_neg hid]
    simp [announced, consumed, overflowed, lost, deal, hbox]
  | read i =>
    have hread := h.pending_readPing i id
    simp only [announced, overflowed, lost, deal]
    omega
  | unsubscribe i =>
    have hbox : (h.unsubscribe i).pending id = h.pending id := by
      rw [pending, box?_unsubscribe, pending]
      cases h.bulletin.box? id with
      | none => rfl
      | some m => simp only [Option.map_some]; split <;> rfl
    simp [announced, consumed, overflowed, lost, deal, hbox]
  | discard i =>
    have hbox : h.pending id = (h.discard i).pending id + lost id h (.discard i) := by
      by_cases hi : id = i
      · simp [lost, pending, box?_discard, hi]
      · simp [lost, pending, box?_discard, hi, Ne.symm hi]
    simp only [announced, consumed, overflowed, deal]
    omega

/-- What dealings do to the balance of a subscriber. -/
theorem total_announced_add_pending (hb : h.bulletin.Keyed) (id : Nat) (ds : List Dealing) :
    h.total (announced id) ds + h.pending id =
      h.total (consumed id) ds + ((h.dealAll ds).pending id + h.total (lost id) ds) +
        h.total (overflowed id) ds := by
  induction ds generalizing h with
  | nil => simp [total, dealAll]
  | cons d ds ih =>
    have hone := announced_add_pending hb.sound id d
    have hrest := ih (keyed_deal hb d)
    rw [dealAll_cons]
    simp only [total]
    omega

theorem pending_le_deal (hb : h.bulletin.Sound) (hle : h.pending id ≤ h.bulletin.boxSize)
    (d : Dealing) : (h.deal d).pending id ≤ h.bulletin.boxSize := by
  have hsame : ∀ d, announced id h d = 0 → (h.deal d).pending id ≤ h.bulletin.boxSize := by
    intro d hd
    have hone := announced_add_pending hb id d
    omega
  cases d with
  | subscribe | read | unsubscribe | discard => exact hsame _ rfl
  | announce s =>
    rw [deal, pending, box?_announce]
    rw [pending] at hle
    cases hm : h.bulletin.box? id with
    | none => exact Nat.zero_le _
    | some m =>
      rw [hm] at hle
      simp only [Option.map_some, Bulletin.ping]
      split
      · rename_i hroom
        simp only [Bool.and_eq_true, decide_eq_true_eq] at hroom
        exact hroom.2
      · exact hle

theorem pending_le_dealAll (hb : h.bulletin.Keyed) (hle : h.pending id ≤ h.bulletin.boxSize)
    (ds : List Dealing) : (h.dealAll ds).pending id ≤ h.bulletin.boxSize := by
  induction ds generalizing h with
  | nil => exact hle
  | cons d ds ih =>
    have hstep := pending_le_deal hb.sound hle d
    rw [← h.boxSize_deal d] at hstep ⊢
    exact ih (keyed_deal hb d) hstep

/-! ## Empty mailboxes -/

/-- Pings do not vanish from a mailbox that is not given up. -/
theorem consumed_pos (hb : h.bulletin.Keyed) (hpos : 0 < h.pending id) (ds : List Dealing)
    (hleft : (h.dealAll ds).bulletin.box? id ≠ none) (hempty : (h.dealAll ds).pending id = 0) :
    0 < h.total (consumed id) ds := by
  induction ds generalizing h with
  | nil =>
    rw [show h.dealAll [] = h from rfl] at hempty
    omega
  | cons d ds ih =>
    rw [dealAll_cons] at hleft hempty
    have hthere : ∃ m, h.bulletin.box? id = some m := by
      rw [pending] at hpos
      cases hm : h.bulletin.box? id with
      | none => rw [hm] at hpos; exact absurd hpos (Nat.lt_irrefl 0)
      | some m => exact ⟨m, rfl⟩
    obtain ⟨m, hm⟩ := hthere
    have hkept : lost id h d = 0 := by
      cases d with
      | discard i =>
        refine if_neg fun hi => hleft ?_
        subst hi
        have hid := Bulletin.lt_nextId_of_box? hb.sound hm
        refine box?_dealAll_eq_none (keyed_deal hb _)
          (Nat.lt_of_lt_of_le hid (h.nextId_le_deal _)) ?_ ds
        rw [deal, box?_discard, if_pos rfl]
      | announce | subscribe | read | unsubscribe => rfl
    have hone := announced_add_pending hb.sound id d
    have hover := overflowed_le_announced id h d
    rw [total]
    by_cases hread : consumed id h d = 0
    · have hrest := ih (keyed_deal hb d) (by omega) hleft hempty
      omega
    · omega

/-- After it has left, a subscriber gets no ping, and those that wait are there for it to read. -/
theorem pending_of_left (hb : h.bulletin.Keyed) {m m' : Mailbox}
    (hm : h.bulletin.box? id = some m) (hleft : m.attached = false) (ds : List Dealing)
    (hm' : (h.dealAll ds).bulletin.box? id = some m') :
    m'.attached = false ∧ m.pending = h.total (consumed id) ds + m'.pending := by
  induction ds generalizing h m with
  | nil =>
    rw [show h.dealAll [] = h from rfl, hm] at hm'
    cases hm'
    exact ⟨hleft, (Nat.zero_add _).symm⟩
  | cons d ds ih =>
    rw [dealAll_cons] at hm'
    have hd : d ≠ .discard id := by
      rintro rfl
      have hid := Bulletin.lt_nextId_of_box? hb.sound hm
      rw [box?_dealAll_eq_none (keyed_deal hb _) (Nat.lt_of_lt_of_le hid (h.nextId_le_deal _))
        (by rw [deal, box?_discard, if_pos rfl])] at hm'
      cases hm'
    obtain ⟨m₁, hm₁, hleft₁⟩ := box?_deal hb.sound hm hd
    obtain ⟨hattached, hrest⟩ := ih (keyed_deal hb d) hm₁ (hleft₁ hleft) hm'
    refine ⟨hattached, ?_⟩
    have hone := announced_add_pending hb.sound id d
    have hover := overflowed_le_announced id h d
    have hsilent : announced id h d = 0 := by
      cases d with
      | announce s => simp [announced, hasLeft, hm, hleft]
      | subscribe | read | unsubscribe | discard => rfl
    have hkept : lost id h d = 0 := by
      cases d with
      | discard i => exact if_neg fun hi => hd (congrArg Dealing.discard hi)
      | announce | subscribe | read | unsubscribe => rfl
    rw [show h.pending id = m.pending by rw [pending, hm],
      show (h.deal d).pending id = m₁.pending by rw [pending, hm₁]] at hone
    rw [total]
    omega

/-! ## Dropped pings -/

/-- Full mailboxes, counted one by one or by number. -/
theorem countP_eq_sum (p : Mailbox → Bool) : ∀ {boxes : List (Nat × Mailbox)},
    (boxes.map (·.1)).Nodup → (∀ e ∈ boxes, e.1 < n) →
    boxes.countP (fun e => p e.2) =
      ∑ id ∈ Finset.range n, if (boxes.lookup id).any p then 1 else 0
  | [], _, _ => by simp
  | (k, m) :: boxes, hnodup, hlt => by
    rw [List.map_cons, List.nodup_cons] at hnodup
    have hrest := countP_eq_sum p hnodup.2 fun e he => hlt e (List.mem_cons_of_mem _ he)
    have hk : k ∈ Finset.range n := Finset.mem_range.2 (hlt (k, m) List.mem_cons_self)
    have hfresh : boxes.lookup k = none := by
      rw [List.lookup_eq_none_iff]
      intro e he
      have hne : k ≠ e.1 := fun h => hnodup.1 (List.mem_map.2 ⟨e, he, h.symm⟩)
      simpa using hne
    have hsplit : ∀ id, (if (((k, m) :: boxes).lookup id).any p then 1 else 0) =
        (if id = k then (if p m then 1 else 0) else 0) +
          if (boxes.lookup id).any p then 1 else 0 := by
      intro id
      rw [List.lookup_cons]
      by_cases hid : id = k
      · subst hid; simp [hfresh]
      · simp [hid, beq_eq_false_iff_ne.2 hid]
    simp only [List.countP_cons, hrest, hsplit, Finset.sum_add_distrib, Finset.sum_ite_eq', hk,
      if_true]
    exact Nat.add_comm _ _

/-- The pings dropped by one dealing, by subscriber. -/
theorem overflows_eq_sum (hb : h.bulletin.Keyed) (d : Dealing) (hn : h.bulletin.nextId ≤ n) :
    (h.deal d).tally.droppedPings =
      h.tally.droppedPings + ∑ id ∈ Finset.range n, overflowed id h d := by
  cases d with
  | announce s =>
    exact congrArg (h.tally.droppedPings + ·) (countP_eq_sum h.bulletin.isFull hb.nodup
      fun e he => Nat.lt_of_lt_of_le (hb.sound.lt_nextId e he) hn)
  | subscribe | read =>
    simp only [overflowed, Finset.sum_const_zero]
    rfl
  | unsubscribe id =>
    simp only [overflowed, Finset.sum_const_zero, deal, unsubscribe]
    split <;> rfl
  | discard id =>
    simp only [overflowed, Finset.sum_const_zero, deal, discard, unsubscribe]
    split <;> rfl

theorem total_overflows_eq_sum (hb : h.bulletin.Keyed) (ds : List Dealing)
    (hn : (h.dealAll ds).bulletin.nextId ≤ n) :
    (h.dealAll ds).tally.droppedPings =
      h.tally.droppedPings + ∑ id ∈ Finset.range n, h.total (overflowed id) ds := by
  induction ds generalizing h with
  | nil => simp [total, dealAll]
  | cons d ds ih =>
    have hle : h.bulletin.nextId ≤ n := Nat.le_trans (h.nextId_le_dealAll (d :: ds)) hn
    have hrest := ih (keyed_deal hb d) hn
    simp only [total, Finset.sum_add_distrib]
    rw [dealAll_cons, hrest, overflows_eq_sum hb d hle, Nat.add_assoc]

/-- After any dealings at a hub whose mailboxes hold so many pings: the records announced to a
subscriber are the pings that it read, those in its mailbox, now or when it was given up, and those
dropped since the mailbox was full. No mailbox holds more than it can, and the tally shows how many
pings were dropped for all subscribers together. If the mailbox of a subscriber is empty, it has
read a ping since each record that was announced while it subscribed. Once it has left it gets no
ping; those that wait can still be read, and only then does it hear that there will be no more. -/
theorem pings_accounted_for (storage : StorageSettings) (size : Nat) (ds : List Dealing) :
    let h₀ := withBulletin storage (.empty size)
    let h := h₀.dealAll ds
    (∀ id, h₀.total (announced id) ds =
      h₀.total (consumed id) ds + (h.pending id + h₀.total (lost id) ds) +
        h₀.total (overflowed id) ds) ∧
    (∀ id, h.pending id ≤ max size 1) ∧
    h.tally.droppedPings =
      ∑ id ∈ Finset.range h.bulletin.nextId, h₀.total (overflowed id) ds ∧
    (∀ id pre s post, ds = pre ++ .announce s :: post → (h₀.dealAll pre).hasLeft id = false →
      h.hasLeft id = false → h.pending id = 0 →
      0 < (h₀.dealAll (pre ++ [.announce s])).total (consumed id) post) ∧
    (∀ id, h.bulletin.box? id ≠ none → ∀ more,
      let h₁ := h.deal (.unsubscribe id)
      let h₂ := h₁.dealAll more
      h₂.bulletin.box? id ≠ none →
      h₂.hasLeft id ∧ h.pending id = h₁.total (consumed id) more + h₂.pending id) ∧
    ∀ id, h.bulletin.box? id ≠ none →
      ((h.readPing id).1 = .pinged ↔ 0 < h.pending id) ∧
      ((h.readPing id).1 = .over ↔ h.hasLeft id ∧ h.pending id = 0) := by
  intro h₀ h
  have hb₀ : h₀.bulletin.Keyed := Bulletin.keyed_empty size
  have hb : h.bulletin.Keyed := keyed_dealAll hb₀ ds
  have hzero : ∀ id, h₀.pending id = 0 := fun _ => rfl
  refine ⟨fun id => ?_, fun id => ?_, ?_, ?_, ?_, ?_⟩
  · have hall := total_announced_add_pending hb₀ id ds
    rwa [hzero, Nat.add_zero] at hall
  · exact pending_le_dealAll hb₀ (Nat.zero_le _) ds
  · exact (total_overflows_eq_sum hb₀ ds (Nat.le_refl _)).trans (Nat.zero_add _)
  · intro id pre s post hds hsubscribed hstays hempty
    have hpre : (h₀.dealAll pre).bulletin.Keyed := keyed_dealAll hb₀ pre
    obtain ⟨k, hk⟩ := hasLeft_eq_false_iff.1 hsubscribed
    obtain ⟨j, hj, hping⟩ := Bulletin.ping_eq hpre.sound k
    have hend : h = (h₀.dealAll (pre ++ [.announce s])).dealAll post := by
      rw [← dealAll_append, List.append_assoc]
      exact congrArg _ hds
    have hpos : 0 < (h₀.dealAll (pre ++ [.announce s])).pending id := by
      rw [dealAll_append, pending]
      show 0 < match ((h₀.dealAll pre).announce s).bulletin.box? id with
        | some m => m.pending
        | none => 0
      rw [box?_announce, hk, Option.map_some, hping]
      exact hj
    rw [hend] at hempty hstays
    refine consumed_pos (keyed_dealAll hb₀ _) hpos post (fun hnone => ?_) hempty
    obtain ⟨i, hi⟩ := hasLeft_eq_false_iff.1 hstays
    rw [hnone] at hi
    cases hi
  · intro id hthere more h₁ h₂ hthere₂
    obtain ⟨m, hm⟩ := Option.ne_none_iff_exists'.1 hthere
    obtain ⟨m₂, hm₂⟩ := Option.ne_none_iff_exists'.1 hthere₂
    have hm₁ : h₁.bulletin.box? id = some { m with attached := false } := by
      show (h.unsubscribe id).bulletin.box? id = _
      rw [box?_unsubscribe, hm, Option.map_some, if_pos rfl]
    obtain ⟨hattached, hpending⟩ := pending_of_left (keyed_deal hb _) hm₁ rfl more hm₂
    refine ⟨by rw [hasLeft, hm₂]; simp [hattached], ?_⟩
    rw [pending, hm, pending, hm₂]
    exact hpending
  · intro id hthere
    obtain ⟨m, hm⟩ := Option.ne_none_iff_exists'.1 hthere
    rw [Courier.readPing_fst, pending, hasLeft, hm]
    by_cases hz : m.pending = 0
    · cases ha : m.attached <;> simp [hz, ha]
    · simp [hz, Nat.pos_of_ne_zero hz]

example :
    let h₀ := withBulletin {} (.empty 1)
    let ds := [.subscribe, .announce .logs, .announce .logs, .read 1, .announce .traces,
      .unsubscribe 1, .announce .logs]
    h₀.total (announced 1) ds = 3 ∧ h₀.total (consumed 1) ds = 1 ∧ (h₀.dealAll ds).pending 1 = 1 ∧
      h₀.total (overflowed 1) ds = 1 := by decide

end Hub

end SignalHub
