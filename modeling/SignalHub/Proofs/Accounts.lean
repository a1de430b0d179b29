import SignalHub.Proofs.Answers
/-!
# The books of a hub

A hub counts the same things in several places: the archives count what they hold and what they
evicted, the bulletin counts what was accepted and who subscribes, and the tally counts all of it
once more for whoever watches the hub, together with the queries. Whatever is done at the hub, the
books agree with each other and with what was done.

Results:
* `Bulletin.count_discard_of_left`: whoever has left is not counted when its mailbox is removed.
* `Hub.Balanced`: what the bulletin and the tally should show.
* `Hub.Balanced.record`, `Hub.Balanced.becomes`, `Hub.Balanced.ask`: what each step adds to it.
* `World.balanced_play`: the books after any acts.
* `World.books_agree`: so all of them agree.
-/
namespace SignalHub

/-! ## Subscribers -/

theorem lookup_of_mem {β : Type} {e : Nat × β} : ∀ {l : List (Nat × β)}, (l.map (·.1)).Nodup →
    e ∈ l → l.lookup e.1 = some e.2
  | a :: l, hnodup, hmem => by
    rw [List.map_cons, List.nodup_cons] at hnodup
    rcases List.mem_cons.1 hmem with rfl | hmem
    · rw [List.lookup_cons, beq_self_eq_true]
    · have hne : e.1 ≠ a.1 := fun h => hnodup.1 (h ▸ List.mem_map_of_mem hmem)
      rw [List.lookup_cons, beq_eq_false_iff_ne.2 hne]
      exact lookup_of_mem hnodup.2 hmem

namespace Bulletin

variable {b : Bulletin}

/-- The numbers of all mailboxes. -/
def ids (b : Bulletin) : List Nat := b.boxes.map (·.1)

/-- The bulletin is sound and no two mailboxes have the same number. -/
structure Keyed (b : Bulletin) : Prop where
  sound : b.Sound
  nodup : b.ids.Nodup

theorem keyed_empty (n : Nat) : (empty n).Keyed := ⟨sound_empty n, List.nodup_nil⟩

@[simp] theorem ids_accept (b : Bulletin) (s : Signal) : (b.accept s).ids = b.ids := by
  simp only [ids, accept, List.map_map, Function.comp_def]

@[simp] theorem ids_modifyBox (b : Bulletin) (id : Nat) (f : Mailbox → Mailbox) :
    (b.modifyBox id f).ids = b.ids := by
  rw [ids, modifyBox_boxes]
  simp only [ids, List.map_map, Function.comp_def]

theorem Keyed.accept (hb : b.Keyed) (s : Signal) : (b.accept s).Keyed :=
  ⟨hb.sound.accept s, by rw [ids_accept]; exact hb.nodup⟩

theorem Keyed.modifyBox (hb : b.Keyed) (id : Nat) (f : Mailbox → Mailbox) :
    (b.modifyBox id f).Keyed :=
  ⟨hb.sound.modifyBox id f, by rw [ids_modifyBox]; exact hb.nodup⟩

theorem Keyed.subscribe (hb : b.Keyed) : b.subscribe.Keyed := by
  refine ⟨hb.sound.subscribe, ?_⟩
  have hids : b.subscribe.ids = b.ids ++ [b.nextId] := by simp [ids, Bulletin.subscribe]
  rw [hids, List.nodup_append]
  refine ⟨hb.nodup, by simp, fun i hi j hj => ?_⟩
  obtain ⟨e, he, rfl⟩ := List.mem_map.1 hi
  rw [List.mem_singleton.1 hj]
  exact Nat.ne_of_lt (hb.sound.lt_nextId e he)

theorem Keyed.discard (hb : b.Keyed) (id : Nat) : (b.discard id).Keyed :=
  ⟨hb.sound.discard id, (List.filter_sublist.map _).nodup hb.nodup⟩

theorem Keyed.read (hb : b.Keyed) (id : Nat) : (b.read id).2.Keyed := by
  rcases b.read_cases id with ⟨he, -⟩ | he
  · rw [he]
    exact hb
  · rw [he]
    exact hb.modifyBox id _

theorem count_eq (b : Bulletin) : b.count = b.boxes.countP (·.2.attached) := by
  rw [count, subscribers, List.countP_eq_length_filter]

/-- The count stays as long as nobody comes or leaves. -/
theorem count_congr {b' : Bulletin} {g : Nat × Mailbox → Mailbox}
    (hboxes : b'.boxes = b.boxes.map fun e => (e.1, g e))
    (hg : ∀ e, (g e).attached = e.2.attached) : b'.count = b.count := by
  rw [count_eq, count_eq, hboxes, List.countP_map]
  exact List.countP_congr fun e _ => by simp [hg e]

theorem count_accept (b : Bulletin) (s : Signal) : (b.accept s).count = b.count := by
  refine count_congr (g := fun e => b.ping e.2) rfl fun e => ?_
  rw [ping]
  split <;> rfl

theorem count_read (b : Bulletin) (id : Nat) : (b.read id).2.count = b.count := by
  rcases b.read_cases id with ⟨he, -⟩ | he
  · rw [he]
  · rw [he]
    refine count_congr (modifyBox_boxes _ _ _) fun e => ?_
    split <;> rfl

/-- Removing mailboxes of which no owner subscribes leaves the count as it is. -/
theorem count_discard {id : Nat} (hleft : ∀ e ∈ b.boxes, e.1 = id → e.2.attached = false) :
    (b.discard id).count = b.count := by
  rw [count_eq, count_eq, discard, List.countP_filter]
  refine List.countP_congr fun e he => ?_
  rw [Bool.and_eq_true, decide_eq_true_iff]
  constructor
  · exact fun h => h.1
  · intro hattached
    refine ⟨hattached, fun hid => ?_⟩
    rw [hleft e he hid] at hattached
    cases hattached

/-- The mailbox that is found is the only one of its number. -/
theorem Keyed.box?_of_mem (hb : b.Keyed) {e : Nat × Mailbox} (he : e ∈ b.boxes) :
    b.box? e.1 = some e.2 := lookup_of_mem hb.nodup he

theorem count_discard_of_left (hb : b.Keyed) {id : Nat}
    (hleft : ∀ m, b.box? id = some m → m.attached = false) :
    (b.discard id).count = b.count := by
  refine count_discard fun e he hid => hleft e.2 ?_
  rw [← hid]
  exact hb.box?_of_mem he

theorem count_discard_unsubscribe (b : Bulletin) (id : Nat) :
    ((b.unsubscribe id).discard id).count = (b.unsubscribe id).count := by
  refine count_discard fun e he hid => ?_
  rw [unsubscribe, modifyBox_boxes] at he
  obtain ⟨e', -, rfl⟩ := List.mem_map.1 he
  simp only [if_pos hid]

end Bulletin

@[simp] theorem PerSignal.get_modify {α : Type} (p : PerSignal α) (s t : Signal) (f : α → α) :
    (p.modify s f).get t = if t = s then f (p.get t) else p.get t := by
  rw [modify, get_set]
  split
  · rename_i h
    rw [h]
  · rfl

/-- The signals that a query is about. -/
def Signal.among : Option Signal → List Signal
  | none => [.traces, .logs, .metrics]
  | some s => [s]

theorem Signal.count_among (about : Option Signal) (s : Signal) :
    (Signal.among about).count s = (about.all (· == s)).toNat := by
  cases about with
  | none => cases s <;> rfl
  | some a => cases a <;> cases s <;> rfl

/-- Whether a query scans the archive of a signal, after these records: it is valid and about that
signal, its filter can match the kind of record, and there was a record of its service. -/
def Filter.scans (f : Filter) (about : Option Signal) (s : Signal) (rs : List Record) : Bool :=
  f.validate.isOk && about.all (· == s) && f.reaches s rs

/-! ## The books -/

namespace Hub

/-- What the bulletin and the tally should show after these records, so many rejected queries, and
so many scans of each archive. -/
structure Balanced (h : Hub) (rs : List Record) (rejected : Nat) (scans : Signal → Nat) : Prop where
  keyed : h.bulletin.Keyed
  generation_eq : h.bulletin.generation = rs.length
  received_eq : ∀ s, h.bulletin.received.get s = (Record.ofSignal s rs).length
  records_eq : ∀ s, h.tally.records.get s = (Record.ofSignal s rs).length
  evictions_eq : ∀ s, h.tally.evictions.get s = (h.stats s).evicted
  scans_eq : ∀ s, h.tally.scans.get s = scans s
  rejected_eq : h.tally.rejectedQueries = rejected
  /-- A gauge that was never set counts as zero. -/
  subscribers_eq : h.tally.subscribers.getD 0 = h.bulletin.count

variable {h : Hub} {rs : List Record} {rejected : Nat} {scans : Signal → Nat}

theorem balanced_empty (storage : StorageSettings) :
    (empty storage).Balanced [] 0 fun _ => 0 where
  keyed := Bulletin.keyed_empty _
  generation_eq := rfl
  received_eq s := by cases s <;> rfl
  records_eq s := by cases s <;> rfl
  evictions_eq s := by cases s <;> rfl
  scans_eq s := by cases s <;> rfl
  rejected_eq := rfl
  subscribers_eq := rfl

/-! ### Records -/

theorem tally_store (h : Hub) (r : Record) : (h.store r).tally = h.tally := by cases r <;> rfl

/-- What a record adds to the tally. -/
theorem tally_record (h : Hub) (r : Record) : (h.record r).2.tally =
    { h.tally with
      records := h.tally.records.modify r.signal (· + 1)
      evictions :=
        if h.isFull r.signal then h.tally.evictions.modify r.signal (· + 1)
        else h.tally.evictions
      droppedPings := h.tally.droppedPings + h.bulletin.drops } := by
  simp only [record, announce]
  split <;>
    simp only [tally_store, bulletin_store, Tally.addRecord, Tally.addDropped, Tally.addEviction]

theorem evicted_record (h : Hub) (r : Record) (s : Signal) :
    ((h.record r).2.stats s).evicted =
      (h.stats s).evicted + if s = r.signal ∧ h.isFull s then 1 else 0 := by
  rw [(agree_record h r).stats_eq]
  cases r <;> cases s <;>
    simp [store, stats, isFull, Archive.stats, Archive.add, Record.signal, Window.evicted_append]

theorem length_ofSignal_concat (s : Signal) (rs : List Record) (r : Record) :
    (Record.ofSignal s (rs ++ [r])).length =
      (Record.ofSignal s rs).length + if s = r.signal then 1 else 0 := by
  rw [Record.ofSignal_append, List.length_append]
  by_cases hr : s = r.signal
  · simp [Record.ofSignal, hr]
  · simp [Record.ofSignal, hr, Ne.symm hr]

theorem Balanced.record (hh : h.Balanced rs rejected scans) (r : Record) :
    (h.record r).2.Balanced (rs ++ [r]) rejected scans := by
  have hbulletin := bulletin_record h r
  have htally := tally_record h r
  constructor
  case keyed =>
    rw [hbulletin]
    exact hh.keyed.accept _
  case generation_eq =>
    rw [generation_record, hh.generation_eq, List.length_append, List.length_singleton]
  case received_eq =>
    intro s
    rw [hbulletin, length_ofSignal_concat, ← hh.received_eq s]
    simp only [Bulletin.accept, PerSignal.get_modify]
    split <;> rfl
  case records_eq =>
    intro s
    rw [htally, length_ofSignal_concat, ← hh.records_eq s]
    simp only [PerSignal.get_modify]
    split <;> rfl
  case evictions_eq =>
    intro s
    rw [htally, evicted_record, ← hh.evictions_eq s]
    by_cases hfull : h.isFull r.signal
    · by_cases hs : s = r.signal
      · simp [hs, hfull]
      · simp [hs, hfull]
    · rw [if_neg hfull, if_neg, Nat.add_zero]
      rintro ⟨rfl, hs⟩
      exact hfull hs
  case scans_eq =>
    rw [htally]
    exact hh.scans_eq
  case rejected_eq =>
    rw [htally]
    exact hh.rejected_eq
  case subscribers_eq =>
    rw [htally, hbulletin, Bulletin.count_accept]
    exact hh.subscribers_eq

/-! ### Subscriptions -/

/-- Only who subscribes may change, and the gauge with it. -/
theorem Balanced.frame (hh : h.Balanced rs rejected scans) {h' : Hub} (ha : h.Agree h')
    (hkeyed : h'.bulletin.Keyed) (hgeneration : h'.bulletin.generation = h.bulletin.generation)
    (hreceived : h'.bulletin.received = h.bulletin.received)
    (htally : ∃ n, h'.tally = { h.tally with subscribers := n } ∧ n.getD 0 = h'.bulletin.count) :
    h'.Balanced rs rejected scans := by
  obtain ⟨n, htally, hcount⟩ := htally
  refine ⟨hkeyed, hgeneration.trans hh.generation_eq, ?_, ?_, ?_, ?_, ?_, ?_⟩
  · rw [hreceived]
    exact hh.received_eq
  · rw [htally]
    exact hh.records_eq
  · intro s
    rw [htally, ha.stats_eq]
    exact hh.evictions_eq s
  · rw [htally]
    exact hh.scans_eq
  · rw [htally]
    exact hh.rejected_eq
  · rw [htally]
    exact hcount

theorem Balanced.subscribe (hh : h.Balanced rs rejected scans) :
    h.subscribe.2.Balanced rs rejected scans :=
  hh.frame h.agree_subscribe hh.keyed.subscribe rfl rfl
    ⟨some h.subscribe.2.bulletin.count, rfl, rfl⟩

theorem Balanced.discard (hh : h.Balanced rs rejected scans) (id : Nat) :
    (h.discard id).Balanced rs rejected scans := by
  have hagree := h.agree_discard id
  by_cases hleft : h.hasLeft id
  · -- Nothing is published, since the one who left before was not counted any more.
    have hsame : h.discard id = { h with bulletin := h.bulletin.discard id } := by
      simp only [Hub.discard, unsubscribe, if_pos hleft]
    have hcount : (h.bulletin.discard id).count = h.bulletin.count := by
      refine Bulletin.count_discard_of_left hh.keyed fun m hm => ?_
      simpa [hasLeft, hm] using hleft
    rw [hsame] at hagree ⊢
    refine hh.frame hagree (hh.keyed.discard id) rfl rfl ⟨h.tally.subscribers, rfl, ?_⟩
    rw [hh.subscribers_eq]
    exact hcount.symm
  · have hleaves : h.discard id =
        { h with
          bulletin := (h.bulletin.unsubscribe id).discard id
          tally := h.tally.setSubscribers (h.bulletin.unsubscribe id).count } := by
      simp only [Hub.discard, unsubscribe, if_neg hleft, countSubscribers]
    have hcount := h.bulletin.count_discard_unsubscribe id
    rw [hleaves] at hagree ⊢
    refine hh.frame hagree ((hh.keyed.modifyBox id _).discard id) rfl rfl ⟨_, rfl, ?_⟩
    exact hcount.symm

theorem Balanced.readPing (hh : h.Balanced rs rejected scans) (id : Nat) :
    (h.readPing id).2.Balanced rs rejected scans := by
  have hcount := h.bulletin.count_read id
  have hsame : (h.bulletin.read id).2.generation = h.bulletin.generation ∧
      (h.bulletin.read id).2.received = h.bulletin.received := by
    rcases h.bulletin.read_cases id with ⟨he, -⟩ | he <;> rw [he] <;> exact ⟨rfl, rfl⟩
  refine hh.frame (h.agree_readPing id) (hh.keyed.read id) hsame.1 hsame.2
    ⟨h.tally.subscribers, rfl, ?_⟩
  rw [hh.subscribers_eq]
  exact hcount.symm

theorem Balanced.becomes (hh : h.Balanced rs rejected scans) {new : List Record} {h' : Hub}
    (hb : h.Becomes new h') : h'.Balanced (rs ++ new) rejected scans :=
  hb.preserves (P := fun h rs => h.Balanced rs rejected scans)
    Balanced.record Balanced.subscribe Balanced.discard Balanced.readPing hh

/-! ### Queries -/

/-- Counts the scan of the archive of a signal, if there is one. -/
def note (h : Hub) (f : Filter) (t : Tally) (s : Signal) : Tally :=
  if h.reads s f then t.addScan s else t

/-- A query counts its scans if its filter is valid, and else its rejection. -/
theorem ask_eq (h : Hub) (about : Option Signal) (f : Filter) : h.ask about f =
    if f.validate.isOk then { h with tally := (Signal.among about).foldl (h.note f) h.tally }
    else h.reject := by
  have hsearch {ρ : Type} (run : Nat → ρ) (count : Tally → Tally) :
      (h.search f run count).2 =
        if f.validate.isOk then { h with tally := count h.tally } else h.reject := by
    rw [search]
    cases f.validate <;> rfl
  cases about with
  | none => exact hsearch _ _
  | some s => cases s <;> exact hsearch _ _

theorem foldl_note (h : Hub) (f : Filter) (ss : List Signal) (t : Tally) :
    ∃ scans, ss.foldl (h.note f) t = { t with scans := scans } ∧
      ∀ s, scans.get s = t.scans.get s + if h.reads s f then ss.count s else 0 := by
  induction ss generalizing t with
  | nil => exact ⟨t.scans, rfl, fun s => by simp⟩
  | cons a ss ih =>
    obtain ⟨scans, hfold, hget⟩ := ih (h.note f t a)
    -- Counting changes no archive, so what is read does not depend on what was counted before.
    refine ⟨scans, ?_, fun s => ?_⟩
    · rw [List.foldl_cons, hfold, note]
      split <;> rfl
    · rw [hget s, note, List.count_cons]
      by_cases has : s = a
      · subst has
        by_cases hreads : h.reads s f
        · simp [hreads, Tally.addScan]
          omega
        · simp [hreads]
      · have hne : (a == s) = false := beq_eq_false_iff_ne.2 (Ne.symm has)
        rw [hne]
        split <;> simp [Tally.addScan, has]

theorem Balanced.ask (hh : h.Balanced rs rejected scans) (hi : h.Indexes rs)
    (about : Option Signal) (f : Filter) :
    (h.ask about f).Balanced rs (rejected + (!f.validate.isOk).toNat)
      fun s => scans s + (f.scans about s rs).toNat := by
  rw [ask_eq]
  by_cases hvalid : f.validate.isOk
  · obtain ⟨counts, hfold, hget⟩ := h.foldl_note f (Signal.among about) h.tally
    rw [if_pos hvalid, hfold]
    refine ⟨hh.keyed, hh.generation_eq, hh.received_eq, hh.records_eq, ?_, fun s => ?_, ?_,
      hh.subscribers_eq⟩
    · exact fun s => (hh.evictions_eq s).trans (by cases s <;> rfl)
    · rw [hget s, hh.scans_eq s, hi.reads_eq, Signal.count_among, Filter.scans, hvalid]
      cases f.reaches s rs <;> cases about.all (· == s) <;> rfl
    · rw [hvalid]
      exact hh.rejected_eq
  · have hinvalid : f.validate.isOk = false := by simpa using hvalid
    rw [if_neg hvalid]
    refine ⟨hh.keyed, hh.generation_eq, hh.received_eq, hh.records_eq, ?_, fun s => ?_, ?_,
      hh.subscribers_eq⟩
    · exact fun s => (hh.evictions_eq s).trans (by cases s <;> rfl)
    · rw [Filter.scans, hinvalid]
      exact hh.scans_eq s
    · rw [hinvalid]
      exact congrArg (· + 1) hh.rejected_eq

end Hub

/-! ## Acts -/

namespace Act

/-- Whether an act is a query that is rejected. -/
def isRejected (a : Act) : Bool := a.query?.any fun q => !q.2.validate.isOk

/-- Whether an act is a query that scans the archive of a signal, after these records. -/
def scans (s : Signal) (rs : List Record) (a : Act) : Bool :=
  a.query?.any fun q => q.2.scans q.1 s rs

/-- How many of the acts scan the archive of a signal, if these records were accepted before. -/
def scanCount (s : Signal) : List Record → List Act → Nat
  | _, [] => 0
  | rs, a :: acts => (a.scans s rs).toNat + scanCount s (rs ++ a.accepts) acts

end Act

namespace World

variable {w : World} {rs : List Record} {rejected : Nat} {scans : Signal → Nat}

theorem balanced_act (hw : w.hub.Balanced rs rejected scans) (hi : w.hub.Indexes rs) (a : Act) :
    (w.act a).hub.Balanced (rs ++ a.accepts) (rejected + a.isRejected.toNat)
      fun s => scans s + (a.scans s rs).toNat := by
  rcases w.hub_act a with ⟨about, f, rfl, hasked⟩ | ⟨hquery, hbecomes⟩
  · rw [hasked, Act.accepts, List.append_nil]
    exact hw.ask hi about f
  · simp only [Act.isRejected, Act.scans, hquery, Option.any_none, Bool.toNat_false, Nat.add_zero]
    exact hw.becomes hbecomes

/-- The books after acts: what was in them before, and what the acts add to them. -/
theorem balanced_play {storage : StorageSettings} (hw : w.hub.Balanced rs rejected scans)
    (hr : w.hub.Remembers storage rs) (acts : List Act) :
    (w.play acts).hub.Balanced (rs ++ acts.flatMap Act.accepts)
      (rejected + acts.countP Act.isRejected) fun s => scans s + Act.scanCount s rs acts := by
  induction acts generalizing w rs rejected scans with
  | nil => simpa [play, Act.scanCount] using hw
  | cons a acts ih =>
    have hrest := ih (balanced_act hw hr.indexes a) (remembers_act hr a)
    have hrejected : rejected + a.isRejected.toNat + acts.countP Act.isRejected =
        rejected + (a :: acts).countP Act.isRejected := by
      rw [List.countP_cons]
      cases a.isRejected <;> simp [Nat.add_comm, Nat.add_left_comm]
    rw [List.append_assoc, ← List.flatMap_cons, hrejected, ← play_cons] at hrest
    simpa only [Act.scanCount, Nat.add_assoc] using hrest

theorem length_eq_sum (rs : List Record) : rs.length = (Record.ofSignal .traces rs).length +
    (Record.ofSignal .logs rs).length + (Record.ofSignal .metrics rs).length := by
  induction rs with
  | nil => rfl
  | cons r rs ih =>
    cases r <;> simp [Record.ofSignal, Record.signal] at ih ⊢ <;> omega

/-- After any acts the books agree: of each signal the bulletin, the archive and the tally count
the same records and evictions; the queries rejected and the scans are counted once each; and the
gauge of subscribers, once it was set, shows how many there are. -/
theorem books_agree (storage : StorageSettings) (stream : StreamSettings) (acts : List Act) :
    let h := ((start storage stream).play acts).hub
    (∀ s,
      h.position s = (Record.ofSignal s (acts.flatMap Act.accepts)).length ∧
      h.bulletin.received.get s = h.position s ∧
      (h.stats s).retained + (h.stats s).evicted = h.position s ∧
      h.tally.records.get s = h.position s ∧
      (h.stats s).retained ≤ (h.stats s).capacity ∧
      (0 < (h.stats s).evicted → (h.stats s).retained = (h.stats s).capacity) ∧
      h.tally.evictions.get s = (h.stats s).evicted ∧
      h.tally.scans.get s = Act.scanCount s [] acts) ∧
    h.bulletin.generation = h.position .traces + h.position .logs + h.position .metrics ∧
    h.tally.rejectedQueries = acts.countP Act.isRejected ∧
    h.tally.subscribers.getD 0 = h.bulletin.count := by
  intro h
  have hremembers := remembers_play (w := start storage stream) (Hub.remembers_empty storage) acts
  have hbalanced := balanced_play (w := start storage stream) (Hub.balanced_empty storage)
    (Hub.remembers_empty storage) acts
  rw [List.nil_append] at hremembers hbalanced
  have hposition := hremembers.holds.position_eq
  refine ⟨fun s => ?_, ?_, ?_, hbalanced.subscribers_eq⟩
  · have hstats := hremembers.holds.stats_eq s
    have hfigures : (h.stats s).retained + (h.stats s).evicted = h.position s ∧
        (h.stats s).retained ≤ (h.stats s).capacity ∧
        (0 < (h.stats s).evicted → (h.stats s).retained = (h.stats s).capacity) := by
      rw [hstats, hposition s]
      refine ⟨?_, ?_, fun hpos => ?_⟩ <;> simp only at * <;> omega
    obtain ⟨hsum, hle, hfull⟩ := hfigures
    refine ⟨hposition s, ?_, hsum, ?_, hle, hfull, hbalanced.evictions_eq s, ?_⟩
    · rw [hbalanced.received_eq, hposition s]
    · rw [hbalanced.records_eq, hposition s]
    · rw [hbalanced.scans_eq, Nat.zero_add]
  · rw [hbalanced.generation_eq, hposition .traces, hposition .logs, hposition .metrics]
    exact length_eq_sum _
  · rw [hbalanced.rejected_eq, Nat.zero_add]

/-- The service is not known before its first record, so the first query scans nothing. -/
example : Act.scanCount .logs [] [.query none (.ofService ""), .event (.record line),
    .query none (.ofService ""), .query (some .logs) .all, .query (some .traces) .all] = 2 := by
  decide

end World

end SignalHub
