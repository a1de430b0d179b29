import SignalHub.Proofs.Acts
import SignalHub.Proofs.Turn
/-!
# A hub without one of its subscribers

Of two hubs that have met the same but for one subscriber, the one without it has the same archives.
Whoever came later has the number before its own, and there are other figures for dropped pings and
for the number of subscribers.

Results:
* `shift`: the number of somebody in the absence of another one.
* `leaveOut`: lists in that absence.
* `Hub.Lacks`: a hub and the hub without one of its subscribers.
* `Hub.Lacks.answers`: queries are answered alike.
* `Courier.turn_lacks`: a turn goes the same way in both.
-/
namespace SignalHub

/-! ## Numbers and lists -/

/-- The number of somebody in the absence of `b`. -/
def shift (b i : Nat) : Nat := if b < i then i - 1 else i

variable {b i j : Nat}

theorem shift_inj (hi : i ≠ b) (hj : j ≠ b) : shift b i = shift b j ↔ i = j := by
  unfold shift
  split <;> split <;> omega

theorem shift_of_lt (h : i < b) : shift b i = i := if_neg (by omega)

theorem shift_le (b i : Nat) : shift b i ≤ i := by
  unfold shift
  split <;> omega

theorem le_shift (h : b < i) : b ≤ shift b i := by
  rw [shift, if_pos h]
  omega

theorem shift_succ (h : b < i) : shift b (i + 1) = shift b i + 1 := by
  unfold shift
  rw [if_pos h, if_pos (by omega)]
  omega

/-- The list without those of number `b`, and with new numbers for the others. -/
def leaveOut {α : Type} (key : α → Nat) (set : α → α) (b : Nat) (l : List α) : List α :=
  (l.filter fun a => key a ≠ b).map set

section

variable {α : Type} (key : α → Nat) (set : α → α) {l : List α}

theorem leaveOut_append (l l' : List α) :
    leaveOut key set b (l ++ l') = leaveOut key set b l ++ leaveOut key set b l' := by
  simp only [leaveOut, List.filter_append, List.map_append]

theorem leaveOut_concat {a : α} (ha : key a ≠ b) (l : List α) :
    leaveOut key set b (l ++ [a]) = leaveOut key set b l ++ [set a] := by
  rw [leaveOut_append]
  simp [leaveOut, ha]

theorem leaveOut_concat_self {a : α} (ha : key a = b) (l : List α) :
    leaveOut key set b (l ++ [a]) = leaveOut key set b l := by
  rw [leaveOut_append]
  simp [leaveOut, ha]

/-- What is searched for is found if it is not left out. -/
theorem find?_leaveOut {p q : α → Bool} (hout : ∀ a, key a = b → p a = false)
    (hin : ∀ a, key a ≠ b → q (set a) = p a) :
    (leaveOut key set b l).find? q = (l.find? p).map set := by
  have hsame : (fun a => decide (key a ≠ b) && q (set a)) = p := by
    funext a
    by_cases ha : key a = b
    · simp [ha, hout a ha]
    · simp [ha, hin a ha]
  rw [leaveOut, List.find?_map, List.find?_filter, ← hsame]
  simp

theorem leaveOut_map {g k : α → α} (hkey : ∀ a, key (g a) = b ↔ key a = b)
    (hset : ∀ a, key a ≠ b → set (g a) = k (set a)) :
    leaveOut key set b (l.map g) = (leaveOut key set b l).map k := by
  have hsame : ((fun a => decide (key a ≠ b)) ∘ g) = fun a => decide (key a ≠ b) := by
    funext a
    simp [hkey a]
  rw [leaveOut, List.filter_map, hsame, leaveOut, List.map_map, List.map_map]
  refine List.map_congr_left fun a ha => hset a ?_
  simpa using (List.mem_filter.1 ha).2

theorem leaveOut_filter {p q : α → Bool} (hin : ∀ a, key a ≠ b → q (set a) = p a) :
    leaveOut key set b (l.filter p) = (leaveOut key set b l).filter q := by
  rw [leaveOut, leaveOut, List.filter_map, List.filter_filter, List.filter_filter]
  refine congrArg _ (List.filter_congr fun a _ => ?_)
  by_cases ha : key a = b
  · simp [ha]
  · simp [ha, hin a ha]

theorem leaveOut_of_lt (hl : ∀ a ∈ l, key a < b) (hset : ∀ a, key a < b → set a = a) :
    leaveOut key set b l = l := by
  have hall : (l.filter fun a => key a ≠ b) = l := by
    rw [List.filter_eq_self]
    intro a ha
    simpa using Nat.ne_of_lt (hl a ha)
  rw [leaveOut, hall]
  conv => rhs; rw [← List.map_id l]
  exact List.map_congr_left fun a ha => hset a (hl a ha)

variable (hset : ∀ a, key (set a) = shift b (key a))

include hset

/-- Somebody else is found under its new number. -/
theorem find?_key_leaveOut (hi : i ≠ b) :
    (leaveOut key set b l).find? (key · == shift b i) = (l.find? (key · == i)).map set := by
  refine find?_leaveOut key set (fun a ha => ?_) fun a ha => ?_
  · simpa [ha] using Ne.symm hi
  · rw [hset]
    exact decide_eq_decide.2 (shift_inj ha hi)

/-- Somebody else changes. -/
theorem leaveOut_modify {g k : α → α} (hi : i ≠ b) (hkey : ∀ a, key a = i → key (g a) = i)
    (hg : ∀ a, key a = i → set (g a) = k (set a)) :
    leaveOut key set b (l.map fun a => if key a = i then g a else a) =
      (leaveOut key set b l).map fun a => if key a = shift b i then k a else a := by
  refine leaveOut_map key set (fun a => ?_) fun a ha => ?_
  · split
    · rename_i hai
      rw [hkey a hai, hai]
    · rfl
  · rw [hset]
    by_cases hai : key a = i
    · rw [if_pos hai, if_pos (hai ▸ rfl), hg a hai]
    · rw [if_neg hai, if_neg (mt (shift_inj ha hi).1 hai)]

/-- Somebody else goes. -/
theorem leaveOut_filter_ne (hi : i ≠ b) :
    leaveOut key set b (l.filter fun a => key a ≠ i) =
      (leaveOut key set b l).filter fun a => key a ≠ shift b i := by
  refine leaveOut_filter key set fun a ha => ?_
  rw [hset]
  exact decide_eq_decide.2 (not_congr (shift_inj ha hi))

end

section

variable {α : Type} (key : α → Nat) (set : α → α) {l : List α}

/-- Whoever is left out may change. -/
theorem leaveOut_modify_self {g : α → α} (hkey : ∀ a, key a = b → key (g a) = b) :
    leaveOut key set b (l.map fun a => if key a = b then g a else a) = leaveOut key set b l := by
  have hsame := leaveOut_map key set (b := b) (l := l)
    (g := fun a => if key a = b then g a else a) (k := id) (fun a => ?_) fun a ha => ?_
  · rw [hsame, List.map_id]
  · split
    · rename_i hab
      rw [hkey a hab, hab]
    · rfl
  · rw [if_neg ha]
    rfl

/-- Whoever is left out may go. -/
theorem leaveOut_filter_ne_self :
    leaveOut key set b (l.filter fun a => key a ≠ b) = leaveOut key set b l := by
  rw [leaveOut, List.filter_filter, leaveOut]
  simp

end

/-! ## Mailboxes -/

/-- A mailbox under its owner's number in the absence of `b`. -/
def reown (b : Nat) (e : Nat × Mailbox) : Nat × Mailbox := (shift b e.1, e.2)

namespace Bulletin

variable {u : Bulletin}

/-- The bulletin in the absence of one subscriber. -/
def without (b : Nat) (u : Bulletin) : Bulletin :=
  { u with boxes := leaveOut Prod.fst (reown b) b u.boxes, nextId := shift b u.nextId }

theorem box?_without (u : Bulletin) (hi : i ≠ b) :
    (u.without b).box? (shift b i) = u.box? i := by
  have hfind (l : List (Nat × Mailbox)) (k : Nat) :
      l.lookup k = (l.find? (·.1 == k)).map (·.2) := by
    induction l with
    | nil => rfl
    | cons e l ih =>
      rw [List.lookup_cons, List.find?_cons, ih, Bool.beq_comm]
      cases e.1 == k <;> rfl
  rw [box?, box?, hfind, hfind]
  have hbox := find?_key_leaveOut Prod.fst (reown b) (l := u.boxes) (fun _ => rfl) hi
  rw [show (u.without b).boxes = leaveOut Prod.fst (reown b) b u.boxes from rfl, hbox,
    Option.map_map]
  rfl

theorem without_accept (u : Bulletin) (s : Signal) :
    (u.accept s).without b = (u.without b).accept s := by
  have hboxes := leaveOut_map Prod.fst (reown b) (l := u.boxes) (b := b)
    (g := fun e => (e.1, u.ping e.2)) (k := fun e => (e.1, u.ping e.2)) (fun _ => Iff.rfl)
    fun _ _ => rfl
  simp only [without, accept, hboxes]
  rfl

theorem without_subscribe (hb : b < u.nextId) :
    u.subscribe.without b = (u.without b).subscribe := by
  have hboxes := leaveOut_concat Prod.fst (reown b) (a := (u.nextId, ⟨0, true⟩))
    (Nat.ne_of_gt hb) u.boxes
  simp only [without, subscribe, hboxes, shift_succ hb]
  rfl

/-- Before its coming nobody is absent. -/
theorem without_nextId (hu : u.Sound) : u.without u.nextId = u := by
  have hboxes := leaveOut_of_lt Prod.fst (reown u.nextId) hu.lt_nextId fun e he => by
    rw [reown, shift_of_lt he]
  have hnext : shift u.nextId u.nextId = u.nextId := if_neg (Nat.lt_irrefl _)
  simp only [without, hboxes, hnext]

theorem without_subscribe_self (u : Bulletin) :
    u.subscribe.without u.nextId = u.without u.nextId := by
  have hnext : shift u.nextId (u.nextId + 1) = shift u.nextId u.nextId := by
    simp [shift]
  have hboxes := leaveOut_concat_self Prod.fst (reown u.nextId) (a := (u.nextId, ⟨0, true⟩)) rfl
    u.boxes
  simp only [without, subscribe, hboxes, hnext]

theorem without_modifyBox (u : Bulletin) (f : Mailbox → Mailbox) (hi : i ≠ b) :
    (u.modifyBox i f).without b = (u.without b).modifyBox (shift b i) f := by
  have hboxes := leaveOut_modify Prod.fst (reown b) (l := u.boxes) (g := fun e => (e.1, f e.2))
    (k := fun e => (e.1, f e.2)) (fun _ => rfl) hi (fun _ he => he) fun _ _ => rfl
  simp only [without, modifyBox, hboxes]

theorem without_modifyBox_self (u : Bulletin) (f : Mailbox → Mailbox) :
    (u.modifyBox b f).without b = u.without b := by
  have hboxes := leaveOut_modify_self Prod.fst (reown b) (l := u.boxes) (b := b)
    (g := fun e => (e.1, f e.2)) fun _ he => he
  simp only [without, modifyBox, hboxes]

theorem without_discard (u : Bulletin) (hi : i ≠ b) :
    (u.discard i).without b = (u.without b).discard (shift b i) := by
  have hboxes := leaveOut_filter_ne Prod.fst (reown b) (l := u.boxes) (fun _ => rfl) hi
  simp only [without, discard, hboxes]

theorem without_discard_self (u : Bulletin) : (u.discard b).without b = u.without b := by
  have hboxes := leaveOut_filter_ne_self Prod.fst (reown b) (l := u.boxes) (b := b)
  simp only [without, discard, hboxes]

theorem read_without (u : Bulletin) (hi : i ≠ b) :
    (u.without b).read (shift b i) = ((u.read i).1, (u.read i).2.without b) := by
  rw [read, box?_without u hi, read]
  cases u.box? i with
  | none => rfl
  | some m =>
    simp only
    split
    · rfl
    · rw [without_modifyBox u _ hi]

theorem without_read_self (u : Bulletin) : (u.read b).2.without b = u.without b := by
  rcases u.read_cases b with ⟨he, -⟩ | he <;> rw [he]
  exact u.without_modifyBox_self _

end Bulletin

/-! ## Hubs -/

/-- The tally but for the two metrics that tell of subscribers. -/
def Tally.discreet (t : Tally) : Tally := { t with droppedPings := 0, subscribers := none }

namespace Hub

/-- The second hub is what the first one is in the absence of `b`. -/
structure Lacks (b : Nat) (h h' : Hub) : Prop where
  spans_eq : h'.spans = h.spans
  logs_eq : h'.logs = h.logs
  metrics_eq : h'.metrics = h.metrics
  limits_eq : h'.limits = h.limits
  bulletin_eq : h'.bulletin = h.bulletin.without b
  tally_eq : h'.tally.discreet = h.tally.discreet

variable {h h' : Hub}

/-- It differs in the bulletin and in the tally. -/
theorem Lacks.eq (hh : h.Lacks b h') :
    h' = { h with bulletin := h.bulletin.without b, tally := h'.tally } := by
  obtain ⟨hspans, hlogs, hmetrics, hlimits, hbulletin, -⟩ := hh
  cases h'
  simp only at hspans hlogs hmetrics hlimits hbulletin
  rw [hspans, hlogs, hmetrics, hlimits, hbulletin]

theorem Lacks.box?_eq (hh : h.Lacks b h') (hi : i ≠ b) :
    h'.bulletin.box? (shift b i) = h.bulletin.box? i := by
  rw [hh.bulletin_eq, Bulletin.box?_without _ hi]

theorem Lacks.record (hh : h.Lacks b h') (r : Record) :
    (h.record r).2.Lacks b (h'.record r).2 := by
  have hbulletin : (h'.record r).2.bulletin = (h.record r).2.bulletin.without b := by
    rw [bulletin_record, bulletin_record, hh.bulletin_eq, Bulletin.without_accept]
  have htally : (h'.record r).2.tally.discreet = (h.record r).2.tally.discreet := by
    have hfull : h'.isFull r.signal = h.isFull r.signal := by rw [hh.eq]; rfl
    have hdiscreet : ∀ k : Hub, (k.record r).2.tally.discreet =
        if k.isFull r.signal then (k.tally.discreet.addEviction r.signal).addRecord r.signal
        else k.tally.discreet.addRecord r.signal := by
      intro k
      simp only [Hub.record, announce]
      split <;> cases r <;> rfl
    rw [hdiscreet, hdiscreet, hfull, hh.tally_eq]
  rw [hh.eq] at hbulletin htally ⊢
  refine ⟨?_, ?_, ?_, ?_, hbulletin, htally⟩ <;>
  · simp only [Hub.record, announce]
    split <;> split <;> cases r <;> rfl

theorem Lacks.subscribe (hh : h.Lacks b h') (hb : b < h.bulletin.nextId) :
    h.subscribe.2.Lacks b h'.subscribe.2 := by
  refine ⟨hh.spans_eq, hh.logs_eq, hh.metrics_eq, hh.limits_eq, ?_, hh.tally_eq⟩
  show h'.bulletin.subscribe = h.bulletin.subscribe.without b
  rw [hh.bulletin_eq, Bulletin.without_subscribe hb]

theorem lacks_nextId (hb : h.bulletin.Sound) : h.Lacks h.bulletin.nextId h :=
  ⟨rfl, rfl, rfl, rfl, (Bulletin.without_nextId hb).symm, rfl⟩

theorem Lacks.subscribe_self (hh : h.Lacks h.bulletin.nextId h') :
    h.subscribe.2.Lacks h.bulletin.nextId h' := by
  refine ⟨hh.spans_eq, hh.logs_eq, hh.metrics_eq, hh.limits_eq, ?_, hh.tally_eq⟩
  show h'.bulletin = h.bulletin.subscribe.without h.bulletin.nextId
  rw [hh.bulletin_eq, Bulletin.without_subscribe_self]

theorem Lacks.unsubscribe (hh : h.Lacks b h') (hi : i ≠ b) :
    (h.unsubscribe i).Lacks b (h'.unsubscribe (shift b i)) := by
  have hleft : h'.hasLeft (shift b i) = h.hasLeft i := by
    rw [hasLeft, hasLeft, hh.box?_eq hi]
  rw [Hub.unsubscribe, Hub.unsubscribe, hleft]
  split
  · exact hh
  · refine ⟨hh.spans_eq, hh.logs_eq, hh.metrics_eq, hh.limits_eq, ?_, hh.tally_eq⟩
    show h'.bulletin.unsubscribe (shift b i) = (h.bulletin.unsubscribe i).without b
    rw [hh.bulletin_eq, Bulletin.unsubscribe, Bulletin.unsubscribe,
      Bulletin.without_modifyBox _ _ hi]

theorem Lacks.unsubscribe_self (hh : h.Lacks b h') : (h.unsubscribe b).Lacks b h' := by
  rw [Hub.unsubscribe]
  split
  · exact hh
  · refine ⟨hh.spans_eq, hh.logs_eq, hh.metrics_eq, hh.limits_eq, ?_, hh.tally_eq⟩
    show h'.bulletin = (h.bulletin.unsubscribe b).without b
    rw [hh.bulletin_eq, Bulletin.unsubscribe, Bulletin.without_modifyBox_self]

theorem Lacks.discard (hh : h.Lacks b h') (hi : i ≠ b) :
    (h.discard i).Lacks b (h'.discard (shift b i)) := by
  have hleft := hh.unsubscribe hi
  refine ⟨hleft.spans_eq, hleft.logs_eq, hleft.metrics_eq, hleft.limits_eq, ?_, hleft.tally_eq⟩
  show (h'.unsubscribe (shift b i)).bulletin.discard (shift b i) =
    ((h.unsubscribe i).bulletin.discard i).without b
  rw [hleft.bulletin_eq, Bulletin.without_discard _ hi]

theorem Lacks.discard_self (hh : h.Lacks b h') : (h.discard b).Lacks b h' := by
  have hleft := hh.unsubscribe_self
  refine ⟨hleft.spans_eq, hleft.logs_eq, hleft.metrics_eq, hleft.limits_eq, ?_, hleft.tally_eq⟩
  show h'.bulletin = ((h.unsubscribe b).bulletin.discard b).without b
  rw [hleft.bulletin_eq, Bulletin.without_discard_self]

theorem Lacks.readPing (hh : h.Lacks b h') (hi : i ≠ b) :
    (h'.readPing (shift b i)).1 = (h.readPing i).1 ∧
      (h.readPing i).2.Lacks b (h'.readPing (shift b i)).2 := by
  have hread := h.bulletin.read_without hi
  rw [← hh.bulletin_eq] at hread
  refine ⟨?_, hh.spans_eq, hh.logs_eq, hh.metrics_eq, hh.limits_eq, ?_, hh.tally_eq⟩
  · show (h'.bulletin.read (shift b i)).1 = _
    rw [hread]
    rfl
  · show (h'.bulletin.read (shift b i)).2 = _
    rw [hread]
    rfl

theorem Lacks.readPing_self (hh : h.Lacks b h') : (h.readPing b).2.Lacks b h' := by
  refine ⟨hh.spans_eq, hh.logs_eq, hh.metrics_eq, hh.limits_eq, ?_, hh.tally_eq⟩
  show h'.bulletin = (h.bulletin.read b).2.without b
  rw [hh.bulletin_eq, Bulletin.without_read_self]

/-! ## Requests -/

theorem Lacks.search {ρ : Type} (hh : h.Lacks b h') (f : Filter) (run run' : Nat → ρ)
    {note : Tally → Tally} (hnote : ∀ t, (note t).discreet = note t.discreet) :
    (h.search f run note).2.Lacks b (h'.search f run' note).2 := by
  unfold Hub.search
  cases f.validate with
  | error e =>
    exact ⟨hh.spans_eq, hh.logs_eq, hh.metrics_eq, hh.limits_eq, hh.bulletin_eq,
      congrArg Tally.addRejected hh.tally_eq⟩
  | ok =>
    refine ⟨hh.spans_eq, hh.logs_eq, hh.metrics_eq, hh.limits_eq, hh.bulletin_eq, ?_⟩
    exact (hnote h'.tally).trans ((congrArg note hh.tally_eq).trans (hnote h.tally).symm)

theorem discreet_note {α : Type} [Telemetry α] (a : Archive α) (f : Filter) (t : Tally) :
    (Search.note a f t).discreet = Search.note a f t.discreet := by
  unfold Search.note
  split <;> rfl

theorem Lacks.ask (hh : h.Lacks b h') (about : Option Signal) (f : Filter) :
    (h.ask about f).Lacks b (h'.ask about f) := by
  cases about with
  | none =>
    simp only [Hub.ask, Hub.query, hh.spans_eq, hh.logs_eq, hh.metrics_eq]
    exact hh.search f _ _ fun t => by simp only [discreet_note]
  | some s =>
    cases s with
    | traces =>
      simp only [Hub.ask, Hub.querySpans, hh.spans_eq]
      exact hh.search f _ _ (discreet_note h.spans f)
    | logs =>
      simp only [Hub.ask, Hub.queryLogs, hh.logs_eq]
      exact hh.search f _ _ (discreet_note h.logs f)
    | metrics =>
      simp only [Hub.ask, Hub.queryMetrics, hh.metrics_eq]
      exact hh.search f _ _ (discreet_note h.metrics f)

/-- What a search finds depends on the archives and the limits. -/
theorem search_congr {ρ : Type} (hlimits : h'.limits = h.limits) (f : Filter) (run : Nat → ρ)
    (note note' : Tally → Tally) : (h'.search f run note').1 = (h.search f run note).1 := by
  unfold Hub.search
  rw [hlimits]
  cases f.validate <;> rfl

/-- All queries are answered alike. -/
theorem Lacks.answers (hh : h.Lacks b h') (f : Filter) :
    (h'.query f).1 = (h.query f).1 ∧ (h'.querySpans f).1 = (h.querySpans f).1 ∧
      (h'.queryLogs f).1 = (h.queryLogs f).1 ∧ (h'.queryMetrics f).1 = (h.queryMetrics f).1 := by
  simp only [Hub.query, Hub.querySpans, Hub.queryLogs, Hub.queryMetrics, hh.spans_eq, hh.logs_eq,
    hh.metrics_eq]
  exact ⟨search_congr hh.limits_eq f _ _ _, search_congr hh.limits_eq f _ _ _,
    search_congr hh.limits_eq f _ _ _, search_congr hh.limits_eq f _ _ _⟩

theorem Lacks.stats_eq (hh : h.Lacks b h') (s : Signal) : h'.stats s = h.stats s := by
  rw [hh.eq]
  cases s <;> rfl

end Hub

/-! ## Feeds and couriers -/

/-- The feed under another number. -/
def Feed.withId (id : Nat) (f : Feed) : Feed := { f with id := id }

/-- The feed in the absence of `b`. -/
def Feed.renumber (b : Nat) (f : Feed) : Feed := f.withId (shift b f.id)

theorem Feed.poll_renumber {h h' : Hub} (hh : h.Lacks b h') (f : Feed) :
    (f.renumber b).poll h' = ((f.poll h).1, (f.poll h).2.renumber b) := by
  rw [hh.eq]
  unfold poll
  rw [show (f.renumber b).paused = f.paused from rfl]
  split <;> rfl

theorem Feed.startCursor_lacks {h h' : Hub} (hh : h.Lacks b h') (backfill : PerSignal Nat) :
    startCursor h' backfill = startCursor h backfill := by
  rw [hh.eq]
  rfl

namespace Courier

variable {now : Nat} {h h' : Hub} {c : Courier}

/-- The courier, its feed under another number. -/
def withId (id : Nat) (c : Courier) : Courier := { c with feed := c.feed.withId id }

/-- The courier in the absence of `b`. -/
def renumber (b : Nat) (c : Courier) : Courier := c.withId (shift b c.feed.id)

/-- A hub and a courier, and what they are in the absence of `b`. -/
def Matches (b : Nat) (p q : Hub × Courier) : Prop := p.1.Lacks b q.1 ∧ q.2 = p.2.renumber b

theorem look_matches (hh : h.Lacks b h') (c : Courier) :
    Matches b (c.look h) ((c.renumber b).look h') := by
  refine ⟨hh, ?_⟩
  unfold look
  rw [show (c.renumber b).feed = c.feed.renumber b from rfl, Feed.poll_renumber hh]
  rfl

theorem finish_matches (hh : h.Lacks b h') (hc : c.feed.id ≠ b) :
    Matches b (c.finish h) ((c.renumber b).finish h') := ⟨hh.discard hc, rfl⟩

theorem answer_lacks (hh : h.Lacks b h') (hc : c.feed.id ≠ b) :
    Option.Rel (Matches b) (c.answer now h) ((c.renumber b).answer now h') := by
  obtain ⟨hping, hread⟩ := hh.readPing hc
  unfold answer
  rw [show (c.renumber b).feed.resumed = c.feed.resumed from rfl,
    show (c.renumber b).feed.id = shift b c.feed.id from rfl]
  split
  · exact .some (look_matches hh _)
  · cases hr : h.readPing c.feed.id with
    | mk t g =>
      cases hr' : h'.readPing (shift b c.feed.id) with
      | mk t' g' =>
        rw [hr, hr'] at hping hread
        obtain rfl : t' = t := hping
        cases t' with
        | pinged => exact .some (look_matches hread c)
        | pending =>
          show Option.Rel _ (if c.due ≤ now then _ else _) (if c.due ≤ now then _ else _)
          split
          · exact .some (look_matches hh _)
          · exact .none
        | _ => exact .some (finish_matches hh hc)

/-- A turn goes the same way in the absence of somebody else. -/
theorem turn_lacks (hh : h.Lacks b h') (hc : c.feed.id ≠ b) (now : Nat) :
    Option.Rel (Matches b) (c.turn now h) ((c.renumber b).turn now h') := by
  have hfinish := Option.Rel.some (finish_matches hh hc)
  rw [turn_eq, turn_eq]
  rw [show (c.renumber b).phase = c.phase from rfl, show (c.renumber b).sink = c.sink from rfl,
    show (c.renumber b).keepalive = c.keepalive from rfl,
    show (c.renumber b).listener = c.listener from rfl]
  split
  · exact .none
  · split
    · exact hfinish
    · split
      · exact .some ⟨hh, rfl⟩
      · exact .none
  · split
    · exact hfinish
    · split
      · exact hfinish
      · exact .some (look_matches hh _)
      · split
        · exact hfinish
        · exact answer_lacks hh hc

/-- A turn of the one who is left out is nothing to the others. -/
theorem Turns.lacks {g : Hub} {c' : Courier} (ht : c.Turns now h g c') (hc : c.feed.id = b)
    (hh : h.Lacks b h') : g.Lacks b h' := by
  subst hc
  cases ht with
  | ends => exact hh.discard_self
  | puts => exact hh
  | looks _ _ _ hr =>
    rcases hr.hub_eq with rfl | rfl
    · exact hh
    · exact hh.readPing_self

end Courier

end SignalHub
