import SignalHub.Hub
/-!
# Who hears of new records

What the operations on a bulletin do to the mailbox of one subscriber. Nobody else's coming, going
or reading changes it, and after a record was announced there is a ping in it.

Results:
* `Bulletin.box?_accept`, `Hub.box?_subscribe`, `Hub.box?_discard`, `Hub.box?_readPing`: the
  mailbox of a subscriber after each operation.
* `Bulletin.Sound`: mailboxes have room, and no number is given twice.
-/
namespace SignalHub

theorem lookup_mapValues {β : Type} (g : Nat → β → β) (id : Nat) :
    ∀ l : List (Nat × β), (l.map fun e => (e.1, g e.1 e.2)).lookup id = (l.lookup id).map (g id)
  | [] => rfl
  | (k, m) :: l => by
    rw [List.map_cons, List.lookup_cons, List.lookup_cons, lookup_mapValues g id l]
    cases hk : id == k with
    | true => rw [eq_of_beq hk]; rfl
    | false => rfl

theorem lookup_filter_ne {β : Type} (id other : Nat) : ∀ l : List (Nat × β),
    (l.filter fun e => e.1 ≠ other).lookup id = if id = other then none else l.lookup id
  | [] => by simp
  | (k, m) :: l => by
    have ih := lookup_filter_ne id other l
    by_cases hko : k = other
    · subst hko
      rw [List.filter_cons_of_neg (by simp), ih]
      by_cases h : id = k
      · simp [h]
      · simp [h, List.lookup_cons, beq_eq_false_iff_ne.2 h]
    · rw [List.filter_cons_of_pos (by simp [hko]), List.lookup_cons, ih, List.lookup_cons]
      by_cases h : id = k
      · subst h; simp [hko]
      · simp [beq_eq_false_iff_ne.2 h]

theorem lookup_eq_none_of_lt {β : Type} {l : List (Nat × β)} {bound id : Nat}
    (hl : ∀ e ∈ l, e.1 < bound) (hid : bound ≤ id) : l.lookup id = none := by
  rw [List.lookup_eq_none_iff]
  intro e he
  have := hl e he
  simp; omega

namespace Bulletin

variable {b : Bulletin}

/-- Mailboxes have room for a ping, and numbers are given in ascending order. -/
structure Sound (b : Bulletin) : Prop where
  boxSize_pos : 0 < b.boxSize
  lt_nextId : ∀ e ∈ b.boxes, e.1 < b.nextId

theorem sound_empty (n : Nat) : (empty n).Sound := ⟨Nat.le_max_right n 1, by simp [empty]⟩

theorem modifyBox_boxes (b : Bulletin) (id : Nat) (f : Mailbox → Mailbox) :
    (b.modifyBox id f).boxes = b.boxes.map fun e => (e.1, if e.1 = id then f e.2 else e.2) := by
  rw [modifyBox]
  refine List.map_congr_left fun e _ => ?_
  split <;> rfl

theorem Sound.modifyBox (hb : b.Sound) (id : Nat) (f : Mailbox → Mailbox) :
    (b.modifyBox id f).Sound := by
  refine ⟨hb.boxSize_pos, ?_⟩
  rw [modifyBox_boxes]
  intro e he
  obtain ⟨e', he', rfl⟩ := List.mem_map.1 he
  exact hb.lt_nextId e' he'

theorem Sound.accept (hb : b.Sound) (s : Signal) : (b.accept s).Sound := by
  refine ⟨hb.boxSize_pos, fun e he => ?_⟩
  obtain ⟨e', he', rfl⟩ := List.mem_map.1 he
  exact hb.lt_nextId e' he'

theorem Sound.subscribe (hb : b.Sound) : b.subscribe.Sound := by
  refine ⟨hb.boxSize_pos, fun e he => ?_⟩
  rcases List.mem_append.1 he with he | he
  · exact Nat.lt_succ_of_lt (hb.lt_nextId e he)
  · rw [List.mem_singleton.1 he]; exact Nat.lt_succ_self _

theorem Sound.discard (hb : b.Sound) (id : Nat) : (b.discard id).Sound :=
  ⟨hb.boxSize_pos, fun e he => hb.lt_nextId e (List.mem_filter.1 he).1⟩

theorem box?_modifyBox (b : Bulletin) (other : Nat) (f : Mailbox → Mailbox) (id : Nat) :
    (b.modifyBox other f).box? id = (b.box? id).map fun m => if id = other then f m else m := by
  rw [box?, modifyBox_boxes]
  exact lookup_mapValues (fun k m => if k = other then f m else m) id b.boxes

theorem box?_accept (b : Bulletin) (s : Signal) (id : Nat) :
    (b.accept s).box? id = (b.box? id).map b.ping :=
  lookup_mapValues (fun _ => b.ping) id b.boxes

theorem box?_discard (b : Bulletin) (other id : Nat) :
    (b.discard other).box? id = if id = other then none else b.box? id :=
  lookup_filter_ne id other b.boxes

theorem box?_subscribe (hb : b.Sound) (id : Nat) :
    b.subscribe.box? id = if id = b.nextId then some ⟨0, true⟩ else b.box? id := by
  rw [box?, subscribe, List.lookup_append]
  by_cases h : id = b.nextId
  · rw [lookup_eq_none_of_lt hb.lt_nextId (Nat.le_of_eq h.symm)]
    simp [h]
  · simp [h, List.lookup_cons, box?, beq_eq_false_iff_ne.2 h]

theorem box?_eq_none_of_le (hb : b.Sound) {id : Nat} (hid : b.nextId ≤ id) : b.box? id = none :=
  lookup_eq_none_of_lt hb.lt_nextId hid

theorem lt_nextId_of_box? (hb : b.Sound) {id : Nat} {m : Mailbox} (hm : b.box? id = some m) :
    id < b.nextId := by
  refine Nat.lt_of_not_le fun hle => ?_
  rw [box?_eq_none_of_le hb hle] at hm
  cases hm

/-- Reading changes nothing if there is no ping, and else takes one out. -/
theorem read_cases (b : Bulletin) (id : Nat) :
    ((b.read id).2 = b ∧ ∀ m, b.box? id = some m → m.pending = 0) ∨
      (b.read id).2 = b.modifyBox id fun m => { m with pending := m.pending - 1 } := by
  unfold read
  cases hm : b.box? id with
  | none => exact Or.inl ⟨rfl, by simp⟩
  | some m =>
    by_cases hz : m.pending = 0
    · exact Or.inl ⟨by simp [hz], by simp [hz]⟩
    · exact Or.inr (by simp [hz])

theorem Sound.read (hb : b.Sound) (id : Nat) : (b.read id).2.Sound := by
  rcases read_cases b id with ⟨he, -⟩ | he
  · rw [he]; exact hb
  · rw [he]; exact hb.modifyBox id _

theorem nextId_read (b : Bulletin) (id : Nat) : (b.read id).2.nextId = b.nextId := by
  rcases read_cases b id with ⟨he, -⟩ | he <;> rw [he]
  rfl

/-- Reading takes a ping out of one's own mailbox only. -/
theorem box?_read (b : Bulletin) (other id : Nat) : (b.read other).2.box? id =
    (b.box? id).map fun m => if id = other then { m with pending := m.pending - 1 } else m := by
  rcases read_cases b other with ⟨he, hz⟩ | he
  · rw [he]
    by_cases h : id = other
    · subst h
      cases hm : b.box? id with
      | none => rfl
      | some m => obtain ⟨n, a⟩ := m; simp [show n = 0 from hz _ hm]
    · simp [h]
  · rw [he, box?_modifyBox]

/-- A ping reaches a mailbox, or there is one in it already. -/
theorem ping_eq (hb : b.Sound) (n : Nat) : ∃ k, 0 < k ∧ b.ping ⟨n, true⟩ = ⟨k, true⟩ := by
  by_cases h : n < b.boxSize
  · exact ⟨n + 1, Nat.succ_pos n, by simp [ping, h]⟩
  · exact ⟨n, Nat.lt_of_lt_of_le hb.boxSize_pos (Nat.le_of_not_lt h), by simp [ping, h]⟩

end Bulletin

namespace Hub

variable {h : Hub}

theorem bulletin_record (h : Hub) (r : Record) :
    (h.record r).2.bulletin = h.bulletin.accept r.signal := by
  simp only [record, announce]
  split <;> simp

theorem box?_subscribe (hb : h.bulletin.Sound) (id : Nat) :
    h.subscribe.2.bulletin.box? id =
      if id = h.bulletin.nextId then some ⟨0, true⟩ else h.bulletin.box? id :=
  Bulletin.box?_subscribe hb id

theorem bulletin_discard (h : Hub) (id : Nat) :
    (h.discard id).bulletin = (h.bulletin.discard id) ∨
      (h.discard id).bulletin = (h.bulletin.unsubscribe id).discard id := by
  simp only [discard, unsubscribe]
  split
  · exact Or.inl rfl
  · exact Or.inr rfl

theorem hasLeft_eq_false_iff {id : Nat} :
    h.hasLeft id = false ↔ ∃ n, h.bulletin.box? id = some ⟨n, true⟩ := by
  unfold hasLeft
  cases h.bulletin.box? id with
  | none => simp
  | some m => obtain ⟨n, a⟩ := m; cases a <;> simp

theorem hasLeft_eq_true_iff {id : Nat} :
    h.hasLeft id = true ↔ ∀ m, h.bulletin.box? id = some m → m.attached = false := by
  unfold hasLeft
  cases h.bulletin.box? id with
  | none => simp
  | some m => simp

theorem box?_unsubscribe (h : Hub) (other id : Nat) : (h.unsubscribe other).bulletin.box? id =
    (h.bulletin.box? id).map fun m => if id = other then { m with attached := false } else m := by
  cases hleft : h.hasLeft other with
  | false =>
    rw [unsubscribe, if_neg (by simp [hleft])]
    exact Bulletin.box?_modifyBox h.bulletin other _ id
  | true =>
    -- Whoever has left has no mailbox, or one that is marked already.
    rw [unsubscribe, if_pos hleft]
    cases hm : h.bulletin.box? id with
    | none => rfl
    | some m =>
      by_cases hid : id = other
      · subst hid
        obtain ⟨n, a⟩ := m
        rw [hasLeft, hm] at hleft
        cases a <;> simp at hleft ⊢
      · simp [hid]

theorem nextId_unsubscribe (h : Hub) (id : Nat) :
    (h.unsubscribe id).bulletin.nextId = h.bulletin.nextId := by
  rw [unsubscribe]
  split <;> rfl

theorem box?_discard (h : Hub) (other id : Nat) :
    (h.discard other).bulletin.box? id = if id = other then none else h.bulletin.box? id := by
  rcases bulletin_discard h other with he | he
  · rw [he, Bulletin.box?_discard]
  · rw [he, Bulletin.box?_discard, Bulletin.unsubscribe, Bulletin.box?_modifyBox]
    split
    · rfl
    · simp

theorem box?_readPing (h : Hub) (other id : Nat) : (h.readPing other).2.bulletin.box? id =
    (h.bulletin.box? id).map fun m =>
      if id = other then { m with pending := m.pending - 1 } else m :=
  Bulletin.box?_read h.bulletin other id

theorem sound_record (hb : h.bulletin.Sound) (r : Record) : (h.record r).2.bulletin.Sound := by
  rw [bulletin_record]; exact hb.accept _

theorem sound_discard (hb : h.bulletin.Sound) (id : Nat) : (h.discard id).bulletin.Sound := by
  rcases bulletin_discard h id with he | he
  · rw [he]; exact hb.discard id
  · rw [he]; exact (hb.modifyBox id _).discard id

theorem nextId_discard (h : Hub) (id : Nat) :
    (h.discard id).bulletin.nextId = h.bulletin.nextId := by
  rcases bulletin_discard h id with he | he <;> rw [he] <;> rfl

theorem nextId_readPing (h : Hub) (id : Nat) :
    (h.readPing id).2.bulletin.nextId = h.bulletin.nextId := Bulletin.nextId_read h.bulletin id

end Hub

end SignalHub
