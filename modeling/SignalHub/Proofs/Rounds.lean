import SignalHub.Feed
import SignalHub.Proofs.Retention
/-!
# Reading in two steps

A reader with a cursor first takes the head of a window and then reads from its cursor up to that
head. Records may be appended between the two steps, so the oldest records of the range may be gone
when it is read, or all of them. What is read then is the end of what would have been read at once.

The reader goes on in rounds. Each position is passed over in one round only: the one that takes
its cursor across it.

Results:
* `Window.passes`: rounds of reading, with what is appended during each.
* `Window.Holds.found_eq`: what one round finds.
* `Window.Holds.rangeWhere_suffix`: what is appended makes a range shorter at its front only.
* `Window.rounds_deliver`: what any number of rounds find.
* `Feed.unread_eq_found`: a look of a feed is a round during which nothing is appended.
-/
namespace SignalHub

namespace Window

variable {α : Type}

/-- What is appended during a round of reading. -/
structure Round (α : Type) where
  /-- After the head was taken and before the range is read. -/
  between : List α
  /-- After the range was read. -/
  after : List α

/-- All that is appended during a round. -/
def Round.appended (r : Round α) : List α := r.between ++ r.after

/-- A round of reading. -/
structure Pass (α : Type) where
  /-- Where the reader stood. -/
  cursor : Nat
  /-- The head that it took. -/
  head : Nat
  /-- The window when the range was read. -/
  window : Window α
  found : List α

/-- A round of reading in a window: the head is taken, records are appended, the range is read. -/
def pass (p : α → Bool) (w : Window α) (cursor : Nat) (between : List α) : Pass α where
  cursor := cursor
  head := w.next
  window := w.appendAll between
  found := if cursor < w.next then (w.appendAll between).rangeWhere cursor (w.next - 1) p else []

/-- Rounds of reading, one after the other. -/
def passes (p : α → Bool) : Window α → Nat → List (Round α) → List (Pass α)
  | _, _, [] => []
  | w, cursor, r :: rest =>
    w.pass p cursor r.between ::
      passes p (w.appendAll r.appended) (Feed.advanced cursor w.next) rest

/-- Where a reader stands after its rounds. -/
def cursorAfter (cursor : Nat) (ts : List (Pass α)) : Nat :=
  ts.foldl (fun c t => Feed.advanced c t.head) cursor

/-- Whether a round passes over a position. -/
def Pass.crosses (t : Pass α) (i : Nat) : Bool := t.cursor ≤ i && i < t.head

/-- Whether the record at a position was retained when the round read. -/
def Pass.retains (t : Pass α) (i : Nat) : Bool := t.window.first ≤ i

/-- Whether the record at a position had been evicted when the round that passes over it read. -/
def missed (ts : List (Pass α)) (i : Nat) : Bool := ts.any fun t => t.crosses i && !t.retains i

/-- Whether a reader that began at a cursor has passed over a position and not missed its record. -/
def reached (cursor : Nat) (ts : List (Pass α)) (i : Nat) : Bool :=
  cursor ≤ i && i < cursorAfter cursor ts && !missed ts i

/-! ## Places of a log -/

theorem filter_zipIdx_append {q : α × Nat → Bool} {as : List α} (h : ∀ x, q x → x.2 < as.length)
    (bs : List α) : (as ++ bs).zipIdx.filter q = as.zipIdx.filter q := by
  have hbs : (bs.zipIdx (0 + as.length)).filter q = [] := by
    rw [List.filter_eq_nil_iff]
    intro x hx hq
    have hlow := List.le_snd_of_mem_zipIdx hx
    have hhigh := h x hq
    omega
  rw [List.zipIdx_append, List.filter_append, hbs, List.append_nil]

/-- What is chosen among the places of a log is chosen before a place and from it on. -/
theorem filter_zipIdx_split (q : α × Nat → Bool) (m : Nat) (as : List α) :
    as.zipIdx.filter q = (as.zipIdx.filter fun x => x.2 < m && q x) ++
      as.zipIdx.filter fun x => m ≤ x.2 && q x := by
  suffices h : ∀ n, (as.zipIdx n).filter q = ((as.zipIdx n).filter fun x => x.2 < m && q x) ++
      (as.zipIdx n).filter fun x => m ≤ x.2 && q x from h 0
  induction as with
  | nil => intro n; rfl
  | cons a as ih =>
    intro n
    by_cases hn : n < m
    · simp only [List.zipIdx_cons, List.filter_cons, ih (n + 1)]
      by_cases hq : q (a, n) <;> simp [hn, hq, show ¬ m ≤ n by omega]
    · -- All places from here on lie behind `m`.
      have hnone : (((a :: as).zipIdx n).filter fun x => x.2 < m && q x) = [] := by
        rw [List.filter_eq_nil_iff]
        intro x hx
        have hlow := List.le_snd_of_mem_zipIdx hx
        simp only [Bool.and_eq_true, decide_eq_true_eq, not_and]
        omega
      rw [hnone, List.nil_append]
      refine List.filter_congr fun x hx => ?_
      have hlow := List.le_snd_of_mem_zipIdx hx
      simp [show m ≤ x.2 by omega]

/-! ## One round -/

variable {w : Window α} {log : List α} {p : α → Bool} {cursor i : Nat} {t : Pass α}
  {ts : List (Pass α)}

theorem crosses_iff : t.crosses i ↔ t.cursor ≤ i ∧ i < t.head := by
  simp [Pass.crosses]

theorem retains_iff : t.retains i ↔ t.window.first ≤ i := by
  simp [Pass.retains]

/-- What a round finds: the matching records that it passes over and that were retained when it
read. None of them was appended after the head had been taken. -/
theorem Holds.found_eq (h : w.Holds log) (p : α → Bool) (cursor : Nat) (between more : List α) :
    (w.pass p cursor between).found = ((log ++ more).zipIdx.filter fun x =>
      (w.pass p cursor between).crosses x.2 && (w.pass p cursor between).retains x.2 &&
        p x.1).map (·.1) := by
  have hnext := h.next_eq
  have hhead : ∀ x : α × Nat, ((w.pass p cursor between).crosses x.2 &&
      (w.pass p cursor between).retains x.2 && p x.1) = true → x.2 < log.length := by
    intro x hx
    simp only [Bool.and_eq_true, crosses_iff, pass] at hx
    omega
  -- The places behind the head do not matter, so the log may be cut or continued there.
  rw [filter_zipIdx_append hhead, ← filter_zipIdx_append hhead between]
  unfold pass
  dsimp only
  split
  · rw [(h.appendAll between).rangeWhere_eq_filter]
    congr 1
    apply List.filter_congr
    intro x hx
    have hlen := List.snd_lt_of_mem_zipIdx hx
    rw [List.length_append] at hlen ⊢
    congr 1
    rw [Bool.eq_iff_iff]
    simp only [Bool.and_eq_true, decide_eq_true_eq, crosses_iff, retains_iff]
    omega
  · symm
    rw [List.map_eq_nil_iff, List.filter_eq_nil_iff]
    intro x _
    simp only [Bool.and_eq_true, crosses_iff, not_and]
    omega

theorem first_le_appendAll (w : Window α) (as : List α) : w.first ≤ (w.appendAll as).first := by
  induction as generalizing w with
  | nil => exact Nat.le_refl _
  | cons a as ih =>
    have hone : w.first ≤ (w.append a).first := by
      rw [first_append]
      omega
    exact Nat.le_trans hone (ih (w.append a))

/-- A range of positions that were given when the head was taken only loses records at its front
by what is appended later. -/
theorem Holds.rangeWhere_suffix (h : w.Holds log) {hi : Nat} (hhi : hi < w.next) (lo : Nat)
    (more : List α) : (w.appendAll more).rangeWhere lo hi p <:+ w.rangeWhere lo hi p := by
  have hnext := h.next_eq
  have hfirst := w.first_le_appendAll more
  have htake : (log ++ more).take (hi + 1) = log.take (hi + 1) :=
    List.take_append_of_le_length (by omega)
  unfold rangeWhere
  apply List.IsSuffix.filter
  rw [h.range_eq, (h.appendAll more).range_eq, ← List.drop_take, ← List.drop_take, htake]
  apply List.drop_suffix_drop_left
  omega

/-! ## Any number of rounds -/

theorem le_cursorAfter (cursor : Nat) (ts : List (Pass α)) : cursor ≤ cursorAfter cursor ts := by
  induction ts generalizing cursor with
  | nil => exact Nat.le_refl _
  | cons t ts ih => exact Nat.le_trans (Nat.le_max_left _ _) (ih (Feed.advanced cursor t.head))

/-- A reader never goes back. -/
theorem le_cursor_of_mem_passes {rounds : List (Round α)} (ht : t ∈ passes p w cursor rounds) :
    cursor ≤ t.cursor := by
  induction rounds generalizing w cursor with
  | nil => cases ht
  | cons r rest ih =>
    rcases List.mem_cons.1 ht with rfl | ht
    · exact Nat.le_refl _
    · exact Nat.le_trans (Nat.le_max_left _ _) (ih ht)

/-- No round passes over what lies before the first cursor. -/
theorem missed_passes_of_lt (rounds : List (Round α)) (hi : i < cursor) :
    missed (passes p w cursor rounds) i = false := by
  unfold missed
  rw [List.any_eq_false]
  intro t ht
  have hle := le_cursor_of_mem_passes ht
  simp only [Bool.and_eq_true, crosses_iff, not_and]
  omega

theorem missed_cons : missed (t :: ts) i = (t.crosses i && !t.retains i || missed ts i) := rfl

theorem cursorAfter_cons : cursorAfter cursor (t :: ts) =
    cursorAfter (Feed.advanced cursor t.head) ts := rfl

theorem reached_iff : reached cursor ts i ↔
    (cursor ≤ i ∧ i < cursorAfter cursor ts) ∧ missed ts i = false := by
  simp [reached]

/-- The first round decides about what it passes over. -/
theorem reached_cons_of_lt (t : Pass α) (ts : List (Pass α))
    (hi : i < Feed.advanced t.cursor t.head) (hlater : missed ts i = false) :
    reached t.cursor (t :: ts) i = (t.crosses i && t.retains i) := by
  have hlast := le_cursorAfter (Feed.advanced t.cursor t.head) ts
  have hcross : t.cursor ≤ i → t.crosses i := by
    intro hlow
    unfold Feed.advanced at hi
    rw [crosses_iff]
    omega
  rw [Bool.eq_iff_iff, reached_iff, missed_cons, hlater, Bool.or_false, cursorAfter_cons,
    Bool.and_eq_true]
  constructor
  · rintro ⟨⟨hlow, -⟩, hmissed⟩
    rw [hcross hlow, Bool.true_and, Bool.not_eq_false'] at hmissed
    exact ⟨hcross hlow, hmissed⟩
  · rintro ⟨hcrosses, hretains⟩
    rw [hcrosses, hretains]
    exact ⟨⟨(crosses_iff.1 hcrosses).1, Nat.lt_of_lt_of_le hi hlast⟩, rfl⟩

/-- The later rounds decide about what lies behind the first one. -/
theorem reached_cons_of_ge (hi : Feed.advanced cursor t.head ≤ i) :
    reached cursor (t :: ts) i = reached (Feed.advanced cursor t.head) ts i := by
  have hcross : t.crosses i = false := by
    unfold Feed.advanced at hi
    rw [Bool.eq_false_iff, ne_eq, crosses_iff]
    omega
  have hlow : cursor ≤ i := Nat.le_trans (Nat.le_max_left _ _) hi
  rw [Bool.eq_iff_iff, reached_iff, reached_iff, missed_cons, hcross, cursorAfter_cons,
    Bool.false_and, Bool.false_or]
  simp [hi, hlow]

theorem reached_of_lt (hi : i < cursor) : reached cursor ts i = false := by
  simp [reached, Nat.not_le.2 hi]

theorem reached_nil : reached cursor ([] : List (Pass α)) i = false := by
  rw [Bool.eq_false_iff, ne_eq, reached_iff]
  unfold cursorAfter
  rw [List.foldl_nil]
  omega

/-- All rounds together find, in the order of the log, the matching records that they reach. -/
theorem Holds.flatMap_found (h : w.Holds log) (p : α → Bool) (cursor : Nat)
    (rounds : List (Round α)) :
    (passes p w cursor rounds).flatMap Pass.found =
      ((log ++ rounds.flatMap Round.appended).zipIdx.filter fun x =>
        reached cursor (passes p w cursor rounds) x.2 && p x.1).map (·.1) := by
  induction rounds generalizing w log cursor with
  | nil =>
    simp [passes, reached_nil]
  | cons r rest ih =>
    have hrest := ih (h.appendAll r.appended) (Feed.advanced cursor w.next)
    rw [List.append_assoc, ← List.flatMap_cons] at hrest
    -- The places are split where the cursor stands after the first round.
    rw [passes, List.flatMap_cons, hrest, h.found_eq p cursor r.between,
      filter_zipIdx_split (fun x => reached cursor _ x.2 && p x.1) (Feed.advanced cursor w.next),
      List.map_append]
    congr 2
    · apply List.filter_congr
      intro x _
      by_cases hx : x.2 < Feed.advanced cursor w.next
      · have hlater := missed_passes_of_lt (p := p) (w := w.appendAll r.appended) rest hx
        have hfirst := reached_cons_of_lt (w.pass p cursor r.between) _ hx hlater
        rw [decide_eq_true hx, Bool.true_and, ← hfirst]
        rfl
      · have hcross : (w.pass p cursor r.between).crosses x.2 = false := by
          unfold Feed.advanced at hx
          rw [Bool.eq_false_iff, ne_eq, crosses_iff]
          simp only [pass]
          omega
        rw [hcross, decide_eq_false hx]
        simp
    · apply List.filter_congr
      intro x _
      by_cases hx : Feed.advanced cursor w.next ≤ x.2
      · rw [reached_cons_of_ge hx, decide_eq_true hx, Bool.true_and]
        rfl
      · rw [reached_of_lt (Nat.lt_of_not_le hx), decide_eq_false hx, Bool.false_and,
          Bool.false_and]

/-- Each round is a round in a window that holds what had been appended by then. -/
theorem Holds.exists_pass {rounds : List (Round α)} (h : w.Holds log)
    (ht : t ∈ passes p w cursor rounds) : ∃ w' log' more cursor' between, Holds w' log' ∧
      log ++ rounds.flatMap Round.appended = log' ++ more ∧ t = w'.pass p cursor' between := by
  induction rounds generalizing w log cursor with
  | nil => cases ht
  | cons r rest ih =>
    rcases List.mem_cons.1 ht with rfl | ht
    · exact ⟨w, log, _, cursor, r.between, h, rfl, rfl⟩
    · obtain ⟨w', log', more, cursor', between, hw', hlog, rfl⟩ := ih (h.appendAll r.appended) ht
      rw [List.append_assoc, ← List.flatMap_cons] at hlog
      exact ⟨w', log', more, cursor', between, hw', hlog, rfl⟩

/-- Rounds of reading, with records appended between and within them, find records in the order of
their positions and none twice: those that match, from the first cursor up to the last one, but for
those that had been evicted when the round that passes over them read. Each round finds only what
had been appended when it took the head. The reason is that a range below the head only loses
records at its front while it waits to be read. -/
theorem rounds_deliver (capacity : Nat) (log : List α) (p : α → Bool) (cursor : Nat)
    (rounds : List (Round α)) :
    let w := (empty capacity).appendAll log
    let all := log ++ rounds.flatMap Round.appended
    let ts := passes p w cursor rounds
    (∃ delivered : List (α × Nat), ts.flatMap Pass.found = delivered.map (·.1) ∧
      delivered.Pairwise (fun x y => x.2 < y.2) ∧
      ∀ a i, (a, i) ∈ delivered ↔ all[i]? = some a ∧ p a ∧
        (cursor ≤ i ∧ i < cursorAfter cursor ts) ∧ missed ts i = false) ∧
    (∀ t ∈ ts, t.found =
      (all.zipIdx.filter fun x => t.crosses x.2 && t.retains x.2 && p x.1).map (·.1)) ∧
    ∀ lo hi more, hi < w.next → (w.appendAll more).rangeWhere lo hi p <:+ w.rangeWhere lo hi p := by
  intro w all ts
  have hw : w.Holds log := holds_appendAll_empty capacity log
  refine ⟨⟨all.zipIdx.filter fun x => reached cursor ts x.2 && p x.1,
    hw.flatMap_found p cursor rounds, ?_, ?_⟩, ?_, ?_⟩
  · exact (pairwise_zipIdx all).filter _
  · intro a i
    rw [List.mem_filter, List.mk_mem_zipIdx_iff_getElem?, Bool.and_eq_true, reached_iff]
    constructor
    · rintro ⟨ha, hreached, hp⟩
      exact ⟨ha, hp, hreached⟩
    · rintro ⟨ha, hp, hreached⟩
      exact ⟨ha, hreached, hp⟩
  · intro t ht
    obtain ⟨w', log', more, cursor', between, hw', hlog, rfl⟩ := hw.exists_pass ht
    show _ = ((log ++ rounds.flatMap Round.appended).zipIdx.filter _).map _
    rw [hlog]
    exact hw'.found_eq p cursor' between more
  · intro lo hi more hhi
    exact hw.rangeWhere_suffix hhi lo more

/-- A window for two that is overtaken: of three records two are gone when the first round reads,
the second round finds its whole range gone, and the third round finds what is retained of the
rest. -/
theorem rounds_deliver_overtaken :
    let w := (empty 2).appendAll [10, 11, 12]
    let rounds := [⟨[13], []⟩, ⟨[14, 15], [16]⟩, ⟨[], []⟩]
    (passes (fun _ => true) w 0 rounds).map Pass.found = [[12], [], [15, 16]] ∧ 2 < w.next ∧
      (w.appendAll [13]).rangeWhere 0 2 (fun _ => true) <:+ w.rangeWhere 0 2 fun _ => true := by
  refine ⟨by decide, by decide, ?_⟩
  obtain ⟨-, -, hsuffix⟩ := rounds_deliver 2 [10, 11, 12] (fun _ => true) 0 []
  exact hsuffix 0 2 [13] (by decide)

end Window

/-- A look of a feed is a round during which nothing is appended. -/
theorem Feed.unread_eq_found {α : Type} [Telemetry α] (a : Archive α) (f : Filter) (cursor : Nat) :
    Feed.unread a f cursor = if f.appliesTo (Telemetry.signal α) then
      (a.window.pass (Telemetry.satisfies f) cursor []).found else [] := by
  unfold Feed.unread Feed.fetch Window.pass
  by_cases happlies : f.appliesTo (Telemetry.signal α)
  · by_cases hcursor : cursor < a.window.next
    · simp [happlies, hcursor, Nat.not_le.2 hcursor, Window.appendAll]
    · simp [happlies, hcursor, Nat.not_lt.1 hcursor]
  · simp [happlies]

end SignalHub
