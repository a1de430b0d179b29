import SignalHub.Proofs.Concurrency
/-!
# A courier that begins no turn

A courier that was called to stop ends when it next asks whether it was, and one whose feed is
paused does not look once it has asked whether it is. Until then the turn under way goes on: it
reads the heads that are left to be read, each of them once, and may yield a delta. So the reader
gets what was in the sink, and after that one delta at most, which is the one in hand or the one
that the turn yields.

Results:
* `Courier.Stilled`: a courier that was called to stop, or whose feed is paused.
* `Courier.Finishes`: no turn was begun since, and one at most was finished.
* `Courier.Finishes.strides`, `Courier.Finishes.undergoes`: this goes on as long as it is stilled.
-/
namespace SignalHub

namespace Courier

variable {now : Nat} {h h' : Hub} {c c₀ c' : Courier} {g g' : Stage} {d d₀ d' : Diary}
  {o : Occurrence} {left left₀ left' : Option (List Signal)} {paused : Bool}

/-- A courier that begins no turn: its feed is paused, or it was called to stop. -/
def Stilled (paused : Bool) (c : Courier) : Prop :=
  if paused then c.feed.paused = true else c.listener = .called

theorem Stilled.strides (hq : c.Stilled paused) (hs : c.Strides now h g h' c' g') :
    c'.Stilled paused := by
  cases paused with
  | true => exact hs.paused_eq.trans hq
  | false =>
    have hl : c.listener = .called := hq
    exact (hs.listener_eq (by rw [hl]; exact Listener.noConfusion)).trans hl

theorem Stilled.undergoes (hq : c.Stilled paused) (hu : c.Undergoes o d c' d')
    (ho : paused = true → o ≠ .event (.resume c.feed.id)) : c'.Stilled paused := by
  cases hu with
  | stays | takes | closes | leaves => exact hq
  | pauses =>
    cases paused with
    | true => rfl
    | false => exact hq
  | resumes =>
    cases paused with
    | true => exact absurd rfl (ho rfl)
    | false => exact hq
  | hears =>
    unfold call
    split
    · cases paused with
      | true => exact hq
      | false => rfl
    · exact hq
  | hushes =>
    cases paused with
    | true => exact (congrArg Feed.paused c.feed_forsake).trans hq
    | false =>
      have hl : c.listener = .called := hq
      rw [forsake, if_neg (by rw [hl]; exact Listener.noConfusion)]
      exact hl

/-- What can still reach the reader: what is in the sink, and what is in hand unless the sink is
closed. -/
def stock (c : Courier) : List Delta := c.sink.queue ++ if c.sink.isOpen then c.inHand else []

theorem stock_le (c : Courier) : c.stock <+: c.sink.queue ++ c.inHand := by
  unfold stock
  split
  · exact List.prefix_rfl
  · rw [List.append_nil]
    exact List.prefix_append _ _

theorem stock_of_isOpen (ho : c.sink.isOpen) : c.stock = c.sink.queue ++ c.inHand := by
  rw [stock, if_pos ho]

theorem stock_of_waiting (hp : c.phase = .waiting) : c.stock = c.sink.queue := by
  rw [stock, inHand, hp, ite_self, List.append_nil]

theorem length_inHand_le (c : Courier) : c.inHand.length ≤ 1 := by
  unfold inHand
  split
  · exact Nat.le_refl 1
  · exact Nat.zero_le 1

/-- From then to now no turn was begun, and at most what was left of one was finished. -/
structure Finishes (left₀ : Option (List Signal)) (c₀ : Courier) (d₀ : Diary)
    (left : Option (List Signal)) (c : Courier) (d : Diary) : Prop where
  none_begun : left₀ = none → left = none
  less_left : left.getD [] <:+ left₀.getD []
  /-- A cursor moves only if its head was still to be read, -/
  cursor_eq : ∀ s, s ∉ left₀.getD [] → c.feed.cursor.get s = c₀.feed.cursor.get s
  /-- and not before it is read. -/
  unread : ∀ s ∈ left.getD [], c.feed.cursor.get s = c₀.feed.cursor.get s
  /-- The reader gets what was in the sink, and at most one delta more. -/
  sent : ∃ got last, d.taken = d₀.taken ++ got ∧ last.length ≤ 1 ∧
    (left₀ = none → last = c₀.inHand) ∧ (left ≠ none → last = []) ∧
    got ++ c.stock <+: c₀.sink.queue ++ last ∧
    (c.sink.isOpen → got ++ c.stock = c₀.sink.queue ++ last)

theorem finishes_self (d : Diary) (hp : left ≠ none → c.phase = .waiting) :
    Finishes left c d left c d where
  none_begun h := h
  less_left := List.suffix_rfl
  cursor_eq _ _ := rfl
  unread _ _ := rfl
  sent := by
    refine ⟨[], c.inHand, (List.append_nil _).symm, c.length_inHand_le, fun _ => rfl,
      fun hleft => ?_, c.stock_le, fun ho => stock_of_isOpen ho⟩
    rw [inHand, hp hleft]

/-- The courier has not moved, and the turn has gone on or has ended. -/
theorem Finishes.stand (hf : Finishes left₀ c₀ d₀ left c d) (hleft : left' = left ∨ left' = none)
    (hcursor : c'.feed.cursor = c.feed.cursor) (htaken : d'.taken = d.taken)
    (hstock : c'.stock <+: c.stock)
    (hopen : c'.sink.isOpen → c.sink.isOpen ∧ c'.stock = c.stock) :
    Finishes left₀ c₀ d₀ left' c' d' := by
  obtain ⟨got, last, hgot, hlen, hnone, hsome, hprefix, heq⟩ := hf.sent
  refine ⟨fun h₀ => ?_, ?_, fun s hs => ?_, fun s hs => ?_, got, last, htaken.trans hgot, hlen,
    hnone, fun hne => ?_, ?_, fun ho => ?_⟩
  · rcases hleft with rfl | rfl
    · exact hf.none_begun h₀
    · rfl
  · rcases hleft with rfl | rfl
    · exact hf.less_left
    · exact List.nil_suffix
  · rw [hcursor]
    exact hf.cursor_eq s hs
  · rw [hcursor]
    rcases hleft with rfl | rfl
    · exact hf.unread s hs
    · cases hs
  · rcases hleft with rfl | rfl
    · exact hsome hne
    · exact absurd rfl hne
  · exact ((List.prefix_append_right_inj got).2 hstock).trans hprefix
  · obtain ⟨ho', hsame⟩ := hopen ho
    rw [hsame]
    exact heq ho'

/-- The head of an archive is read, which was still to be read. -/
theorem Finishes.reach {s : Signal} (hf : Finishes left₀ c₀ d₀ (some (s :: s.later)) c d)
    (h : Hub) :
    Finishes left₀ c₀ d₀ (some s.later) { c with feed := c.feed.reach h s } d := by
  have hs : s ∈ left₀.getD [] := hf.less_left.subset List.mem_cons_self
  have hlater : s ∉ s.later := by cases s <;> decide
  obtain ⟨got, last, hgot, hlen, hnone, hsome, hprefix, heq⟩ := hf.sent
  refine ⟨fun h₀ => ?_, ?_, fun t ht => ?_, fun t ht => ?_, got, last, hgot, hlen, hnone,
    fun _ => hsome (Option.some_ne_none _), hprefix, heq⟩
  · cases hf.none_begun h₀
  · exact (List.suffix_cons s s.later).trans hf.less_left
  · have hne : t ≠ s := fun he => ht (he ▸ hs)
    exact (Feed.cursor_reach_of_ne hne).trans (hf.cursor_eq t ht)
  · have hne : t ≠ s := fun he => hlater (he ▸ ht)
    exact (Feed.cursor_reach_of_ne hne).trans (hf.unread t (List.mem_cons_of_mem s ht))

/-- The last archive has been read, and there is something to deliver. -/
theorem Finishes.hold {l : List Signal} (hf : Finishes left₀ c₀ d₀ (some l) c d)
    (hp : c.phase = .waiting) (x : Delta) :
    Finishes left₀ c₀ d₀ none { c with phase := .holding x } d := by
  obtain ⟨got, last, hgot, hlen, hnone, hsome, hprefix, heq⟩ := hf.sent
  obtain rfl : last = [] := hsome (Option.some_ne_none _)
  rw [stock_of_waiting hp, List.append_nil] at hprefix heq
  refine ⟨fun _ => rfl, List.nil_suffix, hf.cursor_eq, fun _ ht => (by cases ht), got,
    if c.sink.isOpen then [x] else [], hgot, ?_, fun h₀ => ?_, fun hne => absurd rfl hne, ?_,
    fun ho => ?_⟩
  · split
    · exact Nat.le_refl 1
    · exact Nat.zero_le 1
  · cases hf.none_begun h₀
  · show got ++ (c.sink.queue ++ if c.sink.isOpen then [x] else []) <+: _
    split
    · rename_i ho
      rw [← List.append_assoc, heq ho]
    · rw [List.append_nil, List.append_nil]
      exact hprefix
  · show got ++ (c.sink.queue ++ if c.sink.isOpen then [x] else []) = _
    rw [if_pos ho, ← List.append_assoc, heq ho]

/-- A courier that begins no turn finishes the one under way, if there is one. -/
theorem Finishes.strides (hf : Finishes left₀ c₀ d₀ (g.left paused) c d) (hq : c.Stilled paused)
    (hs : c.Strides now h g h' c' g') : Finishes left₀ c₀ d₀ (g'.left paused) c' d := by
  have hgoes (hleft : g'.left paused = g.left paused) : Finishes left₀ c₀ d₀ (g'.left paused) c d :=
    hf.stand (.inl hleft) rfl rfl List.prefix_rfl fun ho => ⟨ho, rfl⟩
  have hstops (hleft : g'.left paused = none) : Finishes left₀ c₀ d₀ (g'.left paused) c d :=
    hf.stand (.inr hleft) rfl rfl List.prefix_rfl fun ho => ⟨ho, rfl⟩
  cases hs with
  | ends _ hl =>
    refine hf.stand (.inr rfl) rfl rfl ?_ fun ho => ⟨ho, ?_⟩
    · show c.sink.queue ++ (if c.sink.isOpen then [] else []) <+: _
      rw [ite_self, List.append_nil]
      exact List.prefix_append _ _
    · have hwaiting : c.phase = .waiting := by
        cases hl with
        | refused _ hclosed => exact absurd ho (by rw [hclosed]; exact Bool.false_ne_true)
        | ticksTooFast hp | called hp | closed hp | forgotten hp => exact hp
      rw [stock_of_waiting hwaiting]
      show c.sink.queue ++ (if c.sink.isOpen then [] else []) = _
      rw [ite_self, List.append_nil]
  | @puts _ x hp ho =>
    have hstock : stock { c with
        sink := { c.sink with queue := c.sink.queue ++ [x] }, phase := .waiting } = c.stock := by
      rw [stock_of_waiting rfl, stock_of_isOpen ho, inHand, hp]
    exact hf.stand (.inr rfl) rfl rfl (hstock ▸ List.prefix_rfl) fun _ => ⟨ho, hstock⟩
  | rests => exact hstops rfl
  | begins _ _ hc =>
    cases paused with
    | true => exact hstops rfl
    | false => exact absurd hq hc
  | asks hasks => exact hgoes (by cases hasks <;> rfl)
  | rouses hg =>
    cases paused with
    | true => exact hf.stand (.inr rfl) rfl rfl List.prefix_rfl fun ho => ⟨ho, rfl⟩
    | false =>
      rcases hg with ⟨-, habandoned⟩ | hrousing
      · have hcalled : c.listener = .called := hq
        rw [hcalled] at habandoned
        cases habandoned
      · refine hf.stand (.inl ?_) rfl rfl List.prefix_rfl fun ho => ⟨ho, rfl⟩
        cases hrousing <;> rfl
  | refrains => exact hstops rfl
  | goesOn _ hpaused =>
    cases paused with
    | true =>
      have hp : c.feed.paused = true := hq
      rw [hp] at hpaused
      cases hpaused
    | false => exact hgoes rfl
  | looks => exact hgoes rfl
  | reaches => exact hf.reach h
  | gathers _ hs => exact hgoes (congrArg some hs.symm)
  | finds => exact hstops rfl
  | holds hp => exact hf.hold hp _

theorem Finishes.undergoes (hf : Finishes left₀ c₀ d₀ left c d) (hu : c.Undergoes o d c' d') :
    Finishes left₀ c₀ d₀ left c' d' := by
  cases hu with
  | stays | pauses | resumes =>
    exact hf.stand (.inl rfl) rfl rfl List.prefix_rfl fun ho => ⟨ho, rfl⟩
  | @takes _ x rest hq =>
    obtain ⟨got, last, hgot, hlen, hnone, hsome, hprefix, heq⟩ := hf.sent
    have hmoved : (got ++ [x]) ++ stock { c with sink := { c.sink with queue := rest } } =
        got ++ c.stock := by
      rw [stock, stock, hq]
      simp [inHand]
    refine ⟨hf.none_begun, hf.less_left, hf.cursor_eq, hf.unread, got ++ [x], last, ?_, hlen, hnone,
      hsome, by rw [hmoved]; exact hprefix, fun ho => by rw [hmoved]; exact heq ho⟩
    rw [Diary.take, hgot, List.append_assoc]
  | closes =>
    refine hf.stand (.inl rfl) rfl rfl ?_ fun ho => by cases ho
    show c.sink.queue ++ [] <+: _
    rw [List.append_nil]
    exact List.prefix_append _ _
  | leaves => exact hf.stand (.inl rfl) rfl rfl (List.nil_prefix) fun ho => by cases ho
  | hears =>
    unfold call
    split <;> exact hf.stand (.inl rfl) rfl rfl List.prefix_rfl fun ho => ⟨ho, rfl⟩
  | hushes =>
    unfold forsake
    split <;> exact hf.stand (.inl rfl) rfl rfl List.prefix_rfl fun ho => ⟨ho, rfl⟩

theorem Finishes.happens (hf : Finishes left₀ c₀ d₀ (g.left paused) c d) (hq : c.Stilled paused)
    (hh : c.Happens now h g d o c' g' d')
    (ho : paused = true → o ≠ .event (.resume c.feed.id)) :
    c'.Stilled paused ∧ Finishes left₀ c₀ d₀ (g'.left paused) c' d' := by
  cases hh with
  | strides hs => exact ⟨hq.strides hs, hf.strides hq hs⟩
  | undergoes hu => exact ⟨hq.undergoes hu ho, hf.undergoes hu⟩

/-- A call stills whoever hears it. -/
theorem Finishes.called (hf : Finishes left₀ c₀ d₀ (g.left false) c d)
    (hh : c.Happens now h g d (.event .shutdown) c' g' d')
    (hc : c.listener = .listening ∨ c.listener = .called) :
    c'.Stilled false ∧ Finishes left₀ c₀ d₀ (g'.left false) c' d' := by
  cases hh with
  | undergoes hu =>
    refine ⟨?_, hf.undergoes hu⟩
    cases hu with
    | stays ho => exact absurd rfl ho.1
    | hears =>
      show c.call.listener = .called
      unfold call
      split
      · rfl
      · exact hc.resolve_left ‹_›

end Courier

end SignalHub
