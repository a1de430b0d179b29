import SignalHub.Proofs.Concurrency
/-!
# What is on its way to a reader

A delta is put together signal by signal, and more records may be accepted meanwhile. But a feed
moves its cursor to the head before it reads the records below it. So whatever is on its way are
records that the feed has passed: the part of a delta that is put together, the delta in hand, those
in the sink, and those that the reader has taken.

Results:
* `Feed.Passed`: the records of a delta lie behind the cursors of a feed.
* `Feed.fetch_sublist`: what is read below a head are records below it.
* `Courier.Keeps.strides`, `Courier.Keeps.undergoes`: whatever is on its way has been passed.
-/
namespace SignalHub

namespace Feed

variable {f f' : Feed} {rs rs' : List Record} {x : Delta} {h : Hub}

/-- The records of a delta are among those that the feed has passed. -/
def Passed (f : Feed) (rs : List Record) (x : Delta) : Prop :=
  ∀ s, (x.records s).Sublist ((Record.ofSignal s rs).take (f.cursor.get s))

/-- What has been passed stays passed. -/
theorem Passed.mono (hx : f.Passed rs x) (hc : ∀ s, f.cursor.get s ≤ f'.cursor.get s)
    (hrs : rs <+: rs') : f'.Passed rs' x := by
  intro s
  obtain ⟨more, rfl⟩ := hrs
  apply (hx s).trans
  rw [Record.ofSignal_append]
  apply List.IsPrefix.sublist
  apply (List.take_prefix_take_left (hc s)).trans
  rw [List.take_append]
  exact List.prefix_append _ _

theorem passed_blank (f : Feed) (rs : List Record) (n : Nat) : f.Passed rs (.blank n) := by
  intro s
  cases s <;> exact List.nil_sublist _

/-- What is read below a head are records below it, whatever has been appended since. -/
theorem fetch_sublist {α : Type} [Telemetry α] {a : Archive α} {log : List α}
    (h : a.window.Holds log) (f : Filter) (lo head : Nat) :
    (fetch a f lo head).Sublist (log.take head) := by
  unfold fetch
  split
  · exact List.nil_sublist _
  · rename_i hread
    rw [not_or] at hread
    have hhead : head - 1 + 1 - max lo a.window.first ≤ head - max lo a.window.first := by omega
    rw [Window.rangeWhere, h.range_eq]
    apply List.filter_sublist.trans
    apply (List.take_prefix_take_left hhead).sublist.trans
    rw [← List.drop_take]
    exact List.drop_sublist _ _

theorem records_gather_of_ne (h : Hub) (f : Feed) (lo head : Nat) (d : Delta) {s t : Signal}
    (ht : t ≠ s) : (f.gather h lo head d s).records t = d.records t := by
  cases s <;> cases t <;> first | rfl | exact absurd rfl ht

theorem records_gather_sublist (hh : h.Holds rs) (f : Feed) (lo head : Nat) (d : Delta)
    (s : Signal) :
    ((f.gather h lo head d s).records s).Sublist ((Record.ofSignal s rs).take head) := by
  cases s with
  | traces =>
    rw [← Record.map_span_filterMap, ← List.map_take]
    exact (fetch_sublist hh.spans f.filter lo head).map _
  | logs =>
    rw [← Record.map_log_filterMap, ← List.map_take]
    exact (fetch_sublist hh.logs f.filter lo head).map _
  | metrics =>
    rw [← Record.map_metric_filterMap, ← List.map_take]
    exact (fetch_sublist hh.metrics f.filter lo head).map _

theorem Passed.gather (hx : f.Passed rs x) (hh : h.Holds rs) {s : Signal} {head : Nat}
    (hhead : head ≤ f.cursor.get s) (lo : Nat) : f.Passed rs (f.gather h lo head x s) := by
  intro t
  by_cases ht : t = s
  · subst ht
    exact (records_gather_sublist hh f lo head x t).trans
      (List.take_prefix_take_left hhead).sublist
  · rw [records_gather_of_ne h f lo head x ht]
    exact hx t

end Feed

/-- What a feed has put together has been passed, and so has what it is to read next. -/
def Stage.Drafts (f : Feed) (rs : List Record) : Stage → Prop
  | .atHead _ d => f.Passed rs d
  | .atRange s _ head d => f.Passed rs d ∧ head ≤ f.cursor.get s
  | _ => True

theorem Stage.Drafts.mono {f f' : Feed} {rs rs' : List Record} {g : Stage} (hg : g.Drafts f rs)
    (hc : ∀ s, f.cursor.get s ≤ f'.cursor.get s) (hrs : rs <+: rs') : g.Drafts f' rs' := by
  cases g with
  | atHead s d => exact Feed.Passed.mono hg hc hrs
  | atRange s lo head d => exact ⟨hg.1.mono hc hrs, Nat.le_trans hg.2 (hc s)⟩
  | _ => trivial

namespace Courier

variable {now : Nat} {h h' : Hub} {rs rs' : List Record} {c c' : Courier} {g g' : Stage}
  {d d' : Diary} {o : Occurrence}

/-- Whatever is on its way to the reader, or has reached it, are records that the feed has
passed. -/
structure Keeps (c : Courier) (g : Stage) (d : Diary) (rs : List Record) : Prop where
  taken : ∀ x ∈ d.taken, c.feed.Passed rs x
  queued : ∀ x ∈ c.sink.queue, c.feed.Passed rs x
  held : ∀ x ∈ c.inHand, c.feed.Passed rs x
  drafted : g.Drafts c.feed rs

theorem Keeps.mono (hk : c.Keeps g d rs) (hc : ∀ s, c.feed.cursor.get s ≤ c'.feed.cursor.get s)
    (hrs : rs <+: rs') (hqueue : ∀ x ∈ c'.sink.queue, x ∈ c.sink.queue)
    (hhand : c'.inHand = c.inHand) : c'.Keeps g d rs' where
  taken x hx := (hk.taken x hx).mono hc hrs
  queued x hx := (hk.queued x (hqueue x hx)).mono hc hrs
  held x hx := (hk.held x (hhand ▸ hx)).mono hc hrs
  drafted := hk.drafted.mono hc hrs

theorem Keeps.strides (hk : c.Keeps g d rs) (hh : h.Holds rs)
    (hs : c.Strides now h g h' c' g') : c'.Keeps g' d rs := by
  cases hs with
  | ends => exact ⟨hk.taken, hk.queued, fun _ hx => (by cases hx), trivial⟩
  | puts g hp =>
    refine ⟨hk.taken, fun x hx => ?_, fun _ hx => (by cases hx), trivial⟩
    rcases List.mem_append.1 hx with hx | hx
    · exact hk.queued x hx
    · exact hk.held x (by rw [inHand, hp]; exact hx)
  | rests | begins | refrains | goesOn | finds => exact ⟨hk.taken, hk.queued, hk.held, trivial⟩
  | asks hq => exact ⟨hk.taken, hk.queued, hk.held, by cases hq <;> trivial⟩
  | rouses => exact ⟨hk.taken, hk.queued, hk.held, trivial⟩
  | looks => exact ⟨hk.taken, hk.queued, hk.held, c.feed.passed_blank rs _⟩
  | reaches hp s x =>
    have hle := c.feed.le_cursor_reach h s
    refine ⟨fun y hy => (hk.taken y hy).mono hle List.prefix_rfl,
      fun y hy => (hk.queued y hy).mono hle List.prefix_rfl,
      fun y hy => (hk.held y hy).mono hle List.prefix_rfl, ?_⟩
    exact ⟨hk.drafted.mono hle List.prefix_rfl, c.feed.position_le_cursor_reach h s⟩
  | gathers hp hs lo head x =>
    obtain ⟨hx, hhead⟩ := hk.drafted
    exact ⟨hk.taken, hk.queued, hk.held, hx.gather hh hhead lo⟩
  | holds hp lo head x =>
    obtain ⟨hx, hhead⟩ := hk.drafted
    refine ⟨hk.taken, hk.queued, fun y hy => ?_, trivial⟩
    rw [List.mem_singleton.1 hy]
    exact hx.gather hh hhead lo

theorem Keeps.undergoes (hk : c.Keeps g d rs) (hu : c.Undergoes o d c' d') (hrs : rs <+: rs') :
    c'.Keeps g d' rs' := by
  have hle : ∀ s, c.feed.cursor.get s ≤ c.feed.cursor.get s := fun s => Nat.le_refl _
  cases hu with
  | stays | pauses | resumes | closes => exact hk.mono hle hrs (fun _ hx => hx) rfl
  | @takes _ x rest hq =>
    have hsub : ∀ y ∈ rest, y ∈ c.sink.queue := by
      intro y hy
      rw [hq]
      exact List.mem_cons_of_mem x hy
    have hrest : Keeps { c with sink := { c.sink with queue := rest } } g d rs' :=
      hk.mono hle hrs hsub rfl
    refine ⟨fun y hy => ?_, hrest.queued, hrest.held, hrest.drafted⟩
    rcases List.mem_append.1 hy with hy | hy
    · exact hrest.taken y hy
    · have hhead : x ∈ c.sink.queue := by
        rw [hq]
        exact List.mem_cons_self
      rw [List.mem_singleton.1 hy]
      exact (hk.queued x hhead).mono hle hrs
  | leaves => exact hk.mono hle hrs (fun _ hx => by cases hx) rfl
  | hears =>
    unfold call
    split <;> exact hk.mono hle hrs (fun _ hx => hx) rfl
  | hushes =>
    unfold forsake
    split <;> exact hk.mono hle hrs (fun _ hx => hx) rfl

/-- Whatever happens, what is on its way has been passed. -/
theorem Keeps.happens (hk : c.Keeps g d rs) (hh : h.Holds rs)
    (ho : c.Happens now h g d o c' g' d') (hrs : rs <+: rs') : c'.Keeps g' d' rs' := by
  cases ho with
  | strides hs =>
    have hle : ∀ s, c'.feed.cursor.get s ≤ c'.feed.cursor.get s := fun s => Nat.le_refl _
    exact (hk.strides hh hs).mono hle hrs (fun _ hx => hx) rfl
  | undergoes hu => exact hk.undergoes hu hrs

end Courier

end SignalHub
