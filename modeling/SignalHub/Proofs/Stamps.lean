import Mathlib.Data.List.Chain
import SignalHub.Proofs.Isolation
import SignalHub.Proofs.Twins
/-!
# When deltas were found

A delta bears the number of records that had been accepted when its feed looked. What it brings was
accepted up to then, and after the feed's last delta before it: the look that found that one took
all cursors to their heads, and cursors never go back. So of two deltas of a feed the later one has
a record that the earlier one is too old for, and it bears a larger number.

Results:
* `Delta.Fresh`: what a delta brings was accepted in a certain time.
* `Diary.Dated`: that time reaches from the delta before it to the look that found it.
* `Feed.Follows.fresh_poll`: so it is for a delta that a feed finds next.
* `World.Writes`: what can become of a diary.
* `Scene.dated_run`: all diaries are dated, after any deeds.
-/
namespace SignalHub

/-- Leaving out as many records of a signal as there are among the first `n` records. -/
theorem Record.drop_ofSignal (s : Signal) (n : Nat) (rs : List Record) :
    (ofSignal s rs).drop (ofSignal s (rs.take n)).length = ofSignal s (rs.drop n) := by
  have hsplit := ofSignal_append s (rs.take n) (rs.drop n)
  rw [List.take_append_drop] at hsplit
  rw [hsplit, List.drop_left]

/-! ## Deltas -/

namespace Delta

/-- The number that the last of some deltas bears, or zero if there are none. -/
def stamp (ds : List Delta) : Nat := (ds.getLast?.map (·.generation)).getD 0

@[simp] theorem stamp_concat (ds : List Delta) (x : Delta) : stamp (ds ++ [x]) = x.generation := by
  simp [stamp]

/-- What a delta brings are records that were accepted after the first `since` records, and before
the delta was found. It brings some. -/
structure Fresh (x : Delta) (since : Nat) (rs : List Record) : Prop where
  since_lt : since < x.generation
  generation_le : x.generation ≤ rs.length
  records : ∀ s, (x.records s).Sublist (Record.ofSignal s ((rs.take x.generation).drop since))

/-- Records that are accepted later do not matter. -/
theorem Fresh.grow {x : Delta} {since : Nat} {rs : List Record} (hx : x.Fresh since rs)
    (more : List Record) : x.Fresh since (rs ++ more) where
  since_lt := hx.since_lt
  generation_le := by
    rw [List.length_append]
    exact Nat.le_add_right_of_le hx.generation_le
  records s := by
    rw [List.take_append_of_le_length hx.generation_le]
    exact hx.records s

end Delta

/-- A list that ends in `a`, split before one of its elements. -/
theorem eq_or_exists_of_concat_eq {α : Type} {l before after : List α} {a x : α}
    (h : l ++ [a] = before ++ x :: after) :
    (before = l ∧ x = a) ∨ ∃ rest, l = before ++ x :: rest := by
  rcases List.eq_nil_or_concat' after with rfl | ⟨rest, b, rfl⟩
  · obtain ⟨hl, ha⟩ := List.append_inj' h rfl
    exact .inl ⟨hl.symm, (List.singleton_inj.1 ha).symm⟩
  · have h' : l ++ [a] = (before ++ x :: rest) ++ [b] := by simpa using h
    exact .inr ⟨rest, (List.append_inj' h' rfl).1⟩

/-! ## Diaries -/

/-- Each delta was found at a look, when as many records had been accepted as it says, and what it
brings was accepted after the delta before it. -/
structure Diary.Dated (d : Diary) (rs : List Record) : Prop where
  looked : ∀ x ∈ d.deltas, ∃ k ∈ d.looks, ∀ s,
    k.position s = (Record.ofSignal s (rs.take x.generation)).length
  fresh : ∀ before x after, d.deltas = before ++ x :: after → x.Fresh (Delta.stamp before) rs

namespace Diary

variable {d d' : Diary} {rs : List Record} {h : Hub} {f : Feed} {x : Delta}

theorem dated_opened (h : Hub) (b : PerSignal Nat) (rs : List Record) : (opened h b).Dated rs where
  looked := by simp [opened]
  fresh before x after hsplit := by simp [opened] at hsplit

namespace Dated

/-- What has been taken does not matter. -/
theorem congr (hd : d.Dated rs) (hlooks : d'.looks = d.looks) (hdeltas : d'.deltas = d.deltas) :
    d'.Dated rs := by
  refine ⟨fun x hx => ?_, fun before x after hsplit => hd.fresh before x after (hdeltas ▸ hsplit)⟩
  rw [hlooks]
  exact hd.looked x (hdeltas ▸ hx)

theorem generation_le (hd : d.Dated rs) (hx : x ∈ d.deltas) : x.generation ≤ rs.length := by
  obtain ⟨before, after, hsplit⟩ := List.append_of_mem hx
  exact (hd.fresh before x after hsplit).generation_le

theorem grow (hd : d.Dated rs) (more : List Record) : d.Dated (rs ++ more) where
  looked x hx := by
    rw [List.take_append_of_le_length (hd.generation_le hx)]
    exact hd.looked x hx
  fresh before x after hsplit := (hd.fresh before x after hsplit).grow more

/-- The deltas of a feed bear larger and larger numbers. -/
theorem pairwise (hd : d.Dated rs) : (d.deltas.map (·.generation)).Pairwise (· < ·) := by
  rw [← List.isChain_iff_pairwise, List.isChain_map,
    List.isChain_iff_forall_rel_of_append_cons_cons]
  intro x y before after hsplit
  have hfresh := hd.fresh (before ++ [x]) y after (by rw [hsplit]; simp)
  rw [Delta.stamp_concat] at hfresh
  exact hfresh.since_lt

end Dated

end Diary

namespace Feed

variable {f : Feed} {d : Diary} {h : Hub} {rs : List Record} {x : Delta}

/-- The cursors of a feed are not behind the look that found its last delta. -/
theorem Follows.stamp_le (hf : f.Follows d h rs) (hd : d.Dated rs) (s : Signal) :
    (Record.ofSignal s (rs.take (Delta.stamp d.deltas))).length ≤ f.cursor.get s := by
  rcases List.eq_nil_or_concat' d.deltas with hnil | ⟨before, x, hsplit⟩
  · rw [hnil]
    exact Nat.zero_le _
  · obtain ⟨k, hk, hposition⟩ := hd.looked x (by simp [hsplit])
    rw [hsplit, Delta.stamp_concat, ← hposition]
    exact hf.looks_le s k hk

theorem poll_eq_some (hx : (f.poll h).1 = some x) :
    f.paused = false ∧ x = f.look h ∧ x.isEmpty = false := by
  cases hp : f.paused with
  | true =>
    rw [poll_paused hp] at hx
    cases hx
  | false =>
    simp only [poll, hp, Bool.false_eq_true, if_false] at hx
    cases he : (f.look h).isEmpty with
    | true => simp [he] at hx
    | false =>
      simp only [he, Bool.false_eq_true, if_false, Option.some.injEq] at hx
      exact ⟨rfl, hx.symm, hx ▸ he⟩

/-- What a feed finds next was accepted after its last delta. -/
theorem Follows.fresh_poll (hf : f.Follows d h rs) (hh : h.Holds rs)
    (hg : h.bulletin.generation = rs.length) (hd : d.Dated rs) (hx : (f.poll h).1 = some x) :
    x.generation = rs.length ∧ x.Fresh (Delta.stamp d.deltas) rs := by
  obtain ⟨-, rfl, hsome⟩ := poll_eq_some hx
  have hgeneration : (f.look h).generation = rs.length := hg
  have hrecords : ∀ s, ((f.look h).records s).Sublist
      (Record.ofSignal s (rs.drop (Delta.stamp d.deltas))) := fun s => by
    rw [records_look hh, ← Record.drop_ofSignal]
    exact List.filter_sublist.trans
      (List.drop_sublist_drop_left _ (Nat.le_trans (hf.stamp_le hd s) (Nat.le_max_left _ _)))
  refine ⟨hgeneration, ?_, Nat.le_of_eq hgeneration, fun s => ?_⟩
  · -- If nothing had been accepted since, then there would be nothing in it.
    rw [hgeneration]
    refine Nat.lt_of_not_le fun hle => ?_
    rw [List.drop_eq_nil_of_le hle] at hrecords
    rw [(Delta.isEmpty_iff _).2 fun s => List.sublist_nil.1 (hrecords s)] at hsome
    cases hsome
  · rw [hgeneration, List.take_length]
    exact hrecords s

end Feed

/-- A poll keeps a diary dated. -/
theorem Diary.Dated.poll {d : Diary} {rs : List Record} {h : Hub} {f : Feed} (hd : d.Dated rs)
    (hf : f.Follows d h rs) (hh : h.Holds rs) (hg : h.bulletin.generation = rs.length) :
    (d.poll h f).Dated rs := by
  rw [Diary.poll]
  split
  · exact hd
  cases hx : (f.poll h).1 with
  | none =>
    refine ⟨fun x hxmem => ?_, fun before x after hsplit => hd.fresh before x after ?_⟩
    · obtain ⟨k, hk, hposition⟩ := hd.looked x (by simpa [look] using hxmem)
      exact ⟨k, List.mem_append_left _ hk, hposition⟩
    · simpa [look] using hsplit
  | some x =>
    obtain ⟨hgeneration, hfresh⟩ := hf.fresh_poll hh hg hd hx
    refine ⟨fun y hy => ?_, fun before y after hsplit => ?_⟩
    · rcases List.mem_append.1 hy with hy | hy
      · obtain ⟨k, hk, hposition⟩ := hd.looked y hy
        exact ⟨k, List.mem_append_left _ hk, hposition⟩
      · rw [Option.toList_some, List.mem_singleton] at hy
        refine ⟨h, List.mem_append_right _ (List.mem_singleton_self h), fun s => ?_⟩
        rw [hy, hgeneration, List.take_length, hh.position_eq]
    · rcases eq_or_exists_of_concat_eq hsplit with ⟨rfl, rfl⟩ | ⟨rest, hold⟩
      · exact hfresh
      · exact hd.fresh before y rest hold

/-! ## Worlds -/

namespace World

variable {w w' : World} {i id : Nat} {d : Diary}

/-- What an event can make of the diary of a number. -/
inductive Writes (w : World) (i : Nat) : Diary → Prop where
  | stays : Writes w i (w.diary i)
  /-- Somebody gets the number. -/
  | opens (hi : i = w.hub.bulletin.nextId) (b : PerSignal Nat) : Writes w i (.opened w.hub b)
  /-- The feed is polled by hand. -/
  | polls {f : Feed} (hf : f ∈ w.feeds) (hid : f.id = i) :
    Writes w i ((w.diary i).poll w.hub f).handOver
  /-- The courier of the feed looks. -/
  | looks {c : Courier} (hc : c ∈ w.couriers) (hid : c.feed.id = i) :
    Writes w i ((w.diary i).poll w.hub c.feed)
  | takes {c : Courier} {x : Delta} {rest : List Delta} (hc : c ∈ w.couriers)
    (hid : c.feed.id = i) (hq : c.sink.queue = x :: rest) : Writes w i ((w.diary i).take x)

/-- What is written into the diary of one number. -/
theorem writes_write (hdiary : w'.diary = w.diary) (hd : w.Writes id d) (i : Nat) :
    w.Writes i ((w'.write id d).diary i) := by
  by_cases hi : i = id
  · rw [hi, diary_write_self]
    exact hd
  · rw [diary_write_of_ne hi, hdiary]
    exact .stays

theorem writes_turn (w : World) (id i : Nat) : w.Writes i ((w.step (.turn id)).diary i) := by
  cases hc : w.site.courier? id with
  | none =>
    simp only [step, hc]
    exact .stays
  | some c =>
    obtain ⟨hmem, hid⟩ := mem_of_courier? hc
    simp only [step, hc]
    split
    · exact .stays
    · refine writes_write rfl ?_ i
      split
      · exact .looks hmem hid
      · exact .stays

theorem writes_take (w : World) (id i : Nat) : w.Writes i ((w.step (.take id)).diary i) := by
  cases hc : w.site.courier? id with
  | none =>
    simp only [step, Site.take, hc]
    exact .stays
  | some c =>
    obtain ⟨hmem, hid⟩ := mem_of_courier? hc
    cases hq : c.sink.queue with
    | nil =>
      simp only [step, Site.take, hc, Courier.take, hq]
      split
      · rename_i hended
        split at hended <;> cases hended
      · exact .stays
    | cons x rest =>
      simp only [step, Site.take, hc, Courier.take, hq]
      exact writes_write rfl (.takes hmem hid hq) i

/-- What an event makes of a diary. -/
theorem writes_step (w : World) (e : Event) (i : Nat) : w.Writes i ((w.step e).diary i) := by
  cases e with
  | attach f b =>
    cases hv : f.validate with
    | error e =>
      simp only [step, Feed.attach, hv]
      exact .stays
    | ok =>
      rw [step_attach w hv]
      exact writes_write rfl (.opens rfl b) i
  | live r =>
    simp only [step, openLive_eq]
    exact writes_write rfl (.opens rfl _) i
  | poll id =>
    cases hf : w.feed? id with
    | none =>
      simp only [step, hf]
      exact .stays
    | some f =>
      obtain ⟨hmem, hid⟩ := mem_of_feed? hf
      simp only [step, hf]
      exact writes_write rfl (.polls hmem hid) i
  | drop id | launch id =>
    simp only [step]
    split <;> exact .stays
  | turn id => exact w.writes_turn id i
  | take id => exact w.writes_take id i
  | record | pause | resume | close | leave | shutdown | advance => exact .stays

theorem writes_act (w : World) (a : Act) (i : Nat) : w.Writes i ((w.act a).diary i) := by
  cases a with
  | event e => exact w.writes_step e i
  | query about f => exact .stays
  | trace value => exact .stays
  | post s receivedAt r => exact .stays

/-- Whatever is written, a dated diary stays dated. -/
theorem Writes.dated (hd : w.Writes i d) (hw : w.Sound)
    (hg : w.hub.bulletin.generation = w.accepted.length) (hold : (w.diary i).Dated w.accepted) :
    d.Dated w.accepted := by
  cases hd with
  | stays => exact hold
  | opens hi b => exact Diary.dated_opened w.hub b w.accepted
  | polls hf hid =>
    subst hid
    exact (hold.poll (hw.feeds _ hf).follows hw.holds hg).congr rfl rfl
  | looks hc hid =>
    subst hid
    exact hold.poll (hw.couriers _ hc).follows hw.holds hg
  | takes => exact hold.congr rfl rfl

/-- What is added to the deltas of a diary: at most one, which bears the number of records that have
been accepted. -/
theorem Writes.exists_deltas (hd : w.Writes i d) (hblank : w.Blank)
    (hg : w.hub.bulletin.generation = w.accepted.length) :
    ∃ new : Option Delta, d.deltas = (w.diary i).deltas ++ new.toList ∧
      ∀ x ∈ new, x.generation = w.accepted.length := by
  have hpoll : ∀ f : Feed, ∃ new : Option Delta,
      ((w.diary i).poll w.hub f).deltas = (w.diary i).deltas ++ new.toList ∧
      ∀ x ∈ new, x.generation = w.accepted.length := fun f => by
    refine ⟨(f.poll w.hub).1, Diary.deltas_poll _ _ _, fun x hx => ?_⟩
    rw [(Feed.poll_eq_some hx).2.1]
    exact hg
  cases hd with
  | stays | takes => exact ⟨none, (List.append_nil _).symm, by simp⟩
  | opens hi b =>
    refine ⟨none, ?_, by simp⟩
    rw [(hblank i (Nat.le_of_eq hi.symm)).1]
    rfl
  | polls => exact hpoll _
  | looks => exact hpoll _

end World

/-! ## Scenes -/

namespace Scene

variable {s : Scene} {i : Nat}

theorem writes_step (s : Scene) (d : Deed) (i : Nat) :
    s.world.Writes i ((s.step d).world.diary i) := by
  cases d with
  | act a => exact s.world.writes_act a i
  | subscribe | switch => exact .stays
  | read | unsubscribe | release =>
    rw [step]
    split <;> exact .stays

/-- What holds of the deltas in all diaries, and of the count of records. -/
structure Dated (s : Scene) : Prop where
  generation_eq : s.hub.bulletin.generation = s.world.accepted.length
  diaries : ∀ i, (s.world.diary i).Dated s.world.accepted

theorem dated_start (storage : StorageSettings) (stream : StreamSettings) :
    (start storage stream).Dated where
  generation_eq := rfl
  diaries _ := Diary.dated_opened _ _ _

theorem Dated.step (hd : s.Dated) (hs : s.Sound) (d : Deed) : (s.step d).Dated where
  generation_eq := by
    rw [(s.twin_step d).generation_eq, Hub.generation_recordAll, hd.generation_eq, accepted_step,
      List.length_append]
  diaries i := by
    rw [accepted_step]
    exact ((s.writes_step d i).dated hs.world hd.generation_eq (hd.diaries i)).grow d.accepts

theorem dated_run (hd : s.Dated) (hs : s.Sound) (ds : List Deed) : (s.run ds).Dated := by
  induction ds generalizing s with
  | nil => exact hd
  | cons d ds ih => exact ih (hd.step hs d) (hs.step d)

end Scene

end SignalHub
