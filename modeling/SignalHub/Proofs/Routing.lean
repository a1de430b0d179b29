import Mathlib.Data.List.Infix
import SignalHub.Http.Service
/-!
# Where requests go

A path that is spelled out by a pattern without parameters falls to that pattern, whatever other
patterns stand beside it: no parameter catches it and no search is given up before.

Results:
* `Branch.stem_prefix_lead`: all branches begin with their stem.
* `Branch.match?_of_literal`: a path that is spelled out by a pattern.
-/
namespace SignalHub.Http

/-! ## Stems -/

theorem commonStart_prefix_left : ∀ bs cs : List UInt8, commonStart bs cs <+: bs
  | [], _ => by simp [commonStart]
  | _ :: _, [] => by simp [commonStart]
  | b :: bs, c :: cs => by
    rw [commonStart]
    split
    · exact (List.cons_prefix_cons).2 ⟨rfl, commonStart_prefix_left bs cs⟩
    · exact List.nil_prefix

theorem commonStart_prefix_right : ∀ bs cs : List UInt8, commonStart bs cs <+: cs
  | [], _ => by simp [commonStart]
  | _ :: _, [] => by simp [commonStart]
  | b :: bs, c :: cs => by
    rw [commonStart]
    split
    · rename_i h
      exact (List.cons_prefix_cons).2 ⟨h, commonStart_prefix_right bs cs⟩
    · exact List.nil_prefix

@[simp] theorem lead_map_literal (path : List UInt8) :
    Pattern.lead (path.map Part.literal) = path := by
  induction path with
  | nil => rfl
  | cons c path ih => rw [List.map_cons, Pattern.lead, ih]

/-- A pattern begins with any text that its lead begins with. -/
theorem eq_append_of_prefix_lead {p : Pattern} {s : List UInt8} (h : s <+: p.lead) :
    p = s.map Part.literal ++ p.drop s.length := by
  induction s generalizing p with
  | nil => rfl
  | cons c s ih =>
    match p with
    | [] | .param _ :: _ | .rest _ :: _ => simp [Pattern.lead] at h
    | .literal b :: p =>
      obtain ⟨rfl, hs⟩ := (List.cons_prefix_cons).1 h
      rw [List.map_cons, List.cons_append, List.length_cons, List.drop_succ_cons, ← ih hs]

theorem exists_lead_of_head {p : Pattern} {c : UInt8} (h : p.head? = some (.literal c)) :
    ∃ s, p.lead = c :: s := by
  match p with
  | .literal b :: p => cases h; exact ⟨_, rfl⟩

namespace Branch

variable {α : Type} {branches : List (Branch α)} {b : Branch α} {path : List UInt8} {c : UInt8}

theorem foldl_commonStart_prefix : ∀ (bs : List (Branch α)) (s : List UInt8),
    let t := bs.foldl (fun s b => commonStart s b.pattern.lead) s
    t <+: s ∧ ∀ b ∈ bs, t <+: b.pattern.lead
  | [], s => ⟨List.prefix_refl s, by simp⟩
  | b :: bs, s => by
    obtain ⟨hs, hbs⟩ := foldl_commonStart_prefix bs (commonStart s b.pattern.lead)
    refine ⟨hs.trans (commonStart_prefix_left _ _), fun a ha => ?_⟩
    rcases List.mem_cons.1 ha with rfl | ha
    · exact hs.trans (commonStart_prefix_right _ _)
    · exact hbs a ha

/-- All branches begin with their stem. -/
theorem stem_prefix_lead (hb : b ∈ branches) : stem branches <+: b.pattern.lead := by
  match branches with
  | b₀ :: bs =>
    obtain ⟨hs, hbs⟩ := foldl_commonStart_prefix bs b₀.pattern.lead
    rcases List.mem_cons.1 hb with rfl | hb
    · exact hs
    · exact hbs b hb

theorem pattern_eq_stem_append (hb : b ∈ branches) : b.pattern =
    (stem branches).map Part.literal ++ (b.skip (stem branches).length).pattern :=
  eq_append_of_prefix_lead (stem_prefix_lead hb)

theorem foldl_commonStart_cons : ∀ (bs : List (Branch α)) (s : List UInt8),
    (∀ b ∈ bs, b.pattern.head? = some (.literal c)) →
    ∃ t, bs.foldl (fun s b => commonStart s b.pattern.lead) (c :: s) = c :: t
  | [], s, _ => ⟨s, rfl⟩
  | b :: bs, s, h => by
    obtain ⟨t, ht⟩ := exists_lead_of_head (h b List.mem_cons_self)
    rw [List.foldl_cons, ht, commonStart, if_pos rfl]
    exact foldl_commonStart_cons bs _ fun a ha => h a (List.mem_cons_of_mem _ ha)

/-- Branches that all go on with the same byte have it in their stem. -/
theorem exists_stem_of_head (hb : b ∈ branches)
    (h : ∀ b ∈ branches, b.pattern.head? = some (.literal c)) : ∃ t, stem branches = c :: t := by
  match branches with
  | b₀ :: bs =>
    obtain ⟨s, hs⟩ := exists_lead_of_head (h b₀ List.mem_cons_self)
    rw [stem, hs]
    exact foldl_commonStart_cons bs s fun a ha => h a (List.mem_cons_of_mem _ ha)

/-! ## Searching -/

/-- The path falls to a branch whose pattern spells it out. -/
def Falls (steps : Nat) (branches : List (Branch α)) (path : List UInt8) : Prop :=
  ∃ b ∈ branches, b.pattern = path.map Part.literal ∧
    search steps branches path = .found b.target []

/-- What a search comes to at the end of a path that some branch spells out. -/
theorem atEnd_of_ended (s : List UInt8) (hb : b ∈ branches) (hp : b.pattern = []) :
    ∃ a ∈ branches, a.pattern = [] ∧ atEnd s branches = .found a.target [] := by
  have hsome : (branches.findSome? ended?).isSome :=
    List.findSome?_isSome_iff.2 ⟨b, hb, by simp [ended?, hp]⟩
  obtain ⟨t, ht⟩ := Option.isSome_iff_exists.1 hsome
  obtain ⟨a, ha, hat⟩ := List.exists_of_findSome?_eq_some ht
  rw [ended?] at hat
  split at hat
  · rename_i hnil
    cases hat
    exact ⟨a, ha, hnil, by rw [atEnd, ht]⟩
  · cases hat

/-- A search goes on behind the stem among the branches that go on as the path does. -/
theorem falls_succ {n : Nat} (hb : b ∈ branches) (hp : b.pattern = path.map Part.literal)
    (hrest : ∀ c cs, path = stem branches ++ c :: cs →
      Falls n (literally c (branches.map (skip (stem branches).length))) (c :: cs)) :
    Falls (n + 1) branches path := by
  have hlead := stem_prefix_lead hb
  rw [hp, lead_map_literal] at hlead
  obtain ⟨rest, hpath⟩ := hlead
  have hdrop : path.drop (stem branches).length = rest := by
    rw [← hpath, List.drop_left]
  have hstem : (stem branches).isPrefixOf path := by
    rw [List.isPrefixOf_iff_prefix]; exact ⟨rest, hpath⟩
  cases rest with
  | nil =>
    -- The path ends with the stem. Another branch may end there too and be found first.
    have hend : (b.skip (stem branches).length).pattern = [] := by
      rw [skip, hp, ← List.map_drop, hdrop, List.map_nil]
    obtain ⟨a, ha, hnil, hfound⟩ :=
      atEnd_of_ended (stem branches) (List.mem_map_of_mem hb) hend
    obtain ⟨a₀, ha₀, rfl⟩ := List.mem_map.1 ha
    refine ⟨a₀, ha₀, ?_, ?_⟩
    · rw [pattern_eq_stem_append ha₀, hnil, ← hpath, List.append_nil, List.append_nil]
    · simp only [search, hstem, if_true, hdrop]
      exact hfound
  | cons c cs =>
    -- The branches that go on with `c` are searched first, and that search is not given up.
    obtain ⟨a, ha, hpat, hfound⟩ := hrest c cs hpath.symm
    obtain ⟨a₀, ha₀, rfl⟩ := List.mem_map.1 (List.mem_filter.1 ha).1
    refine ⟨a₀, ha₀, ?_, ?_⟩
    · rw [pattern_eq_stem_append ha₀, hpat, ← hpath, List.map_append]
    · simp only [search, hstem, if_true, hdrop]
      split
      · rename_i hnone; rw [hnone] at ha; cases ha
      · rw [hfound]; rfl

theorem skip_mem_literally {cs : List UInt8} (hb : b ∈ branches)
    (hp : b.pattern = path.map Part.literal) (hpath : path = stem branches ++ c :: cs) :
    b.skip (stem branches).length ∈ literally c (branches.map (skip (stem branches).length)) ∧
      (b.skip (stem branches).length).pattern = (c :: cs).map Part.literal := by
  have hpat : (b.skip (stem branches).length).pattern = (c :: cs).map Part.literal := by
    rw [skip, hp, ← List.map_drop, hpath, List.drop_left]
  exact ⟨List.mem_filter.2 ⟨List.mem_map_of_mem hb, by rw [hpat]; simp⟩, hpat⟩

theorem head_of_mem_literally (h : b ∈ literally c branches) :
    b.pattern.head? = some (.literal c) := by
  simpa using (List.mem_filter.1 h).2

/-- Among branches that all go on with the same byte every search takes that byte at least, so the
length of the path is enough. -/
theorem falls_of_head (n : Nat) {cs : List UInt8} (hn : cs.length < n)
    (hhead : ∀ b ∈ branches, b.pattern.head? = some (.literal c)) (hb : b ∈ branches)
    (hp : b.pattern = (c :: cs).map Part.literal) : Falls n branches (c :: cs) := by
  induction n generalizing c cs branches b with
  | zero => omega
  | succ n ih =>
    refine falls_succ hb hp fun d ds hpath => ?_
    obtain ⟨t, ht⟩ := exists_stem_of_head hb hhead
    obtain ⟨hmem, hpat⟩ := skip_mem_literally hb hp hpath
    have hlen : cs.length = t.length + (ds.length + 1) := by
      have h := congrArg List.length hpath
      simp [ht] at h
      omega
    exact ih (by omega) (fun a ha => head_of_mem_literally ha) hmem hpat

/-- A path falls to a pattern that spells it out, whatever other patterns there are. -/
theorem match?_of_literal (hb : b ∈ branches) (hp : b.pattern = path.map Part.literal) :
    ∃ a ∈ branches, a.pattern = path.map Part.literal ∧
      match? branches path = some (a.target, []) := by
  obtain ⟨a, ha, hpat, hfound⟩ : Falls (path.length + 2) branches path := by
    refine falls_succ hb hp fun c cs hpath => ?_
    obtain ⟨hmem, hpat⟩ := skip_mem_literally hb hp hpath
    have hlen := congrArg List.length hpath
    rw [List.length_append, List.length_cons] at hlen
    exact falls_of_head _ (by omega) (fun a ha => head_of_mem_literally ha) hmem hpat
  exact ⟨a, ha, hpat, by rw [match?, hfound]; rfl⟩

end Branch

end SignalHub.Http
