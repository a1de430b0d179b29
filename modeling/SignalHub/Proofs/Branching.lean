import SignalHub.Proofs.Spelling
/-!
# Paths among branches

A branch that no other one conflicts with is alone with its shape. A search for a path that such a
branch covers gets to its parameter whatever other branches there are, and there the branches that
go on with the next byte of the path are followed first: the parameter gets the path if they miss
it.

A path may also spell the parameters of a pattern, as the text of the pattern itself does. No other
branch has the byte that a parameter is spelled with, so that the path is found.

Results:
* `Branch.search_value`: a path at the parameter of a branch.
* `Branch.search_spelled`: the path that spells a pattern.
-/
namespace SignalHub.Http.Branch

variable {α : Type} {branches : List (Branch α)} {b : Branch α} {c : UInt8} {n : Nat}
  {s cs path value : List UInt8} {name : List UInt8}

/-! ## Branches that are alone -/

/-- A branch that no other one conflicts with. -/
structure Alone (b : Branch α) (branches : List (Branch α)) : Prop where
  mem : b ∈ branches
  unique : ∀ k ∈ branches, k.pattern.conflicts b.pattern → k = b

theorem Alone.filter (h : Alone b branches) {keep : Branch α → Bool} (hb : keep b) :
    Alone b (branches.filter keep) :=
  ⟨List.mem_filter.2 ⟨h.mem, hb⟩, fun k hk => h.unique k (List.mem_of_mem_filter hk)⟩

theorem Alone.literally (h : Alone b branches) (hb : b.pattern.head? = some (.literal c)) :
    Alone b (literally c branches) :=
  h.filter (by simp [hb])

/-- Branches that part behind the stem conflict as before. -/
theorem Alone.behindStem (h : Alone b branches) :
    Alone (b.skip (stem branches).length) (branches.map (skip (stem branches).length)) := by
  refine ⟨List.mem_map_of_mem h.mem, fun k hk hconflicts => ?_⟩
  obtain ⟨k₀, hk₀, rfl⟩ := List.mem_map.1 hk
  rw [h.unique k₀ hk₀]
  rw [pattern_eq_stem_append hk₀, pattern_eq_stem_append h.mem, Pattern.conflicts_literals]
  exact hconflicts

theorem Alone.behindParam (h : Alone b branches) {p : Pattern}
    (hp : b.pattern = .param name :: p) : Alone (b.skip 1) (behindParam branches) := by
  refine ⟨List.mem_map_of_mem (List.mem_filter.2 ⟨h.mem, by simp [hp, Part.isParam]⟩),
    fun k hk hconflicts => ?_⟩
  obtain ⟨k₀, hk₀, rfl, _, hpat⟩ := mem_behindParam hk
  have hskip : (b.skip 1).pattern = p := by rw [skip, hp]; rfl
  rw [hskip] at hconflicts
  rw [h.unique k₀ hk₀ (by rw [hpat, hp, Pattern.conflicts]; exact hconflicts)]

/-- No other branch is found in the place of one that is at its end. -/
theorem Alone.findSome?_ended (h : Alone b branches) (hp : b.pattern = []) :
    branches.findSome? ended? = some b.target := by
  have hsome : (branches.findSome? ended?).isSome :=
    List.findSome?_isSome_iff.2 ⟨b, h.mem, by simp [ended?, hp]⟩
  obtain ⟨a, ha⟩ := Option.isSome_iff_exists.1 hsome
  obtain ⟨k, hk, rfl, hnil⟩ := exists_of_ended ha
  rw [ha, h.unique k hk (by rw [hnil, hp]; rfl)]

theorem Alone.findSome?_rest (h : Alone b branches) {p : Pattern}
    (hp : b.pattern = .rest name :: p) : branches.findSome? rest? = some b.target := by
  have hsome : (branches.findSome? rest?).isSome :=
    List.findSome?_isSome_iff.2 ⟨b, h.mem, by simp [rest?, hp]⟩
  obtain ⟨a, ha⟩ := Option.isSome_iff_exists.1 hsome
  obtain ⟨k, hk, rfl, _, _, hrest⟩ := exists_of_rest ha
  rw [ha, h.unique k hk (by rw [hrest, hp]; rfl)]

/-- Beside a parameter for the segment there is none for the rest of the path. -/
theorem Alone.no_rest (h : Alone b branches) {p : Pattern} (hp : b.pattern = .param name :: p) :
    branches.findSome? rest? = none := by
  cases hrest : branches.findSome? rest? with
  | none => rfl
  | some a =>
    obtain ⟨k, hk, -, _, _, hpat⟩ := exists_of_rest hrest
    have hkb := h.unique k hk (by rw [hpat, hp]; rfl)
    rw [hkb, hp] at hpat
    cases hpat

/-! ## Parameters -/

theorem atParam_rest (h : Alone b branches) {p : Pattern} (hp : b.pattern = .rest name :: p)
    (follow : List (Branch α) → List UInt8 → Match α) :
    atParam follow branches path = .found b.target [path] := by
  simp only [atParam, h.findSome?_rest hp]

/-- The value of a parameter for the last segment. -/
theorem atParam_last (h : Alone b branches) (hp : b.pattern = [.param name])
    (follow : List (Branch α) → List UInt8 → Match α) (hvalue : (0x2F : UInt8) ∉ value) :
    atParam follow branches value = .found b.target [value] := by
  have htake : (value ++ []).takeWhile (· != 0x2F) = value :=
    takeWhile_segment hvalue (Or.inl rfl)
  have hdrop : (value ++ []).dropWhile (· != 0x2F) = [] := dropWhile_segment hvalue (Or.inl rfl)
  rw [List.append_nil] at htake hdrop
  have hbehind := h.behindParam hp
  have hended := hbehind.findSome?_ended (by simp [skip, hp])
  cases hb : Branch.behindParam branches with
  | nil => rw [hb] at hbehind; cases hbehind.mem
  | cons k ks =>
    rw [hb] at hended
    simp only [atParam, h.no_rest hp, hb, htake, hdrop, lastSegment, hended]
    rfl

/-- The branches that go on behind a parameter. -/
def longer (branches : List (Branch α)) : List (Branch α) :=
  (behindParam branches).filter (·.pattern ≠ [])

/-- The value of a parameter goes to the next slash. -/
theorem atParam_append (hrest : branches.findSome? rest? = none) (hlonger : longer branches ≠ [])
    (follow : List (Branch α) → List UInt8 → Match α) (hvalue : (0x2F : UInt8) ∉ value)
    (more : List UInt8) : atParam follow branches (value ++ 0x2F :: more) =
      (follow (longer branches) (0x2F :: more)).prepend value := by
  have htake : (value ++ 0x2F :: more).takeWhile (· != 0x2F) = value :=
    takeWhile_segment hvalue (Or.inr rfl)
  have hdrop : (value ++ 0x2F :: more).dropWhile (· != 0x2F) = 0x2F :: more :=
    dropWhile_segment hvalue (Or.inr rfl)
  rw [longer] at hlonger ⊢
  obtain ⟨k, ks, hbehind⟩ : ∃ k ks, behindParam branches = k :: ks := by
    cases hb : behindParam branches with
    | nil => rw [hb] at hlonger; exact absurd rfl hlonger
    | cons k ks => exact ⟨k, ks, rfl⟩
  obtain ⟨d, ds, hds⟩ := List.exists_cons_of_ne_nil hlonger
  rw [hbehind] at hds ⊢
  simp only [atParam, hrest, hbehind, htake, hdrop, hds]

/-! ## Following a path -/

/-- What becomes of a path among the branches that go on with its first byte. -/
def contend (n : Nat) (c : UInt8) (cs : List UInt8) (branches : List (Branch α)) : Match α :=
  match literally c branches with
  | [] => .missed
  | next => search n next (c :: cs)

theorem contend_of_mem (n : Nat) (cs : List UInt8) (hb : b ∈ literally c branches) :
    contend n c cs branches = search n (literally c branches) (c :: cs) := by
  rw [contend]
  split
  · rename_i hnone
    rw [hnone] at hb
    cases hb
  · rfl

theorem search_behind (n : Nat) (branches : List (Branch α)) (c : UInt8) (cs : List UInt8) :
    search (n + 1) branches (stem branches ++ c :: cs) =
      (contend n c cs (branches.map (skip (stem branches).length))).orElse
        (atParam (search n) (branches.map (skip (stem branches).length)) (c :: cs)) := by
  have hstem : (stem branches).isPrefixOf (stem branches ++ c :: cs) :=
    List.isPrefixOf_iff_prefix.2 (List.prefix_append _ _)
  simp only [search, hstem, if_true, List.drop_left]
  rfl

theorem search_stem (n : Nat) (branches : List (Branch α)) :
    search (n + 1) branches (stem branches) =
      atEnd (stem branches) (branches.map (skip (stem branches).length)) := by
  have hstem : (stem branches).isPrefixOf (stem branches) :=
    List.isPrefixOf_iff_prefix.2 (List.prefix_refl _)
  simp only [search, hstem, if_true, List.drop_length]

/-- The branches that begin with a literal text, behind that. -/
def beyond (s : List UInt8) (branches : List (Branch α)) : List (Branch α) :=
  (branches.filter fun b => s.map Part.literal <+: b.pattern).map (skip s.length)

theorem beyond_stem (branches : List (Branch α)) :
    beyond (stem branches) branches = branches.map (skip (stem branches).length) := by
  have hall : ∀ b ∈ branches, (stem branches).map Part.literal <+: b.pattern := fun b hb => by
    rw [pattern_eq_stem_append hb]
    exact List.prefix_append _ _
  rw [beyond, List.filter_eq_self.2 fun b hb => decide_eq_true (hall b hb)]

theorem beyond_stem_append (branches : List (Branch α)) (c : UInt8) (s : List UInt8) :
    beyond (stem branches ++ c :: s) branches =
      beyond (c :: s) (literally c (branches.map (skip (stem branches).length))) := by
  have hkeep : ∀ b ∈ branches,
      decide ((stem branches ++ c :: s).map Part.literal <+: b.pattern) =
        (decide ((c :: s).map Part.literal <+: (b.skip (stem branches).length).pattern) &&
          (b.skip (stem branches).length).pattern.head? == some (.literal c)) := by
    intro b hb
    rw [Bool.eq_iff_iff, Bool.and_eq_true, decide_eq_true_iff, decide_eq_true_iff, beq_iff_eq,
      pattern_eq_stem_append hb, List.map_append, List.prefix_append_right_inj]
    refine ⟨fun h => ⟨h, ?_⟩, And.left⟩
    obtain ⟨more, hmore⟩ := h
    rw [← hmore]
    rfl
  rw [beyond, List.filter_congr hkeep, beyond, literally, List.filter_filter, List.filter_map,
    List.map_map]
  refine List.map_congr_left fun b _ => ?_
  simp [skip]

/-! ## Results of searches -/

@[simp] theorem orElse_found (m m' : Match α) (a : α) (values : List (List UInt8)) :
    (m.orElse (.found a values)).orElse m' = m.orElse (.found a values) := by
  cases m <;> rfl

/-- Branches that are made as from text and begin with the same byte. -/
structure Level (c : UInt8) (branches : List (Branch α)) : Prop where
  tidy : ∀ b ∈ branches, b.pattern.tidy
  head : ∀ b ∈ branches, b.pattern.head? = some (.literal c)

/-- Behind the stem a path is shorter. -/
theorem Level.stem_pos (h : Level c branches) (hb : b ∈ branches) :
    0 < (stem branches).length := by
  obtain ⟨t, ht⟩ := exists_stem_of_head hb h.head
  rw [ht]
  exact Nat.succ_pos _

theorem Level.tidy_skip (h : Level c branches) (n : Nat) :
    ∀ b ∈ branches.map (skip n), b.pattern.tidy := fun b hb => by
  obtain ⟨k, hk, rfl⟩ := List.mem_map.1 hb
  exact Pattern.tidy_drop (h.tidy k hk) n

theorem level_literally (h : ∀ b ∈ branches, b.pattern.tidy) (c : UInt8) :
    Level c (literally c branches) :=
  ⟨fun b hb => h b (List.mem_of_mem_filter hb), fun _ hb => head_of_mem_literally hb⟩

theorem level_longer (h : ∀ b ∈ branches, b.pattern.tidy) : Level 0x2F (longer branches) := by
  refine ⟨fun b hb => ?_, fun b hb => ?_⟩
  all_goals
    obtain ⟨hb, hne⟩ := List.mem_filter.1 hb
    obtain ⟨k, hk, -, name, hpat⟩ := mem_behindParam hb
    have htidy := h k hk
    rw [hpat] at htidy
  · exact Pattern.tidy_behind_param htidy
  · exact (Pattern.behind_param htidy).resolve_left (of_decide_eq_true hne)

theorem Alone.mem_longer (h : Alone b branches) {p : Pattern}
    (hp : b.pattern = .param name :: p) (hne : p ≠ []) : Alone (b.skip 1) (longer branches) :=
  (h.behindParam hp).filter (by simpa [skip, hp] using hne)

/-- The value for the only parameter that is left of a branch. -/
theorem atParam_value {m : List UInt8} (htidy : ∀ b ∈ branches, b.pattern.tidy)
    (halone : Alone b branches) (hpattern : b.pattern = .param name :: m.map .literal)
    (hvalue : (0x2F : UInt8) ∉ value) (hn : m.length ≤ n) :
    atParam (search n) branches (value ++ m) = .found b.target [value] := by
  cases m with
  | nil => rw [List.append_nil, atParam_last halone hpattern _ hvalue]
  | cons e m =>
    have hlonger := halone.mem_longer hpattern (by simp)
    have hlevel := level_longer htidy
    have hskip : (b.skip 1).pattern = (e :: m).map .literal := by rw [skip, hpattern]; rfl
    obtain rfl : e = 0x2F := by simpa [hskip] using hlevel.head _ hlonger.mem
    obtain ⟨k, hk, hpat, hfound⟩ := falls_of_head n hn hlevel.head hlonger.mem hskip
    have hkb := hlonger.unique k hk (by
      rw [hpat, hskip, ← List.append_nil (List.map _ _), Pattern.conflicts_literals]; rfl)
    rw [atParam_append (halone.no_rest hpattern) (List.ne_nil_of_mem hlonger.mem) _ hvalue,
      hfound, hkb]
    rfl

/-- A search for a path with a value for the parameter of a branch gets to the parameter. The
branches that go on literally there come first, and may find the path or give it up. -/
theorem search_value {d : UInt8} {m : List UInt8} (hlevel : Level d branches)
    (halone : Alone b branches)
    (hpattern : b.pattern = s.map .literal ++ .param name :: m.map .literal)
    (hvalue : (0x2F : UInt8) ∉ value) (hpath : value ++ m = c :: cs)
    (hn : (s ++ c :: cs).length < n) :
    ∃ n' > (c :: cs).length, search n branches (s ++ c :: cs) =
      (contend n' c cs (beyond s branches)).orElse (.found b.target [value]) := by
  induction n generalizing d s branches b with
  | zero => omega
  | succ n ih =>
    have hpos := hlevel.stem_pos halone.mem
    -- The parameter is behind the stem, or more of the text before it is.
    have hstem := stem_prefix_lead halone.mem
    rw [hpattern, Pattern.lead_literals] at hstem
    obtain ⟨u, rfl⟩ : stem branches <+: s := by simpa [Pattern.lead] using hstem
    have hbehind := halone.behindStem
    have hskip : (b.skip (stem branches).length).pattern =
        u.map .literal ++ .param name :: m.map .literal := by
      rw [skip, hpattern, List.map_append, List.append_assoc, Pattern.drop_literals]
    cases u with
    | nil =>
      rw [List.append_nil, List.length_append] at hn
      refine ⟨n, by omega, ?_⟩
      have hlength : value.length + m.length = (c :: cs).length := by
        rw [← List.length_append, hpath]
      have hvalues := atParam_value (hlevel.tidy_skip _) hbehind hskip hvalue (n := n) (by omega)
      rw [List.append_nil, search_behind, beyond_stem, ← hpath, hvalues]
      rfl
    | cons e u =>
      have hnext := hbehind.literally (c := e) (by rw [hskip]; rfl)
      rw [List.append_assoc, List.length_append] at hn
      obtain ⟨n', hn', hsearch⟩ := ih (level_literally (hlevel.tidy_skip _) e) hnext hskip
        (by omega)
      refine ⟨n', hn', ?_⟩
      rw [List.append_assoc, List.cons_append, search_behind, beyond_stem_append,
        contend_of_mem _ _ hnext.mem, ← List.cons_append, hsearch, orElse_found]
      rfl

/-- No pattern goes on literally with a byte that spells a parameter. -/
theorem contend_of_special (htidy : ∀ b ∈ branches, b.pattern.tidy) (hc : c = 0x3A ∨ c = 0x2A)
    (n : Nat) (cs : List UInt8) : contend n c cs branches = .missed := by
  have hnone : literally c branches = [] := by
    refine List.filter_eq_nil_iff.2 fun b hb hhead => ?_
    have htidyb := htidy b hb
    match hp : b.pattern with
    | [] | .param _ :: _ | .rest _ :: _ => simp [hp] at hhead
    | .literal e :: p =>
      obtain rfl : e = c := by simpa [hp] using hhead
      rcases hc with rfl | rfl <;> simp [hp, Pattern.tidy] at htidyb
  rw [contend, hnone]

/-- A parameter that a path spells takes its value; what follows is left to the search behind it. -/
theorem atParam_spelled {follow : List (Branch α) → List UInt8 → Match α} {p : Pattern}
    (halone : Alone b branches) (hpattern : b.pattern = .param name :: p)
    (hspells : p.spells (path.dropWhile (· != 0x2F)))
    (hfollow : ∀ more, more <:+ path → p.spells more → Alone (b.skip 1) (longer branches) →
      ∃ values, follow (longer branches) more = .found (b.skip 1).target values) :
    ∃ values, atParam follow branches path = .found b.target values := by
  obtain ⟨value, more, rfl, hvalue, hmore⟩ := exists_segment path
  rw [dropWhile_segment hvalue hmore] at hspells
  match p, more with
  | [], [] =>
    rw [List.append_nil, atParam_last halone hpattern _ hvalue]
    exact ⟨_, rfl⟩
  | q :: p, e :: rest =>
    obtain rfl : e = 0x2F := by simpa using hmore
    have hnext := halone.mem_longer hpattern (by simp)
    obtain ⟨values, hfound⟩ := hfollow _ (List.suffix_append _ _) hspells hnext
    rw [atParam_append (halone.no_rest hpattern) (List.ne_nil_of_mem hnext.mem) _ hvalue, hfound]
    exact ⟨_, rfl⟩

/-- A search finds the branch that the path spells. -/
theorem search_spelled {d : UInt8} (hlevel : Level d branches) (halone : Alone b branches)
    (hspells : b.pattern.spells path) (hn : path.length < n) :
    ∃ values, search n branches path = .found b.target values := by
  induction n generalizing d branches b path with
  | zero => omega
  | succ n ih =>
    have hpos := hlevel.stem_pos halone.mem
    rw [pattern_eq_stem_append halone.mem, Pattern.spells_literals] at hspells
    obtain ⟨more, rfl, hmore⟩ := hspells
    rw [List.length_append] at hn
    have hbehind := halone.behindStem
    have htidy := hlevel.tidy_skip (stem branches).length
    match more, hpat : (b.skip (stem branches).length).pattern, hmore with
    | [], [], _ =>
      rw [List.append_nil, search_stem, atEnd, hbehind.findSome?_ended hpat]
      exact ⟨_, rfl⟩
    | c :: cs, .literal e :: p, hmore =>
      obtain rfl : e = c := beq_iff_eq.1 (Bool.and_eq_true_iff.1 hmore).1
      have hnext := hbehind.literally (c := e) (by rw [hpat]; rfl)
      obtain ⟨values, hfound⟩ := ih (level_literally htidy e) hnext (by rwa [hpat]) (by omega)
      rw [search_behind, contend_of_mem _ _ hnext.mem, hfound]
      exact ⟨_, rfl⟩
    | c :: cs, .rest name :: p, hmore =>
      obtain rfl : c = 0x2A := beq_iff_eq.1 hmore
      rw [search_behind, contend_of_special htidy (Or.inr rfl), atParam_rest hbehind hpat]
      exact ⟨_, rfl⟩
    | c :: cs, .param name :: p, hmore =>
      obtain ⟨hc, hmore⟩ := Bool.and_eq_true_iff.1 hmore
      rw [search_behind, contend_of_special htidy (Or.inl (beq_iff_eq.1 hc))]
      refine atParam_spelled (b := b.skip (stem branches).length) hbehind hpat hmore
        fun rest hrest hspells hnext => ?_
      have hlength := hrest.length_le
      have hskip : ((b.skip (stem branches).length).skip 1).pattern = p := by rw [skip, hpat]; rfl
      exact ih (level_longer htidy) hnext (by rwa [hskip]) (by omega)

end SignalHub.Http.Branch
