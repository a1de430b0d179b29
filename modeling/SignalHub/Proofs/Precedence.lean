import SignalHub.Proofs.Branching
/-!
# Which pattern comes first

One pattern precedes another if it goes on literally where that one has a parameter. A single branch
that is followed from there misses just the paths that it does not reach, if they do not end in a
slash: so a path gets to the parameter just if no branch that precedes it reaches the path.

Results:
* `Pattern.precedes`: whether a pattern is followed first.
* `Branch.search_single`: what a single branch makes of a path.
* `Branch.contend_single`: whether a path gets to the parameter.
-/
namespace SignalHub.Http

namespace Pattern

/-- Whether the pattern is followed before the other one: where they part, it goes on with a literal
byte and the other one with a parameter. -/
def precedes : Pattern → Pattern → Bool
  | p :: ps, q :: qs => if p.alike q then precedes ps qs else p.isLiteral && !q.isLiteral
  | _, _ => false

variable {p : Pattern} {s : List UInt8} {name : List UInt8}

theorem not_precedes_literals (p : Pattern) (m : List UInt8) :
    p.precedes (m.map .literal) = false := by
  induction m generalizing p with
  | nil => cases p <;> rfl
  | cons c m ih =>
    match p with
    | [] => rfl
    | .literal b :: p => simp [precedes, ih, Part.isLiteral]
    | .param _ :: p | .rest _ :: p => rfl

/-- What precedes a pattern with one parameter goes on literally where that has the parameter. -/
theorem precedes_iff {m : List UInt8} :
    p.precedes (s.map .literal ++ .param name :: m.map .literal) ↔
      ∃ c q, p = s.map .literal ++ .literal c :: q := by
  induction s generalizing p with
  | nil =>
    match p with
    | [] => simp [precedes]
    | .literal b :: p => simp [precedes, Part.alike, Part.isLiteral]
    | .param _ :: p => simp [precedes, Part.alike, not_precedes_literals]
    | .rest _ :: p => simp [precedes, Part.alike, Part.isLiteral]
  | cons b s ih =>
    match p with
    | [] => simp [precedes]
    | .literal c :: p => simp [precedes, Part.alike, ih, Part.isLiteral]
    | .param _ :: p | .rest _ :: p => simp [precedes, Part.alike, Part.isLiteral]

end Pattern

namespace Branch

variable {α : Type} {branches : List (Branch α)} {b : Branch α} {c : UInt8} {n : Nat}
  {s cs path value : List UInt8} {name : List UInt8}

/-! ## A single branch -/

theorem head_behind_lead (p : Pattern) (c : UInt8) :
    (p.drop p.lead.length).head? ≠ some (Part.literal c) := by
  induction p with
  | nil => simp
  | cons q p ih =>
    match q with
    | .param name | .rest name => simp [Pattern.lead]
    | .literal b => exact ih

theorem alone_single (b : Branch α) : Alone b [b] :=
  ⟨List.mem_singleton_self b, fun _ hk _ => List.mem_singleton.1 hk⟩

/-- Following a single branch misses just what the branch does not reach, of the paths that do not
end in a slash. -/
def Misses (follow : List (Branch α) → List UInt8 → Match α) (path : List UInt8) : Prop :=
  ∀ (b : Branch α) (c : UInt8), b.pattern.tidy → b.pattern.head? = some (.literal c) →
    (follow [b] path = .missed ↔ ¬ b.pattern.reaches path)

@[simp] theorem prepend_eq_missed {m : Match α} : m.prepend value = .missed ↔ m = .missed := by
  cases m <;> simp [Match.prepend]

theorem ne_slash {more : List UInt8} (hend : ¬ slash <:+ path) (hmore : more <:+ path) :
    more ≠ slash := fun h => hend (h ▸ hmore)

theorem lastSegment_single (value : List UInt8) {p : Pattern}
    (hp : b.pattern = .literal 0x2F :: p) :
    lastSegment value [b] = .missed ↔ ¬ Pattern.reaches (.literal 0x2F :: p) [] := by
  have hended : [b].findSome? ended? = none := by simp [ended?, hp]
  have hskip : (b.skip 1).pattern = p := by rw [skip, hp]; rfl
  rw [lastSegment, hended]
  cases p with
  | nil => simp [stem, hp, Pattern.lead, slash, ended?, hskip, Pattern.reaches]
  | cons q p => simp [ended?, hskip, Pattern.reaches]

/-- The segment is the value of the parameter, and the branch goes on behind it or not. -/
theorem atParam_single_param {follow : List (Branch α) → List UInt8 → Match α} {p : Pattern}
    (hp : b.pattern = .param name :: p) (htidy : b.pattern.tidy) (hne : path ≠ [])
    (hend : ¬ slash <:+ path)
    (hfollow : ∀ more, more ≠ [] → more <:+ path → Misses follow more) :
    atParam follow [b] path = .missed ↔ ¬ Pattern.reaches (.param name :: p) path := by
  have hrest := (alone_single b).no_rest hp
  have hskip : (b.skip 1).pattern = p := by rw [skip, hp]; rfl
  have hbehind : behindParam [b] = [b.skip 1] := by simp [behindParam, hp, Part.isParam]
  have htidyp : Pattern.tidy (.param name :: p) := hp ▸ htidy
  obtain ⟨value, more, rfl, hvalue, hmore⟩ := exists_segment path
  have htake := takeWhile_segment hvalue hmore
  have hdrop := dropWhile_segment hvalue hmore
  have hreaches : Pattern.reaches (.param name :: p) (value ++ more) = Pattern.reaches p more := by
    obtain ⟨c, cs, hcons⟩ := List.exists_cons_of_ne_nil hne
    rw [hcons, Pattern.reaches, ← hcons, hdrop]
  rw [hreaches]
  rcases Pattern.behind_param htidyp with rfl | hslash
  · cases more with
    | nil =>
      rw [List.append_nil, atParam_last (alone_single b) hp _ hvalue]
      simp [Pattern.reaches]
    | cons e rest =>
      simp [atParam, hrest, hbehind, hdrop, hskip, ne_slash hend (List.suffix_append _ _),
        Pattern.reaches]
  · obtain ⟨p, rfl⟩ := List.head?_eq_some_iff.1 hslash
    cases more with
    | nil =>
      rw [← lastSegment_single value hskip]
      simp only [atParam, hrest, hbehind, hdrop, htake]
    | cons e rest =>
      obtain rfl : e = 0x2F := by simpa using hmore
      have hlonger : longer [b] = [b.skip 1] := by simp [longer, hbehind, hskip]
      have hmisses := hfollow _ (by simp) (List.suffix_append value _) (b.skip 1) 0x2F
      rw [hskip] at hmisses
      rw [atParam_append hrest (by simp [hlonger]) _ hvalue, hlonger, prepend_eq_missed]
      exact hmisses (Pattern.tidy_behind_param htidyp) rfl

/-- Behind its literal text a branch is at its end, or has a parameter. -/
theorem atParam_single {follow : List (Branch α) → List UInt8 → Match α} (htidy : b.pattern.tidy)
    (hhead : ∀ c, b.pattern.head? ≠ some (.literal c)) (hne : path ≠ [])
    (hend : ¬ slash <:+ path)
    (hfollow : ∀ more, more ≠ [] → more <:+ path → Misses follow more) :
    atParam follow [b] path = .missed ↔ ¬ b.pattern.reaches path := by
  match hp : b.pattern with
  | .literal e :: p => exact absurd (by rw [hp]; rfl) (hhead e)
  | .param name :: p => exact atParam_single_param hp htidy hne hend hfollow
  | .rest name :: p =>
    obtain ⟨c, cs, hcons⟩ := List.exists_cons_of_ne_nil hne
    rw [atParam_rest (alone_single b) hp, hcons]
    simp [Pattern.reaches]
  | [] =>
    have hnone : behindParam [b] = [] := by simp [behindParam, hp]
    simp only [atParam, List.findSome?, rest?, hp, hnone,
      if_neg (ne_slash hend (List.suffix_refl _)), true_iff]
    simp [Pattern.reaches, hne]

theorem offStem_single (hend : ¬ slash <:+ path) :
    offStem s [b] path = .missed ↔ ¬ (b.pattern = [] ∧ s = path ++ slash) := by
  have hended : ([b].findSome? ended?).isSome ↔ b.pattern = [] := by simp [ended?]
  simp only [offStem, hended, ne_slash hend (List.suffix_refl _), false_or, and_comm]
  split
  · rename_i hshort
    simp [hshort]
  · rename_i hlong
    simp [hlong]

theorem atEnd_single (hs : s ≠ slash) (hhead : b.pattern.head? ≠ some (.literal 0x2F)) :
    atEnd s [b] = .missed ↔ ¬ b.pattern.reaches [] := by
  match hp : b.pattern with
  | [] => simp [atEnd, ended?, hp, Pattern.reaches]
  | q :: p =>
    have hq : q ≠ .literal 0x2F := by simpa [hp] using hhead
    simp [atEnd, ended?, hp, hs, Pattern.reaches, hq]

/-- A path that does not end in a slash misses a branch just if the branch does not reach it. -/
theorem search_single (n : Nat) (hn : path.length < n) (hne : path ≠ []) (hend : ¬ slash <:+ path) :
    Misses (search n (α := α)) path := by
  induction n generalizing path with
  | zero => omega
  | succ n ih =>
    intro b d htidy hhead
    have hlevel : Level d [b] := ⟨by simpa using htidy, by simpa using hhead⟩
    have hpos := hlevel.stem_pos (List.mem_singleton_self b)
    have hpattern := pattern_eq_stem_append (List.mem_singleton_self b)
    have hbehind : ∀ c, (b.skip (stem [b]).length).pattern.head? ≠ some (.literal c) :=
      head_behind_lead b.pattern
    have htidy' : (b.skip (stem [b]).length).pattern.tidy := Pattern.tidy_drop htidy _
    have hmap : [b].map (skip (stem [b]).length) = [b.skip (stem [b]).length] := rfl
    generalize b.skip (stem [b]).length = k at hpattern hbehind htidy' hmap
    rw [hpattern, Pattern.reaches_literals]
    by_cases hprefix : stem [b] <+: path
    · obtain ⟨more, rfl⟩ := hprefix
      have hno : ¬ stem [b] = (stem [b] ++ more) ++ [0x2F] := fun h => by
        have := congrArg List.length h
        simp at this
      simp only [List.append_cancel_left_eq, exists_eq_left', hno, and_false, or_false]
      cases more with
      | nil =>
        rw [List.append_nil, search_stem, hmap]
        exact atEnd_single (ne_slash hend (by simp)) (hbehind _)
      | cons c cs =>
        have hliteral : contend n c cs [k] = .missed := by simp [contend, literally, hbehind]
        rw [search_behind, hmap, hliteral]
        have hsuffix : c :: cs <:+ stem [b] ++ c :: cs := List.suffix_append _ _
        refine atParam_single htidy' hbehind (by simp) (fun h => hend (h.trans hsuffix))
          fun more hne hmore => ?_
        have hlength := hmore.length_le
        rw [List.length_append] at hn
        exact ih (by omega) hne fun h => hend (h.trans (hmore.trans hsuffix))
    · have hoff : search (n + 1) [b] path = offStem (stem [b]) [k] path := by
        simp [search, hmap, List.isPrefixOf_iff_prefix, hprefix]
      have hno : ¬ ∃ more, path = stem [b] ++ more ∧ k.pattern.reaches more := by
        rintro ⟨more, hmore, -⟩
        exact hprefix ⟨more, hmore.symm⟩
      rw [hoff, offStem_single hend, or_iff_right hno, slash]

/-! ## Precedence -/

section

variable {q : Pattern} {m : List UInt8}

theorem exists_of_contender (hb : b ∈ literally c (beyond s branches)) :
    ∃ k ∈ branches, k.skip s.length = b ∧ ∃ r, k.pattern = s.map .literal ++ .literal c :: r := by
  obtain ⟨hb, hhead⟩ := List.mem_filter.1 hb
  obtain ⟨k, hk, rfl⟩ := List.mem_map.1 hb
  obtain ⟨hk, hprefix⟩ := List.mem_filter.1 hk
  obtain ⟨r, hr⟩ := of_decide_eq_true hprefix
  rw [skip, ← hr, Pattern.drop_literals] at hhead
  obtain ⟨r, rfl⟩ : ∃ r', r = .literal c :: r' := by
    cases r with
    | nil => cases hhead
    | cons q r => exact ⟨r, by simpa using hhead⟩
  exact ⟨k, hk, rfl, r, hr.symm⟩

/-- Only what precedes a pattern contends with it at its parameter. -/
theorem no_contender (hq : q = s.map .literal ++ .param name :: m.map .literal)
    (h : ∀ b ∈ branches, ¬ b.pattern.precedes q) : literally c (beyond s branches) = [] := by
  refine List.eq_nil_iff_forall_not_mem.2 fun b hb => ?_
  obtain ⟨k, hk, -, r, hr⟩ := exists_of_contender hb
  exact h k hk (by rw [hq, Pattern.precedes_iff]; exact ⟨c, r, hr⟩)

theorem contend_none (hq : q = s.map .literal ++ .param name :: m.map .literal)
    (h : ∀ b ∈ branches, ¬ b.pattern.precedes q) (n : Nat) (c : UInt8) (cs : List UInt8) :
    contend n c cs (beyond s branches) = .missed := by
  rw [contend, no_contender hq h]

theorem contend_append (hq : q = s.map .literal ++ .param name :: m.map .literal)
    (h : ∀ b ∈ branches, ¬ b.pattern.precedes q) (n : Nat) (c : UInt8) (cs : List UInt8) :
    contend n c cs (beyond s (branches ++ [b])) = contend n c cs (beyond s [b]) := by
  have hliterally : literally c (beyond s (branches ++ [b])) = literally c (beyond s [b]) := by
    have hnone := no_contender (c := c) hq h
    rw [literally] at hnone
    rw [beyond, List.filter_append, List.map_append, literally, List.filter_append, ← beyond, hnone]
    rfl
  rw [contend, contend, hliterally]

/-- A path that does not end in a slash is not contended for just if the only branch that precedes
the parameter, if any, does not reach the path. -/
theorem contend_single (hq : q = s.map .literal ++ .param name :: m.map .literal)
    (htidy : b.pattern.tidy) (hn : (c :: cs).length < n) (hend : ¬ slash <:+ c :: cs) :
    contend n c cs (beyond s [b]) = .missed ↔
      ¬ (b.pattern.precedes q ∧ b.pattern.reaches (s ++ c :: cs)) := by
  by_cases hprecedes : b.pattern.precedes q
  · obtain ⟨d, r, hr⟩ := Pattern.precedes_iff.1 (hq ▸ hprecedes)
    have hskip : (b.skip s.length).pattern = .literal d :: r := by
      rw [skip, hr, Pattern.drop_literals]
    have hbeyond : beyond s [b] = [b.skip s.length] := by
      simp [beyond, hr]
    have hreaches : b.pattern.reaches (s ++ c :: cs) ↔
        Pattern.reaches (.literal d :: r) (c :: cs) := by
      rw [hr, Pattern.reaches_literals]
      simp
    rw [and_iff_right hprecedes, hreaches, hbeyond]
    by_cases hdc : d = c
    · subst hdc
      have hliterally : literally d [b.skip s.length] = [b.skip s.length] := by
        simp [literally, hskip]
      rw [contend_of_mem n cs (b := b.skip s.length) (by simp [hliterally]), hliterally, ← hskip]
      exact search_single n hn (by simp) hend _ d (Pattern.tidy_drop htidy _) (by rw [hskip]; rfl)
    · simp [contend, literally, hskip, hdc, Pattern.reaches]
  · have hfirst : ∀ k ∈ [b], ¬ k.pattern.precedes q := by simpa using hprecedes
    simp [contend_none hq hfirst, hprecedes]

/-- What gets a path before the parameter precedes it. -/
theorem precedes_of_contend (hq : q = s.map .literal ++ .param name :: m.map .literal) {a : α}
    {values : List (List UInt8)} (h : contend n c cs (beyond s branches) = .found a values) :
    ∃ b ∈ branches, b.target = a ∧ b.pattern.precedes q := by
  rw [contend] at h
  split at h
  · cases h
  · obtain ⟨k, hk, rfl, -⟩ := search_sound _ _ _ _ _ h
    obtain ⟨b, hb, rfl, r, hr⟩ := exists_of_contender hk
    exact ⟨b, hb, rfl, by rw [hq, Pattern.precedes_iff]; exact ⟨c, r, hr⟩⟩

end

end Branch

end SignalHub.Http
