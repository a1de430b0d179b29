import SignalHub.Proofs.Routing
/-!
# Which paths a pattern covers

Taken by itself a pattern covers the paths that spell its literal bytes and have something for each
of its parameters. A search finds no pattern that does not cover the path. It is given up where a
pattern would cover the path but for a slash at its own end, so what a pattern reaches is more than
what it covers.

Results:
* `Pattern.covers`: whether a pattern matches a path.
* `Pattern.reaches_iff`: a pattern reaches what it covers, with its final slash or without.
* `Branch.search_sound`: the pattern that was found covers the path.
-/
namespace SignalHub.Http

namespace Pattern

/-- Whether a path is one of those that the pattern is for. -/
def covers : Pattern → List UInt8 → Bool
  | [], path => path.isEmpty
  | _ :: _, [] => false
  | .literal b :: ps, c :: cs => b == c && covers ps cs
  | .param _ :: ps, c :: cs => covers ps ((c :: cs).dropWhile (· != 0x2F))
  | .rest _ :: _, _ :: _ => true

/-- Whether the pattern covers the path, or would cover it without its own last slash. -/
def reaches : Pattern → List UInt8 → Bool
  | [], path => path.isEmpty
  | p :: ps, [] => p :: ps == [.literal 0x2F]
  | .literal b :: ps, c :: cs => b == c && reaches ps cs
  | .param _ :: ps, c :: cs => reaches ps ((c :: cs).dropWhile (· != 0x2F))
  | .rest _ :: _, _ :: _ => true

variable {p q : Pattern} {s path : List UInt8}

theorem covers_literals (s : List UInt8) (p : Pattern) (path : List UInt8) :
    covers (s.map .literal ++ p) path ↔ ∃ more, path = s ++ more ∧ p.covers more := by
  induction s generalizing path with
  | nil => simp
  | cons b s ih =>
    cases path with
    | nil => simp [covers]
    | cons c cs => simp [covers, ih, and_assoc, eq_comm (a := c)]

theorem reaches_literals (s : List UInt8) (p : Pattern) (path : List UInt8) :
    reaches (s.map .literal ++ p) path ↔
      (∃ more, path = s ++ more ∧ p.reaches more) ∨ p = [] ∧ s = path ++ [0x2F] := by
  induction s generalizing path with
  | nil => simp
  | cons b s ih =>
    cases path with
    | nil => simp [reaches, and_comm, and_assoc, and_left_comm]
    | cons c cs => simp [reaches, ih, and_assoc, eq_comm (a := c), and_or_left, and_left_comm]

theorem reaches_of_covers (h : p.covers path) : p.reaches path := by
  fun_induction covers p path <;> simp_all [reaches]

theorem reaches_slash_of_covers (h : p.covers path) :
    reaches (p ++ [.literal 0x2F]) path := by
  fun_induction covers p path <;> simp_all [reaches]

theorem covers_of_reaches (h : p.reaches path) :
    p.covers path ∨ ∃ q : Pattern, q ++ [.literal 0x2F] = p ∧ q.covers path := by
  fun_induction reaches p path with
  | case1 path => exact Or.inl h
  | case2 p ps => exact Or.inr ⟨[], (beq_iff_eq.1 h).symm, rfl⟩
  | case3 b ps c cs ih =>
    obtain ⟨hb, h⟩ := Bool.and_eq_true_iff.1 h
    refine (ih h).imp (fun hc => by simp [covers, hb, hc]) ?_
    rintro ⟨q, rfl, hq⟩
    exact ⟨.literal b :: q, rfl, by simp [covers, hb, hq]⟩
  | case4 name ps c cs ih =>
    refine (ih h).imp_right ?_
    rintro ⟨q, rfl, hq⟩
    exact ⟨.param name :: q, rfl, hq⟩
  | case5 name ps c cs => exact Or.inl rfl

theorem reaches_iff :
    p.reaches path ↔ ∃ q : Pattern, (q = p ∨ q ++ [.literal 0x2F] = p) ∧ q.covers path := by
  constructor
  · intro h
    rcases covers_of_reaches h with hcovers | ⟨q, hq, hcovers⟩
    · exact ⟨p, Or.inl rfl, hcovers⟩
    · exact ⟨q, Or.inr hq, hcovers⟩
  · rintro ⟨q, rfl | rfl, hcovers⟩
    · exact reaches_of_covers hcovers
    · exact reaches_slash_of_covers hcovers

/-! ## Literal text -/

theorem conflicts_literals (s : List UInt8) (p q : Pattern) :
    conflicts (s.map .literal ++ p) (s.map .literal ++ q) = p.conflicts q := by
  induction s with
  | nil => rfl
  | cons b s ih => simp [conflicts, Part.alike, ih]

theorem lead_literals (s : List UInt8) (p : Pattern) :
    lead (s.map .literal ++ p) = s ++ p.lead := by
  induction s with
  | nil => rfl
  | cons b s ih => rw [List.map_cons, List.cons_append, lead, ih, List.cons_append]

@[simp] theorem drop_literals (s : List UInt8) (p : Pattern) :
    List.drop s.length (s.map .literal ++ p) = p :=
  List.drop_left' (List.length_map _)

end Pattern

namespace Branch

variable {α : Type} {branches : List (Branch α)} {path : List UInt8} {a : α}

theorem exists_of_ended (h : branches.findSome? ended? = some a) :
    ∃ b ∈ branches, b.target = a ∧ b.pattern = [] := by
  obtain ⟨b, hb, hba⟩ := List.exists_of_findSome?_eq_some h
  rw [ended?] at hba
  split at hba
  · rename_i hnil
    exact ⟨b, hb, Option.some.inj hba, hnil⟩
  · cases hba

theorem exists_of_rest (h : branches.findSome? rest? = some a) :
    ∃ b ∈ branches, b.target = a ∧ ∃ name ps, b.pattern = .rest name :: ps := by
  obtain ⟨b, hb, hba⟩ := List.exists_of_findSome?_eq_some h
  rw [rest?] at hba
  split at hba
  · rename_i name ps hpat
    exact ⟨b, hb, Option.some.inj hba, name, ps, hpat⟩
  · cases hba

theorem mem_behindParam {b : Branch α} (h : b ∈ behindParam branches) :
    ∃ k ∈ branches, k.skip 1 = b ∧ ∃ name, k.pattern = .param name :: b.pattern := by
  obtain ⟨k, hk, rfl⟩ := List.mem_map.1 h
  obtain ⟨hk, hhead⟩ := List.mem_filter.1 hk
  refine ⟨k, hk, rfl, ?_⟩
  match hp : k.pattern with
  | [] | .literal _ :: _ | .rest _ :: _ => simp [hp, Part.isParam] at hhead
  | .param name :: ps => exact ⟨name, by simp [skip, hp]⟩

theorem found_of_prepend {m : Match α} {value : List UInt8} {values : List (List UInt8)}
    (h : m.prepend value = .found a values) : ∃ values, m = .found a values := by
  cases m with
  | found b vs => cases h; exact ⟨vs, rfl⟩
  | missed | refused => cases h

theorem found_of_orElse {m m' : Match α} {values : List (List UInt8)}
    (h : m.orElse m' = .found a values) : m = .found a values ∨ m' = .found a values := by
  cases m with
  | found b vs => exact Or.inl h
  | missed => exact Or.inr h
  | refused => cases h

theorem atEnd_sound {s : List UInt8} {values : List (List UInt8)}
    (h : atEnd s branches = .found a values) :
    ∃ b ∈ branches, b.target = a ∧ b.pattern = [] := by
  rw [atEnd] at h
  split at h
  · rename_i hended
    cases h
    exact exists_of_ended hended
  · split at h <;> cases h

theorem lastSegment_sound {value : List UInt8} {values : List (List UInt8)}
    (h : lastSegment value branches = .found a values) :
    ∃ b ∈ branches, b.target = a ∧ b.pattern = [] := by
  rw [lastSegment] at h
  split at h
  · rename_i hended
    cases h
    exact exists_of_ended hended
  · simp only at h
    split at h <;> cases h

/-- What is found covers the path. -/
def Sound (follow : List (Branch α) → List UInt8 → Match α) : Prop :=
  ∀ branches path a values, follow branches path = .found a values →
    ∃ b ∈ branches, b.target = a ∧ b.pattern.covers path

theorem atParam_sound {follow : List (Branch α) → List UInt8 → Match α} (hfollow : Sound follow)
    {c : UInt8} {cs : List UInt8} {values : List (List UInt8)}
    (h : atParam follow branches (c :: cs) = .found a values) :
    ∃ b ∈ branches, b.target = a ∧ b.pattern.covers (c :: cs) := by
  rw [atParam] at h
  split at h
  · -- The rest of the path is a value.
    rename_i hrest
    cases h
    obtain ⟨b, hb, rfl, name, ps, hpat⟩ := exists_of_rest hrest
    exact ⟨b, hb, rfl, by rw [hpat]; rfl⟩
  · split at h <;> cases h
  · -- The segment is a value, and some branch covers what follows it.
    obtain ⟨b, hb, hba, hcovers⟩ : ∃ b ∈ behindParam branches,
        b.target = a ∧ b.pattern.covers ((c :: cs).dropWhile (· != 0x2F)) := by
      simp only at h
      split at h
      · rename_i hmore
        obtain ⟨b, hb, hba, hnil⟩ := lastSegment_sound h
        exact ⟨b, hb, hba, by rw [hnil, hmore]; rfl⟩
      · split at h <;> cases h
      · obtain ⟨vs, hvs⟩ := found_of_prepend h
        obtain ⟨b, hb, hba, hcovers⟩ := hfollow _ _ _ _ hvs
        exact ⟨b, List.mem_of_mem_filter hb, hba, hcovers⟩
    obtain ⟨k, hk, rfl, name, hpat⟩ := mem_behindParam hb
    exact ⟨k, hk, hba, by rw [hpat]; exact hcovers⟩

/-- A search only finds what covers the path. -/
theorem search_sound (n : Nat) : Sound (search n (α := α)) := by
  induction n with
  | zero => intro _ _ _ _ h; cases h
  | succ n ih =>
    intro branches path a values h
    -- What a branch covers behind the stem it covers behind that of all branches.
    suffices hbehind : ∃ more, path = stem branches ++ more ∧
        ∃ b ∈ branches.map (skip (stem branches).length), b.target = a ∧ b.pattern.covers more by
      obtain ⟨more, rfl, b, hb, hba, hcovers⟩ := hbehind
      obtain ⟨k, hk, rfl⟩ := List.mem_map.1 hb
      refine ⟨k, hk, hba, ?_⟩
      rw [pattern_eq_stem_append hk, Pattern.covers_literals]
      exact ⟨more, rfl, hcovers⟩
    simp only [search] at h
    split at h
    · rename_i hstem
      obtain ⟨more, rfl⟩ := List.isPrefixOf_iff_prefix.1 hstem
      refine ⟨more, rfl, ?_⟩
      rw [List.drop_left] at h
      cases more with
      | nil =>
        obtain ⟨b, hb, hba, hnil⟩ := atEnd_sound h
        exact ⟨b, hb, hba, by rw [hnil]; rfl⟩
      | cons c cs =>
        rcases found_of_orElse h with h | h
        · split at h
          · cases h
          · obtain ⟨b, hb, hba, hcovers⟩ := ih _ _ _ _ h
            exact ⟨b, List.mem_of_mem_filter hb, hba, hcovers⟩
        · exact atParam_sound ih h
    · rw [offStem] at h
      split at h <;> cases h

theorem match?_sound {values : List (List UInt8)} (h : match? branches path = some (a, values)) :
    ∃ b ∈ branches, b.target = a ∧ b.pattern.covers path := by
  rw [match?] at h
  cases hm : search (path.length + 2) branches path with
  | found b vs => rw [hm] at h; cases h; exact search_sound _ _ _ _ _ hm
  | missed => rw [hm] at h; cases h
  | refused => rw [hm] at h; cases h

end Branch

/-- The route of a path covers it. -/
theorem Router.covers_of_find {router : Router} {path : List UInt8} {r : Route}
    {values : List (List UInt8)} (h : router.find path = some (r, values)) :
    r ∈ router ∧ r.pattern.covers path := by
  obtain ⟨b, hb, hbr, hcovers⟩ := Branch.match?_sound h
  obtain ⟨k, hk, rfl⟩ := List.mem_map.1 hb
  obtain rfl : k = r := hbr
  exact ⟨hk, hcovers⟩

end SignalHub.Http
