import SignalHub.Proofs.Precedence
/-!
# A route more

In a router whose patterns do not conflict a path that a route covers leads to it, unless a pattern
that precedes it at its parameter takes the path or has it given up. The exposition fits under a
pattern that conflicts with no other one, or under one that stands there and cannot be read, and it
precedes nothing but parameters.

Results:
* `Router.Orderly`: patterns that stand side by side.
* `Router.Orderly.find_value`, `Router.Orderly.find_spelled`: the route of a path.
* `Router.mount_iff`: when the exposition fits in, and the routes with it.
* `serve_literal`: requests to a path that a route for reading spells out.
-/
namespace SignalHub.Http

namespace Pattern

theorem conflicts_self (p : Pattern) : p.conflicts p := by
  induction p with
  | nil => rfl
  | cons q p ih => cases q <;> simp [conflicts, Part.alike, Part.isLiteral, ih]

theorem alike_comm (p q : Part) : p.alike q = q.alike p := by
  cases p <;> cases q <;> simp [Part.alike, Bool.beq_comm]

theorem conflicts_comm (p q : Pattern) : p.conflicts q = q.conflicts p := by
  induction p generalizing q with
  | nil => cases q <;> rfl
  | cons a p ih =>
    cases q with
    | nil => rfl
    | cons b q => rw [conflicts, conflicts, alike_comm, ih, Bool.and_comm]

end Pattern

namespace Router

variable {router routes : Router} {p : Pattern} {r r' : Route} {path value : List UInt8}

/-! ## Routes side by side -/

/-- Patterns that are made as from text and do not conflict. -/
structure Orderly (router : Router) : Prop where
  tidy : ∀ r ∈ router, r.pattern.tidy
  head : ∀ r ∈ router, r.pattern.head? = some (.literal 0x2F)
  alone : ∀ r ∈ router, ∀ r' ∈ router, r'.pattern.conflicts r.pattern → r' = r

instance (router : Router) : Decidable (Orderly router) :=
  decidable_of_iff ((∀ r ∈ router, r.pattern.tidy) ∧
      (∀ r ∈ router, r.pattern.head? = some (.literal 0x2F)) ∧
      ∀ r ∈ router, ∀ r' ∈ router, r'.pattern.conflicts r.pattern → r' = r)
    ⟨fun ⟨tidy, head, alone⟩ => ⟨tidy, head, alone⟩, fun h => ⟨h.tidy, h.head, h.alone⟩⟩

theorem orderly_base : Orderly base := by decide

/-- The routes as branches of a search. -/
def branches (router : Router) : List (Branch Route) := router.map fun r => ⟨r.pattern, r⟩

theorem mem_branches {b : Branch Route} :
    b ∈ router.branches ↔ b.target ∈ router ∧ b.pattern = b.target.pattern := by
  rw [branches, List.mem_map]
  constructor
  · rintro ⟨r, hr, rfl⟩
    exact ⟨hr, rfl⟩
  · rintro ⟨hb, hp⟩
    exact ⟨b.target, hb, by rw [← hp]⟩

theorem Orderly.level (h : Orderly router) : Branch.Level 0x2F router.branches where
  tidy _ hb := (mem_branches.1 hb).2 ▸ h.tidy _ (mem_branches.1 hb).1
  head _ hb := (mem_branches.1 hb).2 ▸ h.head _ (mem_branches.1 hb).1

theorem Orderly.branch_alone (h : Orderly router) (hr : r ∈ router) :
    Branch.Alone ⟨r.pattern, r⟩ router.branches := by
  refine ⟨mem_branches.2 ⟨hr, rfl⟩, fun b hb hconflicts => ?_⟩
  obtain ⟨r', hr', rfl⟩ := List.mem_map.1 hb
  rw [h.alone r hr r' hr' hconflicts]

theorem Orderly.find_spelled (h : Orderly router) (hr : r ∈ router)
    (hspells : r.pattern.spells path) : ∃ values, router.find path = some (r, values) := by
  obtain ⟨values, hfound⟩ := Branch.search_spelled h.level (h.branch_alone hr) hspells
    (n := path.length + 2) (by omega)
  exact ⟨values, by rw [find, Branch.match?, ← branches, hfound]; rfl⟩

theorem Orderly.find_path (h : Orderly router) (hr : r ∈ router)
    (hp : r.pattern = path.map .literal) : router.find path = some (r, []) := by
  obtain ⟨b, hb, hpat, hfound⟩ := Branch.match?_of_literal (h.branch_alone hr).mem hp
  have hbr := (h.branch_alone hr).unique b hb (by rw [hpat, ← hp]; exact Pattern.conflicts_self _)
  rw [find, ← branches, hfound, hbr]

/-- A path with a value for the parameter of a route. -/
theorem Orderly.find_value (h : Orderly router) (hr : r ∈ router) {s m : List UInt8}
    {name : List UInt8} (hp : r.pattern = s.map .literal ++ .param name :: m.map .literal)
    (hvalue : (0x2F : UInt8) ∉ value) {c : UInt8} {cs : List UInt8} (hpath : value ++ m = c :: cs) :
    ∃ n > (c :: cs).length, router.find (s ++ c :: cs) =
      ((Branch.contend n c cs (Branch.beyond s router.branches)).orElse
        (.found r [value])).found? := by
  obtain ⟨n, hn, hsearch⟩ := Branch.search_value h.level (h.branch_alone hr) hp hvalue hpath
    (n := (s ++ c :: cs).length + 2) (by omega)
  exact ⟨n, hn, by rw [find, Branch.match?, ← branches, hsearch]⟩

/-- Nothing takes a path away from a route that no other one precedes. -/
theorem Orderly.find_first (h : Orderly router) (hr : r ∈ router) {s m name : List UInt8}
    (hp : r.pattern = s.map .literal ++ .param name :: m.map .literal)
    (hvalue : (0x2F : UInt8) ∉ value) (hne : value ++ m ≠ [])
    (hfirst : ∀ r' ∈ router, ¬ r'.pattern.precedes r.pattern) :
    router.find (s ++ (value ++ m)) = some (r, [value]) := by
  obtain ⟨c, cs, hpath⟩ := List.exists_cons_of_ne_nil hne
  obtain ⟨n, -, hfind⟩ := h.find_value hr hp hvalue hpath
  have hbranches : ∀ b ∈ router.branches, ¬ b.pattern.precedes r.pattern := fun b hb =>
    (mem_branches.1 hb).2 ▸ hfirst _ (mem_branches.1 hb).1
  rw [hpath, hfind, Branch.contend_none hp hbranches]
  rfl

/-! ## The exposition among the routes -/

/-- Whether a route has a handler for reading. -/
def isReadable (r : Route) : Bool := (r.handlers.lookup .read).isSome

/-- Whether the exposition can be added under a pattern. -/
def Fits (p : Pattern) (routes : Router) : Prop :=
  ∀ r ∈ routes, r.pattern.conflicts p → r.pattern = p ∧ ¬ isReadable r

instance (p : Pattern) (routes : Router) : Decidable (Fits p routes) :=
  inferInstanceAs (Decidable (∀ r ∈ routes, r.pattern.conflicts p → r.pattern = p ∧ ¬ isReadable r))

/-- A route with the exposition, if its pattern is this one. -/
def extend (p : Pattern) (r : Route) : Route :=
  if r.pattern = p then { r with handlers := r.handlers ++ [(.read, .exposition)] } else r

/-- The routes with the exposition under a pattern. -/
def mounted (p : Pattern) (routes : Router) : Router :=
  routes.map (extend p) ++
    if p ∈ routes.map (·.pattern) then [] else [⟨p, [(.read, .exposition)]⟩]

@[simp] theorem extend_pattern (p : Pattern) (r : Route) : (extend p r).pattern = r.pattern := by
  rw [extend]
  split <;> rfl

theorem extend_of_ne (h : r.pattern ≠ p) : extend p r = r := if_neg h

theorem fits_cons (hr : ¬ r.pattern.conflicts p) : Fits p (r :: routes) ↔ Fits p routes := by
  simp [Fits, hr]

theorem mounted_cons (hr : r.pattern ≠ p) : mounted p (r :: routes) = r :: mounted p routes := by
  simp [mounted, extend_of_ne hr, hr.symm]

theorem mounted_cons_self (h : ∀ r' ∈ routes, r'.pattern ≠ r.pattern) :
    mounted r.pattern (r :: routes) =
      { r with handlers := r.handlers ++ [(.read, .exposition)] } :: routes := by
  have hrest : routes.map (extend r.pattern) = routes :=
    (List.map_congr_left fun r' hr' => extend_of_ne (h r' hr')).trans (List.map_id _)
  simp [mounted, hrest, extend]

/-- When the exposition can be added, and the routes with it. -/
theorem mount_iff (h : routes.Pairwise fun r r' => ¬ r'.pattern.conflicts r.pattern) :
    mount p routes = .ok router ↔ Fits p routes ∧ router = mounted p routes := by
  induction routes generalizing router with
  | nil =>
    have hfits : Fits p [] := fun r hr => by cases hr
    rw [and_iff_right hfits, mount, Except.ok.injEq, eq_comm]
    rfl
  | cons r rest ih =>
    rw [List.pairwise_cons] at h
    rw [mount]
    by_cases hp : r.pattern = p
    · subst hp
      have hself := Pattern.conflicts_self r.pattern
      rw [if_pos rfl]
      by_cases hread : (r.handlers.lookup .read).isSome
      · have hfits : ¬ Fits r.pattern (r :: rest) := fun hf =>
          (hf r List.mem_cons_self hself).2 hread
        rw [if_pos hread]
        simp [hfits]
      · have hfits : Fits r.pattern (r :: rest) := fun r' hr' hconflicts => by
          rcases List.mem_cons.1 hr' with rfl | hr'
          · exact ⟨rfl, hread⟩
          · exact absurd hconflicts (h.1 r' hr')
        have hrest : ∀ r' ∈ rest, r'.pattern ≠ r.pattern := fun r' hr' he =>
          h.1 r' hr' (he ▸ hself)
        rw [if_neg hread, and_iff_right hfits, mounted_cons_self hrest, Except.ok.injEq, eq_comm]
    · rw [if_neg hp, mounted_cons hp]
      by_cases hconflicts : r.pattern.conflicts p
      · have hfits : ¬ Fits p (r :: rest) := fun hf => hp (hf r List.mem_cons_self hconflicts).1
        simp [if_pos hconflicts, hfits]
      · rw [if_neg hconflicts, fits_cons hconflicts]
        cases hm : mount p rest with
        | error e =>
          have hfits : ¬ Fits p rest := fun hf => by
            cases hm.symm.trans ((ih h.2).2 ⟨hf, rfl⟩)
          simp [Except.map, hfits]
        | ok router' =>
          obtain ⟨hfits, rfl⟩ := (ih h.2).1 hm
          rw [and_iff_right hfits, Except.map, Except.ok.injEq, eq_comm]

theorem mount_ne_relative : mount p routes ≠ .error .relative := by
  induction routes with
  | nil => simp [mount]
  | cons r rest ih =>
    rw [mount]
    split
    · split <;> simp
    · split
      · simp
      · cases hm : mount p rest with
        | error e => simpa [Except.map, hm] using ih
        | ok router => simp [Except.map]

theorem mem_mounted : r' ∈ mounted p routes ↔ (∃ r ∈ routes, extend p r = r') ∨
    p ∉ routes.map (·.pattern) ∧ r' = ⟨p, [(.read, .exposition)]⟩ := by
  rw [mounted, List.mem_append, List.mem_map]
  refine or_congr_right ?_
  split <;> simp [*]

/-- The route that serves the exposition. -/
theorem exists_exposed (hfits : Fits p routes) :
    ∃ r ∈ mounted p routes, r.pattern = p ∧ r.handler? .get = some .exposition := by
  by_cases hp : p ∈ routes.map (·.pattern)
  · obtain ⟨r, hr, rfl⟩ := List.mem_map.1 hp
    have hread := (hfits r hr (Pattern.conflicts_self _)).2
    refine ⟨extend r.pattern r, mem_mounted.2 (Or.inl ⟨r, hr, rfl⟩), extend_pattern _ _, ?_⟩
    simp only [isReadable, Bool.not_eq_true, Option.isSome_eq_false_iff,
      Option.isNone_iff_eq_none] at hread
    simp [extend, Route.handler?, List.lookup_append, hread]
  · exact ⟨⟨p, [(.read, .exposition)]⟩, mem_mounted.2 (Or.inr ⟨hp, rfl⟩), rfl, rfl⟩

/-- Handlers stay. -/
theorem handler?_extend {m : Method} {e : Endpoint} (h : r.handler? m = some e) :
    (extend p r).handler? m = some e := by
  rw [extend]
  split
  · cases m <;> simp_all [Route.handler?, List.lookup_append]
  · exact h

theorem orderly_mounted (h : Orderly routes) (htidy : p.tidy)
    (hhead : p.head? = some (.literal 0x2F)) (hfits : Fits p routes) :
    Orderly (mounted p routes) where
  tidy r hr := by
    rcases mem_mounted.1 hr with ⟨a, ha, rfl⟩ | ⟨-, rfl⟩
    · exact extend_pattern p a ▸ h.tidy a ha
    · exact htidy
  head r hr := by
    rcases mem_mounted.1 hr with ⟨a, ha, rfl⟩ | ⟨-, rfl⟩
    · exact extend_pattern p a ▸ h.head a ha
    · exact hhead
  alone r hr r' hr' hconflicts := by
    rcases mem_mounted.1 hr with ⟨a, ha, rfl⟩ | ⟨hp, rfl⟩ <;>
      rcases mem_mounted.1 hr' with ⟨a', ha', rfl⟩ | ⟨hp', rfl⟩
    · rw [extend_pattern, extend_pattern] at hconflicts
      rw [h.alone a ha a' ha' hconflicts]
    · -- What conflicts with the new pattern has it.
      rw [extend_pattern, Pattern.conflicts_comm] at hconflicts
      exact absurd (List.mem_map.2 ⟨a, ha, (hfits a ha hconflicts).1⟩) hp'
    · rw [extend_pattern] at hconflicts
      exact absurd (List.mem_map.2 ⟨a', ha', (hfits a' ha' hconflicts).1⟩) hp
    · rfl

/-! ## The routers of hubs -/

theorem base_pairwise : base.Pairwise fun r r' => ¬ r'.pattern.conflicts r.pattern := by decide

theorem make_iff {m : MetricsSettings} (hon : m.enabled) : make m = .ok router ↔
    ∃ p, Pattern.parse m.endpoint = .ok p ∧ Fits p base ∧ router = mounted p base := by
  rw [make, if_pos hon]
  constructor
  · intro h
    obtain ⟨p, hp, h⟩ := exists_of_bind h
    exact ⟨p, hp, (mount_iff base_pairwise).1 h⟩
  · rintro ⟨p, hp, h⟩
    rw [hp]
    exact (mount_iff base_pairwise).2 h

theorem orderly_of_parse {endpoint : String} (hp : Pattern.parse endpoint = .ok p)
    (hfits : Fits p base) : Orderly (mounted p base) := by
  obtain ⟨htidy, -, hhead⟩ := Pattern.parse_spec hp
  exact orderly_mounted orderly_base htidy hhead hfits

/-- In every router the path that a readable route spells out leads to that route. -/
theorem find_literal {m : MetricsSettings} (hm : make m = .ok router) (hr : r ∈ base)
    (hread : isReadable r) (hp : r.pattern = path.map Part.literal) :
    router.find path = some (r, []) := by
  by_cases hon : m.enabled
  · obtain ⟨p, hparse, hfits, rfl⟩ := (make_iff hon).1 hm
    have hne : r.pattern ≠ p := fun he => (hfits r hr (he ▸ Pattern.conflicts_self _)).2 hread
    exact (orderly_of_parse hparse hfits).find_path
      (mem_mounted.2 (Or.inl ⟨r, hr, extend_of_ne hne⟩)) hp
  · rw [make, if_neg hon] at hm
    cases hm
    exact orderly_base.find_path hr hp

end Router

/-- In every router a request to such a path gets to the handler of its method. -/
theorem serve_literal {m : MetricsSettings} {router : Router} (hm : Router.make m = .ok router)
    {route : Route} (hroute : route ∈ Router.base) (hread : Router.isReadable route)
    {path : List UInt8} (hpattern : route.pattern = path.map Part.literal) {r : Request}
    (hpath : r.target.path = path) (hmethod : r.method ≠ .head) {e : Endpoint}
    (hhandler : route.handler? r.method = some e) (receivedAt : UInt64) (site : Site) :
    serve router receivedAt site r = handle receivedAt site r [] e := by
  rw [serve, hpath, Router.find_literal hm hroute hread hpattern]
  simp only [hhandler, if_neg hmethod]

end SignalHub.Http
