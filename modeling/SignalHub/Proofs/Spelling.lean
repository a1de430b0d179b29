import Mathlib.Data.List.TakeWhile
import SignalHub.Proofs.Coverage
/-!
# Patterns and their text

A pattern that was read says its text again: each parameter is spelled with its colon or its star
and its name, and each name goes to the end of its segment. As far as that text is a path that the
pattern covers, the path spells the parameters of the pattern.

Results:
* `Pattern.tidy`, `Pattern.text`: what a pattern that was read looks like.
* `Pattern.parse_spec`: a pattern in text.
* `Pattern.spells_of_covers`: a path that begins the text of the pattern.
-/
namespace SignalHub.Http

theorem exists_of_bind {ε σ τ : Type} {x : Except ε σ} {f : σ → Except ε τ} {t : τ}
    (h : x >>= f = .ok t) : ∃ a, x = .ok a ∧ f a = .ok t := by
  cases x with
  | error e => cases h
  | ok a => exact ⟨a, rfl, h⟩

theorem bind_ne {ε σ τ : Type} {x : Except ε σ} {f : σ → Except ε τ} {e : ε} (hx : x ≠ .error e)
    (hf : ∀ a, f a ≠ .error e) : x >>= f ≠ .error e := by
  cases x with
  | error e' => exact fun h => hx (by cases h; rfl)
  | ok a => exact hf a

/-! ## Segments -/

section

variable {value more : List UInt8}

theorem ne_slash_of_mem (hvalue : (0x2F : UInt8) ∉ value) : ∀ b ∈ value, (b != 0x2F) = true :=
  fun _ hb => bne_iff_ne.2 fun he => hvalue (he ▸ hb)

/-- A segment goes to the next slash. -/
theorem takeWhile_segment (hvalue : (0x2F : UInt8) ∉ value)
    (hmore : more = [] ∨ more.head? = some 0x2F) :
    (value ++ more).takeWhile (· != 0x2F) = value := by
  rw [List.takeWhile_append_of_pos (ne_slash_of_mem hvalue)]
  cases more with
  | nil => simp
  | cons e more => simp_all

theorem dropWhile_segment (hvalue : (0x2F : UInt8) ∉ value)
    (hmore : more = [] ∨ more.head? = some 0x2F) :
    (value ++ more).dropWhile (· != 0x2F) = more := by
  rw [List.dropWhile_append_of_pos (ne_slash_of_mem hvalue)]
  cases more with
  | nil => simp
  | cons e more => simp_all

/-- A path is the rest of a segment, and what follows that. -/
theorem exists_segment (path : List UInt8) : ∃ value more, path = value ++ more ∧
    (0x2F : UInt8) ∉ value ∧ (more = [] ∨ more.head? = some 0x2F) := by
  refine ⟨_, _, (List.takeWhile_append_dropWhile (p := (· != 0x2F))).symm, fun hmem => ?_, ?_⟩
  · have h := List.mem_takeWhile_imp hmem
    cases h
  · have hslash := List.head?_dropWhile_not (fun b : UInt8 => b != 0x2F) path
    cases hdrop : path.dropWhile (· != 0x2F) with
    | nil => exact Or.inl rfl
    | cons e more => exact Or.inr (by simpa [hdrop] using hslash)

end

namespace Pattern

variable {p q : Pattern} {s path bs : List UInt8} {name : List UInt8}

/-- Whether a pattern is made as one is made from text: a parameter takes the rest of its segment or
of the path, and what parameters are spelled with is no literal byte. -/
def tidy : Pattern → Bool
  | [] => true
  | .literal b :: ps => b != 0x3A && b != 0x2A && tidy ps
  | .param name :: ps =>
    !name.contains 0x2F && (ps == [] || ps.head? == some (.literal 0x2F)) && tidy ps
  | .rest _ :: ps => ps == []

/-- The text of a pattern. -/
def text : Pattern → List UInt8
  | [] => []
  | .literal b :: ps => b :: text ps
  | .param name :: ps => 0x3A :: name ++ text ps
  | .rest name :: ps => 0x2A :: name ++ text ps

/-- Whether a path goes along a pattern with each parameter spelled as one. -/
def spells : Pattern → List UInt8 → Bool
  | [], path => path.isEmpty
  | _ :: _, [] => false
  | .literal b :: ps, c :: cs => b == c && spells ps cs
  | .param _ :: ps, c :: cs => c == 0x3A && spells ps ((c :: cs).dropWhile (· != 0x2F))
  | .rest _ :: _, c :: _ => c == 0x2A

theorem spells_literals (s : List UInt8) (p : Pattern) (path : List UInt8) :
    spells (s.map .literal ++ p) path ↔ ∃ more, path = s ++ more ∧ p.spells more := by
  induction s generalizing path with
  | nil => simp
  | cons b s ih =>
    cases path with
    | nil => simp [spells]
    | cons c cs => simp [spells, ih, and_assoc, eq_comm (a := c)]

theorem tidy_of_append {ps qs : List Part} (h : tidy (ps ++ qs)) : tidy qs := by
  induction ps with
  | nil => exact h
  | cons p ps ih =>
    match p with
    | .literal b => exact ih (by simp_all [tidy])
    | .param name => exact ih (by simp_all [tidy])
    | .rest name => simp_all [tidy]

theorem tidy_drop (h : p.tidy) (n : Nat) : tidy (p.drop n) := by
  rw [← List.take_append_drop n p] at h
  exact tidy_of_append h

theorem tidy_behind_param (h : tidy (.param name :: p)) : p.tidy := tidy_drop h 1

theorem behind_param (h : tidy (.param name :: p)) :
    p = [] ∨ p.head? = some (.literal 0x2F) := by
  simp only [tidy, Bool.and_eq_true, Bool.or_eq_true, beq_iff_eq] at h
  exact h.1.2

/-! ## Reading a pattern -/

theorem eq_nil_of_text (h : p.text = []) : p = [] := by
  match p with
  | [] => rfl
  | .literal _ :: _ | .param _ :: _ | .rest _ :: _ => simp [text] at h

theorem head_of_text (h : p.text.head? = some 0x2F) : p.head? = some (.literal 0x2F) := by
  match p with
  | [] | .param _ :: _ | .rest _ :: _ => simp [text] at h
  | .literal b :: _ => simpa [text] using h

/-- The name of a parameter goes to the end of the segment. -/
theorem paramName_ok (h : paramName bs = .ok name) : ∃ rest, bs = name ++ rest ∧
    (0x2F : UInt8) ∉ name ∧ (rest = [] ∨ rest.head? = some 0x2F) := by
  obtain ⟨value, rest, rfl, hvalue, hrest⟩ := exists_segment bs
  simp only [paramName, takeWhile_segment hvalue hrest] at h
  split at h
  · cases h
  · split at h <;> cases h
    exact ⟨rest, rfl, hvalue, hrest⟩

/-- How the first part of a pattern is read. -/
theorem parts_cases {start : Bool} {fuel : Nat} {b : UInt8}
    (h : parts start (fuel + 1) (b :: bs) = .ok p) :
    (∃ name rest ps, b = 0x3A ∧ bs = name ++ rest ∧ (0x2F : UInt8) ∉ name ∧
        (rest = [] ∨ rest.head? = some 0x2F) ∧ parts false fuel rest = .ok ps ∧
        p = .param name :: ps) ∨
      (b = 0x2A ∧ p = [.rest bs]) ∨
      ∃ ps, b ≠ 0x3A ∧ b ≠ 0x2A ∧ parts (b == 0x2F) fuel bs = .ok ps ∧ p = .literal b :: ps := by
  rw [parts] at h
  split at h
  · rename_i hb
    obtain ⟨name, hname, h⟩ := exists_of_bind h
    obtain ⟨ps, hps, h⟩ := exists_of_bind h
    cases h
    obtain ⟨rest, rfl, hslash, hrest⟩ := paramName_ok hname
    rw [List.drop_left] at hps
    exact Or.inl ⟨name, rest, ps, hb, rfl, hslash, hrest, hps, rfl⟩
  · split at h
    · rename_i hb
      obtain ⟨name, hname, h⟩ := exists_of_bind h
      obtain ⟨rest, rfl, -⟩ := paramName_ok hname
      split at h
      · rename_i hend
        cases h
        obtain rfl : rest = [] := by simpa using hend.2
        exact Or.inr (Or.inl ⟨hb, by rw [List.append_nil]⟩)
      · cases h
    · rename_i hb hb'
      obtain ⟨ps, hps, h⟩ := exists_of_bind h
      cases h
      exact Or.inr (Or.inr ⟨ps, hb, hb', hps, rfl⟩)

/-- A pattern that was read says its text. -/
theorem parts_spec {start : Bool} {fuel : Nat} (hfuel : bs.length ≤ fuel)
    (h : parts start fuel bs = .ok p) : p.tidy ∧ p.text = bs := by
  induction fuel generalizing start bs p with
  | zero =>
    obtain rfl : bs = [] := by simpa using hfuel
    cases h
    exact ⟨rfl, rfl⟩
  | succ fuel ih =>
    cases bs with
    | nil => cases h; exact ⟨rfl, rfl⟩
    | cons b bs =>
      rw [List.length_cons, Nat.add_le_add_iff_right] at hfuel
      rcases parts_cases h with ⟨name, rest, ps, rfl, rfl, hname, hrest, hps, rfl⟩ | ⟨rfl, rfl⟩ |
        ⟨ps, hb, hb', hps, rfl⟩
      · rw [List.length_append] at hfuel
        obtain ⟨htidy, rfl⟩ := ih (by omega) hps
        have hbehind := hrest.imp eq_nil_of_text head_of_text
        exact ⟨by simp [tidy, htidy, hname, hbehind], rfl⟩
      · simp [tidy, text]
      · obtain ⟨htidy, rfl⟩ := ih hfuel hps
        exact ⟨by simp [tidy, hb, hb', htidy], rfl⟩

/-- A pattern in text. -/
theorem parse_spec {t : String} (h : parse t = .ok p) :
    p.tidy ∧ p.text = Text.bytes t ∧ p.head? = some (.literal 0x2F) := by
  rw [parse] at h
  split at h
  · rename_i bs hbs
    obtain ⟨q, hq, h⟩ := exists_of_bind h
    split at h <;> cases h
    obtain ⟨htidy, htext⟩ := parts_spec (by simp) hq
    exact ⟨htidy, htext.trans hbs.symm, head_of_text (by rw [htext]; rfl)⟩
  · cases h

/-! ## Text that begins with a slash -/

theorem head_of_parse {t : String} (h : parse t = .ok p) :
    (Text.bytes t).head? = some 0x2F := by
  rw [parse] at h
  split at h
  · rename_i bs hbs
    rw [hbs]
    rfl
  · cases h

theorem paramName_ne_relative : paramName bs ≠ .error .relative := by
  simp only [paramName]
  split
  · simp
  · split <;> simp

theorem parts_ne_relative {start : Bool} {fuel : Nat} : parts start fuel bs ≠ .error .relative := by
  induction fuel generalizing start bs with
  | zero => simp [parts]
  | succ fuel ih =>
    cases bs with
    | nil => simp [parts]
    | cons b bs =>
      rw [parts]
      split
      · exact bind_ne paramName_ne_relative fun name => bind_ne ih (by simp [pure, Except.pure])
      · split
        · refine bind_ne paramName_ne_relative fun name => ?_
          split <;> simp [pure, Except.pure]
        · exact bind_ne ih (by simp [pure, Except.pure])

/-- What begins with a slash is not refused for that. -/
theorem parse_ne_relative {t : String} (h : (Text.bytes t).head? = some 0x2F) :
    parse t ≠ .error .relative := by
  obtain ⟨bs, hbs⟩ := List.head?_eq_some_iff.1 h
  rw [parse, hbs]
  refine bind_ne parts_ne_relative fun p => ?_
  split <;> simp [pure, Except.pure]

/-- The path of a text that begins with a slash begins the text. -/
theorem path_prefix {t : String} (h : (Text.bytes t).head? = some 0x2F) :
    (Target.ofUri t).path <+: Text.bytes t := by
  obtain ⟨bs, hbs⟩ := List.head?_eq_some_iff.1 h
  have htake : (Text.bytes t).takeWhile (· != 0x23) = 0x2F :: bs.takeWhile (· != 0x23) := by
    rw [hbs]; rfl
  have hpath : (Target.ofUri t).path =
      ((Text.bytes t).takeWhile (· != 0x23)).takeWhile (· != 0x3F) := by
    simp only [Target.ofUri, htake]
    rfl
  rw [hpath]
  exact (List.takeWhile_prefix _).trans (List.takeWhile_prefix _)

/-! ## Paths that spell a pattern -/

/-- A path that begins with a name begins what follows the name, once it is past its first
slash. -/
theorem dropWhile_prefix {cs more : List UInt8} (hname : (0x2F : UInt8) ∉ name)
    (hmore : more = [] ∨ more.head? = some 0x2F) (h : cs <+: name ++ more) :
    cs.dropWhile (· != 0x2F) <+: more := by
  rcases List.prefix_or_prefix_of_prefix h (List.prefix_append name more) with hshort | hlong
  · have hcs : (0x2F : UInt8) ∉ cs := fun hmem => hname (hshort.subset hmem)
    have hdrop : (cs ++ []).dropWhile (· != 0x2F) = [] := dropWhile_segment hcs (Or.inl rfl)
    rw [← List.append_nil cs, hdrop]
    exact List.nil_prefix
  · obtain ⟨rest, rfl⟩ := hlong
    rw [List.prefix_append_right_inj] at h
    have hrest : rest = [] ∨ rest.head? = some 0x2F := by
      cases rest with
      | nil => exact Or.inl rfl
      | cons e rest =>
        obtain ⟨end', rfl⟩ := h
        exact Or.inr (by simpa using hmore)
    rwa [dropWhile_segment hname hrest]

theorem text_head (hbehind : p = [] ∨ p.head? = some (.literal 0x2F)) :
    p.text = [] ∨ p.text.head? = some 0x2F := by
  match p, hbehind with
  | [], _ => exact Or.inl rfl
  | q :: p, h =>
    obtain rfl : q = .literal 0x2F := by simpa using h
    exact Or.inr rfl

/-- A path that begins the text of a pattern spells the parameters that it covers. -/
theorem spells_of_covers (htidy : p.tidy) (hpath : path <+: p.text) (h : p.covers path) :
    p.spells path := by
  fun_induction covers p path with
  | case1 path => exact h
  | case2 => exact h
  | case3 b ps c cs ih =>
    obtain ⟨hb, h⟩ := Bool.and_eq_true_iff.1 h
    simp only [tidy, Bool.and_eq_true] at htidy
    simp [spells, hb, ih htidy.2 (List.cons_prefix_cons.1 hpath).2 h]
  | case4 name ps c cs ih =>
    have hbehind := behind_param htidy
    simp only [tidy, Bool.and_eq_true] at htidy
    obtain ⟨rfl, hcs⟩ := List.cons_prefix_cons.1 hpath
    have hmore := dropWhile_prefix (by simpa using htidy.1.1) (text_head hbehind) hcs
    exact ih htidy.2 hmore h
  | case5 name ps c cs =>
    simpa [spells] using (List.cons_prefix_cons.1 hpath).1

end Pattern

end SignalHub.Http
