import Mathlib.Data.List.Basic
import SignalHub.Proofs.LowerCase
import SignalHub.Proofs.Vouching
/-!
# Names that are no paths

A name with neither a point nor an opening bracket stands for itself. So does the name of a variable
that has two parts, but for the names of a table and of a member of the table.

Results:
* `Place.Plain`: a name with neither a point nor an opening bracket.
* `Place.parse_plain`: such a name stands for itself.
* `Place.parse_pair`: what two such names with a point between them stand for.
* `Environment.parts`: the parts of the name of a variable.
* `Environment.eq_of_overrides`: a variable of two parts changes no setting but its own.
-/
namespace SignalHub

namespace Place

/-- A name with neither a point nor an opening bracket. -/
def Plain (cs : List Char) : Prop := '.' ∉ cs ∧ '[' ∉ cs

instance (cs : List Char) : Decidable (Plain cs) := inferInstanceAs (Decidable (_ ∧ _))

variable {a b cs : List Char} {c : Char} {name : String}

theorem Plain.dropWhile (h : Plain cs) (p : Char → Bool) : Plain (cs.dropWhile p) :=
  ⟨fun hmem => h.1 (List.dropWhile_subset p hmem), fun hmem => h.2 (List.dropWhile_subset p hmem)⟩

theorem readSteps_nil (fuel : Nat) : readSteps fuel [] = some [] := by
  cases fuel <;> rfl

/-- Steps that follow another one are announced by a point or a bracket. -/
theorem readSteps_of_ne (fuel : Nat) (hpoint : c ≠ '.') (hbracket : c ≠ '[') (cs : List Char) :
    readSteps fuel (c :: cs) = none := by
  rw [readSteps.eq_def]
  split
  · rename_i h
    cases h
  · rfl
  · rename_i h
    cases h
    exact absurd rfl hpoint
  · rename_i h
    cases h
    exact absurd rfl hbracket
  · rfl

/-- No steps follow in a name with neither a point nor an opening bracket. -/
theorem readSteps_plain (fuel : Nat) (h : Plain cs) (hne : cs ≠ []) : readSteps fuel cs = none := by
  obtain ⟨c, cs, rfl⟩ := List.exists_cons_of_ne_nil hne
  refine readSteps_of_ne fuel ?_ ?_ cs
  · rintro rfl
    exact h.1 List.mem_cons_self
  · rintro rfl
    exact h.2 List.mem_cons_self

/-- A name is read up to the first character that is no part of one. -/
theorem readName_eq (cs : List Char) : readName cs = if cs.takeWhile isPartChar = [] then none
    else some (.name (String.ofList (cs.takeWhile isPartChar)), cs.dropWhile isPartChar) := by
  simp only [readName, List.isEmpty_iff]

/-- The place that characters spell, if they spell one. -/
def spelled? (cs : List Char) : Option Place := do
  let (first, rest) ← readName cs
  let more ← readSteps rest.length rest
  pure (ofSteps first more)

theorem parse_eq (name : String) : parse name =
    (spelled? (Text.lower name).toList).getD ⟨[], .name (Text.lower name)⟩ := rfl

/-- What is spelled by a name and steps after it. -/
theorem spelled?_eq (cs : List Char) : spelled? cs =
    if cs.takeWhile isPartChar = [] then none
    else (readSteps (cs.dropWhile isPartChar).length (cs.dropWhile isPartChar)).map
      (ofSteps (.name (String.ofList (cs.takeWhile isPartChar)))) := by
  rw [spelled?, readName_eq]
  split
  · rfl
  · simp only [Option.bind_eq_bind, Option.bind_some, Option.map_eq_bind]
    rfl

theorem takeWhile_of_dropWhile_eq_nil (h : cs.dropWhile isPartChar = []) :
    cs.takeWhile isPartChar = cs := by
  have hall := List.takeWhile_append_dropWhile (p := isPartChar) (l := cs)
  rwa [h, List.append_nil] at hall

/-- A name with neither a point nor an opening bracket spells itself or nothing. -/
theorem spelled?_plain (h : Plain cs) :
    spelled? cs = none ∨ spelled? cs = some ⟨[], .name (String.ofList cs)⟩ := by
  rw [spelled?_eq]
  split
  · exact Or.inl rfl
  · by_cases hrest : cs.dropWhile isPartChar = []
    · rw [hrest, takeWhile_of_dropWhile_eq_nil hrest, readSteps_nil]
      exact Or.inr rfl
    · rw [readSteps_plain _ (h.dropWhile isPartChar) hrest]
      exact Or.inl rfl

/-- Nothing is spelled by what goes on after a name that is not read as a whole. -/
theorem spelled?_broken (ha : Plain a) (hrest : a.dropWhile isPartChar ≠ []) (cs : List Char) :
    spelled? (a ++ cs) = none := by
  obtain ⟨c, rest, hcons⟩ := List.exists_cons_of_ne_nil hrest
  have hplain := ha.dropWhile isPartChar
  rw [hcons] at hplain
  rw [spelled?_eq]
  split
  · rfl
  · rw [List.dropWhile_append, hcons]
    simp only [List.isEmpty_cons, Bool.false_eq_true, if_false, List.cons_append]
    rw [readSteps_of_ne]
    · rfl
    · rintro rfl
      exact hplain.1 List.mem_cons_self
    · rintro rfl
      exact hplain.2 List.mem_cons_self

/-- A step follows a name that is read as a whole, or nothing is spelled. -/
theorem spelled?_whole (hrest : a.dropWhile isPartChar = []) (hb : Plain b) :
    spelled? (a ++ '.' :: b) = none ∨
      spelled? (a ++ '.' :: b) = some ⟨[.name (String.ofList a)], .name (String.ofList b)⟩ := by
  have hpoint : isPartChar '.' = false := rfl
  have htake : (a ++ '.' :: b).takeWhile isPartChar = a := by
    rw [List.takeWhile_append, takeWhile_of_dropWhile_eq_nil hrest, if_pos rfl,
      List.takeWhile_cons_of_neg (by simp [hpoint]), List.append_nil]
  have hdrop : (a ++ '.' :: b).dropWhile isPartChar = '.' :: b := by
    rw [List.dropWhile_append, hrest, List.dropWhile_cons_of_neg (by simp [hpoint])]
    rfl
  rw [spelled?_eq]
  split
  · exact Or.inl rfl
  · rw [htake, hdrop, List.length_cons, readSteps, readName_eq]
    by_cases hpart : b.takeWhile isPartChar = []
    · rw [if_pos hpart]
      exact Or.inl rfl
    · rw [if_neg hpart]
      by_cases hrest' : b.dropWhile isPartChar = []
      · rw [hrest', takeWhile_of_dropWhile_eq_nil hrest']
        simp only [Option.bind_eq_bind, Option.bind_some, readSteps_nil]
        exact Or.inr rfl
      · simp only [Option.bind_eq_bind, Option.bind_some,
          readSteps_plain _ (hb.dropWhile isPartChar) hrest']
        exact Or.inl rfl

/-- Two such names with a point between them spell the names, one under the other, or nothing. -/
theorem spelled?_pair (ha : Plain a) (hb : Plain b) :
    spelled? (a ++ '.' :: b) = none ∨
      spelled? (a ++ '.' :: b) = some ⟨[.name (String.ofList a)], .name (String.ofList b)⟩ := by
  by_cases hrest : a.dropWhile isPartChar = []
  · exact spelled?_whole hrest hb
  · exact Or.inl (spelled?_broken ha hrest ('.' :: b))

/-- A name with neither a point nor an opening bracket stands for itself. -/
theorem parse_plain (h : Plain (Text.lower name).toList) :
    parse name = ⟨[], .name (Text.lower name)⟩ := by
  rw [parse_eq]
  rcases spelled?_plain h with hspelled | hspelled
  · rw [hspelled]
    rfl
  · rw [hspelled, String.ofList_toList]
    rfl

/-- Two such names in lower case with a point between them stand for one under the other, or for
the whole. -/
theorem parse_pair (ha : Plain a) (hb : Plain b) (hsettled : ∀ c ∈ a ++ '.' :: b, Text.Settled c) :
    parse (String.ofList (a ++ '.' :: b)) = ⟨[.name (String.ofList a)], .name (String.ofList b)⟩ ∨
      parse (String.ofList (a ++ '.' :: b)) = ⟨[], .name (String.ofList (a ++ '.' :: b))⟩ := by
  have hlower := Text.lower_eq_self (s := String.ofList (a ++ '.' :: b))
    (by simpa only [String.toList_ofList] using hsettled)
  rw [parse_eq, hlower, String.toList_ofList]
  rcases spelled?_pair ha hb with hspelled | hspelled
  · rw [hspelled]
    exact Or.inr rfl
  · rw [hspelled]
    exact Or.inl rfl

end Place

attribute [local irreducible] Place.parse

namespace Layer

variable {sec key name : String} {v : Given}

theorem point_not_mem (hsec : sec ∈ sectionNames) : '.' ∉ sec.toList := by
  revert sec
  decide

/-- A name with neither a point nor an opening bracket has nothing to do with a setting, unless it
is that of the section. -/
theorem lower_eq_of_touches (hplain : Place.Plain (Text.lower name).toList)
    (h : Touches sec key (.parse name) v) : Text.lower name = sec := by
  rw [Place.parse_plain hplain] at h
  rw [← h.1, Text.lower_lower]

/-- Two such names with a point between them have nothing to do with a setting, unless they are
those of the section and the setting. -/
theorem eq_of_touches_pair {a b : List Char} (hsec : sec ∈ sectionNames) (ha : Place.Plain a)
    (hb : Place.Plain b) (hsettled : ∀ c ∈ a ++ '.' :: b, Text.Settled c)
    (h : Touches sec key (.parse (String.ofList (a ++ '.' :: b))) v) :
    String.ofList a = sec ∧ String.ofList b = key := by
  rcases Place.parse_pair ha hb hsettled with hparse | hparse
  · rw [hparse] at h
    obtain ⟨hname, hkey⟩ := h
    rw [Text.lower_eq_self] at hkey
    · exact ⟨hname, hkey⟩
    · intro c hc
      rw [String.toList_ofList] at hc
      exact hsettled c (List.mem_append_right _ (List.mem_cons_of_mem _ hc))
  -- The whole is no section, for it has a point.
  · rw [hparse] at h
    obtain ⟨hname, -⟩ := h
    rw [Text.lower_eq_self (by simpa only [String.toList_ofList] using hsettled)] at hname
    have hpoint := point_not_mem hsec
    rw [← hname, String.toList_ofList] at hpoint
    exact absurd (List.mem_append_right a List.mem_cons_self) hpoint

end Layer

/-! ## Variables -/

namespace Environment

open Text

/-- What stands between pairs of underscores. -/
def parts : List Char → List (List Char)
  | '_' :: '_' :: rest => [] :: parts rest
  | c :: rest =>
    match parts rest with
    | [] => [[c]]
    | part :: more => (c :: part) :: more
  | [] => [[]]

theorem parts_ne_nil (cs : List Char) : parts cs ≠ [] := by
  fun_induction parts cs <;> simp

theorem intercalate_cons_head {α : Type} (sep : List α) (x : α) (part : List α)
    (more : List (List α)) :
    sep.intercalate ((x :: part) :: more) = x :: sep.intercalate (part :: more) := by
  cases more with
  | nil => simp
  | cons part' more => simp [List.intercalate_cons_cons]

/-- The parts with pairs of underscores between them are the whole. -/
theorem intercalate_parts (cs : List Char) : ['_', '_'].intercalate (parts cs) = cs := by
  fun_induction parts cs with
  | case1 rest ih =>
    rw [List.intercalate_cons_of_ne_nil (parts_ne_nil rest), ih]
    rfl
  | case2 c rest _ hnil ih => exact absurd hnil (parts_ne_nil rest)
  | case3 c rest _ part more hparts ih =>
    rw [intercalate_cons_head, ← hparts, ih]
  | case4 => rfl

/-- The name that a variable sets is made of its parts, with points between them. -/
theorem joinParts_eq (cs : List Char) : joinParts cs = ['.'].intercalate (parts cs) := by
  fun_induction parts cs with
  | case1 rest ih =>
    rw [List.intercalate_cons_of_ne_nil (parts_ne_nil rest), ← ih]
    rfl
  | case2 c rest _ hnil ih => exact absurd hnil (parts_ne_nil rest)
  | case3 c rest hpair part more hparts ih =>
    rw [intercalate_cons_head, ← hparts, ← ih, joinParts]
    exact hpair
  | case4 => rfl

/-- Whether a variable is one of the hub's. -/
def Marked (name : String) : Prop := mark.isPrefixOf (lower name).toList

instance (name : String) : Decidable (Marked name) :=
  inferInstanceAs (Decidable (mark.isPrefixOf (lower name).toList = true))

/-- The name of a variable without the mark of the hub. -/
def unmarked (name : String) : List Char := (lower name).toList.drop mark.length

theorem Marked.toList_eq {name : String} (h : Marked name) :
    (lower name).toList = mark ++ unmarked name :=
  (List.prefix_iff_eq_append.1 (List.isPrefixOf_iff_prefix.1 h)).symm

theorem readVariable_eq (name value : String) : readVariable name value =
    if Marked name then some (String.ofList (joinParts (unmarked name)), typed value) else none :=
  rfl

/-- The variable of a setting, in lower case. -/
def variableName (sec key : String) : String :=
  String.ofList (mark ++ sec.toList ++ '_' :: '_' :: key.toList)

/-- The port of the server has this variable. -/
example : variableName "server" "port" = "telemetry_hub__server__port" := by decide

/-- The two parts of a name, and how they are joined. -/
theorem exists_pair {cs : List Char} (h : (parts cs).length = 2) :
    ∃ a b, cs = a ++ '_' :: '_' :: b ∧ joinParts cs = a ++ '.' :: b := by
  obtain ⟨a, b, hab⟩ := List.length_eq_two.1 h
  have hjoin := joinParts_eq cs
  have hwhole := intercalate_parts cs
  rw [hab] at hjoin hwhole
  refine ⟨a, b, ?_, ?_⟩
  · simpa [List.intercalate_cons_cons] using hwhole.symm
  · simpa [List.intercalate_cons_cons] using hjoin

/-- A variable of two parts, and with neither a point nor an opening bracket in its name, changes no
setting but the one that it is the variable of. -/
theorem eq_of_overrides {sec key : String} {var : String × String} (hsec : sec ∈ sectionNames)
    (hplain : Place.Plain (lower var.1).toList)
    (hparts : Marked var.1 → (parts (unmarked var.1)).length = 2)
    (h : Overrides sec key var) : lower var.1 = variableName sec key := by
  obtain ⟨e, he, htouches⟩ := h
  rw [readVariable_eq] at he
  split at he
  · rename_i hmarked
    rw [Option.some.injEq] at he
    subst he
    obtain ⟨a, b, hwhole, hjoin⟩ := exists_pair (hparts hmarked)
    have hmem : ∀ c ∈ a ++ '_' :: '_' :: b, c ∈ (lower var.1).toList := by
      intro c hc
      rw [← hwhole] at hc
      exact List.mem_of_mem_drop hc
    have ha : Place.Plain a :=
      ⟨fun h => hplain.1 (hmem _ (by simp [h])), fun h => hplain.2 (hmem _ (by simp [h]))⟩
    have hb : Place.Plain b :=
      ⟨fun h => hplain.1 (hmem _ (by simp [h])), fun h => hplain.2 (hmem _ (by simp [h]))⟩
    have hsettled : ∀ c ∈ a ++ '.' :: b, Settled c := by
      intro c hc
      rcases List.mem_append.1 hc with hc | hc
      · exact settled_of_mem_lower (hmem c (by simp [hc]))
      · rcases List.mem_cons.1 hc with rfl | hc
        · decide
        · exact settled_of_mem_lower (hmem c (by simp [hc]))
    rw [hjoin] at htouches
    obtain ⟨hname, hkey⟩ := Layer.eq_of_touches_pair hsec ha hb hsettled htouches
    have hlist : (lower var.1).toList = mark ++ a ++ '_' :: '_' :: b := by
      rw [hmarked.toList_eq, hwhole, List.append_assoc]
    have hvariable : variableName sec key = String.ofList (mark ++ a ++ '_' :: '_' :: b) := by
      rw [← hname, ← hkey, variableName, String.toList_ofList, String.toList_ofList]
    rw [hvariable, ← hlist, String.ofList_toList]
  · exact absurd he nofun

end Environment

end SignalHub
