import SignalHub.Settings.Layer
/-!
# What a layer changes

A value that is laid over what is at a place changes a setting only if the place is that of the
setting, lies above it or below it, or makes a list of its section. So a setting is what the last
layer that touches it makes of it.

Results:
* `Layer.Touches`: whether a value at a place may change a setting.
* `Layer.at?_putAt?`: what is not touched stays as it is.
* `Layer.at?_putAll?`: nor is it changed by a layer that does not touch it.
* `Layer.at?_putAt?_section`: what a section says of a setting is there afterwards.
-/
namespace SignalHub.Layer

/-- What stands under a name in a section. -/
def at? (sec key : String) (g : Given) : Option Given := (inner? sec g).bind (inner? key)

variable {sec key name k : String} {g v below inner : Given} {members : List (String × Given)}
  {origin : Option Origin}

@[simp] theorem inner?_table (k : String) (members : List (String × Given))
    (origin : Option Origin) : inner? k (.table members origin) = members.lookup k := rfl

@[simp] theorem inner?_withMember (k name : String) (inner below : Given) :
    inner? k (withMember name inner below) = if name = k then some inner else inner? k below :=
  lookup_setMember name k inner below.members

theorem inner?_remade (k : String) (g : Given) :
    inner? k (.table g.members g.tableOrigin?) = inner? k g := rfl

theorem inner?_nothing (k : String) : inner? k nothing = none := rfl

/-- What is missing holds nothing under any name. -/
theorem inner?_getD {u : Option Given} {missing : Given} (h : inner? key missing = none) :
    inner? key (u.getD missing) = u.bind (inner? key) := by
  cases u with
  | none => exact h
  | some g => rfl

/-! ## Members -/

theorem overlayMembers_append (below : Given) (ms ms' : List (String × Given)) :
    overlayMembers below (ms ++ ms') = overlayMembers (overlayMembers below ms) ms' := by
  induction ms generalizing below with
  | nil => rfl
  | cons m ms ih =>
    obtain ⟨k, g⟩ := m
    rw [List.cons_append, overlayMembers, overlayMembers, ih]

/-- Members of other names change nothing. -/
theorem inner?_overlayMembers (h : ∀ m ∈ members, Text.lower m.1 ≠ k) :
    inner? k (overlayMembers below members) = inner? k below := by
  induction members generalizing below with
  | nil => rfl
  | cons m rest ih =>
    obtain ⟨name, g⟩ := m
    rw [overlayMembers, ih fun m hm => h m (List.mem_cons_of_mem _ hm), inner?_withMember,
      if_neg (h (name, g) List.mem_cons_self)]

/-- The only member of a name is laid over what is there. -/
theorem inner?_overlayMembers_unique {before after : List (String × Given)}
    (hname : Text.lower name = k) (hbefore : ∀ m ∈ before, Text.lower m.1 ≠ k)
    (hafter : ∀ m ∈ after, Text.lower m.1 ≠ k) :
    inner? k (overlayMembers below (before ++ (name, v) :: after)) =
      some (overlay ((inner? k below).getD (.table [] none)) v) := by
  subst hname
  rw [overlayMembers_append, overlayMembers, inner?_overlayMembers hafter, inner?_withMember,
    if_pos rfl, inner?_overlayMembers hbefore]

/-! ## Places -/

/-- Whether a value that is laid over what is at a place may change a setting. -/
def Touches (sec key : String) (p : Place) (v : Given) : Prop :=
  match p.path, p.last with
  | [], .name k => Text.lower k = sec ∧
      ∀ members origin, v = .table members origin → ∃ m ∈ members, Text.lower m.1 = key
  | [.name k], .name k' => k = sec ∧ Text.lower k' = key
  | .name k :: .name k' :: _, _ => k = sec ∧ k' = key
  | .name k :: _, _ => k = sec
  | _, _ => True

instance (sec key : String) (p : Place) (v : Given) : Decidable (Touches sec key p v) :=
  match p, v with
  | ⟨[], .name k⟩, .table members _ =>
    decidable_of_iff (Text.lower k = sec ∧ ∃ m ∈ members, Text.lower m.1 = key)
      ⟨fun h => ⟨h.1, fun _ _ heq => by cases heq; exact h.2⟩, fun h => ⟨h.1, h.2 _ _ rfl⟩⟩
  | ⟨[], .name k⟩, .scalar _ _ =>
    decidable_of_iff (Text.lower k = sec) ⟨fun h => ⟨h, nofun⟩, fun h => h.1⟩
  | ⟨[], .name k⟩, .list _ _ =>
    decidable_of_iff (Text.lower k = sec) ⟨fun h => ⟨h, nofun⟩, fun h => h.1⟩
  | ⟨[.name k], .name k'⟩, _ => inferInstanceAs (Decidable (k = sec ∧ Text.lower k' = key))
  | ⟨.name k :: .name k' :: _, _⟩, _ => inferInstanceAs (Decidable (k = sec ∧ k' = key))
  | ⟨[.name k], .index _⟩, _ => inferInstanceAs (Decidable (k = sec))
  | ⟨.name k :: .index _ :: _, _⟩, _ => inferInstanceAs (Decidable (k = sec))
  | ⟨[], .index _⟩, _ => .isTrue trivial
  | ⟨.index _ :: _, _⟩, _ => .isTrue trivial

/-- What a value becomes that is laid over a name. -/
theorem putLast?_name (v : Given) (k : String) (parent : Given) :
    putLast? v (.name k) parent = some (withMember (Text.lower k)
      (overlay ((inner? (Text.lower k) parent).getD (.table [] none)) v)
      (.table parent.members parent.tableOrigin?)) := rfl

/-- What becomes of something under a name on the way to a place. -/
theorem changeAt?_name {change : Given → Option Given} {path : List Place.Step} {r : Given}
    (h : changeAt? change (.name k :: path) g = some r) :
    ∃ inner, changeAt? change path ((inner? k g).getD nothing) = some inner ∧
      r = withMember k inner g := by
  obtain ⟨inner, hinner, h⟩ := Option.bind_eq_some_iff.1 h
  cases h
  exact ⟨inner, hinner, rfl⟩

theorem at?_withMember_of_ne (h : name ≠ sec) :
    at? sec key (withMember name inner g) = at? sec key g := by
  rw [at?, inner?_withMember, if_neg h, at?]

theorem at?_withMember_self (h : inner? key inner = (inner? sec g).bind (inner? key)) :
    at? sec key (withMember sec inner g) = at? sec key g := by
  rw [at?, inner?_withMember, if_pos rfl, at?, Option.bind_some, h]

/-- A value laid over a name at the top does not change what it does not say. -/
theorem at?_putLast?_name {r : Given} (h : putLast? v (.name k) g = some r)
    (huntouched : ¬ Touches sec key ⟨[], .name k⟩ v) : at? sec key r = at? sec key g := by
  rw [putLast?_name] at h
  cases h
  by_cases hk : Text.lower k = sec
  · subst hk
    have htable : ∃ members origin, v = .table members origin ∧
        ∀ m ∈ members, Text.lower m.1 ≠ key := by
      simpa [Touches] using huntouched
    obtain ⟨members, origin, rfl, hmembers⟩ := htable
    refine at?_withMember_self ?_
    rw [overlay, inner?_overlayMembers hmembers, inner?_getD rfl]
    rfl
  · rw [at?_withMember_of_ne hk]
    rfl

/-- What is not touched stays as it is. -/
theorem at?_putAt? {p : Place} {r : Given} (h : putAt? g p v = some r)
    (huntouched : ¬ Touches sec key p v) : at? sec key r = at? sec key g := by
  obtain ⟨path, last⟩ := p
  cases path with
  | nil =>
    cases last with
    | name k => exact at?_putLast?_name h huntouched
    | index i => exact absurd trivial huntouched
  | cons step path =>
    cases step with
    | index i => exact absurd trivial huntouched
    | name k =>
      obtain ⟨inner, hinner, rfl⟩ := changeAt?_name h
      by_cases hk : k = sec
      · subst hk
        refine at?_withMember_self ?_
        rw [← inner?_getD (inner?_nothing key)]
        cases path with
        | nil =>
          cases last with
          | index i => exact absurd rfl huntouched
          | name k' =>
            have hkey : Text.lower k' ≠ key := fun hkey => huntouched ⟨rfl, hkey⟩
            rw [changeAt?, putLast?_name] at hinner
            cases hinner
            rw [inner?_withMember, if_neg hkey, inner?_remade]
        | cons step path =>
          cases step with
          | index i => exact absurd rfl huntouched
          | name k' =>
            have hkey : k' ≠ key := fun hkey => huntouched ⟨rfl, hkey⟩
            obtain ⟨inner', -, rfl⟩ := changeAt?_name hinner
            rw [inner?_withMember, if_neg hkey]
      · exact at?_withMember_of_ne hk

/-! ## Layers -/

theorem putAll?_append {root r : Given} {layer layer' : List (String × Given)}
    (h : putAll? root (layer ++ layer') = some r) :
    ∃ g, putAll? root layer = some g ∧ putAll? g layer' = some r := by
  rw [putAll?, List.foldlM_append] at h
  exact Option.bind_eq_some_iff.1 h

theorem putAll?_cons {root r : Given} {e : String × Given} {layer : List (String × Given)}
    (h : putAll? root (e :: layer) = some r) :
    ∃ g, putAt? root (.parse e.1) e.2 = some g ∧ putAll? g layer = some r := by
  rw [putAll?, List.foldlM_cons] at h
  exact Option.bind_eq_some_iff.1 h

/-- A layer that does not touch a setting leaves it as it is. -/
theorem at?_putAll? {layer : List (String × Given)} {root r : Given}
    (h : putAll? root layer = some r)
    (huntouched : ∀ e ∈ layer, ¬ Touches sec key (.parse e.1) e.2) :
    at? sec key r = at? sec key root := by
  induction layer generalizing root with
  | nil =>
    cases h
    rfl
  | cons e layer ih =>
    obtain ⟨g, hg, h⟩ := putAll?_cons h
    rw [ih h fun e he => huntouched e (List.mem_cons_of_mem _ he),
      at?_putAt? hg (huntouched e List.mem_cons_self)]

/-- What a section says once of a setting is there after the section has been laid over. -/
theorem at?_putAt?_section {before after : List (String × Given)} {root r : Given}
    (h : putAt? root ⟨[], .name sec⟩ (.table (before ++ (name, v) :: after) origin) = some r)
    (hsec : Text.lower sec = sec) (hname : Text.lower name = key)
    (hbefore : ∀ m ∈ before, Text.lower m.1 ≠ key) (hafter : ∀ m ∈ after, Text.lower m.1 ≠ key) :
    at? sec key r = some (overlay ((at? sec key root).getD (.table [] none)) v) := by
  rw [putAt?, changeAt?, putLast?_name, hsec] at h
  cases h
  rw [at?, inner?_withMember, if_pos rfl, Option.bind_some, overlay,
    inner?_overlayMembers_unique hname hbefore hafter, inner?_getD rfl]
  rfl

end SignalHub.Layer
