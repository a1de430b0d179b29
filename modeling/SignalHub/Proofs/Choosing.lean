import SignalHub.Proofs.Naming
import SignalHub.Proofs.Sections
/-!
# Settings chosen key by key

A name at the top of a file and the name of a variable stand for places, and few places have
anything to do with a setting: the sections of the file, the variables of the settings, and paths
with points or brackets. Where there are none of the last kind, each setting is chosen by itself: it
is what its variable says, or what its section of the file says, or its default, and no other value
is ever looked at.

Results:
* `settingNames`: the section and the name of each setting.
* `InOrder`: a file and variables that say at most one thing of each setting.
* `chosen`: the value that counts for a setting.
* `at?_layers`: what stands in the layers for a setting is the chosen value.
* `loads_chosen_values`: settings are loaded if and only if they are what the chosen values are.
* `dotted_names_reach_settings`: paths reach settings too.
-/
namespace SignalHub

/-! ## Names -/

/-- The section and the name of each setting. -/
def settingNames : List (String × String) :=
  ((ServerSettings.fields Loose.codecs).names.map fun name => ("server", name)) ++
    ((StorageSettings.fields Loose.codecs).names.map fun name => ("storage", name)) ++
    ((StreamSettings.fields Loose.codecs).names.map fun name => ("stream", name)) ++
    (MetricsSettings.fields Loose.codecs).names.map fun name => ("metrics", name)

/-- There are sixteen settings. -/
example : settingNames.length = 16 := rfl

/-- The value of the member whose name is this one in lower case. -/
def member? {α : Type} (k : String) (members : List (String × α)) : Option α :=
  (members.find? fun m => Text.lower m.1 = k).map (·.2)

/-- What the members at the top of a file say of a setting. -/
def Layer.given? (sec key : String) (members : List (String × Given)) : Option Given :=
  (member? sec members).bind fun g => member? key g.members

/-- What the variable of a setting says, if it is set. -/
def Environment.given? (sec key : String) (vars : List (String × String)) : Option Given :=
  (member? (variableName sec key) vars).map fun value => .scalar (typed value) (some .environment)

/-- The value that counts for a setting: that of its variable, else that of the file. -/
def chosen (members : List (String × Given)) (vars : List (String × String))
    (sec key : String) : Option Given :=
  (Environment.given? sec key vars).or (Layer.given? sec key members)

/-- In a file, names are distinct, sections are tables in which names are distinct, and a name with
a point or an opening bracket stands for a place that has nothing to do with a setting. -/
structure Layer.Orderly (members : List (String × Given)) : Prop where
  distinct : (members.map fun m => Text.lower m.1).Nodup
  sections : ∀ m ∈ members, Text.lower m.1 ∈ sectionNames →
    m.2.IsTable ∧ (m.2.members.map fun m => Text.lower m.1).Nodup
  paths : ∀ m ∈ members, ¬ Place.Plain (Text.lower m.1).toList →
    ∀ n ∈ settingNames, ¬ Touches n.1 n.2 (.parse m.1) m.2

instance : DecidablePred Layer.Orderly := fun _ =>
  decidable_of_iff (_ ∧ _ ∧ _) ⟨fun h => ⟨h.1, h.2.1, h.2.2⟩, fun h => ⟨h.1, h.2, h.3⟩⟩

/-- The variables of the hub have distinct names of two parts, and one whose name has a point or an
opening bracket stands for a place that has nothing to do with a setting. -/
structure Environment.Orderly (vars : List (String × String)) : Prop where
  distinct : ((vars.filter fun var => Marked var.1).map fun var => Text.lower var.1).Nodup
  pairs : ∀ var ∈ vars, Marked var.1 → (parts (unmarked var.1)).length = 2
  paths : ∀ var ∈ vars, ¬ Place.Plain (Text.lower var.1).toList →
    ∀ n ∈ settingNames, ¬ Overrides n.1 n.2 var

instance : DecidablePred Environment.Orderly := fun _ =>
  decidable_of_iff (_ ∧ _ ∧ _) ⟨fun h => ⟨h.1, h.2.1, h.2.2⟩, fun h => ⟨h.1, h.2, h.3⟩⟩

/-- A file, if there is one, and variables that say at most one thing of each setting. -/
structure InOrder (d : Directory) (vars : List (String × String)) (path : String) : Prop where
  file : ∀ members, fileLayer (locate d path) = .ok members → Layer.Orderly members
  vars : Environment.Orderly vars

theorem forall_mem_toOption {ε α : Type} {x : Except ε α} {P : α → Prop} :
    (∀ a ∈ x.toOption, P a) ↔ ∀ a, x = .ok a → P a := by
  cases x <;> simp [Except.toOption]

instance (d : Directory) (vars : List (String × String)) (path : String) :
    Decidable (InOrder d vars path) :=
  decidable_of_iff ((∀ members ∈ (fileLayer (locate d path)).toOption, Layer.Orderly members) ∧
      Environment.Orderly vars)
    ⟨fun h => ⟨forall_mem_toOption.1 h.1, h.2⟩, fun h => ⟨forall_mem_toOption.2 h.file, h.vars⟩⟩

section Members

variable {α : Type} {k : String} {members : List (String × α)}

theorem member?_eq_none_iff : member? k members = none ↔ ∀ m ∈ members, Text.lower m.1 ≠ k := by
  simp [member?]

theorem exists_of_member? {v : α} (h : member? k members = some v) : ∃ before name after,
    members = before ++ (name, v) :: after ∧ Text.lower name = k := by
  obtain ⟨⟨name, v'⟩, hfind, rfl⟩ := Option.map_eq_some_iff.1 h
  obtain ⟨hname, before, after, rfl, -⟩ := List.find?_eq_some_iff_append.1 hfind
  exact ⟨before, name, after, rfl, by simpa using hname⟩

end Members

variable {sec key : String} {members : List (String × Given)} {vars : List (String × String)}
  {g : Given} {n : String × String}

/-- What holds of the names of each setting and its section: they are not changed by lower case, and
they are read back, put together with a point or with two underscores. -/
theorem names_of_setting (hn : n ∈ settingNames) :
    n.1 ∈ sectionNames ∧
    ((n.1.toList ++ '.' :: n.2.toList).all fun c => decide (Text.Settled c)) ∧
    Place.spelled? (n.1.toList ++ '.' :: n.2.toList) = some ⟨[.name n.1], .name n.2⟩ ∧
    Environment.joinParts (n.1.toList ++ '_' :: '_' :: n.2.toList) =
      n.1.toList ++ '.' :: n.2.toList := by
  revert n
  decide +kernel

theorem section_mem_of_mem (hn : n ∈ settingNames) : n.1 ∈ sectionNames := (names_of_setting hn).1

theorem exists_setting (hsec : sec ∈ sectionNames) : ∃ n ∈ settingNames, n.1 = sec := by
  revert sec
  decide +kernel

theorem toList_pair (a b : String) : (a ++ "." ++ b).toList = a.toList ++ '.' :: b.toList := by
  simp

theorem settled_setting (hn : n ∈ settingNames) :
    ∀ c ∈ n.1.toList ++ '.' :: n.2.toList, Text.Settled c := by
  obtain ⟨-, hall, -⟩ := names_of_setting hn
  exact fun c hc => of_decide_eq_true (List.all_eq_true.1 hall c hc)

/-- Each setting has a place of its own. -/
theorem Place.parse_setting (hn : n ∈ settingNames) :
    Place.parse (n.1 ++ "." ++ n.2) = ⟨[.name n.1], .name n.2⟩ := by
  obtain ⟨-, -, hspelled, -⟩ := names_of_setting hn
  have hlower := Text.lower_eq_self fun c hc =>
    settled_setting hn c (by rwa [← toList_pair])
  rw [parse_eq, hlower, toList_pair, hspelled]
  rfl

theorem lower_setting (hn : n ∈ settingNames) : Text.lower n.2 = n.2 :=
  Text.lower_eq_self fun c hc =>
    settled_setting hn c (List.mem_append_right _ (List.mem_cons_of_mem _ hc))

attribute [local irreducible] Place.parse

/-- What the variable of a setting sets. -/
theorem Environment.readVariable_own {name : String} (hn : n ∈ settingNames)
    (hname : Text.lower name = variableName n.1 n.2) (value : String) :
    Marked name ∧ readVariable name value = some (n.1 ++ "." ++ n.2, typed value) := by
  obtain ⟨-, -, -, hjoin⟩ := names_of_setting hn
  have hlist : (Text.lower name).toList = mark ++ (n.1.toList ++ '_' :: '_' :: n.2.toList) := by
    rw [hname, variableName, String.toList_ofList, List.append_assoc]
  have hmarked : Marked name := by
    rw [Marked, hlist]
    exact List.isPrefixOf_iff_prefix.2 (List.prefix_append _ _)
  refine ⟨hmarked, ?_⟩
  rw [readVariable_eq, if_pos hmarked, unmarked, hlist, List.drop_left, hjoin, ← toList_pair,
    String.ofList_toList]

/-! ## Files -/

namespace Layer

theorem Orderly.not_touches_of_not_section (h : Orderly members) {m : String × Given}
    (hm : m ∈ members) (hsec : Text.lower m.1 ∉ sectionNames) (hn : n ∈ settingNames) :
    ¬ Touches n.1 n.2 (.parse m.1) m.2 := by
  intro htouches
  by_cases hplain : Place.Plain (Text.lower m.1).toList
  · have hname := lower_eq_of_touches hplain htouches
    exact hsec (hname ▸ section_mem_of_mem hn)
  · exact h.paths m hm hplain n hn htouches

/-- Only the section of a setting has to do with the setting, and only if it names it. -/
theorem Orderly.not_touches (h : Orderly members) (hn : n ∈ settingNames) {m : String × Given}
    (hm : m ∈ members)
    (hother : Text.lower m.1 = n.1 → ∀ m' ∈ m.2.members, Text.lower m'.1 ≠ n.2) :
    ¬ Touches n.1 n.2 (.parse m.1) m.2 := by
  by_cases hsec : Text.lower m.1 ∈ sectionNames
  · obtain ⟨hparse, hlower⟩ := Place.parse_section hsec rfl
    rw [hparse]
    rintro ⟨hname, htable⟩
    obtain ⟨inner, origin, heq⟩ := (h.sections m hm hsec).1.exists_eq
    obtain ⟨m', hm', hkey⟩ := htable inner origin heq
    exact hother (hlower ▸ hname) m' (by rw [heq]; exact hm') hkey
  · exact h.not_touches_of_not_section hm hsec hn

/-- What is laid over nothing by the section of a setting, whatever stands around it. -/
theorem Orderly.at?_putAll?_section {before after inner : List (String × Given)} {name : String}
    {origin : Option Origin} (h : Orderly (before ++ (name, .table inner origin) :: after))
    (hn : n ∈ settingNames) (hname : Text.lower name = n.1)
    (hput : putAll? (.table [] none) (before ++ (name, .table inner origin) :: after) = some g) :
    at? n.1 n.2 g = (member? n.2 inner).map (overlay (.table [] none)) := by
  have hsec := section_mem_of_mem hn
  have hrest (m : String × Given) (hm : m ∈ before ++ after) :
      ¬ Touches n.1 n.2 (.parse m.1) m.2 :=
    h.not_touches hn (mem_middle hm) fun hm' =>
      absurd (hm'.trans hname.symm) (ne_of_nodup_map h.distinct m hm)
  obtain ⟨g₁, hbefore, hput⟩ := putAll?_append hput
  obtain ⟨g₂, hsection, hafter⟩ := putAll?_cons hput
  have hbelow := SignalHub.Layer.at?_putAll? hbefore fun m hm => hrest m (List.mem_append_left _ hm)
  rw [SignalHub.Layer.at?_putAll? hafter fun m hm => hrest m (List.mem_append_right _ hm)]
  have hmem : (name, Given.table inner origin) ∈ before ++ (name, .table inner origin) :: after :=
    List.mem_append_right _ List.mem_cons_self
  cases hkey : member? n.2 inner with
  | none =>
    have hkeys := member?_eq_none_iff.1 hkey
    rw [SignalHub.Layer.at?_putAt? hsection (h.not_touches hn hmem fun _ => hkeys), hbelow]
    rfl
  | some v =>
    obtain ⟨inner', name', inner'', rfl, hname'⟩ := exists_of_member? hkey
    have hkeys := ne_of_nodup_map (h.sections _ hmem (hname ▸ hsec)).2
    rw [hname'] at hkeys
    obtain ⟨hparse, hstays⟩ := Place.parse_section hsec hname
    rw [hparse] at hsection
    rw [at?_putAt?_section hsection hstays hname' (fun m hm => hkeys m (List.mem_append_left _ hm))
      (fun m hm => hkeys m (List.mem_append_right _ hm)), hbelow]
    rfl

/-- What is laid over nothing by the members of a file. -/
theorem Orderly.at?_putAll? (h : Orderly members) (hn : n ∈ settingNames)
    (hput : putAll? (.table [] none) members = some g) :
    at? n.1 n.2 g = (given? n.1 n.2 members).map (overlay (.table [] none)) := by
  cases hsec : member? n.1 members with
  | none =>
    have hother := member?_eq_none_iff.1 hsec
    rw [SignalHub.Layer.at?_putAll? hput fun m hm =>
      h.not_touches hn hm fun hname => absurd hname (hother m hm), given?, hsec]
    rfl
  | some g' =>
    obtain ⟨before, name, after, rfl, hname⟩ := exists_of_member? hsec
    have htable := (h.sections _ (List.mem_append_right _ List.mem_cons_self)
      (hname ▸ section_mem_of_mem hn)).1
    obtain ⟨inner, origin, rfl⟩ := htable.exists_eq
    rw [h.at?_putAll?_section hn hname hput, given?, hsec]
    rfl

/-- What has nothing to do with a setting, or is its place, leaves its section a table. -/
theorem spares_of_own {p : Place} {v : Given} (key : String)
    (h : Touches sec key p v → p = ⟨[.name sec], .name key⟩) : Spares sec p v := by
  by_cases htouches : Touches sec key p v
  · rw [h htouches]
    trivial
  · exact spares_of_not_touches htouches

/-- The members of a file leave sections tables. -/
theorem Orderly.spares (h : Orderly members) {m : String × Given} (hm : m ∈ members)
    (hn : n ∈ settingNames) : Spares n.1 (.parse m.1) m.2 := by
  rcases Decidable.em (Text.lower m.1 ∈ sectionNames) with hname | hname
  · rw [(Place.parse_section hname rfl).1]
    exact fun _ => (h.sections m hm hname).1
  · exact spares_of_not_touches (h.not_touches_of_not_section hm hname hn)

end Layer

/-! ## Variables -/

theorem Layer.at?_putAt?_setting {r root v : Given}
    (h : putAt? root ⟨[.name sec], .name key⟩ v = some r) (hkey : Text.lower key = key) :
    ∃ below, at? sec key r = some (overlay below v) := by
  obtain ⟨inner, hinner, rfl⟩ := changeAt?_name h
  rw [changeAt?, putLast?_name, hkey] at hinner
  cases hinner
  rw [at?, inner?_withMember, if_pos rfl, Option.bind_some, inner?_withMember, if_pos rfl]
  exact ⟨_, rfl⟩

namespace Environment

/-- Only the variable of a setting has to do with the setting. -/
theorem Orderly.own (h : Orderly vars) {var : String × String} (hvar : var ∈ vars)
    (hn : n ∈ settingNames) (hoverrides : Overrides n.1 n.2 var) :
    Text.lower var.1 = variableName n.1 n.2 := by
  by_cases hplain : Place.Plain (Text.lower var.1).toList
  · exact eq_of_overrides (section_mem_of_mem hn) hplain (h.pairs var hvar) hoverrides
  · exact absurd hoverrides (h.paths var hvar hplain n hn)

theorem marked_of_overrides {var : String × String} (h : Overrides sec key var) : Marked var.1 := by
  obtain ⟨e, he, -⟩ := h
  rw [readVariable_eq] at he
  by_contra hmarked
  rw [if_neg hmarked] at he
  cases he

/-- It is the only one of its name. -/
theorem Orderly.not_overrides {before after : List (String × String)} {own var : String × String}
    (h : Orderly (before ++ own :: after)) (hn : n ∈ settingNames)
    (hown : Text.lower own.1 = variableName n.1 n.2) (hvar : var ∈ before ++ after) :
    ¬ Overrides n.1 n.2 var := by
  intro hoverrides
  have hname := h.own (mem_middle hvar) hn hoverrides
  have hmarked := (readVariable_own hn hown own.2).1
  have hdistinct := h.distinct
  rw [List.filter_append, List.filter_cons, if_pos (decide_eq_true hmarked)] at hdistinct
  refine ne_of_nodup_map hdistinct var ?_ (hname.trans hown.symm)
  rw [← List.filter_append]
  exact List.mem_filter.2 ⟨hvar, decide_eq_true (marked_of_overrides hoverrides)⟩

/-- What is laid over a layer by variables. -/
theorem Orderly.at?_putAll? (h : Orderly vars) (hn : n ∈ settingNames) {root : Given}
    (hput : Layer.putAll? root (layer vars) = some g) :
    Layer.at? n.1 n.2 g = (given? n.1 n.2 vars).or (Layer.at? n.1 n.2 root) := by
  cases hown : member? (variableName n.1 n.2) vars with
  | none =>
    have hother := member?_eq_none_iff.1 hown
    have huntouched := not_touches_of_not_overrides fun var hvar hoverrides =>
      hother var hvar (h.own hvar hn hoverrides)
    rw [Layer.at?_putAll? hput huntouched, given?, hown]
    rfl
  | some value =>
    obtain ⟨before, name, after, rfl, hname⟩ := exists_of_member? hown
    have hafter := not_touches_of_not_overrides fun var hvar =>
      h.not_overrides hn hname (List.mem_append_right before hvar)
    have hlayer : layer (before ++ (name, value) :: after) = layer before ++
        (n.1 ++ "." ++ n.2, .scalar (typed value) (some .environment)) :: layer after := by
      rw [layer, List.filterMap_append, List.filterMap_cons, (readVariable_own hn hname value).2]
      rfl
    rw [hlayer] at hput
    obtain ⟨g₁, -, hput⟩ := Layer.putAll?_append hput
    obtain ⟨g₂, hsetting, hput⟩ := Layer.putAll?_cons hput
    rw [Place.parse_setting hn] at hsetting
    obtain ⟨below, hat⟩ := Layer.at?_putAt?_setting hsetting (lower_setting hn)
    rw [Layer.at?_putAll? hput hafter, hat, given?, hown]
    rfl

/-- Variables leave sections tables. -/
theorem Orderly.spares (h : Orderly vars) {e : String × Given} (he : e ∈ layer vars)
    (hn : n ∈ settingNames) : Layer.Spares n.1 (.parse e.1) e.2 := by
  obtain ⟨var, hvar, hread⟩ := List.mem_filterMap.1 he
  obtain ⟨e', he', rfl⟩ := Option.map_eq_some_iff.1 hread
  refine Layer.spares_of_own n.2 fun htouches => ?_
  have hname := h.own hvar hn ⟨e', he', htouches⟩
  rw [(readVariable_own hn hname _).2, Option.some.injEq] at he'
  rw [← he']
  exact Place.parse_setting hn

end Environment

/-! ## Chosen values -/

/-- What stands in the layers of a file and of variables for a setting. -/
theorem at?_layers (hfile : Layer.Orderly members) (hvars : Environment.Orderly vars)
    (hn : n ∈ settingNames)
    (hput : Layer.putAll? (.table [] none) (members ++ Environment.layer vars) = some g) :
    Layer.at? n.1 n.2 g = (Environment.given? n.1 n.2 vars).or
      ((Layer.given? n.1 n.2 members).map (Layer.overlay (.table [] none))) := by
  obtain ⟨g₁, hbelow, habove⟩ := Layer.putAll?_append hput
  rw [hvars.at?_putAll? hn habove, hfile.at?_putAll? hn hbelow]

theorem sectioned_layers (hfile : Layer.Orderly members) (hvars : Environment.Orderly vars)
    (hput : Layer.putAll? (.table [] none) (members ++ Environment.layer vars) = some g) :
    Layer.Sectioned g := by
  refine Layer.sectioned_empty.putAll? (fun e he sec hsec => ?_) hput
  obtain ⟨n, hn, rfl⟩ := exists_setting hsec
  rcases List.mem_append.1 he with he | he
  · exact hfile.spares he hn
  · exact hvars.spares he hn

namespace Loose

/-- Whether two values come to the same for every field that is not read from tables. -/
def Alike (a b : Option Given) : Prop :=
  ∀ (σ α : Type) (s : σ) (f : Field Conversion σ α),
    (∀ members origin a, f.codec.read (.table members origin) ≠ .ok a) →
      (FieldIs s f a ↔ FieldIs s f b)

theorem Alike.symm {a b : Option Given} (h : Alike a b) : Alike b a :=
  fun σ α s f hflat => (h σ α s f hflat).symm

/-- A value comes to the same when it has been laid over nothing. -/
theorem alike_overlay (a b : Option Given) :
    Alike (a.or (b.map (Layer.overlay (.table [] none)))) (a.or b) := by
  intro σ α s f hflat
  cases a with
  | some g => exact Iff.rfl
  | none =>
    cases b with
    | none => exact Iff.rfl
    | some g =>
      cases g with
      | scalar value origin => exact Iff.rfl
      | list items origin => exact Iff.rfl
      | table members origin =>
        obtain ⟨merged, origin', hmerged⟩ := Layer.overlayMembers_table [] members none
        simp only [Option.none_or, Option.map_some, Layer.overlay, hmerged, FieldIs]
        exact ⟨fun h => absurd h (hflat _ _ _), fun h => absurd h (hflat _ _ _)⟩

end Loose

open Loose in
theorem Settings.Are.of_alike {s : Settings} {v w : String → String → Option Given}
    (h : s.Are v) (halike : ∀ n ∈ settingNames, Alike (v n.1 n.2) (w n.1 n.2)) : s.Are w := by
  have hgo {σ : Type} {sec : String} {s : σ} {fields : Fields Conversion σ σ}
      (hare : fields.All fun f => FieldIs s f (v sec f.name)) (hflat : Flat fields)
      (hnames : ∀ name ∈ fields.names, (sec, name) ∈ settingNames) :
      fields.All fun f => FieldIs s f (w sec f.name) := by
    refine (hare.and (hflat.and fields.all_mem_names)).imp fun f hf => ?_
    exact (halike _ (hnames _ hf.2.2) σ _ s f hf.2.1).1 hf.1
  exact ⟨hgo h.server ServerSettings.flat_fields (by decide +kernel),
    hgo h.storage StorageSettings.flat_fields (by decide +kernel),
    hgo h.stream StreamSettings.flat_fields (by decide +kernel),
    hgo h.metrics MetricsSettings.flat_fields (by decide +kernel)⟩

theorem Settings.are_congr {s : Settings} {v w : String → String → Option Given}
    (halike : ∀ n ∈ settingNames, Loose.Alike (v n.1 n.2) (w n.1 n.2)) : s.Are v ↔ s.Are w :=
  ⟨fun h => h.of_alike halike, fun h => h.of_alike fun n hn => (halike n hn).symm⟩

/-- Whether every item that the names of a layer stand for can be there. -/
def Layer.Fits (layer : List (String × Given)) : Prop :=
  ∃ g, putAll? (.table [] none) layer = some g

theorem Layer.Fits.of_append {layer layer' : List (String × Given)} (h : Fits (layer ++ layer')) :
    Fits layer := by
  obtain ⟨r, hput⟩ := h
  obtain ⟨g, hg, -⟩ := putAll?_append hput
  exact ⟨g, hg⟩

variable {d : Directory} {path : String} {settings : Settings}

/-- When settings are loaded. -/
theorem loadSettings_eq_ok_iff : loadSettings d vars path = .ok settings ↔
    ∃ members g, fileLayer (locate d path) = .ok members ∧
      Layer.putAll? (.table [] none) (members ++ Environment.layer vars) = some g ∧
      Settings.ofLoose g = .ok settings ∧ settings.validate = .ok () := by
  constructor
  · intro h
    obtain ⟨members, g, hfile, hput, hread⟩ := loadSettings_eq_ok h
    exact ⟨members, g, hfile, hput, hread, validate_of_loadSettings h⟩
  · rintro ⟨members, g, hfile, hput, hread, hvalid⟩
    exact loadSettings_of_layers hfile hput hread hvalid

/-- Settings are loaded if and only if they are what the chosen values are. -/
theorem InOrder.loadSettings_iff (h : InOrder d vars path) :
    loadSettings d vars path = .ok settings ↔
      ∃ members, fileLayer (locate d path) = .ok members ∧
        Layer.Fits (members ++ Environment.layer vars) ∧ settings.Are (chosen members vars) ∧
        settings.validate = .ok () := by
  have hchosen {members : List (String × Given)} {g : Given}
      (hmembers : fileLayer (locate d path) = .ok members)
      (hput : Layer.putAll? (.table [] none) (members ++ Environment.layer vars) = some g) :
      Settings.ofLoose g = .ok settings ↔ settings.Are (chosen members vars) := by
    have hfile := h.file members hmembers
    rw [Settings.ofLoose_eq_ok_iff (sectioned_layers hfile h.vars hput)]
    refine Settings.are_congr fun n hn => ?_
    rw [at?_layers hfile h.vars hn hput]
    exact Loose.alike_overlay _ _
  rw [loadSettings_eq_ok_iff]
  constructor
  · rintro ⟨members, g, hmembers, hput, hread, hvalid⟩
    exact ⟨members, hmembers, ⟨g, hput⟩, (hchosen hmembers hput).1 hread, hvalid⟩
  · rintro ⟨members, hmembers, ⟨g, hput⟩, hare, hvalid⟩
    exact ⟨members, g, hmembers, hput, (hchosen hmembers hput).2 hare, hvalid⟩

/-- Settings are loaded if and only if the file is a well-formed table or is not there, every item
that a name stands for can be there, each setting is what the value chosen for it converts to, and
the settings are accepted. So nothing but the chosen values counts: neither what a variable hides,
nor other names, nor other variables. -/
theorem loads_chosen_values (h : InOrder d vars path) :
    (∀ settings, loadSettings d vars path = .ok settings ↔
      ∃ members, fileLayer (locate d path) = .ok members ∧
        Layer.Fits (members ++ Environment.layer vars) ∧ settings.Are (chosen members vars) ∧
        settings.validate = .ok ()) ∧
    ∀ d' vars' path' members members', InOrder d' vars' path' →
      fileLayer (locate d path) = .ok members → fileLayer (locate d' path') = .ok members' →
      (Layer.Fits (members ++ Environment.layer vars) ↔
        Layer.Fits (members' ++ Environment.layer vars')) →
      (∀ n ∈ settingNames, chosen members vars n.1 n.2 = chosen members' vars' n.1 n.2) →
      ∀ settings, loadSettings d vars path = .ok settings ↔
        loadSettings d' vars' path' = .ok settings := by
  refine ⟨fun settings => h.loadSettings_iff, ?_⟩
  intro d' vars' path' members members' h' hmembers hmembers' hfits hsame settings
  have hare : settings.Are (chosen members vars) ↔ settings.Are (chosen members' vars') := by
    refine Settings.are_congr fun n hn => ?_
    rw [hsame n hn]
    exact fun _ _ _ _ _ => Iff.rfl
  rw [h.loadSettings_iff, h'.loadSettings_iff]
  simp only [hmembers, hmembers', Except.ok.injEq, exists_eq_left', hfits, hare]

/-- A file with a port that is none, a member that is no setting and a table that is no section. -/
def hiddenPort : Directory :=
  ⟨[("config.toml", "[server]\nport = ''\nlog_format = 'json'\ncolor = 3\n[plugins]\n" ++
    "[storage]\ntrace_capacity = 42\n")]⟩

/-- A variable hides the port of that file, and two others set no setting. -/
theorem loads_hidden_port :
    let vars := [("TELEMETRY_HUB__SERVER__PORT", "9000"), ("TELEMETRY_HUB__Server__Color", "red"),
      ("HOME", "/root")]
    let settings : Settings := { server := { port := 9000, logFormat := "json" },
                                 storage := { traceCapacity := 42 } }
    (∃ members, fileLayer (locate hiddenPort "config.toml") = .ok members ∧
      Layer.Fits (members ++ Environment.layer vars) ∧ settings.Are (chosen members vars) ∧
      settings.validate = .ok ()) ∧
    loadSettings hiddenPort (vars.take 1) "config.toml" = .ok settings := by
  intro vars settings
  have horder : InOrder hiddenPort vars "config.toml" := by decide +kernel
  have horder' : InOrder hiddenPort (vars.take 1) "config.toml" := by decide +kernel
  have hload : loadSettings hiddenPort vars "config.toml" = .ok settings :=
    eq_ok_of_toOption (by decide +kernel)
  have hvars : ∀ n ∈ settingNames, member? (Environment.variableName n.1 n.2) vars =
      member? (Environment.variableName n.1 n.2) (vars.take 1) := by decide +kernel
  obtain ⟨hloads, hsame⟩ := loads_chosen_values horder
  obtain ⟨members, hmembers, hfits, hare, hvalid⟩ := (hloads settings).1 hload
  have hlayer : Environment.layer vars =
      Environment.layer (vars.take 1) ++ Environment.layer (vars.drop 1) := by
    rw [Environment.layer, Environment.layer, Environment.layer, ← List.filterMap_append,
      List.take_append_drop]
  have hfits' : Layer.Fits (members ++ Environment.layer (vars.take 1)) := by
    rw [hlayer, ← List.append_assoc] at hfits
    exact hfits.of_append
  refine ⟨⟨members, hmembers, hfits, hare, hvalid⟩, ?_⟩
  refine (hsame _ _ _ members members horder' hmembers hmembers (iff_of_true hfits hfits')
    (fun n hn => ?_) settings).1 hload
  rw [chosen, chosen, Environment.given?, Environment.given?, hvars n hn]

/-! ## Names with points -/

/-- A file with a point in a name, and no section. -/
def dottedFile : Directory := ⟨[("config.json", "\x7b\"server.port\": 9000\x7d")]⟩

/-- A variable of two parts, with a point in one. -/
def dottedVariable : String × String := ("TELEMETRY_HUB__SERVER__PORT.X", "1")

/-- Such names are paths into a section: the file sets the port, and the variable keeps settings
from being loaded, although neither is a section or the variable of a setting, so that no value is
chosen for any setting. -/
theorem dotted_names_reach_settings :
    ((fileLayer (locate dottedFile "config.json")).toOption.any fun members =>
      (members.map fun m => Text.lower m.1).Nodup ∧
        (∀ m ∈ members, Text.lower m.1 ∉ sectionNames) ∧
        ∀ n ∈ settingNames, (chosen members [] n.1 n.2).isNone) ∧
    (loadSettings dottedFile [] "config.json").toOption = some { server := { port := 9000 } } ∧
    (Environment.parts (Environment.unmarked dottedVariable.1)).length = 2 ∧
    (∀ n ∈ settingNames, (chosen [] [dottedVariable] n.1 n.2).isNone) ∧
    (loadSettings ⟨[]⟩ [] "config.json").toOption = some {} ∧
    (loadSettings ⟨[]⟩ [dottedVariable] "config.json").toOption = none := by
  decide +kernel

end SignalHub
