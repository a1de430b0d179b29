import Mathlib.Data.List.Nodup
import SignalHub.Proofs.Declarations
import SignalHub.Proofs.Transcription
/-!
# Other ways to write a value

The members of an object may stand in any order, and those that say no more than the default may be
left out. A codec is lawful if it reads what it writes, and all other ways to write it. A structure
is, if the codecs of its fields are: each field is found under its name or has its default.

Results:
* `Reworded`: another way to write a value.
* `Codec.Lawful`: what is written is plain, and all ways to write a value are read as the value.
* `Codec.Lawful.reads_text`: so the texts of all of them are.
* `lawful_text`, `lawful_word`, `lawful_choice`, `lawful_option`: codecs of single values.
* `lawful_struct`: codecs of structures.
-/
namespace SignalHub.Json

/-- Another way to write a value: the members of an object stand in any order, each written in some
way in turn, and those may be left out that are what `defaults` has under their name. -/
inductive Reworded : Json → Json → Json → Prop
  | refl {defaults j : Json} : Reworded defaults j j
  | obj {defaults : Json} {members written : List (String × Json)}
      (hnodup : (written.map (·.1)).Nodup)
      (hnames : ∀ m ∈ written, m.1 ∈ members.map (·.1))
      (hvalues : ∀ m ∈ written, ∀ v, (m.1, v) ∈ members →
        Reworded ((defaults.member? m.1).getD .null) v m.2)
      (hleft : ∀ m ∈ members, m.1 ∉ written.map (·.1) → defaults.member? m.1 = some m.2) :
      Reworded defaults (.obj members) (.obj written)

variable {defaults j j' : Json} {members written : List (String × Json)} {depth : Nat}

theorem mem_of_lookup {name : String} (h : lookup name members = some j) : (name, j) ∈ members := by
  induction members with
  | nil => cases h
  | cons m members ih =>
    obtain ⟨k, v⟩ := m
    rw [lookup] at h
    split at h
    · rename_i hname
      cases hname
      cases h
      exact List.mem_cons_self
    · exact List.mem_cons_of_mem _ (ih h)

/-- An object may be written so that each name is found in it and each member is written or left
out. -/
theorem reworded_of_lookup (hmembers : (members.map (·.1)).Nodup)
    (hwritten : (written.map (·.1)).Nodup)
    (hvalues : ∀ m ∈ written, ∃ v, lookup m.1 members = some v ∧
      Reworded ((defaults.member? m.1).getD .null) v m.2)
    (hleft : ∀ m ∈ members, m.1 ∈ written.map (·.1) ∨ defaults.member? m.1 = some m.2) :
    Reworded defaults (.obj members) (.obj written) := by
  refine .obj hwritten ?_ ?_ fun m hm => (hleft m hm).resolve_left
  · intro m hm
    obtain ⟨v, hv, -⟩ := hvalues m hm
    exact List.mem_map.2 ⟨_, mem_of_lookup hv, rfl⟩
  · intro m hm v hv
    obtain ⟨v', hv', hreworded⟩ := hvalues m hm
    cases List.inj_on_of_nodup_map hmembers hv (mem_of_lookup hv') rfl
    exact hreworded

/-- What is no object is written in one way. -/
theorem Reworded.eq_of_not_obj (h : Reworded defaults j j') (hj : ∀ members, j ≠ .obj members) :
    j' = j := by
  cases h with
  | refl => rfl
  | obj => exact absurd rfl (hj _)

theorem Reworded.ne_null (h : Reworded defaults j j') (hj : j ≠ .null) : j' ≠ .null := by
  cases h with
  | refl => exact hj
  | obj => exact nofun

/-- No way to write a value has doubles or is nested more deeply. -/
theorem Reworded.plain (h : Reworded defaults j j') (hj : Plain depth j) : Plain depth j' := by
  induction h generalizing depth with
  | refl => exact hj
  | obj hnodup hnames hvalues hleft ih =>
    cases hj with
    | obj hmembers =>
      refine .obj fun m hm => ?_
      obtain ⟨⟨k, v⟩, hkv, hk⟩ := List.mem_map.1 (hnames m hm)
      cases hk
      exact ih m hm v hkv (hmembers _ hkv)

/-- How the members of an object are written. -/
structure Written (defaults : Json) (members written : List (String × Json)) : Prop where
  nodup : (written.map (·.1)).Nodup
  names : ∀ m ∈ written, m.1 ∈ members.map (·.1)
  values : ∀ m ∈ written, ∀ v, (m.1, v) ∈ members →
    Reworded ((defaults.member? m.1).getD .null) v m.2
  left : ∀ m ∈ members, m.1 ∉ written.map (·.1) → defaults.member? m.1 = some m.2

/-- An object of distinct names is written as an object. -/
theorem Reworded.exists_written (h : Reworded defaults (.obj members) j)
    (hnodup : (members.map (·.1)).Nodup) : ∃ written, j = .obj written ∧
      Written defaults members written := by
  cases h with
  | refl =>
    refine ⟨members, rfl, hnodup, fun m hm => List.mem_map_of_mem hm, ?_, ?_⟩
    · intro m hm v hv
      rw [← List.inj_on_of_nodup_map hnodup hv hm rfl]
      exact .refl
    · exact fun m hm hnot => absurd (List.mem_map_of_mem hm) hnot
  | obj hnodup hnames hvalues hleft => exact ⟨_, rfl, hnodup, hnames, hvalues, hleft⟩

/-! ## Single values -/

namespace Codec

variable {α : Type} {c : Codec α}

/-- What is written is plain, and all ways to write a value are read as the value, wherever they
come from. -/
structure Lawful (c : Codec α) (depth : Nat) (defaults : Json) : Prop where
  plain : ∀ a, Plain depth (c.encode a)
  reads : ∀ a src j, Reworded defaults (c.encode a) j → c.decode src (Node.ofJson j) = .ok a

/-- Whether a value is read from the text of `j`. -/
def Reads (c : Codec α) (a : α) (j : Json) : Prop :=
  ∃ text, Text.bytes text = render j ∧ c.ofText text = .ok a

/-- A value is read from a text if the node as which the text is read is decoded as the value. -/
theorem reads_of_decode {a : α} (hj : Transcribed j j')
    (hdecode : c.decode .text (Node.ofJson j') = .ok a) : c.Reads a j := by
  obtain ⟨text, htext⟩ := spelled_render j
  exact ⟨text, htext, ofText_of_render hj htext hdecode⟩

/-- A value is read from all texts that stand for it. -/
theorem Lawful.reads_text (hc : c.Lawful depth defaults) {a : α}
    (h : Reworded defaults (c.encode a) j) : c.Reads a j :=
  reads_of_decode (h.plain (hc.plain a)).transcribed (hc.reads a .text j h)

/-- What two values are written as is the same only if they are. -/
theorem Lawful.injective (hc : c.Lawful depth defaults) {a b : α} (h : c.encode a = c.encode b) :
    a = b := by
  have ha := hc.reads a .text _ .refl
  rw [h, hc.reads b .text _ .refl] at ha
  exact (Except.ok.inj ha).symm

/-- A codec is lawful that writes no objects and reads what it writes. -/
theorem lawful_of_not_obj (hobj : ∀ a members, c.encode a ≠ .obj members)
    (hplain : ∀ a, Plain depth (c.encode a))
    (hread : ∀ a src, c.decode src (Node.ofJson (c.encode a)) = .ok a) :
    c.Lawful depth defaults where
  plain := hplain
  reads a src j hj := by
    rw [hj.eq_of_not_obj (hobj a)]
    exact hread a src

theorem lawful_text : text.Lawful depth defaults :=
  lawful_of_not_obj (fun _ _ h => by cases h) (fun _ => .str) fun _ _ => rfl

theorem lawful_bool : Codec.bool.Lawful depth defaults :=
  lawful_of_not_obj (fun _ _ h => by cases h) (fun _ => .bool) fun _ _ => rfl

/-- An integer between the bounds is read. -/
theorem decodeInt_ofJson {low high i : Int} (expected : String) (hlow : low ≤ i)
    (hhigh : i ≤ high) :
    decodeInt low high expected (Node.ofJson (.num (.int i))) = .ok i := by
  refine bind_eq_ok (a := Number.int i) rfl ?_
  show (if low ≤ i ∧ i ≤ high then pure i else problem _) = _
  rw [if_pos ⟨hlow, hhigh⟩]
  rfl

/-- A natural number up to the greatest word is exact. -/
theorem exact_natCast {n : Nat} (h : n ≤ Word.top) : Exact n := by
  simp only [Exact, Word.half]
  omega

theorem lawful_word (expected : String) : (word expected).Lawful depth defaults := by
  have htop (w : UInt64) : w.toNat ≤ Word.top := Nat.le_of_lt_succ w.toNat_lt
  refine lawful_of_not_obj (fun _ _ h => by cases h) (fun w => .int (exact_natCast (htop w)))
    fun w src => ?_
  have hread := decodeInt_ofJson expected (Int.natCast_nonneg w.toNat) (Int.ofNat_le.2 (htop w))
  have hword : UInt64.ofNat (w.toNat : Int).toNat = w := by
    rw [Int.toNat_natCast, UInt64.ofNat_toNat]
  show (decodeInt 0 Word.top expected (Node.ofJson (.num (.int w.toNat)))).map _ = _
  rw [hread, Except.map, hword]

theorem lawful_word16 : word16.Lawful depth defaults := by
  have htop (w : UInt16) : w.toNat ≤ Word.top16 := Nat.le_of_lt_succ w.toNat_lt
  refine lawful_of_not_obj (fun _ _ h => by cases h)
    (fun w => .int (exact_natCast ((htop w).trans (by decide)))) fun w src => ?_
  have hread := decodeInt_ofJson "u16" (Int.natCast_nonneg w.toNat) (Int.ofNat_le.2 (htop w))
  have hword : UInt16.ofNat (w.toNat : Int).toNat = w := by
    rw [Int.toNat_natCast, UInt16.ofNat_toNat]
  show (decodeInt 0 Word.top16 "u16" (Node.ofJson (.num (.int w.toNat)))).map _ = _
  rw [hread, Except.map, hword]

theorem lawful_int64 : int64.Lawful depth defaults := by
  have hhigh (i : Int64) : i.toInt ≤ Word.half - 1 := Int.le_sub_one_of_lt i.toInt_lt
  have hexact (i : Int64) : Exact i.toInt :=
    ⟨i.le_toInt, (hhigh i).trans (by decide)⟩
  refine lawful_of_not_obj (fun _ _ h => by cases h) (fun i => .int (hexact i)) fun i src => ?_
  have hlow : -(Word.half : Int) ≤ i.toInt := i.le_toInt
  have hread := decodeInt_ofJson "i64" hlow (hhigh i)
  show (decodeInt (-Word.half) (Word.half - 1) "i64" (Node.ofJson (.num (.int i.toInt)))).map _ = _
  rw [hread, Except.map, Int64.ofInt_toInt]

theorem decodeChoice_str (alternatives : List (String × α)) (src : Source) (name : String) :
    decodeChoice alternatives src (Node.ofJson (.str name)) = variant alternatives name := by
  cases src <;> rfl

/-- A choice is lawful if each alternative stands under its name. -/
theorem lawful_choice {alternatives : List (String × α)} {name : α → String}
    (h : ∀ a, alternatives.lookup (name a) = some a) :
    (choice alternatives name).Lawful depth defaults := by
  refine lawful_of_not_obj (fun _ _ h => by cases h) (fun _ => .str) fun a src => ?_
  rw [show (choice alternatives name).encode a = .str (name a) from rfl]
  exact (decodeChoice_str alternatives src (name a)).trans (by rw [variant, h])

/-- A value that may be null is read if what is written of the others is not null. -/
theorem lawful_option (hc : c.Lawful depth defaults) (hnull : ∀ a, c.encode a ≠ .null) :
    (option c).Lawful depth defaults where
  plain o := by
    cases o with
    | none => exact .null
    | some a => exact hc.plain a
  reads o src j hj := by
    cases o with
    | none =>
      rw [hj.eq_of_not_obj fun _ h => by cases h]
      rfl
    | some a =>
      have hread := congrArg (Except.map some) (hc.reads a src j hj)
      have hne := hj.ne_null (hnull a)
      cases j with
      | null => exact absurd rfl hne
      | bool b => exact hread
      | num n => exact hread
      | str s => exact hread
      | arr items => exact hread
      | obj members => exact hread

/-! ## Structures -/

variable {σ : Type} {s : σ} {fault : Option Fault} {src : Source}

theorem memberNode?_of_mem {name : String} (hnodup : (written.map (·.1)).Nodup)
    (h : (name, j) ∈ written) :
    memberNode? name (Node.ofMembers written) = some (Node.ofJson j) := by
  induction written with
  | nil => cases h
  | cons m written ih =>
    obtain ⟨k, v⟩ := m
    obtain ⟨hk, hnodup⟩ := List.nodup_cons.1 hnodup
    rcases List.mem_cons.1 h with heq | hmem
    · cases heq
      exact if_pos rfl
    · have hne : k ≠ name := by
        rintro rfl
        exact hk (List.mem_map.2 ⟨_, hmem, rfl⟩)
      exact (if_neg hne).trans (ih hnodup hmem)

theorem memberNode?_of_not_mem {name : String} (h : name ∉ written.map (·.1)) :
    memberNode? name (Node.ofMembers written) = none := by
  induction written with
  | nil => rfl
  | cons m written ih =>
    obtain ⟨k, v⟩ := m
    have hne : k ≠ name := by
      rintro rfl
      exact h List.mem_cons_self
    exact (if_neg hne).trans (ih fun hmem => h (List.mem_cons_of_mem _ hmem))

/-- Members of distinct known names are read if each of them is. -/
theorem checkMembers_ofMembers {rule : String → Option (Node → Decoded Unit)} {seen : List String}
    (hnodup : (written.map (·.1)).Nodup) (hseen : ∀ m ∈ written, m.1 ∉ seen)
    (hrule : ∀ m ∈ written, ∃ check, rule m.1 = some check ∧ check (Node.ofJson m.2) = .ok ()) :
    checkMembers rule seen (Node.ofMembers written) = .ok () := by
  induction written generalizing seen with
  | nil => rfl
  | cons m written ih =>
    obtain ⟨k, v⟩ := m
    obtain ⟨hk, hnodup⟩ := List.nodup_cons.1 hnodup
    obtain ⟨check, hcheck, hv⟩ := hrule (k, v) List.mem_cons_self
    have hfresh : k ∉ seen := hseen (k, v) List.mem_cons_self
    have hseen' : ∀ m ∈ written, m.1 ∉ k :: seen := by
      intro m hm hmem
      rcases List.mem_cons.1 hmem with heq | hmem
      · exact hk (List.mem_map.2 ⟨m, hm, heq⟩)
      · exact hseen m (List.mem_cons_of_mem _ hm) hmem
    have hrest := ih hnodup hseen' fun m hm => hrule m (List.mem_cons_of_mem _ hm)
    rw [Node.ofMembers, checkMembers]
    refine bind_eq_ok (a := k) rfl ?_
    have hinside : inside (.key k) (check (Node.ofJson v)) = .ok () := by
      rw [hv]
      rfl
    simp only [hcheck, if_neg hfresh]
    exact bind_eq_ok hinside hrest

/-- Whether a field is read from what is written under its name, or has its default. -/
def Found (s : σ) (written : List (String × Json)) (src : Source) {α : Type}
    (f : Field Codec σ α) : Prop :=
  (∃ j, (f.name, j) ∈ written ∧ f.codec.decode src (Node.ofJson j) = .ok (f.get s)) ∨
    f.name ∉ written.map (·.1) ∧ f.default? = some (f.get s)

/-- A structure is read from members under which each field is found. -/
theorem decodeMembers_of_found {fields : Fields Codec σ σ} (hrebuild : fields.rebuild s = s)
    (hnodup : (written.map (·.1)).Nodup) (hnames : ∀ m ∈ written, m.1 ∈ fields.names)
    (hfound : fields.All (Found s written src)) :
    decodeMembers fields src (Node.ofMembers written) none = .ok s := by
  refine bind_eq_ok (a := ()) (checkMembers_ofMembers hnodup (fun _ _ => List.not_mem_nil) ?_)
    (bind_eq_ok (a := ()) rfl ?_)
  · intro m hm
    obtain ⟨check, hcheck⟩ :=
      Fields.exists_find? (fun f n => (f.codec.decode src n).map fun _ => ()) (hnames m hm)
    refine ⟨check, hcheck, ?_⟩
    obtain ⟨α, f, hf, hname, rfl⟩ := hfound.of_find? hcheck
    rcases hf with ⟨j, hmem, hread⟩ | ⟨hnot, -⟩
    · have hj : j = m.2 := by
        have heq := List.inj_on_of_nodup_map hnodup hmem hm hname
        rw [← heq]
      show (f.codec.decode src (Node.ofJson m.2)).map _ = _
      rw [← hj, hread]
      rfl
    · exact absurd (List.mem_map_of_mem hm) (hname ▸ hnot)
  · rw [← hrebuild]
    refine Fields.build_of_all (hfound.imp fun f hf => ?_)
    rcases hf with ⟨j, hmem, hread⟩ | ⟨hnot, hdefault⟩
    · rw [memberNode?_of_mem hnodup hmem]
      simp only [hread]
      rfl
    · rw [memberNode?_of_not_mem hnot, hdefault]

/-- What a field has if it is left out, as it is written. -/
def defaultOf {β : Type} (f : Field Codec σ β) : Option Json := f.default?.map f.codec.encode

/-- The defaults of fields under their names. -/
def defaultsOf (fields : Fields Codec σ α) : Json :=
  .obj (fields.mapList fun f => ((defaultOf f).map (f.name, ·)).toList).flatten

theorem lookup_append (name : String) (members members' : List (String × Json)) :
    lookup name (members ++ members') = (lookup name members).or (lookup name members') := by
  induction members with
  | nil => rfl
  | cons m members ih =>
    simp only [List.cons_append, lookup, ih]
    split <;> rfl

/-- Under a name that no field has there is no default. -/
theorem member?_defaultsOf_of_not_mem {fields : Fields Codec σ α} {name : String}
    (h : name ∉ fields.names) : (defaultsOf fields).member? name = none := by
  induction fields with
  | done a => rfl
  | more init last ih =>
    have hinit := ih fun hmem => h (List.mem_append_left _ hmem)
    have hlast : last.name ≠ name := by
      rintro rfl
      exact h (List.mem_append_right _ List.mem_cons_self)
    simp only [defaultsOf, member?, Fields.mapList, List.flatten_append, lookup_append] at hinit ⊢
    rw [hinit]
    cases defaultOf last with
    | none => rfl
    | some j => exact if_neg hlast

/-- Under the name of a field there is its default. -/
theorem member?_defaultsOf {fields : Fields Codec σ α} (hnodup : fields.names.Nodup) :
    fields.All fun f => (defaultsOf fields).member? f.name = defaultOf f := by
  induction fields with
  | done a => trivial
  | more init last ih =>
    obtain ⟨hinit, -, hdisjoint⟩ := List.nodup_append.1 hnodup
    have hmember (name : String) : (defaultsOf (.more init last)).member? name =
        ((defaultsOf init).member? name).or
          (lookup name ((defaultOf last).map (last.name, ·)).toList) := by
      simp only [defaultsOf, member?, Fields.mapList, List.flatten_append, lookup_append,
        List.flatten_singleton]
    refine ⟨((ih hinit).and (Fields.all_mem_names init)).imp fun f hf => ?_, ?_⟩
    · have hne : last.name ≠ f.name := (hdisjoint _ hf.2 _ List.mem_cons_self).symm
      have hlast : lookup f.name ((defaultOf last).map (last.name, ·)).toList = none := by
        cases defaultOf last with
        | none => rfl
        | some j => exact if_neg hne
      rw [hmember, hf.1, hlast, Option.or_none]
    · show (defaultsOf (.more init last)).member? last.name = defaultOf last
      have hnot : last.name ∉ init.names := fun hmem =>
        hdisjoint _ hmem _ List.mem_cons_self rfl
      rw [hmember, member?_defaultsOf_of_not_mem hnot, Option.none_or]
      cases defaultOf last with
      | none => rfl
      | some j => exact if_pos rfl

/-- A structure is lawful if its fields are, each beside its own default. -/
theorem lawful_struct {fields : Fields Codec σ σ} {label : String}
    (hfields : fields.All fun f => f.codec.Lawful depth ((defaultOf f).getD .null))
    (hnodup : fields.names.Nodup) (hrebuild : ∀ s, fields.rebuild s = s) :
    (struct label fields).Lawful (depth + 1) (defaultsOf fields) := by
  refine ⟨fun s => .obj ?_, fun s src j hj => ?_⟩
  · exact Fields.forall_mem_mapList _ (hfields.imp fun f hf => hf.plain (f.get s))
  have hnames : (fields.mapList fun f => (f.name, f.codec.encode (f.get s))).map (·.1) =
      fields.names := Fields.map_mapList _ _ fields
  obtain ⟨written, rfl, hwritten⟩ := hj.exists_written (hnames.symm ▸ hnodup)
  refine decodeMembers_of_found (hrebuild s) hwritten.nodup
    (fun m hm => hnames ▸ hwritten.names m hm) ?_
  have hmembers := Fields.all_mem_mapList (fun f => (f.name, f.codec.encode (f.get s))) fields
  refine ((hfields.and hmembers).and (member?_defaultsOf hnodup)).imp fun f hf => ?_
  obtain ⟨⟨hlawful, hmem⟩, hdefaults⟩ := hf
  by_cases hname : f.name ∈ written.map (·.1)
  · obtain ⟨⟨k, w⟩, hw, hk⟩ := List.mem_map.1 hname
    cases hk
    have hreworded := hwritten.values _ hw _ hmem
    rw [hdefaults] at hreworded
    exact .inl ⟨w, hw, hlawful.reads _ src w hreworded⟩
  -- What is left out is written as the default is, and only the default is written so.
  · have hdefault := hwritten.left _ hmem hname
    rw [hdefaults] at hdefault
    obtain ⟨a, ha, hencode⟩ := Option.map_eq_some_iff.1 hdefault
    refine .inr ⟨hname, ?_⟩
    rw [ha, hlawful.injective hencode]

end Codec

end SignalHub.Json
