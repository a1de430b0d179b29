import SignalHub.Proofs.Scalars
/-!
# Documents read back

A document of sections is read line by line: a header opens a table of its own, a line of the
section puts one value at its end, and an empty line changes nothing. So after so many lines the
tables are the sections that stand there, with the settings that stand there.

Results:
* `readKey_bare`: a name that stands without quotes reads back.
* `readLines_setting`, `readLines_header`: what one line of a document does.
* `readLines_sections`: what the lines of the sections do.
* `parse_render`: a document reads back.
-/
namespace SignalHub.Toml

variable {c d : Char} {cs rest : List Char} {name : String} {fuel : Nat}

/-! ## Names -/

/-- A name that stands without quotes. -/
def Bare (name : String) : Prop := name ≠ "" ∧ name.toList.all isBare

instance (name : String) : Decidable (Bare name) := inferInstanceAs (Decidable (_ ∧ _))

theorem Bare.isBare_of_mem (h : Bare name) : ∀ c ∈ name.toList, isBare c :=
  List.all_eq_true.1 h.2

theorem Bare.exists_cons (h : Bare name) : ∃ c cs, name.toList = c :: cs ∧ isBare c := by
  cases hcs : name.toList with
  | nil => exact absurd (String.toList_eq_nil_iff.1 hcs) h.1
  | cons c cs => exact ⟨c, cs, rfl, h.isBare_of_mem c (hcs ▸ List.mem_cons_self)⟩

/-- The mark of moments is no such name. -/
theorem Bare.ne_momentMark (h : Bare name) : name ≠ momentMark := by
  rintro rfl
  exact absurd h (by decide)

theorem skipBlanks_cons (hc : isBlank c = false) (cs : List Char) :
    skipBlanks (c :: cs) = c :: cs := by
  rw [skipBlanks, List.dropWhile_cons, hc]
  rfl

theorem ne_of_isBare (hc : isBare c) (hd : isBare d = false) : c ≠ d := by
  rintro rfl
  rw [hc] at hd
  cases hd

theorem isBlank_of_isBare (hc : isBare c) : isBlank c = false :=
  Bool.or_eq_false_iff.2 ⟨beq_false_of_ne (ne_of_isBare hc (by decide)),
    beq_false_of_ne (ne_of_isBare hc (by decide))⟩

theorem skipBlanks_bare (h : Bare name) (rest : List Char) :
    skipBlanks (name.toList ++ rest) = name.toList ++ rest := by
  obtain ⟨x, xs, hname, hx⟩ := h.exists_cons
  rw [hname, List.cons_append, skipBlanks_cons (isBlank_of_isBare hx)]

theorem readPart_bare (h : Bare name) (hc : isBare c = false) (rest : List Char) :
    readPart (name.toList ++ c :: rest) = .ok (name, c :: rest) := by
  obtain ⟨x, xs, hname, hx⟩ := h.exists_cons
  have htake : (name.toList ++ c :: rest).takeWhile isBare = name.toList := by
    rw [List.takeWhile_append_of_pos h.isBare_of_mem, List.takeWhile_cons, hc]
    exact List.append_nil _
  have hdrop : (name.toList ++ c :: rest).dropWhile isBare = c :: rest := by
    rw [List.dropWhile_append_of_pos h.isBare_of_mem, List.dropWhile_cons, hc]
    rfl
  rw [readPart.eq_3, htake, hdrop, if_neg, String.ofList_toList]
  · simp [hname]
  all_goals
    intro tail htail
    rw [hname] at htail
    exact ne_of_isBare hx (by decide) (List.head_eq_of_cons_eq htail)

/-- A name that stands alone reads back. -/
theorem readKey_bare (h : Bare name) (hc : isBare c = false)
    (hmore : skipBlanks (c :: cs) = d :: rest) (hd : d ≠ '.') :
    readKey (name.toList ++ c :: cs) = .ok (([], name), d :: rest) := by
  rw [readKey, depthLimit, readParts, skipBlanks_bare h, readPart_bare h hc]
  simp only [bind, Except.bind, hmore]
  split
  · rename_i hdot
    exact absurd (List.head_eq_of_cons_eq hdot) hd
  · rfl

/-! ## Tables -/

/-- A setting as an entry of its table. -/
def entryOf (e : String × Scalar) : String × Item := (e.1, .value e.2.toValue)

/-- A section as an entry of the document. -/
def Section.entry (s : Section) : String × Item := (s.name, .table .header (s.settings.map entryOf))

variable {es sub : Entries} {path : List String}

theorem Entries.put_append (item item' : Item) (h : es.lookup name = none) :
    Entries.put name item (es ++ [(name, item')]) = es ++ [(name, item)] := by
  induction es with
  | nil => simp [put]
  | cons e es ih =>
    obtain ⟨k, i⟩ := e
    have hk : ¬ k = name := by
      rintro rfl
      simp at h
    have hrest : es.lookup name = none := by
      simpa [List.lookup_cons, beq_false_of_ne (Ne.symm hk)] using h
    rw [List.cons_append, put, if_neg hk, ih hrest, List.cons_append]

/-- A header opens a table at the end. -/
theorem change_openTable (h : es.lookup name = none) :
    (⟨es, path⟩ : Draft).change (openTable [] name) =
      .ok ⟨es ++ [(name, .table .header [])], path⟩ := by
  simp only [Draft.change, openTable, descend, nameTable, h]
  rfl

/-- A value is put at the end of the table that is open. -/
theorem change_assign {key : String} (v : Value) (h : es.lookup name = none)
    (hkey : sub.lookup key = none) :
    (⟨es ++ [(name, .table .header sub)], [name]⟩ : Draft).change
        (descend .implied (assign [] key v) [name]) =
      .ok ⟨es ++ [(name, .table .header (sub ++ [(key, .value v)]))], [name]⟩ := by
  have hlookup : (es ++ [(name, Item.table .header sub)]).lookup name =
      some (.table .header sub) := by
    rw [List.lookup_append, h]
    simp
  have hassign : assign [] key v .header sub = .ok (sub ++ [(key, .value v)]) := by
    simp only [assign, descend, setNew, hkey]
    rfl
  simp only [Draft.change, descend, hlookup, hassign, Entries.put_append _ _ h, bind, Except.bind]
  rfl

/-! ## Lines -/

/-- A line of a document ends here. -/
theorem endLine_line (rest : List Char) : endLine ('\n' :: rest) = .ok rest := rfl

/-- A line that begins with a name. -/
theorem readLines_bare {d d' : Draft} (h : Bare name)
    (hread : readAssignment d (name.toList ++ cs) = .ok (d', '\n' :: rest)) :
    readLines (fuel + 1) d (name.toList ++ cs) = readLines fuel d' rest := by
  obtain ⟨c, tail, hname, hc⟩ := h.exists_cons
  have hne {x : Char} (hx : isBare x = false) : c ≠ x := ne_of_isBare hc hx
  have hline : lineEnd? (name.toList ++ cs) = none := by
    rw [hname, List.cons_append, lineEnd?]
    · exact fun _ heq => hne (by decide) (List.head_eq_of_cons_eq heq)
    · exact fun _ heq => hne (by decide) (List.head_eq_of_cons_eq heq)
  rw [readLines, skipBlanks_bare h]
  split
  · rename_i heq
    rw [hname] at heq
    cases heq
  · rename_i heq
    rw [hname] at heq
    exact absurd (List.head_eq_of_cons_eq heq) (hne (by decide))
  · rename_i heq
    rw [hname] at heq
    exact absurd (List.head_eq_of_cons_eq heq) (hne (by decide))
  · simp only [hline, hread, bind, Except.bind, endLine_line]

/-- An empty line changes nothing. -/
theorem readLines_empty (d : Draft) (rest : List Char) :
    readLines (fuel + 1) d ('\n' :: rest) = readLines fuel d rest := rfl

/-- The header of a section opens its table. -/
theorem readLines_header (h : Bare name) (hname : es.lookup name = none) :
    readLines (fuel + 1) ⟨es, path⟩ ('[' :: (name.toList ++ ']' :: '\n' :: rest)) =
      readLines fuel ⟨es ++ [(name, .table .header [])], [name]⟩ rest := by
  have hkey : readKey (name.toList ++ ']' :: '\n' :: rest) =
      .ok (([], name), ']' :: '\n' :: rest) := readKey_bare h (by decide) rfl (by decide)
  have hheader : readHeader ⟨es, path⟩ (name.toList ++ ']' :: '\n' :: rest) =
      .ok (⟨es ++ [(name, .table .header [])], [name]⟩, '\n' :: rest) := by
    obtain ⟨c, tail, hcs, hc⟩ := h.exists_cons
    rw [readHeader]
    · exact bind_eq_ok hkey (bind_eq_ok (change_openTable hname) rfl)
    · intro _ heq
      rw [hcs] at heq
      exact ne_of_isBare hc (by decide) (List.head_eq_of_cons_eq heq)
  rw [readLines]
  simp only [skipBlanks_cons (show isBlank '[' = false by decide), hheader, bind, Except.bind,
    endLine_line]

/-- The line of a setting puts its value at the end of the table that is open. -/
theorem readLines_setting {e : String × Scalar} (h : Bare e.1) (hfits : e.2.Fits)
    (hname : es.lookup name = none) (hkey : sub.lookup e.1 = none) (rest : List Char) :
    readLines (fuel + 1) ⟨es ++ [(name, .table .header sub)], [name]⟩
        (renderSetting e ++ rest) =
      readLines fuel ⟨es ++ [(name, .table .header (sub ++ [entryOf e]))], [name]⟩ rest := by
  obtain ⟨c, tail, hrender, hblank, -⟩ := Scalar.render_cons hfits
  have hread : readKey (e.1.toList ++ ' ' :: '=' :: ' ' :: (e.2.render ++ '\n' :: rest)) =
      .ok (([], e.1), '=' :: ' ' :: (e.2.render ++ '\n' :: rest)) :=
    readKey_bare h (by decide) rfl (by decide)
  have hskip : skipBlanks (' ' :: (e.2.render ++ '\n' :: rest)) = e.2.render ++ '\n' :: rest := by
    rw [hrender]
    exact skipBlanks_cons hblank _
  have hvalue {n : Nat} : readValue (n + 1) depthLimit
      (skipBlanks (' ' :: (e.2.render ++ '\n' :: rest))) = .ok (e.2.toValue, '\n' :: rest) := by
    rw [hskip, Scalar.readValue_render hfits]
  have hassign := bind_eq_ok (k := fun d => pure (d, '\n' :: rest))
    (change_assign e.2.toValue hname hkey) rfl
  have hline : renderSetting e ++ rest =
      e.1.toList ++ ' ' :: '=' :: ' ' :: (e.2.render ++ '\n' :: rest) := by
    simp [renderSetting]
  rw [hline]
  exact readLines_bare h (bind_eq_ok hread (bind_eq_ok hvalue hassign))

/-- The lines of the settings of a section put their values at the end of its table. -/
theorem readLines_settings {settings : List (String × Scalar)} {before : List (String × Scalar)}
    (hbare : ∀ e ∈ settings, Bare e.1) (hfits : ∀ e ∈ settings, e.2.Fits)
    (hnodup : ((before ++ settings).map (·.1)).Nodup) (hname : es.lookup name = none)
    (rest : List Char) :
    readLines (fuel + settings.length) ⟨es ++ [(name, .table .header (before.map entryOf))], [name]⟩
        (settings.flatMap renderSetting ++ rest) =
      readLines fuel ⟨es ++ [(name, .table .header ((before ++ settings).map entryOf))], [name]⟩
        rest := by
  -- Each line moves one setting from those to come to those before.
  induction settings generalizing before with
  | nil =>
    rw [List.append_nil]
    rfl
  | cons e settings ih =>
    have hkey : (before.map entryOf).lookup e.1 = none := by
      rw [List.map_append, List.map_cons] at hnodup
      have hdisjoint := (List.nodup_append.1 hnodup).2.2
      refine List.lookup_eq_none_iff.2 fun p hp => ?_
      obtain ⟨b, hb, rfl⟩ := List.mem_map.1 hp
      exact bne_iff_ne.2 (hdisjoint _ (List.mem_map_of_mem hb) _ List.mem_cons_self).symm
    rw [List.flatMap_cons, List.append_assoc, List.length_cons, ← Nat.add_assoc,
      readLines_setting (hbare e List.mem_cons_self) (hfits e List.mem_cons_self) hname hkey]
    have hnodup' : ((before ++ [e] ++ settings).map (·.1)).Nodup := by simpa using hnodup
    have hrest := ih (fun e he => hbare e (List.mem_cons_of_mem _ he))
      (fun e he => hfits e (List.mem_cons_of_mem _ he)) hnodup'
    simpa using hrest

/-! ## Documents -/

/-- A section whose names stand without quotes, each once, and whose values can stand in a
document. -/
structure Section.Sound (s : Section) : Prop where
  name : Bare s.name
  bare : ∀ e ∈ s.settings, Bare e.1
  nodup : (s.settings.map (·.1)).Nodup
  fits : ∀ e ∈ s.settings, e.2.Fits

/-- A document of such sections, each named once. -/
structure Sound (ss : List Section) : Prop where
  sections : ∀ s ∈ ss, s.Sound
  nodup : (ss.map (·.name)).Nodup

/-- How many lines a section has. -/
def Section.lines (s : Section) : Nat := s.settings.length + 1

/-- How many lines a document has. -/
def lines : List Section → Nat
  | [] => 0
  | [s] => s.lines
  | s :: rest => s.lines + (1 + lines rest)

/-- The lines of a section put the section at the end. -/
theorem readLines_section {s : Section} (h : s.Sound) (hname : es.lookup s.name = none)
    (rest : List Char) :
    readLines (fuel + s.lines) ⟨es, path⟩ (s.render ++ rest) =
      readLines fuel ⟨es ++ [s.entry], [s.name]⟩ rest := by
  have hlines : s.render ++ rest =
      '[' :: (s.name.toList ++ ']' :: '\n' :: (s.settings.flatMap renderSetting ++ rest)) := by
    simp [Section.render]
  rw [hlines, Section.lines, ← Nat.add_assoc, readLines_header h.name hname]
  have hnodup : (([] ++ s.settings : List (String × Scalar)).map (·.1)).Nodup := h.nodup
  exact readLines_settings h.bare h.fits hnodup hname rest

/-- The lines of a document put its sections at the end. -/
theorem readLines_sections {ss : List Section} (h : ∀ s ∈ ss, s.Sound)
    (hnodup : (es.map (·.1) ++ ss.map (·.name)).Nodup) (rest : List Char) :
    ∃ path', readLines (fuel + lines ss) ⟨es, path⟩ (renderSections ss ++ rest) =
      readLines fuel ⟨es ++ ss.map Section.entry, path'⟩ rest := by
  induction ss generalizing es path with
  | nil => exact ⟨path, by rw [List.map_nil, List.append_nil]; rfl⟩
  | cons s ss ih =>
    have hsound := h s List.mem_cons_self
    have hname : es.lookup s.name = none := by
      have hdisjoint := (List.nodup_append.1 hnodup).2.2
      refine List.lookup_eq_none_iff.2 fun p hp => bne_iff_ne.2 ?_
      exact (hdisjoint _ (List.mem_map_of_mem hp) _ List.mem_cons_self).symm
    cases ss with
    | nil => exact ⟨_, readLines_section hsound hname rest⟩
    | cons s' ss =>
      obtain ⟨path', hrest⟩ := @ih (es ++ [s.entry]) [s.name]
        (fun s hs => h s (List.mem_cons_of_mem _ hs)) (by simpa [Section.entry] using hnodup)
      refine ⟨path', ?_⟩
      rw [renderSections, lines, List.append_assoc, List.cons_append, Nat.add_comm s.lines,
        ← Nat.add_assoc, readLines_section hsound hname, Nat.add_comm 1, ← Nat.add_assoc,
        readLines_empty, hrest]
      · simp
      · simp
      · simp

theorem le_length_flatMap {α β : Type} {f : α → List β} (hf : ∀ a, 0 < (f a).length) (as : List α) :
    as.length ≤ (as.flatMap f).length := by
  induction as with
  | nil => exact Nat.le_refl 0
  | cons a as ih =>
    have ha := hf a
    simp only [List.length_cons, List.flatMap_cons, List.length_append]
    omega

theorem Section.lines_le (s : Section) : s.lines ≤ s.render.length := by
  have hsettings := le_length_flatMap (f := renderSetting)
    (fun e => by simp [renderSetting]) s.settings
  simp only [Section.lines, Section.render, List.length_append, List.length_cons]
  omega

/-- Every line of a document has a character at least. -/
theorem lines_le (ss : List Section) : lines ss ≤ (renderSections ss).length := by
  induction ss with
  | nil => exact Nat.le_refl 0
  | cons s ss ih =>
    have hs := s.lines_le
    cases ss with
    | nil => exact hs
    | cons s' ss =>
      rw [lines, renderSections, List.length_append, List.length_cons]
      · omega
      all_goals simp

theorem readLines_emptyLines (d : Draft) (fuel n : Nat) :
    readLines fuel d (List.replicate n '\n') = .ok d := by
  induction fuel generalizing n with
  | zero => rfl
  | succ fuel ih =>
    cases n with
    | zero => rfl
    | succ n => exact ih n

/-! ## Values -/

theorem tableJson_of_ne {members : List (String × Value)} (h : ∀ m ∈ members, m.1 ≠ momentMark) :
    tableJson members = (membersJson members).map .obj := by
  cases members with
  | nil => rfl
  | cons m members =>
    obtain ⟨k, v⟩ := m
    rw [tableJson, if_neg (h (k, v) List.mem_cons_self), membersJson]
    cases v.toJson with
    | error e => rfl
    | ok j => cases membersJson members <;> rfl

theorem Scalar.toJson_toValue (v : Scalar) : v.toValue.toJson = .ok v.toJson := by
  cases v <;> rfl

theorem entriesValue_eq_map (es : Entries) :
    entriesValue es = es.map fun e => (e.1, e.2.toValue) := by
  induction es with
  | nil => rfl
  | cons e es ih =>
    obtain ⟨k, i⟩ := e
    rw [entriesValue, ih]
    rfl

theorem membersJson_map {α : Type} (name : α → String) {value : α → Value} {json : α → Json}
    {as : List α} (h : ∀ a ∈ as, (value a).toJson = .ok (json a)) :
    membersJson (as.map fun a => (name a, value a)) = .ok (as.map fun a => (name a, json a)) := by
  induction as with
  | nil => rfl
  | cons a as ih =>
    rw [List.map_cons, membersJson, h a List.mem_cons_self,
      ih fun a ha => h a (List.mem_cons_of_mem _ ha)]
    rfl

/-- The table of a section is what the section stands for. -/
theorem Section.toJson_entry {s : Section} (h : s.Sound) :
    s.entry.2.toValue.toJson = .ok s.toJson := by
  have hvalues : entriesValue (s.settings.map entryOf) =
      s.settings.map fun e => (e.1, e.2.toValue) := by
    rw [entriesValue_eq_map, List.map_map]
    rfl
  have hscalars : ∀ e ∈ s.settings, e.2.toValue.toJson = .ok e.2.toJson :=
    fun e _ => e.2.toJson_toValue
  have hmembers := membersJson_map (fun e => e.1) hscalars
  rw [entry, Item.toValue, Value.toJson, hvalues, tableJson_of_ne, hmembers]
  · rfl
  · intro m hm
    obtain ⟨e, he, rfl⟩ := List.mem_map.1 hm
    exact (h.bare e he).ne_momentMark

/-- The tables of a document are what the document stands for. -/
theorem tableJson_sections {ss : List Section} (h : ∀ s ∈ ss, s.Sound) :
    tableJson (entriesValue (ss.map Section.entry)) = .ok (toJson ss) := by
  have hvalues : entriesValue (ss.map Section.entry) =
      ss.map fun s => (s.name, s.entry.2.toValue) := by
    rw [entriesValue_eq_map, List.map_map]
    rfl
  have hsections : ∀ s ∈ ss, s.entry.2.toValue.toJson = .ok s.toJson :=
    fun s hs => Section.toJson_entry (h s hs)
  have hmembers := membersJson_map Section.name hsections
  rw [hvalues, tableJson_of_ne, hmembers]
  · rfl
  · intro m hm
    obtain ⟨s, hs, rfl⟩ := List.mem_map.1 hm
    exact (h s hs).name.ne_momentMark

theorem dropMark_sections (ss : List Section) (n : Nat) :
    dropMark (renderSections ss ++ List.replicate n '\n') =
      renderSections ss ++ List.replicate n '\n' := by
  match ss with
  | [] => cases n <;> rfl
  | [s] => rfl
  | s :: s' :: ss => rfl

/-- A document reads back, also with empty lines after it. -/
theorem parse_render {ss : List Section} (h : Sound ss) (n : Nat) :
    parse (render ss ++ String.ofList (List.replicate n '\n')) = .ok (toJson ss) := by
  have hfuel : ∃ fuel, (renderSections ss ++ List.replicate n '\n').length + 1 =
      fuel + lines ss := by
    have hle := lines_le ss
    refine ⟨(renderSections ss ++ List.replicate n '\n').length + 1 - lines ss, ?_⟩
    rw [List.length_append]
    omega
  obtain ⟨fuel, hfuel⟩ := hfuel
  obtain ⟨path, hread⟩ := @readLines_sections fuel [] [] ss h.sections h.nodup
    (List.replicate n '\n')
  rw [readLines_emptyLines] at hread
  rw [parse, render, ← String.ofList_append, String.toList_ofList]
  simp only [dropMark_sections, hfuel, hread]
  exact tableJson_sections h.sections

end SignalHub.Toml
