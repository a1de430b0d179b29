import Mathlib.Data.List.Nodup
import SignalHub.Proofs.Documents
import SignalHub.Proofs.Vouching
/-!
# Settings that are shown and then loaded

Settings are shown as a document of sections, which reads back as it was written. Every setting in
it is converted to what was shown, so a file of that document alone loads the same settings.

Results:
* `Shown.Agrees`: what is shown of a setting converts to the setting.
* `Settings.sound_of_sections?`: settings are shown as a sound document.
* `Settings.ofLoose_shown`: the layer of that document converts to the settings.
* `CommandLine.reloads_of_shown`: what is shown loads again.
-/
namespace SignalHub

/-! ## Single settings -/

/-- What is shown of a setting can stand in a document and converts to the setting. -/
def Shown.Agrees {α : Type} (c : Shown α × Conversion α) : Prop :=
  ∀ a v, c.1.show? a = some v → v.Fits ∧
    ∀ origin, c.2.read (.ofJson origin v.toJson) = .ok a

/-- Each codec of one family with that of another one. -/
def SettingCodecs.pair {C D : Type → Type} (c : SettingCodecs C) (d : SettingCodecs D) :
    SettingCodecs fun α => C α × D α where
  text := (c.text, d.text)
  bool := (c.bool, d.bool)
  port := (c.port, d.port)
  size := (c.size, d.size)
  seconds := (c.seconds, d.seconds)

namespace Shown

theorem agrees_text : Agrees (codecs.text, Loose.codecs.text) := by
  rintro s _ ⟨⟩
  exact ⟨trivial, fun _ => rfl⟩

theorem agrees_bool : Agrees (codecs.bool, Loose.codecs.bool) := by
  rintro b _ ⟨⟩
  exact ⟨trivial, fun _ => rfl⟩

theorem number_eq_some {n : Nat} {v : Toml.Scalar} (h : number n = some v) :
    n < Word.half ∧ v = .int n := by
  rw [number] at h
  split at h
  · cases h
    exact ⟨by assumption, rfl⟩
  · cases h

theorem toWord_of_narrow {m : Number} {n : Nat} (h : m.narrow = .int n) (origin : Option Origin) :
    Loose.toWord (.scalar (.num m) origin) = .ok (UInt64.ofNat n) := by
  rw [Loose.toWord, h]
  exact if_pos (Int.natCast_nonneg n)

/-- A number that can be shown is converted to the word that it is. -/
theorem toWord_number {n : Nat} (hn : n < Word.half) (origin : Option Origin) :
    Loose.toWord (.scalar (.num (.int n)) origin) = .ok (UInt64.ofNat n) := by
  have hlow : -(Word.half : Int) ≤ n :=
    Int.le_trans (Int.neg_nonpos_of_nonneg (Int.natCast_nonneg _)) (Int.natCast_nonneg _)
  have hhigh : (n : Int) < Word.half := Int.ofNat_lt.2 hn
  refine toWord_of_narrow ?_ origin
  rw [Number.narrow, if_pos ⟨hlow, hhigh⟩]

theorem agrees_size : Agrees (codecs.size, Loose.codecs.size) := by
  intro w v h
  obtain ⟨hw, rfl⟩ := number_eq_some h
  refine ⟨⟨_, rfl, hw⟩, fun origin => ?_⟩
  simp only [Loose.codecs, Toml.Scalar.toJson, Given.ofJson, toWord_number hw, UInt64.ofNat_toNat]

theorem agrees_port : Agrees (codecs.port, Loose.codecs.port) := by
  intro w v h
  obtain ⟨hw, rfl⟩ := number_eq_some h
  refine ⟨⟨_, rfl, hw⟩, fun origin => ?_⟩
  have hlt : w.toNat < 65536 := w.toNat_lt
  have hword : (UInt64.ofNat w.toNat).toNat = w.toNat := by
    rw [UInt64.toNat_ofNat']
    exact Nat.mod_eq_of_lt (by omega)
  simp only [Loose.codecs, Toml.Scalar.toJson, Given.ofJson, Loose.toPort]
  refine bind_eq_ok (toWord_number hw _) ?_
  rw [if_pos (by rw [hword]; exact Nat.le_of_lt_succ hlt), hword, UInt16.ofNat_toNat]
  rfl

/-! ## Sections -/

variable {σ α : Type} {s : σ} {settings : List (String × Toml.Scalar)}

/-- What is shown of the fields of a section, in order. -/
def settings? {α : Type} (fs : Fields Shown σ α) (s : σ) : Option (List (String × Toml.Scalar)) :=
  (fs.mapList (setting? s)).mapM id

theorem settings?_more {β : Type} {init : Fields Shown σ (α → β)} {last : Field Shown σ α}
    (h : settings? (.more init last) s = some settings) :
    ∃ before v, settings? init s = some before ∧ last.codec.show? (last.get s) = some v ∧
      settings = before ++ [(last.name, v)] := by
  rw [settings?, Fields.mapList, List.mapM_append] at h
  obtain ⟨before, hbefore, h⟩ := Option.bind_eq_some_iff.1 h
  obtain ⟨rest, hrest, h⟩ := Option.bind_eq_some_iff.1 h
  rw [List.mapM_cons, List.mapM_nil] at hrest
  obtain ⟨e, he, hrest⟩ := Option.bind_eq_some_iff.1 hrest
  obtain ⟨v, hv, rfl⟩ := Option.map_eq_some_iff.1 he
  cases hrest
  cases h
  exact ⟨before, v, hbefore, hv, rfl⟩

/-- What is shown of a field is among the settings. -/
theorem all_of_settings? {fs : Fields Shown σ α} (h : settings? fs s = some settings) :
    fs.All fun f => ∃ v, f.codec.show? (f.get s) = some v ∧ (f.name, v) ∈ settings := by
  induction fs generalizing settings with
  | done a => trivial
  | more init last ih =>
    obtain ⟨before, v, hbefore, hv, rfl⟩ := settings?_more h
    refine ⟨(ih hbefore).imp ?_, v, hv, List.mem_append_right _ (List.mem_singleton_self _)⟩
    rintro β f ⟨v, hv, hmem⟩
    exact ⟨v, hv, List.mem_append_left _ hmem⟩

theorem names_of_settings? {fs : Fields Shown σ α} (h : settings? fs s = some settings) :
    settings.map (·.1) = fs.names := by
  induction fs generalizing settings with
  | done a =>
    cases h
    rfl
  | more init last ih =>
    obtain ⟨before, v, hbefore, -, rfl⟩ := settings?_more h
    rw [List.map_append, ih hbefore]
    rfl

/-- What holds of all that a field may show holds of the settings. -/
theorem forall_of_settings? {fs : Fields Shown σ α} {P : Toml.Scalar → Prop}
    (h : settings? fs s = some settings)
    (hall : fs.All fun f => ∀ a v, f.codec.show? a = some v → P v) :
    ∀ e ∈ settings, P e.2 := by
  induction fs generalizing settings with
  | done a =>
    cases h
    exact nofun
  | more init last ih =>
    obtain ⟨before, v, hbefore, hv, rfl⟩ := settings?_more h
    intro e he
    rcases List.mem_append.1 he with he | he
    · exact ih hbefore hall.1 e he
    · cases List.mem_singleton.1 he
      exact hall.2 _ v hv

/-- The name of a setting as it is given in the source of a section: without quotes, in lower
case. -/
def Settled (name : String) : Prop := Toml.Bare name ∧ Text.lower name = name

instance (name : String) : Decidable (Settled name) := inferInstanceAs (Decidable (_ ∧ _))

/-- A declaration whose settings are shown in a way that converts back. -/
structure Reloads (fs : Fields (fun α => Shown α × Conversion α) σ σ) : Prop where
  agrees : fs.All fun f => Agrees f.codec
  settled : ∀ name ∈ fs.names, Settled name
  nodup : fs.names.Nodup

theorem reloads_server : Reloads (ServerSettings.fields (codecs.pair Loose.codecs)) where
  agrees := ⟨⟨⟨⟨trivial, agrees_text⟩, agrees_port⟩, agrees_text⟩, agrees_text⟩
  settled := by decide
  nodup := by decide

theorem reloads_storage : Reloads (StorageSettings.fields (codecs.pair Loose.codecs)) where
  agrees := ⟨⟨⟨⟨⟨⟨trivial, agrees_size⟩, agrees_size⟩, agrees_size⟩, agrees_size⟩, agrees_size⟩,
    agrees_size⟩
  settled := by decide
  nodup := by decide

theorem reloads_stream : Reloads (StreamSettings.fields (codecs.pair Loose.codecs)) where
  agrees := ⟨⟨⟨⟨trivial, agrees_size⟩, agrees_size⟩, agrees_size⟩, agrees_size⟩
  settled := by decide
  nodup := by decide

theorem reloads_metrics : Reloads (MetricsSettings.fields (codecs.pair Loose.codecs)) where
  agrees := ⟨⟨trivial, agrees_bool⟩, agrees_text⟩
  settled := by decide
  nodup := by decide

/-- What is shown of a section: it can stand in a document, and what it says of each field converts
to the field. -/
structure Says (fs : Fields (fun α => Shown α × Conversion α) σ σ) (s : σ) (sec : Toml.Section) :
    Prop where
  sound : sec.Sound
  lower : ∀ e ∈ sec.settings, Text.lower e.1 = e.1
  reads : (fs.onCodecs Prod.snd).All fun f => ∃ v, (f.name, v) ∈ sec.settings ∧
    ∀ origin, f.codec.read (.ofJson origin v.toJson) = .ok (f.get s)

/-- A section that is shown says what its fields are. -/
theorem says_of_section? {fs : Fields (fun α => Shown α × Conversion α) σ σ} {name : String}
    {sec : Toml.Section} (hfs : Reloads fs) (hname : Toml.Bare name)
    (h : section? name (fs.onCodecs Prod.fst) s = some sec) : sec.name = name ∧ Says fs s sec := by
  obtain ⟨settings, hsettings, rfl⟩ := Option.map_eq_some_iff.1 h
  have hnames : settings.map (·.1) = fs.names :=
    (names_of_settings? hsettings).trans Fields.names_onCodecs
  have hsettled : ∀ e ∈ settings, Settled e.1 := fun e he =>
    hfs.settled _ (hnames ▸ List.mem_map_of_mem he)
  refine ⟨rfl, ⟨hname, fun e he => (hsettled e he).1, hnames ▸ hfs.nodup, ?_⟩,
    fun e he => (hsettled e he).2, ?_⟩
  · refine forall_of_settings? hsettings (Fields.all_onCodecs.2 (hfs.agrees.imp ?_))
    exact fun f hf a v hv => (hf a v hv).1
  · refine Fields.all_onCodecs.2 ?_
    refine ((Fields.all_onCodecs.1 (all_of_settings? hsettings)).and hfs.agrees).imp ?_
    rintro β f ⟨⟨v, hv, hmem⟩, hagrees⟩
    exact ⟨v, hmem, (hagrees _ v hv).2⟩

end Shown

/-! ## Documents -/

variable {settings : Settings} {ss : List Toml.Section}

/-- What is shown of settings: four sections, each with what it says. -/
theorem Settings.sections?_eq_some (h : settings.sections? = some ss) :
    ∃ server storage stream metrics, ss = [server, storage, stream, metrics] ∧
      (server.name = "server" ∧
        Shown.Says (ServerSettings.fields (Shown.codecs.pair Loose.codecs)) settings.server
          server) ∧
      (storage.name = "storage" ∧
        Shown.Says (StorageSettings.fields (Shown.codecs.pair Loose.codecs)) settings.storage
          storage) ∧
      (stream.name = "stream" ∧
        Shown.Says (StreamSettings.fields (Shown.codecs.pair Loose.codecs)) settings.stream
          stream) ∧
      metrics.name = "metrics" ∧
        Shown.Says (MetricsSettings.fields (Shown.codecs.pair Loose.codecs)) settings.metrics
          metrics := by
  obtain ⟨server, hserver, h⟩ := Option.bind_eq_some_iff.1 h
  obtain ⟨storage, hstorage, h⟩ := Option.bind_eq_some_iff.1 h
  obtain ⟨stream, hstream, h⟩ := Option.bind_eq_some_iff.1 h
  obtain ⟨metrics, hmetrics, h⟩ := Option.bind_eq_some_iff.1 h
  cases h
  exact ⟨server, storage, stream, metrics, rfl,
    Shown.says_of_section? Shown.reloads_server (by decide) hserver,
    Shown.says_of_section? Shown.reloads_storage (by decide) hstorage,
    Shown.says_of_section? Shown.reloads_stream (by decide) hstream,
    Shown.says_of_section? Shown.reloads_metrics (by decide) hmetrics⟩

theorem lower_of_mem_sectionNames : ∀ name ∈ sectionNames, Text.lower name = name := by decide

/-- Where names are distinct, the others have other names. -/
theorem ne_of_nodup_map {α : Type} {name : α → String} {before after : List α} {a : α}
    (h : ((before ++ a :: after).map name).Nodup) : ∀ b ∈ before ++ after, name b ≠ name a := by
  rw [List.map_append, List.map_cons, List.nodup_middle, ← List.map_append] at h
  intro b hb hname
  exact (List.nodup_cons.1 h).1 (hname ▸ List.mem_map_of_mem hb)

theorem mem_middle {α : Type} {before after : List α} {a b : α} (h : b ∈ before ++ after) :
    b ∈ before ++ a :: after :=
  (List.mem_append.1 h).elim (List.mem_append_left _)
    fun h => List.mem_append_right _ (List.mem_cons_of_mem _ h)

/-- What a section of a document says of a setting is what the document says of it. -/
theorem Toml.sets_of_mem {sec : Toml.Section} {key : String} {v : Toml.Scalar}
    (hsound : Toml.Sound ss) (hnames : ∀ s ∈ ss, s.name ∈ sectionNames) (hsec : sec ∈ ss)
    (hlower : ∀ e ∈ sec.settings, Text.lower e.1 = e.1) (hmem : (key, v) ∈ sec.settings) :
    Json.Sets sec.name key v.toJson (Toml.toJson ss) := by
  have hnodup := (hsound.sections sec hsec).nodup
  obtain ⟨before, after, rfl⟩ := List.append_of_mem hsec
  obtain ⟨inner, inner', hsettings⟩ := List.append_of_mem hmem
  rw [hsettings] at hnodup hlower
  have hother : ∀ s ∈ before ++ after, ¬ (Place.parse s.name).MayLieIn sec.name := by
    intro s hs hlie
    have hname := hnames s (mem_middle hs)
    have hlow := lower_of_mem_sectionNames _ hname
    rw [(Place.parse_section hname hlow).1] at hlie
    exact ne_of_nodup_map hsound.nodup s hs (hlow.symm.trans hlie)
  have hinner : ∀ e ∈ inner ++ inner', Text.lower e.1 ≠ key := by
    intro e he hkey
    exact ne_of_nodup_map hnodup e he ((hlower e (mem_middle he)).symm.trans hkey)
  have hsets := Json.Sets.intro (v := v.toJson)
    (before.map fun s => (s.name, s.toJson)) (after.map fun s => (s.name, s.toJson))
    (inner.map fun e => (e.1, e.2.toJson)) (inner'.map fun e => (e.1, e.2.toJson))
    (lower_of_mem_sectionNames _ (hnames sec hsec))
    (hlower _ (List.mem_append_right _ List.mem_cons_self))
    (by simpa only [← List.map_append, List.forall_mem_map] using hother)
    (by simpa only [← List.map_append, List.forall_mem_map] using hinner)
  simpa [Toml.toJson, Toml.Section.toJson, hsettings] using hsets

/-- A scalar replaces what is below it. -/
theorem Layer.overlay_scalar (below : Given) (origin : SignalHub.Origin) (v : Toml.Scalar) :
    overlay below (.ofJson origin v.toJson) = .ofJson origin v.toJson := by
  cases v <;> rfl

/-- A layer whose names are sections can be laid over anything. -/
theorem Layer.exists_putAll? {layer : List (String × Given)}
    (h : ∀ e ∈ layer, e.1 ∈ sectionNames) (root : Given) : ∃ g, putAll? root layer = some g := by
  induction layer generalizing root with
  | nil => exact ⟨root, rfl⟩
  | cons e layer ih =>
    have he := h e List.mem_cons_self
    have hparse := (Place.parse_section he (lower_of_mem_sectionNames _ he)).1
    obtain ⟨g, hg⟩ := ih (fun e he => h e (List.mem_cons_of_mem _ he))
      (overlayMembers (.table root.members root.tableOrigin?) [(e.1, e.2)])
    refine ⟨g, ?_⟩
    rw [putAll?, List.foldlM_cons, hparse]
    exact hg

/-- A section is read if each of its fields is what stands under its name. -/
theorem Loose.fieldIs_of_at? {σ σ' : Type} {label : String} {fields : Fields Conversion σ σ}
    {whole : σ'} {f : Field Conversion σ' σ} {members : List (String × Given)}
    {origin : Option Origin} {key : String} {v : Given}
    (hcodec : f.codec = ⟨readSection label fields⟩) (hfaithful : fields.Faithful)
    (hrebuild : fields.rebuild (f.get whole) = f.get whole)
    (hsome : Layer.at? f.name key (.table members origin) = some v)
    (hall : fields.All fun f' => ∃ v, Layer.at? f.name f'.name (.table members origin) = some v ∧
      f'.codec.read v = .ok (f'.get (f.get whole))) :
    FieldIs whole f (members.lookup f.name) := by
  obtain ⟨inner, hinner, hkey⟩ := Option.bind_eq_some_iff.1 hsome
  obtain ⟨settings, origin', rfl, -⟩ := Layer.exists_table hkey
  rw [Layer.inner?_table] at hinner
  rw [hinner, FieldIs, hcodec]
  refine (readSection_eq_ok_iff hfaithful hrebuild).2 (hall.imp ?_)
  rintro β f' ⟨v', hat, hread⟩
  rw [Layer.at?, Layer.inner?_table, hinner, Option.bind_some, Layer.inner?_table] at hat
  rw [hat]
  exact hread

/-- A document that is shown can be read, and its sections are those of settings. -/
theorem Settings.sound_of_sections? (h : settings.sections? = some ss) :
    Toml.Sound ss ∧ ∀ s ∈ ss, s.name ∈ sectionNames := by
  obtain ⟨server, storage, stream, metrics, rfl, ⟨h₁, hserver⟩, ⟨h₂, hstorage⟩, ⟨h₃, hstream⟩,
    h₄, hmetrics⟩ := Settings.sections?_eq_some h
  have hnames : [server, storage, stream, metrics].map Toml.Section.name = sectionNames := by
    simp only [List.map_cons, List.map_nil, h₁, h₂, h₃, h₄, sectionNames]
  refine ⟨⟨?_, hnames ▸ by decide⟩, fun s hs => hnames ▸ List.mem_map_of_mem hs⟩
  intro s hs
  simp only [List.mem_cons, List.not_mem_nil, or_false] at hs
  rcases hs with rfl | rfl | rfl | rfl
  · exact hserver.sound
  · exact hstorage.sound
  · exact hstream.sound
  · exact hmetrics.sound

/-- In the layer of a document that is shown stands what converts to the fields of each section. -/
theorem Shown.Says.all_at? {σ : Type} {fs : Fields (fun α => Shown α × Conversion α) σ σ} {s : σ}
    {sec : Toml.Section} {origin : Origin} {members : List (String × Given)} {g : Given}
    (h : Shown.Says fs s sec) (hsec : sec ∈ ss) (hsound : Toml.Sound ss)
    (hnames : ∀ s ∈ ss, s.name ∈ sectionNames)
    (hmembers : Given.ofJson origin (Toml.toJson ss) = .table members (some origin))
    (hput : Layer.putAll? (.table [] none) members = some g) :
    (fs.onCodecs Prod.snd).All fun f => ∃ v, Layer.at? sec.name f.name g = some v ∧
      f.codec.read v = .ok (f.get s) := by
  refine h.reads.imp ?_
  rintro β f ⟨v, hmem, hread⟩
  have hsets := Toml.sets_of_mem hsound hnames hsec h.lower hmem
  have hput' : Layer.putAll? (.table [] none) (members ++ []) = some g := by
    rwa [List.append_nil]
  have hat := Layer.at?_putAll?_of_sets hsets (hnames sec hsec) hmembers
    (fun _ h => by cases h) hput'
  rw [Layer.overlay_scalar] at hat
  exact ⟨_, hat, hread origin⟩

/-- The layer of a document that is shown converts to the settings. -/
theorem Settings.ofLoose_shown {origin : Origin} {members : List (String × Given)} {g : Given}
    (h : settings.sections? = some ss)
    (hmembers : Given.ofJson origin (Toml.toJson ss) = .table members (some origin))
    (hput : Layer.putAll? (.table [] none) members = some g) :
    Settings.ofLoose g = .ok settings := by
  obtain ⟨hsound, hnames⟩ := Settings.sound_of_sections? h
  obtain ⟨server, storage, stream, metrics, rfl, ⟨h₁, hserver⟩, ⟨h₂, hstorage⟩, ⟨h₃, hstream⟩,
    h₄, hmetrics⟩ := Settings.sections?_eq_some h
  have hall₁ := hserver.all_at? (by simp) hsound hnames hmembers hput
  have hall₂ := hstorage.all_at? (by simp) hsound hnames hmembers hput
  have hall₃ := hstream.all_at? (by simp) hsound hnames hmembers hput
  have hall₄ := hmetrics.all_at? (by simp) hsound hnames hmembers hput
  rw [h₁] at hall₁
  rw [h₂] at hall₂
  rw [h₃] at hall₃
  rw [h₄] at hall₄
  obtain ⟨v₁, hat₁, -⟩ := hall₁.2
  obtain ⟨v₂, hat₂, -⟩ := hall₂.2
  obtain ⟨v₃, hat₃, -⟩ := hall₃.2
  obtain ⟨v₄, hat₄, -⟩ := hall₄.2
  obtain ⟨inner, hinner, -⟩ := Option.bind_eq_some_iff.1 hat₁
  obtain ⟨top, origin', rfl, -⟩ := Layer.exists_table hinner
  refine (Loose.readSection_eq_ok_iff (Settings.faithful_fields _ _) rfl).2 ?_
  exact ⟨⟨⟨⟨trivial,
    Loose.fieldIs_of_at? rfl (ServerSettings.faithful_fields _) rfl hat₁ hall₁⟩,
    Loose.fieldIs_of_at? rfl (StorageSettings.faithful_fields _) rfl hat₂ hall₂⟩,
    Loose.fieldIs_of_at? rfl (StreamSettings.faithful_fields _) rfl hat₃ hall₃⟩,
    Loose.fieldIs_of_at? rfl (MetricsSettings.faithful_fields _) rfl hat₄ hall₄⟩

/-! ## Loading again -/

variable {d : Directory} {vars : List (String × String)} {path text : String}

/-- Settings are loaded if their layers convert to them and they are accepted. -/
theorem loadSettings_of_layers {members : List (String × Given)} {g : Given}
    (hfile : fileLayer (locate d path) = .ok members)
    (hput : Layer.putAll? (.table [] none) (members ++ Environment.layer vars) = some g)
    (hread : Settings.ofLoose g = .ok settings) (hvalid : settings.validate = .ok ()) :
    loadSettings d vars path = .ok settings := by
  have hlayers : loadLayers (locate d path) vars = .ok g := by
    refine bind_eq_ok hfile ?_
    rw [hput]
    rfl
  refine bind_eq_ok hlayers (bind_eq_ok (a := settings) ?_ (bind_eq_ok (a := ()) ?_ rfl))
  · rw [hread]
    rfl
  · rw [hvalid]
    rfl

/-- A file of the document that is shown, with empty lines after it, loads the settings. -/
theorem loadSettings_shown {n : Nat} (h : settings.toToml? = some text)
    (hvalid : settings.validate = .ok ())
    (hfile : d.content? path = some (text ++ String.ofList (List.replicate n '\n')))
    (hformat : Format.ofName? (Path.fileName path) = some .toml) :
    loadSettings d [] path = .ok settings := by
  obtain ⟨ss, hss, rfl⟩ := Option.map_eq_some_iff.1 h
  obtain ⟨hsound, hnames⟩ := Settings.sound_of_sections? hss
  have hmembers : Given.ofJson (.file (Path.normal path)) (Toml.toJson ss) =
      .table (ss.map fun s => (s.name, Given.ofJson (.file (Path.normal path)) s.toJson))
        (some (.file (Path.normal path))) := by
    rw [Toml.toJson, Given.ofJson, Given.ofMembers_eq_map, List.map_map]
    rfl
  have hlocate := locate_of_content? hfile
  rw [hformat] at hlocate
  have hread : SettingsFile.read ⟨Path.normal path, .toml,
      Toml.render ss ++ String.ofList (List.replicate n '\n')⟩ = some (Toml.toJson ss) := by
    rw [SettingsFile.read, Format.parse, Toml.parse_render hsound]
    rfl
  have hlayer : fileLayer (locate d path) =
      .ok (ss.map fun s => (s.name, Given.ofJson (.file (Path.normal path)) s.toJson)) := by
    rw [hlocate, Option.map_some, fileLayer, hread, Option.map_some, hmembers]
  have hsections : ∀ e ∈ ss.map fun s => (s.name, Given.ofJson (.file (Path.normal path)) s.toJson),
      e.1 ∈ sectionNames := List.forall_mem_map.2 hnames
  obtain ⟨g, hput⟩ := Layer.exists_putAll? hsections (.table [] none)
  have hput' : Layer.putAll? (.table [] none)
      ((ss.map fun s => (s.name, Given.ofJson (.file (Path.normal path)) s.toJson)) ++
        Environment.layer []) = some g := by
    rwa [show Environment.layer [] = [] from rfl, List.append_nil]
  exact loadSettings_of_layers hlayer hput' (Settings.ofLoose_shown hss hmembers hput) hvalid

namespace CommandLine

variable {s : Surroundings} {out err : String}

/-- What stands before the settings that are shown. -/
def heading : String := "Loading configuration...\n" ++ "Current Configuration:\n\n"

theorem showSettings_eq_exit_iff : showSettings s path = .exit 0 out err ↔
    ∃ settings text, load s path = .ok settings ∧ settings.toToml? = some text ∧
      out = heading ++ text ++ "\n" ∧ err = "" := by
  rw [showSettings]
  cases hload : load s path with
  | error e => simp [loadFailure_ne_exit_zero]
  | ok settings =>
    cases htext : settings.toToml? with
    | none => simp [failure, htext]
    | some text =>
      simp only [htext]
      constructor
      · intro h
        cases h
        exact ⟨settings, text, rfl, htext, rfl, rfl⟩
      · rintro ⟨_, _, hsettings, htext', rfl, rfl⟩
        cases hsettings
        rw [htext] at htext'
        cases htext'
        rfl

/-- The settings that are shown are those in effect, and a file of what is printed after the heading
loads the same settings where no variable sets anything. -/
theorem reloads_of_shown {args : List String}
    (hargs : parseArguments args = .run .showSettings path)
    (hshown : perform s args = .exit 0 out err) :
    ∃ settings text, load s path = .ok settings ∧ out = heading ++ text ∧
      ∀ d path', d.content? path' = some text →
        Format.ofName? (Path.fileName path') = some .toml →
        loadSettings d [] path' = .ok settings := by
  simp only [perform, hargs] at hshown
  obtain ⟨settings, text, hload, htext, rfl, -⟩ := showSettings_eq_exit_iff.1 hshown
  refine ⟨settings, text ++ "\n", hload, String.append_assoc, ?_⟩
  intro d path' hfile hformat
  exact loadSettings_shown (n := 1) htext (validate_of_loadSettings hload) hfile hformat

/-- A file that turns the metrics off, and a variable that names a host of quotes, a line end, a
backslash, a control character and a letter beyond the first 128. -/
def quotedHost : Surroundings where
  directory := ⟨[("config.toml", "[metrics]\nenabled = false\n")]⟩
  vars := [("TELEMETRY_HUB__SERVER__HOST", "'\n\"\"\"\\\x01é")]

/-- The settings that are in effect there. -/
def quotedSettings : Settings where
  server := { host := "'\n\"\"\"\\\x01é" }
  metrics := { enabled := false }

/-- A host with quotes, a line end, a backslash and a control character loads again. -/
theorem quoted_host_reloads :
    ∃ settings text,
      load quotedHost "config.toml" = .ok settings ∧
      heading ++ quotedSettings.toToml?.getD "" ++ "\n" = heading ++ text ∧
      ∀ d path', d.content? path' = some text →
        Format.ofName? (Path.fileName path') = some .toml →
        loadSettings d [] path' = .ok settings := by
  have hload : load quotedHost "config.toml" = .ok quotedSettings := by
    have hsome : (load quotedHost "config.toml").toOption = some quotedSettings := by decide +kernel
    revert hsome
    cases load quotedHost "config.toml" with
    | error e => exact nofun
    | ok settings => exact fun h => congrArg _ (Option.some.inj h)
  have hargs : parseArguments ["config", "show"] = .run .showSettings "config.toml" := by decide
  have hshown : perform quotedHost ["config", "show"] =
      .exit 0 (heading ++ quotedSettings.toToml?.getD "" ++ "\n") "" := by
    simp only [perform, hargs]
    exact showSettings_eq_exit_iff.2 ⟨quotedSettings, _, hload, rfl, rfl, rfl⟩
  exact reloads_of_shown hargs hshown

end CommandLine

end SignalHub
