import SignalHub.Proofs.Declarations
import SignalHub.Proofs.Layering
import SignalHub.Settings.Loose
/-!
# Settings from layers

Settings are read from a table of sections setting by setting: each is what the value under its name
converts to, or has its default if there is none. Nothing else counts.

Results:
* `Loose.readSection_eq_ok_iff`: what it means that a section can be read.
* `Settings.Takes`: a setting is what a value converts to.
* `Settings.takes_of_ofLoose`: settings take the values of the layers.
* `Settings.takes_of_takes_table`: no setting is a table.
-/
namespace SignalHub

variable {C : Type → Type}

/-! ## Built from fields -/

/-- A structure that is put together has what was found of each field. -/
def Fields.Faithful {σ : Type} (fs : Fields C σ σ) : Prop :=
  ∀ {ε : Type} {find : {β : Type} → Field C σ β → Except ε β} {s : σ},
    fs.build (fun _ f => find f) = .ok s → fs.All fun f => find f = .ok (f.get s)

theorem ServerSettings.faithful_fields (c : SettingCodecs C) :
    (ServerSettings.fields c).Faithful := by
  intro ε find s h
  simp only [fields, Fields.defaulted, Fields.build_more_ok] at h
  obtain ⟨_, _, ⟨_, _, ⟨_, _, ⟨_, _, hmk, h₁, rfl⟩, h₂, rfl⟩, h₃, rfl⟩, h₄, rfl⟩ := h
  cases hmk
  exact ⟨⟨⟨⟨trivial, h₁⟩, h₂⟩, h₃⟩, h₄⟩

theorem StorageSettings.faithful_fields (c : SettingCodecs C) :
    (StorageSettings.fields c).Faithful := by
  intro ε find s h
  simp only [fields, Fields.defaulted, Fields.build_more_ok] at h
  obtain ⟨_, _, ⟨_, _, ⟨_, _, ⟨_, _, ⟨_, _, ⟨_, _, hmk, h₁, rfl⟩, h₂, rfl⟩, h₃, rfl⟩, h₄, rfl⟩,
    h₅, rfl⟩, h₆, rfl⟩ := h
  cases hmk
  exact ⟨⟨⟨⟨⟨⟨trivial, h₁⟩, h₂⟩, h₃⟩, h₄⟩, h₅⟩, h₆⟩

theorem StreamSettings.faithful_fields (c : SettingCodecs C) :
    (StreamSettings.fields c).Faithful := by
  intro ε find s h
  simp only [fields, Fields.defaulted, Fields.build_more_ok] at h
  obtain ⟨_, _, ⟨_, _, ⟨_, _, ⟨_, _, hmk, h₁, rfl⟩, h₂, rfl⟩, h₃, rfl⟩, h₄, rfl⟩ := h
  cases hmk
  exact ⟨⟨⟨⟨trivial, h₁⟩, h₂⟩, h₃⟩, h₄⟩

theorem MetricsSettings.faithful_fields (c : SettingCodecs C) :
    (MetricsSettings.fields c).Faithful := by
  intro ε find s h
  simp only [fields, Fields.defaulted, Fields.build_more_ok] at h
  obtain ⟨_, _, ⟨_, _, hmk, h₁, rfl⟩, h₂, rfl⟩ := h
  cases hmk
  exact ⟨⟨trivial, h₁⟩, h₂⟩

theorem Settings.faithful_fields (c : SettingCodecs C)
    (nest : {σ : Type} → String → Fields C σ σ → C σ) : (Settings.fields c nest).Faithful := by
  intro ε find s h
  simp only [fields, Fields.defaulted, Fields.build_more_ok] at h
  obtain ⟨_, _, ⟨_, _, ⟨_, _, ⟨_, _, hmk, h₁, rfl⟩, h₂, rfl⟩, h₃, rfl⟩, h₄, rfl⟩ := h
  cases hmk
  exact ⟨⟨⟨⟨trivial, h₁⟩, h₂⟩, h₃⟩, h₄⟩

/-! ## Sections -/

namespace Loose

variable {σ α : Type} {label : String} {g : Given} {members : List (String × Given)}
  {origin : Option Origin} {s : σ}

theorem under_eq_ok_iff {step : Place.Step} {r : Except LooseError α} {a : α} :
    under step r = .ok a ↔ r = .ok a := by
  cases r with
  | error e => exact ⟨nofun, nofun⟩
  | ok b => exact Iff.rfl

/-- A setting is what the value that is found converts to, or it has its default. -/
def FieldIs (s : σ) (f : Field Conversion σ α) : Option Given → Prop
  | some g => f.codec.read g = .ok (f.get s)
  | none => f.default? = some (f.get s)

theorem field_eq_ok_iff {f : Field Conversion σ α} {step : Place.Step} (found : Option Given) :
    field label g f step found = .ok (f.get s) ↔ FieldIs s f found := by
  cases found with
  | some v => exact under_eq_ok_iff
  | none =>
    rw [field, FieldIs]
    cases f.default? with
    | none => simp
    | some a => simp

/-- A section is read from a table if each of its settings is found there. -/
theorem readSection_eq_ok_iff {fields : Fields Conversion σ σ} (hfaithful : fields.Faithful)
    (hrebuild : fields.rebuild s = s) : readSection label fields (.table members origin) = .ok s ↔
      fields.All fun f => FieldIs s f (members.lookup f.name) := by
  constructor
  · intro h
    exact (hfaithful h).imp fun f hf => (field_eq_ok_iff _).1 hf
  · intro h
    have hbuild : readSection label fields (.table members origin) = .ok (fields.rebuild s) :=
      Fields.build_of_all (h.imp fun f hf => (field_eq_ok_iff _).2 hf)
    rwa [hrebuild] at hbuild

end Loose

/-! ## Settings -/

open Loose

/-- A setting of a section is what a value converts to. -/
def Loose.Takes {σ : Type} (fields : Fields Conversion σ σ) (s : σ) (key : String) (v : Given) :
    Prop :=
  fields.All fun f => f.name = key → f.codec.read v = .ok (f.get s)

/-- The setting of that section and name is what a value converts to. -/
structure Settings.Takes (s : Settings) (sec key : String) (v : Given) : Prop where
  server : sec = "server" → Loose.Takes (ServerSettings.fields codecs) s.server key v
  storage : sec = "storage" → Loose.Takes (StorageSettings.fields codecs) s.storage key v
  stream : sec = "stream" → Loose.Takes (StreamSettings.fields codecs) s.stream key v
  metrics : sec = "metrics" → Loose.Takes (MetricsSettings.fields codecs) s.metrics key v

/-- Something of which a member is found is a table. -/
theorem Layer.exists_table {k : String} {g v : Given} (h : Layer.inner? k g = some v) :
    ∃ members origin, g = .table members origin ∧ members.lookup k = some v := by
  cases g with
  | scalar value origin => cases h
  | list items origin => cases h
  | table members origin => exact ⟨members, origin, rfl, h⟩

/-- A section that is read from a table takes the values of the table. -/
theorem Loose.takes_of_fieldIs {σ σ' : Type} {label key : String} {fields : Fields Conversion σ σ}
    {whole : σ'} {f : Field Conversion σ' σ} {members : List (String × Given)} {inner v : Given}
    (hfield : FieldIs whole f (members.lookup f.name))
    (hcodec : f.codec = ⟨readSection label fields⟩) (hfaithful : fields.Faithful)
    (hrebuild : fields.rebuild (f.get whole) = f.get whole)
    (hlookup : members.lookup f.name = some inner) (hv : Layer.inner? key inner = some v) :
    Loose.Takes fields (f.get whole) key v := by
  obtain ⟨settings, origin, rfl, hsetting⟩ := Layer.exists_table hv
  rw [hlookup, FieldIs, hcodec] at hfield
  refine ((readSection_eq_ok_iff hfaithful hrebuild).1 hfield).imp fun f hf hname => ?_
  rwa [hname, hsetting] at hf

/-- Settings take the values that stand in their sections. -/
theorem Settings.takes_of_ofLoose {s : Settings} {g v : Given} {sec key : String}
    (hread : Settings.ofLoose g = .ok s) (hv : Layer.at? sec key g = some v) :
    s.Takes sec key v := by
  obtain ⟨inner, hinner, hsetting⟩ := Option.bind_eq_some_iff.1 hv
  obtain ⟨members, origin, rfl, hlookup⟩ := Layer.exists_table hinner
  obtain ⟨⟨⟨⟨-, hserver⟩, hstorage⟩, hstream⟩, hmetrics⟩ :=
    (readSection_eq_ok_iff (Settings.faithful_fields _ _) rfl).1 hread
  constructor
  · rintro rfl
    exact takes_of_fieldIs hserver rfl (ServerSettings.faithful_fields _) rfl hlookup hsetting
  · rintro rfl
    exact takes_of_fieldIs hstorage rfl (StorageSettings.faithful_fields _) rfl hlookup hsetting
  · rintro rfl
    exact takes_of_fieldIs hstream rfl (StreamSettings.faithful_fields _) rfl hlookup hsetting
  · rintro rfl
    exact takes_of_fieldIs hmetrics rfl (MetricsSettings.faithful_fields _) rfl hlookup hsetting

/-! ## Tables -/

/-- No field is read from a table. -/
def Loose.Flat {σ : Type} (fields : Fields Conversion σ σ) : Prop :=
  fields.All fun f => ∀ members origin a, f.codec.read (.table members origin) ≠ .ok a

theorem Loose.toPort_table (members : List (String × Given)) (origin : Option Origin) (n : UInt16) :
    toPort (.table members origin) ≠ .ok n := fun h => by cases h

theorem ServerSettings.flat_fields : Loose.Flat (ServerSettings.fields codecs) :=
  ⟨⟨⟨⟨trivial, nofun⟩, toPort_table⟩, nofun⟩, nofun⟩

theorem StorageSettings.flat_fields : Loose.Flat (StorageSettings.fields codecs) :=
  ⟨⟨⟨⟨⟨⟨trivial, nofun⟩, nofun⟩, nofun⟩, nofun⟩, nofun⟩, nofun⟩

theorem StreamSettings.flat_fields : Loose.Flat (StreamSettings.fields codecs) :=
  ⟨⟨⟨⟨trivial, nofun⟩, nofun⟩, nofun⟩, nofun⟩

theorem MetricsSettings.flat_fields : Loose.Flat (MetricsSettings.fields codecs) :=
  ⟨⟨trivial, nofun⟩, nofun⟩

theorem Loose.Takes.of_table {σ : Type} {fields : Fields Conversion σ σ} {s : σ} {key : String}
    {members : List (String × Given)} {origin : Option Origin} (hflat : Loose.Flat fields)
    (h : Loose.Takes fields s key (.table members origin)) (v : Given) :
    Loose.Takes fields s key v :=
  (Fields.All.and hflat h).imp fun _ hf hname => absurd (hf.2 hname) (hf.1 _ _ _)

/-- No setting is a table. -/
theorem Settings.takes_of_takes_table {s : Settings} {sec key : String}
    {members : List (String × Given)} {origin : Option Origin}
    (h : s.Takes sec key (.table members origin)) (v : Given) : s.Takes sec key v where
  server hsec := .of_table ServerSettings.flat_fields (h.server hsec) v
  storage hsec := .of_table StorageSettings.flat_fields (h.storage hsec) v
  stream hsec := .of_table StreamSettings.flat_fields (h.stream hsec) v
  metrics hsec := .of_table MetricsSettings.flat_fields (h.metrics hsec) v

end SignalHub
