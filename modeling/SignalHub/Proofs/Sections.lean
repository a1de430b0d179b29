import SignalHub.Proofs.Reloading
/-!
# Layers in which sections are tables

As long as no value is laid over a section that is no table, and no item of a list is asked for in a
section, the sections in the layers stay tables. Settings are then read setting by setting: each is
what stands under its name, or has its default. A section that is missing is like an empty one.

Results:
* `Layer.Sectioned`: the sections are tables.
* `Layer.Sectioned.putAll?`: they stay so.
* `Settings.Are`: settings are what values convert to.
* `Settings.ofLoose_eq_ok_iff`: how settings are read from such layers.
-/
namespace SignalHub

/-- Whether a value is a table. -/
def Given.IsTable : Given → Prop
  | .table _ _ => True
  | _ => False

instance : DecidablePred Given.IsTable
  | .table _ _ => .isTrue trivial
  | .scalar _ _ => .isFalse id
  | .list _ _ => .isFalse id

theorem Given.IsTable.exists_eq {g : Given} (h : g.IsTable) :
    ∃ members origin, g = .table members origin := by
  cases g with
  | scalar v origin => exact h.elim
  | list items origin => exact h.elim
  | table members origin => exact ⟨members, origin, rfl⟩

namespace Layer

variable {sec key : String} {g v r : Given} {p : Place} {layer : List (String × Given)}

/-- A table in which the sections are tables, as far as they are there. -/
structure Sectioned (g : Given) : Prop where
  top : g.IsTable
  sections : ∀ sec ∈ sectionNames, ∀ inner, inner? sec g = some inner → inner.IsTable

/-- Whether a section is still a table after a value has been laid over a place. -/
def Spares (sec : String) (p : Place) (v : Given) : Prop :=
  match p.path, p.last with
  | [], .name k => Text.lower k = sec → v.IsTable
  | [.name k], .index _ => k ≠ sec
  | .name k :: .index _ :: _, _ => k ≠ sec
  | .name _ :: _, _ => True
  | _, _ => False

/-- What does not touch a setting leaves its section a table. -/
theorem spares_of_not_touches (h : ¬ Touches sec key p v) : Spares sec p v := by
  obtain ⟨path, last⟩ := p
  match path, last with
  | [], .name k =>
    intro hk
    cases v with
    | table members origin => trivial
    | scalar value origin => exact absurd ⟨hk, fun _ _ heq => Given.noConfusion heq⟩ h
    | list items origin => exact absurd ⟨hk, fun _ _ heq => Given.noConfusion heq⟩ h
  | [], .index i => exact absurd trivial h
  | [.name k], .name k' => trivial
  | [.name k], .index i => exact h
  | .name k :: .name k' :: _, _ => trivial
  | .name k :: .index i :: _, _ => exact h
  | .index i :: _, _ => exact absurd trivial h

/-- A place that spares a section is no item of a list. -/
theorem Spares.exists_name {path : List Place.Step} {last : Place.Step}
    (h : Spares sec ⟨path, last⟩ v) : ∃ k rest, path ++ [last] = .name k :: rest := by
  match path, last with
  | [], .name k => exact ⟨k, [], rfl⟩
  | [], .index i => exact h.elim
  | .name k :: path, last => exact ⟨k, path ++ [last], rfl⟩
  | .index i :: _, _ => exact h.elim

/-- Nor is it one in the section. -/
theorem Spares.exists_name_below {path : List Place.Step} {last : Place.Step}
    (h : Spares sec ⟨.name sec :: path, last⟩ v) :
    ∃ k rest, path ++ [last] = .name k :: rest := by
  match path, last with
  | [], .name k => exact ⟨k, [], rfl⟩
  | [], .index i => exact absurd rfl h
  | .name k :: path, last => exact ⟨k, path ++ [last], rfl⟩
  | .index i :: _, _ => exact absurd rfl h

theorem isTable_overlay (hg : g.IsTable) (hv : v.IsTable) : (overlay g v).IsTable := by
  obtain ⟨members, origin, rfl⟩ := hg.exists_eq
  obtain ⟨members', origin', rfl⟩ := hv.exists_eq
  obtain ⟨merged, origin'', hmerged⟩ := overlayMembers_table members members' origin
  rw [overlay, hmerged]
  trivial

/-- What becomes of something in which a name is followed is a table. -/
theorem isTable_of_changeAt? {last : Place.Step} {path : List Place.Step}
    (h : changeAt? (putLast? v last) path g = some r)
    (hname : ∃ k rest, path ++ [last] = .name k :: rest) : r.IsTable := by
  obtain ⟨k, rest, hname⟩ := hname
  cases path with
  | nil =>
    cases hname
    rw [changeAt?, putLast?_name] at h
    cases h
    trivial
  | cons step path =>
    cases hname
    obtain ⟨inner, -, rfl⟩ := changeAt?_name h
    trivial

/-- Values laid over places that spare the sections leave them tables. -/
theorem Sectioned.putAt? (hg : Sectioned g) (hspares : ∀ sec ∈ sectionNames, Spares sec p v)
    (h : putAt? g p v = some r) : Sectioned r := by
  obtain ⟨path, last⟩ := p
  have hname := (hspares "server" (by decide)).exists_name
  refine ⟨isTable_of_changeAt? h hname, fun sec hsec inner hinner => ?_⟩
  have hspare := hspares sec hsec
  obtain ⟨k, rest, hname⟩ := hname
  cases path with
  | nil =>
    cases hname
    rw [SignalHub.Layer.putAt?, changeAt?, putLast?_name] at h
    cases h
    rw [inner?_withMember] at hinner
    split at hinner
    · rename_i hk
      cases hinner
      refine isTable_overlay ?_ (hspare hk)
      cases hbelow : inner? (Text.lower k) g with
      | none => trivial
      | some below => exact hg.sections sec hsec below (hk ▸ hbelow)
    · exact hg.sections sec hsec inner hinner
  | cons step path =>
    cases hname
    obtain ⟨inner', hinner', rfl⟩ := changeAt?_name h
    rw [inner?_withMember] at hinner
    split at hinner
    · rename_i hk
      cases hinner
      subst hk
      exact isTable_of_changeAt? hinner' hspare.exists_name_below
    · exact hg.sections sec hsec inner hinner

theorem Sectioned.putAll? (hg : Sectioned g)
    (hspares : ∀ e ∈ layer, ∀ sec ∈ sectionNames, Spares sec (.parse e.1) e.2)
    (h : putAll? g layer = some r) : Sectioned r := by
  induction layer generalizing g with
  | nil =>
    cases h
    exact hg
  | cons e layer ih =>
    obtain ⟨g', hg', h⟩ := putAll?_cons h
    exact ih (hg.putAt? (hspares e List.mem_cons_self) hg')
      (fun e he => hspares e (List.mem_cons_of_mem _ he)) h

theorem sectioned_empty : Sectioned (.table [] none) := ⟨trivial, nofun⟩

end Layer

/-! ## Settings -/

open Loose

/-- A section that is missing or a table is read setting by setting. -/
theorem Loose.fieldIs_section_iff {σ σ' : Type} {label : String} {fields : Fields Conversion σ σ}
    {d : σ} {inner : Option Given} (whole : σ') (f : Field Conversion σ' σ)
    (hcodec : f.codec = ⟨readSection label fields⟩) (hfaithful : fields.Faithful)
    (hrebuild : fields.rebuild (f.get whole) = f.get whole) (hdefault : f.default? = some d)
    (hempty : readSection label fields (.table [] none) = .ok d)
    (hinner : ∀ g, inner = some g → g.IsTable) :
    FieldIs whole f inner ↔
      fields.All fun f' => FieldIs (f.get whole) f' (inner.bind (Layer.inner? f'.name)) := by
  cases inner with
  | none =>
    have hread : readSection label fields (.table [] none) = .ok (f.get whole) ↔
        fields.All fun f' => FieldIs (f.get whole) f' none :=
      readSection_eq_ok_iff hfaithful hrebuild
    rw [FieldIs, hdefault]
    refine Iff.trans ?_ hread
    rw [hempty, Except.ok.injEq, Option.some.injEq]
  | some g =>
    obtain ⟨members, origin, rfl⟩ := (hinner g rfl).exists_eq
    rw [FieldIs, hcodec]
    exact readSection_eq_ok_iff hfaithful hrebuild

/-- Each setting is what the value for its section and name converts to, or has its default. -/
structure Settings.Are (s : Settings) (value? : String → String → Option Given) : Prop where
  server : (ServerSettings.fields codecs).All fun f =>
    FieldIs s.server f (value? "server" f.name)
  storage : (StorageSettings.fields codecs).All fun f =>
    FieldIs s.storage f (value? "storage" f.name)
  stream : (StreamSettings.fields codecs).All fun f =>
    FieldIs s.stream f (value? "stream" f.name)
  metrics : (MetricsSettings.fields codecs).All fun f =>
    FieldIs s.metrics f (value? "metrics" f.name)

/-- Settings are read from tables of sections if each is what stands under its name. -/
theorem Settings.ofLoose_eq_ok_iff {s : Settings} {g : Given} (hg : Layer.Sectioned g) :
    Settings.ofLoose g = .ok s ↔ s.Are fun sec key => Layer.at? sec key g := by
  obtain ⟨members, origin, rfl⟩ := hg.top.exists_eq
  have hserver := fieldIs_section_iff s
    (⟨"server", ⟨readSection "struct ServerConfig" (ServerSettings.fields codecs)⟩,
      some {}, Settings.server⟩) rfl (ServerSettings.faithful_fields _) rfl rfl rfl
    (hg.sections "server" (by decide))
  have hstorage := fieldIs_section_iff s
    (⟨"storage", ⟨readSection "struct StorageConfig" (StorageSettings.fields codecs)⟩,
      some {}, Settings.storage⟩) rfl (StorageSettings.faithful_fields _) rfl rfl rfl
    (hg.sections "storage" (by decide))
  have hstream := fieldIs_section_iff s
    (⟨"stream", ⟨readSection "struct StreamConfig" (StreamSettings.fields codecs)⟩,
      some {}, Settings.stream⟩) rfl (StreamSettings.faithful_fields _) rfl rfl rfl
    (hg.sections "stream" (by decide))
  have hmetrics := fieldIs_section_iff s
    (⟨"metrics", ⟨readSection "struct MetricsConfig" (MetricsSettings.fields codecs)⟩,
      some {}, Settings.metrics⟩) rfl (MetricsSettings.faithful_fields _) rfl rfl rfl
    (hg.sections "metrics" (by decide))
  rw [Settings.ofLoose, readSection_eq_ok_iff (Settings.faithful_fields _ _) rfl]
  constructor
  · rintro ⟨⟨⟨⟨-, h₁⟩, h₂⟩, h₃⟩, h₄⟩
    exact ⟨hserver.1 h₁, hstorage.1 h₂, hstream.1 h₃, hmetrics.1 h₄⟩
  · rintro ⟨h₁, h₂, h₃, h₄⟩
    exact ⟨⟨⟨⟨trivial, hserver.2 h₁⟩, hstorage.2 h₂⟩, hstream.2 h₃⟩, hmetrics.2 h₄⟩

end SignalHub
