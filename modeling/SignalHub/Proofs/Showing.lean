import SignalHub.Proofs.Reloading
/-!
# Settings that can be shown

Settings take every unsigned 64-bit number, and the document in which they are shown has integers
with a sign and 63 bits. So settings that load are shown exactly if none of their numbers needs the
last bit, whatever texts stand in them. The others load, are accepted by a check and can be served;
showing them fails after the heading.

Results:
* `Settings.words`: the 64-bit numbers among the settings.
* `Settings.isSome_toToml?`: the settings that have a document.
* `CommandLine.shows_iff`: when settings are shown, and what happens to the others.
* `CommandLine.loaded_limit_not_shown`: settings that load and are not shown.
-/
namespace SignalHub

/-! ## Settings that have a document -/

namespace Shown

variable {σ α : Type}

theorem isSome_number {n : Nat} : (number n).isSome ↔ n < Word.half := by
  rw [number]
  split <;> simp [*]

/-- A port always fits. -/
theorem isSome_port (w : UInt16) : (codecs.port.show? w).isSome :=
  isSome_number.2 (Nat.lt_trans w.toNat_lt (by decide))

theorem isSome_setting? {s : σ} {f : Field Shown σ α} :
    (setting? s f).isSome ↔ (f.codec.show? (f.get s)).isSome := by
  rw [setting?, Option.isSome_map]

theorem settings?_more_eq {β : Type} (init : Fields Shown σ (α → β)) (last : Field Shown σ α)
    (s : σ) :
    settings? (.more init last) s =
      (settings? init s).bind fun before => (setting? s last).map fun e => before ++ [e] := by
  rw [settings?, Fields.mapList, List.mapM_append, settings?]
  cases (init.mapList (setting? s)).mapM id with
  | none => rfl
  | some before => cases setting? s last <;> simp

/-- Fields are shown if each of them is. -/
theorem isSome_settings? {fs : Fields Shown σ α} {s : σ} :
    (settings? fs s).isSome ↔ fs.All fun f => (f.codec.show? (f.get s)).isSome := by
  induction fs with
  | done a => exact iff_of_true rfl trivial
  | more init last ih =>
    rw [Fields.All, ← ih, ← isSome_setting?, settings?_more_eq]
    cases settings? init s <;> simp

theorem isSome_section? {name : String} {fs : Fields Shown σ σ} {s : σ} :
    (section? name fs s).isSome ↔ fs.All fun f => (f.codec.show? (f.get s)).isSome := by
  rw [section?, Option.isSome_map]
  exact isSome_settings?

end Shown

/-- The 64-bit numbers among the settings of a storage. -/
def StorageSettings.words (s : StorageSettings) : List UInt64 :=
  [s.traceCapacity, s.logCapacity, s.metricCapacity, s.mailboxSize, s.defaultLimit, s.maxLimit]

/-- The 64-bit numbers among the settings of live feeds. -/
def StreamSettings.words (s : StreamSettings) : List UInt64 :=
  [s.traceBackfill, s.logBackfill, s.metricBackfill, s.keepaliveSeconds]

/-- The 64-bit numbers among the settings. -/
def Settings.words (s : Settings) : List UInt64 := s.storage.words ++ s.stream.words

namespace Shown

theorem isSome_server (name : String) (s : ServerSettings) :
    (section? name (ServerSettings.fields codecs) s).isSome :=
  isSome_section?.2 ⟨⟨⟨⟨trivial, rfl⟩, isSome_port s.port⟩, rfl⟩, rfl⟩

theorem isSome_storage (name : String) {s : StorageSettings} :
    (section? name (StorageSettings.fields codecs) s).isSome ↔
      ∀ n ∈ s.words, n.toNat < Word.half := by
  rw [isSome_section?]
  simp only [StorageSettings.fields, Fields.defaulted, Fields.All, codecs, isSome_number,
    StorageSettings.words, List.forall_mem_cons, true_and, and_assoc]
  simp

theorem isSome_stream (name : String) {s : StreamSettings} :
    (section? name (StreamSettings.fields codecs) s).isSome ↔
      ∀ n ∈ s.words, n.toNat < Word.half := by
  rw [isSome_section?]
  simp only [StreamSettings.fields, Fields.defaulted, Fields.All, codecs, isSome_number,
    StreamSettings.words, List.forall_mem_cons, true_and, and_assoc]
  simp

theorem isSome_metrics (name : String) (s : MetricsSettings) :
    (section? name (MetricsSettings.fields codecs) s).isSome :=
  isSome_section?.2 ⟨⟨trivial, rfl⟩, rfl⟩

end Shown

/-- Settings have a document if no number in them needs more than 63 bits. -/
theorem Settings.isSome_toToml? {s : Settings} :
    s.toToml?.isSome ↔ ∀ n ∈ s.words, n.toNat < Word.half := by
  obtain ⟨server, hserver⟩ := Option.isSome_iff_exists.1 (Shown.isSome_server "server" s.server)
  obtain ⟨metrics, hmetrics⟩ :=
    Option.isSome_iff_exists.1 (Shown.isSome_metrics "metrics" s.metrics)
  rw [Settings.words, List.forall_mem_append, ← Shown.isSome_storage "storage",
    ← Shown.isSome_stream "stream", Settings.toToml?, Option.isSome_map,
    Settings.sections?, hserver, hmetrics]
  cases Shown.section? "storage" (StorageSettings.fields Shown.codecs) s.storage with
  | none => simp
  | some storage =>
    cases Shown.section? "stream" (StreamSettings.fields Shown.codecs) s.stream <;> simp

namespace CommandLine

/-! ## Showing settings -/

variable {s : Surroundings} {path out err : String} {settings : Settings}

/-- The end of a command that has settings without a document. -/
def tooLarge : Outcome := .exit 1 heading "Error: out-of-range value for u64 type\n"

theorem showSettings_of_ok (hload : load s path = .ok settings) :
    showSettings s path = match settings.toToml? with
      | some text => .exit 0 (heading ++ text ++ "\n") ""
      | none => tooLarge := by
  rw [showSettings, hload]
  rfl

/-- Settings are shown exactly if they load and none of their numbers needs the last of its 64 bits,
whatever characters their texts have. If they load and one of them does, the command ends with an
error after the heading. -/
theorem shows_iff {args : List String} (hargs : parseArguments args = .run .showSettings path) :
    ((∃ out err, perform s args = .exit 0 out err) ↔
      ∃ settings, load s path = .ok settings ∧ ∀ n ∈ settings.words, n.toNat < Word.half) ∧
    ∀ settings, load s path = .ok settings → (∃ n ∈ settings.words, Word.half ≤ n.toNat) →
      perform s args = tooLarge := by
  have hperform : perform s args = showSettings s path := by simp only [perform, hargs]
  rw [hperform]
  refine ⟨⟨?_, ?_⟩, ?_⟩
  · rintro ⟨out, err, h⟩
    obtain ⟨settings, text, hload, htext, -⟩ := showSettings_eq_exit_iff.1 h
    exact ⟨settings, hload, Settings.isSome_toToml?.1 (Option.isSome_of_eq_some htext)⟩
  · rintro ⟨settings, hload, hwords⟩
    obtain ⟨text, htext⟩ := Option.isSome_iff_exists.1 (Settings.isSome_toToml?.2 hwords)
    exact ⟨_, _, showSettings_eq_exit_iff.2 ⟨settings, text, hload, htext, rfl, rfl⟩⟩
  · rintro settings hload ⟨n, hn, hlarge⟩
    have hnone : settings.toToml? = none := by
      rw [← Option.not_isSome_iff_eq_none, Settings.isSome_toToml?]
      exact fun h => Nat.not_lt.2 hlarge (h n hn)
    rw [showSettings_of_ok hload, hnone]

/-- A file that sets the largest limit that a query may ask for, to the number that a text
spells. -/
def limited (limit : String) : Surroundings where
  directory := ⟨[("config.toml", "[storage]\nmax_query_limit = \"" ++ limit ++ "\"\n")]⟩
  vars := []

/-- The settings that are in effect there. -/
def limitedSettings (limit : UInt64) : Settings where
  storage := { maxLimit := limit }

theorem loads_limited :
    load (limited "9223372036854775807") "config.toml" =
        .ok (limitedSettings 9223372036854775807) ∧
      load (limited "9223372036854775808") "config.toml" =
        .ok (limitedSettings 9223372036854775808) := by
  have hloads : (load (limited "9223372036854775807") "config.toml").toOption =
        some (limitedSettings 9223372036854775807) ∧
      (load (limited "9223372036854775808") "config.toml").toOption =
        some (limitedSettings 9223372036854775808) := by decide +kernel
  exact hloads.imp eq_ok_of_toOption eq_ok_of_toOption

theorem parse_config_show :
    parseArguments ["config", "show"] = .run .showSettings "config.toml" := by decide

/-- The largest limit that is shown, and what becomes of the next one. -/
theorem largest_limit_shown :
    (∃ out err, perform (limited "9223372036854775807") ["config", "show"] = .exit 0 out err) ∧
      perform (limited "9223372036854775808") ["config", "show"] = tooLarge := by
  have hfits : (limitedSettings 9223372036854775807).words.all (·.toNat < Word.half) := by decide
  have hlarge : 9223372036854775808 ∈ (limitedSettings 9223372036854775808).words := by decide
  exact ⟨(shows_iff parse_config_show).1.2 ⟨_, loads_limited.1, by simpa using hfits⟩,
    (shows_iff parse_config_show).2 _ loads_limited.2 ⟨_, hlarge, by decide⟩⟩

/-- Settings with the next limit load, pass the check, and are not shown. -/
theorem loaded_limit_not_shown :
    load (limited "9223372036854775808") "config.toml" =
        .ok (limitedSettings 9223372036854775808) ∧
      ∀ out err, perform (limited "9223372036854775808") ["config", "show"] ≠ .exit 0 out err := by
  refine ⟨loads_limited.2, fun out err h => ?_⟩
  have hshow : showSettings (limited "9223372036854775808") "config.toml" = .exit 0 out err := by
    rw [← h]
    simp only [perform, parse_config_show]
  obtain ⟨settings, text, hload, htext, -⟩ := showSettings_eq_exit_iff.1 hshow
  cases loads_limited.2.symm.trans hload
  have hfits := Settings.isSome_toToml?.1 (Option.isSome_of_eq_some htext)
  exact absurd (hfits 9223372036854775808 (by decide)) (by decide)

end CommandLine

end SignalHub
