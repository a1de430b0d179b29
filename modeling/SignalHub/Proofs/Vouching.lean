import SignalHub.Proofs.Conversions
import SignalHub.Proofs.Serving
/-!
# What a check vouches for

A check asks whether the file is there, and then loads settings, for which only a file of a known
format counts. So of a file whose name ends in the extension of a format a check says that it is
well-formed and that the settings are what the file says, but for what variables say. A file of any
other name has to be there and is not read: the check comes to the same whatever it holds.

Results:
* `Json.Sets`: a file says once what a setting is.
* `Environment.Overrides`: a variable may change a setting.
* `takes_of_sets`: a setting is what the file says.
* `CommandLine.vouches_of_checked`: what the success of a check says of a file.
* `CommandLine.unread_files_checked`: what it does not say.
-/
namespace SignalHub

/-! ## What files and variables say -/

/-- Whether a place may lie in a section, or is the section. -/
def Place.MayLieIn (sec : String) (p : Place) : Prop :=
  match p.path, p.last with
  | [], .name k => Text.lower k = sec
  | .name k :: _, _ => k = sec
  | _, _ => True

/-- What holds a table for a section, and nothing else that may lie in the section, and in that
table one value for a setting, says that the setting is this value. -/
inductive Json.Sets (sec key : String) (v : Json) : Json → Prop
  | intro (before after inner inner' : List (String × Json)) {name name' : String}
    (hsec : Text.lower name = sec) (hkey : Text.lower name' = key)
    (hother : ∀ m ∈ before ++ after, ¬ (Place.parse m.1).MayLieIn sec)
    (hinner : ∀ m ∈ inner ++ inner', Text.lower m.1 ≠ key) :
    Sets sec key v (.obj (before ++ (name, .obj (inner ++ (name', v) :: inner')) :: after))

/-- A variable may change a setting. -/
def Environment.Overrides (sec key : String) (var : String × String) : Prop :=
  ∃ e, readVariable var.1 var.2 = some e ∧
    Layer.Touches sec key (.parse e.1) (.scalar e.2 (some .environment))

instance (sec key : String) (var : String × String) :
    Decidable (Environment.Overrides sec key var) :=
  decidable_of_iff (∃ e ∈ (Environment.readVariable var.1 var.2).toList,
    Layer.Touches sec key (.parse e.1) (.scalar e.2 (some .environment)))
    (by simp [Environment.Overrides])

/-- The names of the sections. -/
def sectionNames : List String := ["server", "storage", "stream", "metrics"]

variable {sec key name : String} {v : Json} {origin : Origin}

theorem Layer.mayLieIn_of_touches {p : Place} {g : Given} (h : Touches sec key p g) :
    p.MayLieIn sec := by
  obtain ⟨path, last⟩ := p
  match path, last with
  | [], .name k => exact h.1
  | [], .index i => trivial
  | [.name k], .name k' => exact h.1
  | [.name k], .index i => exact h
  | .name k :: .name k' :: _, _ => exact h.1
  | .name k :: .index i :: _, _ => exact h
  | .index i :: _, _ => trivial

/-- The name of a section stands for the section. -/
theorem Place.parse_section (hsec : sec ∈ sectionNames) (hname : Text.lower name = sec) :
    Place.parse name = ⟨[], .name sec⟩ ∧ Text.lower sec = sec := by
  rw [Place.parse, hname]
  clear hname
  revert sec
  decide

theorem Given.ofMembers_eq_map (ms : List (String × Json)) :
    Given.ofMembers origin ms = ms.map fun m => (m.1, Given.ofJson origin m.2) := by
  induction ms with
  | nil => rfl
  | cons m ms ih =>
    obtain ⟨k, j⟩ := m
    rw [Given.ofMembers, ih]
    rfl

/-- Members laid over a table make a table. -/
theorem Layer.overlayMembers_table (members members' : List (String × Given))
    (origin : Option Origin) : ∃ merged origin',
      overlayMembers (.table members origin) members' = .table merged origin' := by
  induction members' generalizing members origin with
  | nil => exact ⟨members, origin, rfl⟩
  | cons m rest ih =>
    obtain ⟨k, g⟩ := m
    rw [overlayMembers]
    exact ih _ _

/-- What a file says of a setting is in its layer. -/
theorem Layer.at?_putAll?_of_sets {j : Json} {members layer : List (String × Given)} {g : Given}
    (hsets : Json.Sets sec key v j) (hsec : sec ∈ sectionNames)
    (hj : Given.ofJson origin j = .table members (some origin))
    (hlayer : ∀ e ∈ layer, ¬ Touches sec key (.parse e.1) e.2)
    (hput : putAll? (.table [] none) (members ++ layer) = some g) :
    at? sec key g = some (overlay (.table [] none) (.ofJson origin v)) := by
  obtain ⟨before, after, inner, inner', hname, hkey, hother, hinner⟩ := hsets
  rename_i name name'
  have hofMembers (ms : List (String × Json)) (h : ∀ m ∈ ms, ¬ (Place.parse m.1).MayLieIn sec) :
      ∀ e ∈ Given.ofMembers origin ms, ¬ Touches sec key (.parse e.1) e.2 := by
    intro e he htouches
    rw [Given.ofMembers_eq_map] at he
    obtain ⟨m, hm, rfl⟩ := List.mem_map.1 he
    exact h m hm (mayLieIn_of_touches htouches)
  have hkeys (ms : List (String × Json)) (h : ∀ m ∈ ms, Text.lower m.1 ≠ key) :
      ∀ e ∈ Given.ofMembers origin ms, Text.lower e.1 ≠ key := by
    intro e he
    rw [Given.ofMembers_eq_map] at he
    obtain ⟨m, hm, rfl⟩ := List.mem_map.1 he
    exact h m hm
  obtain ⟨hparse, hlower⟩ := Place.parse_section hsec hname
  have hmembers : members = Given.ofMembers origin before ++
      (name, .table (Given.ofMembers origin inner ++ (name', .ofJson origin v) ::
        Given.ofMembers origin inner') (some origin)) :: Given.ofMembers origin after := by
    simp only [Given.ofJson, Given.ofMembers_eq_map, List.map_append, List.map_cons] at hj ⊢
    cases hj
    rfl
  -- The layers go on one after another; only the member of the section touches the setting.
  rw [hmembers, List.append_assoc] at hput
  obtain ⟨g₁, hbefore, hput⟩ := putAll?_append hput
  rw [List.cons_append] at hput
  obtain ⟨g₂, hsection, hput⟩ := putAll?_cons hput
  rw [hparse] at hsection
  obtain ⟨g₃, hafter, hput⟩ := putAll?_append hput
  rw [at?_putAll? hput hlayer, at?_putAll? hafter (hofMembers after fun m hm =>
      hother m (List.mem_append_right _ hm)),
    at?_putAt?_section hsection hlower hkey
      (hkeys inner fun m hm => hinner m (List.mem_append_left _ hm))
      (hkeys inner' fun m hm => hinner m (List.mem_append_right _ hm)),
    at?_putAll? hbefore (hofMembers before fun m hm => hother m (List.mem_append_left _ hm))]
  rfl

/-! ## Settings that are loaded -/

variable {d : Directory} {vars : List (String × String)} {path : String} {settings : Settings}

/-- The layer of a file is the table that the file holds. -/
theorem fileLayer_eq_ok {f : SettingsFile} {members : List (String × Given)}
    (h : fileLayer (some f) = .ok members) :
    ∃ j, f.read = some j ∧
      Given.ofJson (.file f.path) j = .table members (some (.file f.path)) := by
  rw [fileLayer] at h
  cases hread : f.read with
  | none =>
    rw [hread] at h
    cases h
  | some j =>
    rw [hread] at h
    cases j with
    | obj ms =>
      cases h
      exact ⟨.obj ms, rfl, rfl⟩
    | null => cases h
    | bool b => cases h
    | num n => cases h
    | str t => cases h
    | arr items => cases h

/-- Settings that are loaded are read from the layers of the file and of the variables. -/
theorem loadSettings_eq_ok (h : loadSettings d vars path = .ok settings) :
    ∃ members g, fileLayer (locate d path) = .ok members ∧
      Layer.putAll? (.table [] none) (members ++ Environment.layer vars) = some g ∧
      Settings.ofLoose g = .ok settings := by
  simp only [loadSettings, loadLayers, bind, Except.bind, pure, Except.pure] at h
  split at h
  · cases h
  · rename_i g hlayers
    split at hlayers
    · cases hlayers
    · rename_i members hfile
      split at hlayers
      · rename_i g' hput
        cases hlayers
        refine ⟨members, g, hfile, hput, ?_⟩
        split at h
        · cases h
        · rename_i settings' hread
          split at h
          · cases h
          · cases h
            cases hloose : Settings.ofLoose g with
            | ok settings' =>
              rw [hloose] at hread
              cases hread
              rfl
            | error e =>
              rw [hloose] at hread
              cases hread
      · cases hlayers

theorem Environment.not_touches_of_not_overrides
    (h : ∀ var ∈ vars, ¬ Environment.Overrides sec key var) :
    ∀ e ∈ Environment.layer vars, ¬ Layer.Touches sec key (.parse e.1) e.2 := by
  intro e he htouches
  obtain ⟨var, hvar, hread⟩ := List.mem_filterMap.1 he
  obtain ⟨e', he', rfl⟩ := Option.map_eq_some_iff.1 hread
  exact h var hvar ⟨e', he', htouches⟩

/-- A value laid over nothing is what a setting takes, or it is a table and no setting at all. -/
theorem Settings.takes_of_takes_overlay
    (h : settings.Takes sec key (Layer.overlay (.table [] none) (.ofJson origin v))) :
    settings.Takes sec key (.ofJson origin v) := by
  cases v with
  | obj ms =>
    obtain ⟨merged, origin', hmerged⟩ :=
      Layer.overlayMembers_table [] (Given.ofMembers origin ms) none
    rw [Given.ofJson, Layer.overlay, hmerged] at h
    exact Settings.takes_of_takes_table h _
  | null => exact h
  | bool b => exact h
  | num n => exact h
  | str t => exact h
  | arr items => exact h

/-- Only the sections have settings. -/
theorem Settings.takes_of_not_section (hsec : sec ∉ sectionNames) (g : Given) :
    settings.Takes sec key g := by
  constructor <;> rintro rfl <;> exact absurd (by decide) hsec

/-- A setting that no variable overrides is what the file says. -/
theorem takes_of_sets {f : SettingsFile} {j : Json} (hfile : locate d path = some f)
    (hload : loadSettings d vars path = .ok settings) (hread : f.read = some j)
    (hsets : Json.Sets sec key v j)
    (hvars : ∀ var ∈ vars, ¬ Environment.Overrides sec key var) :
    settings.Takes sec key (.ofJson (.file f.path) v) := by
  by_cases hsec : sec ∈ sectionNames
  · obtain ⟨members, g, hlayer, hput, hloose⟩ := loadSettings_eq_ok hload
    rw [hfile] at hlayer
    obtain ⟨j', hread', hj⟩ := fileLayer_eq_ok hlayer
    rw [hread] at hread'
    cases hread'
    have hat := Layer.at?_putAll?_of_sets hsets hsec hj
      (Environment.not_touches_of_not_overrides hvars) hput
    exact Settings.takes_of_takes_overlay (Settings.takes_of_ofLoose hloose hat)
  · exact Settings.takes_of_not_section hsec _

/-! ## Files that are there -/

/-- The last component of a path that leads anywhere. -/
def Path.fileName (path : String) : String := (Path.components path).getLastD ""

/-- A path with the components that lead anywhere. -/
def Path.normal (path : String) : String := Path.ofComponents (Path.components path)

/-- A file that is there is the settings file if its name has the extension of a format. -/
theorem locate_of_content? {content : String} (h : d.content? path = some content) :
    locate d path = (Format.ofName? (Path.fileName path)).map fun f =>
      ⟨Path.normal path, f, content⟩ := by
  rw [locate, h]
  rfl

theorem Directory.holds_of_content? {content : String} (h : d.content? path = some content) :
    d.holds path := by
  rw [Directory.content?] at h
  split at h
  · rename_i content' hwalk
    have hpath : path ≠ "" := by
      rintro rfl
      exact Directory.Spot.noConfusion hwalk
    simp [Directory.holds, hwalk, hpath]
  · cases h

namespace CommandLine

variable {s : Surroundings} {out err content : String}

/-- What the success of a check says of a file of that path and content.

If the format is known, the file is well-formed and the settings are what it says, but for what the
variables say. If it is not known, the check would have succeeded with any other content. -/
structure Vouches (s : Surroundings) (args : List String) (path content out err : String) :
    Prop where
  read : ∀ f, Format.ofName? (Path.fileName path) = some f →
    ∃ j settings, f.parse content = some j ∧ load s path = .ok settings ∧
      out = approval settings ∧
      ∀ sec key v, Json.Sets sec key v j →
        (∀ var ∈ s.vars, ¬ Environment.Overrides sec key var) →
        settings.Takes sec key (.ofJson (.file (Path.normal path)) v)
  unread : Format.ofName? (Path.fileName path) = none → ∀ d content',
    d.content? path = some content' → perform { s with directory := d } args = .exit 0 out err

/-- A check vouches for files of known formats and for no others. -/
theorem vouches_of_checked {args : List String}
    (hargs : parseArguments args = .run .checkSettings path)
    (hfile : s.directory.content? path = some content)
    (hpassed : perform s args = .exit 0 out err) : Vouches s args path content out err := by
  have hperform (s : Surroundings) : perform s args = checkSettings s path := by
    simp only [perform, hargs]
  rw [hperform] at hpassed
  obtain ⟨-, settings, hload, hout, herr⟩ := checkSettings_eq_exit_iff.1 hpassed
  constructor
  · intro f hf
    have hlocate := locate_of_content? hfile
    rw [hf] at hlocate
    obtain ⟨members, g, hlayer, -⟩ := loadSettings_eq_ok hload
    rw [hlocate] at hlayer
    obtain ⟨j, hread, -⟩ := fileLayer_eq_ok hlayer
    exact ⟨j, settings, hread, hload, hout, fun sec key v hsets hvars =>
      takes_of_sets hlocate hload hread hsets hvars⟩
  -- Of an unknown format no file is located, so what it holds is not looked at.
  · intro hf d content' hfile'
    have hlocate : locate d path = locate s.directory path := by
      rw [locate_of_content? hfile, locate_of_content? hfile', hf]
      rfl
    rw [hperform]
    refine checkSettings_eq_exit_iff.2
      ⟨Directory.holds_of_content? hfile', settings, ?_, hout, herr⟩
    rw [load, loadSettings, hlocate]
    exact hload

/-- A file that says what the port is, and a variable that says what the host is. -/
theorem port_of_file_checked :
    Vouches
      { directory := ⟨[("hub.toml", "[server]\nport = 5000\n")]⟩
        vars := [("TELEMETRY_HUB__SERVER__HOST", "::1")] }
      ["-c", "./hub.toml", "config", "validate"] "./hub.toml" "[server]\nport = 5000\n"
      (approval { server := { host := "::1", port := 5000 } }) "" :=
  vouches_of_checked (by decide) (by decide +kernel) (by decide +kernel)

/-- A file that is not well-formed and a file that says what a setting may not be pass a check if
their names are of no format, and so does a file whose port is not the port that is checked. -/
theorem unread_files_checked :
    (∀ f, Format.parse f "[server" = none) ∧
      perform (.ofFile "hub.conf" "[server") ["-c", "hub.conf", "config", "validate"] =
        .exit 0 (approval {}) "" ∧
      perform (.ofFile "hub.toml" "[storage]\nlog_capacity = 0\n")
          ["-c", "hub.toml", "config", "validate"] =
        .exit 1 "Validating configuration...\n"
          "Error: storage.log_capacity must be greater than 0\n" ∧
      perform (.ofFile "hub.conf" "[storage]\nlog_capacity = 0\n")
          ["-c", "hub.conf", "config", "validate"] = .exit 0 (approval {}) "" ∧
      perform (.ofFile "hub.conf" "[server]\nport = 5000\n")
          ["-c", "hub.conf", "config", "validate"] = .exit 0 (approval {}) "" := by
  refine ⟨fun f => ?_, by decide +kernel, by decide +kernel, by decide +kernel,
    by decide +kernel⟩
  refine Option.isNone_iff_eq_none.1 ?_
  cases f with
  | toml => decide +kernel
  | json => decide +kernel

end CommandLine

end SignalHub
