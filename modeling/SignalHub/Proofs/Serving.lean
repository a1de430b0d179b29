import Mathlib.Data.List.TakeWhile
import SignalHub.CommandLine.Session
import SignalHub.Proofs.Declarations
/-!
# Settings that are checked and then served

A check and a hub load the same settings. What passes the check has all that a hub needs but three
things, which are only looked at when the hub starts: memory for the archives, routes that the
metrics endpoint fits in, and an address to listen at. A host is an address only if it is spelled by
hexadecimal digits, points and colons, so the name of a machine, which is checked as it is, mostly
is none.

Results:
* `Address.spelled_of_parse?`: what an address is spelled by.
* `Memory.exists_reserve_eq_ok_iff`: which memory is enough for the archives.
* `CommandLine.checkSettings_eq_exit_iff`: when a check finds nothing wrong.
* `CommandLine.serves_iff_of_checked`: which settings are served after that.
* `CommandLine.checked_name_not_served`: settings that are not.
-/
namespace SignalHub

namespace Net.Address

/-! ## What addresses are spelled by -/

/-- Whether a character may stand in an address. -/
def MaySpell (c : Char) : Prop := (digit? c).isSome ∨ c = '.' ∨ c = ':'

instance (c : Char) : Decidable (MaySpell c) := inferInstanceAs (Decidable (_ ∨ _))

/-- What has been read from the front is spelled as an address is. -/
def Reads (cs rest : List Char) : Prop := ∃ front, cs = front ++ rest ∧ ∀ c ∈ front, MaySpell c

variable {cs rest rest' : List Char}

theorem Reads.refl (cs : List Char) : Reads cs cs := ⟨[], rfl, by simp⟩

theorem Reads.trans (h : Reads cs rest) (h' : Reads rest rest') : Reads cs rest' := by
  obtain ⟨front, rfl, hfront⟩ := h
  obtain ⟨more, rfl, hmore⟩ := h'
  refine ⟨front ++ more, (List.append_assoc ..).symm, fun c hc => ?_⟩
  rcases List.mem_append.1 hc with hc | hc
  · exact hfront c hc
  · exact hmore c hc

theorem reads_cons {c : Char} (hc : MaySpell c) (rest : List Char) : Reads (c :: rest) rest :=
  ⟨[c], rfl, by simpa using hc⟩

theorem reads_takeDigits (base : Nat) (cs : List Char) : Reads cs (takeDigits base cs).2 := by
  refine ⟨_, (List.takeWhile_append_dropWhile ..).symm, fun c hc => .inl ?_⟩
  have hdigit := List.mem_takeWhile_imp hc
  cases hd : digit? c with
  | none => rw [hd] at hdigit; cases hdigit
  | some d => rfl

theorem reads_of_readByte {b : UInt8} (h : readByte cs = some (b, rest)) : Reads cs rest := by
  simp only [readByte] at h
  split at h
  · cases h
  · cases h
    exact reads_takeDigits 10 cs

theorem reads_of_moreBytes {n : Nat} {bs : List UInt8} (h : moreBytes n cs = some (bs, rest)) :
    Reads cs rest := by
  induction n generalizing cs bs with
  | zero =>
    cases h
    exact .refl _
  | succ n ih =>
    rw [moreBytes.eq_def] at h
    split at h
    · cases ‹n + 1 = 0›
    · rename_i m rest₀ hn
      cases hn
      obtain ⟨⟨b, rest₁⟩, hb, h⟩ := Option.bind_eq_some_iff.1 h
      obtain ⟨⟨bs', rest₂⟩, hbs, h⟩ := Option.bind_eq_some_iff.1 h
      cases h
      exact (reads_cons (by decide) rest₀).trans ((reads_of_readByte hb).trans (ih hbs))
    · cases h

theorem reads_of_readBytes {bs : List UInt8} (h : readBytes cs = some (bs, rest)) :
    Reads cs rest := by
  obtain ⟨⟨b, rest₁⟩, hb, h⟩ := Option.bind_eq_some_iff.1 h
  obtain ⟨⟨bs', rest₂⟩, hbs, h⟩ := Option.bind_eq_some_iff.1 h
  cases h
  exact (reads_of_readByte hb).trans (reads_of_moreBytes hbs)

theorem reads_of_readGroup {g : UInt16} (h : readGroup cs = some (g, rest)) : Reads cs rest := by
  simp only [readGroup] at h
  split at h
  · cases h
  · cases h
    exact reads_takeDigits 16 cs

theorem reads_of_afterColon {isFirst : Bool} (h : afterColon isFirst cs = some rest) :
    Reads cs rest := by
  cases isFirst with
  | true =>
    cases h
    exact .refl _
  | false =>
    simp only [afterColon, Bool.false_eq_true, if_false] at h
    split at h
    · cases h
      exact reads_cons (by decide) rest
    · cases h

theorem reads_readGroups (isFirst : Bool) (limit : Nat) (cs : List Char) :
    Reads cs (readGroups isFirst limit cs).2.2 := by
  induction limit generalizing isFirst cs with
  | zero => exact .refl cs
  | succ limit ih =>
    rw [readGroups]
    split
    · exact .refl cs
    · rename_i rest hcolon
      have hrest := reads_of_afterColon hcolon
      split
      · rename_i bs rest' hbytes
        split at hbytes
        · cases hbytes
        · exact hrest.trans (reads_of_readBytes hbytes)
      · split
        · exact .refl cs
        · rename_i g rest' hgroup
          exact (hrest.trans (reads_of_readGroup hgroup)).trans (ih false rest')

theorem reads_of_readV6 {gs : List UInt16} (h : readV6 cs = some (gs, rest)) : Reads cs rest := by
  have hfront := reads_readGroups true 8 cs
  simp only [readV6] at h
  split at h
  · cases h
    exact hfront
  · split at h
    · cases h
    · split at h
      · rename_i rest' hcolons
        cases h
        rw [hcolons] at hfront
        have htwo := (reads_cons (c := ':') (by decide) (':' :: rest')).trans
          (reads_cons (by decide) rest')
        exact (hfront.trans htwo).trans (reads_readGroups true _ rest')
      · cases h

theorem mem_of_reads_nil (h : Reads cs []) : ∀ c ∈ cs, MaySpell c := by
  obtain ⟨front, rfl, hfront⟩ := h
  rwa [List.append_nil]

/-- An address is spelled by hexadecimal digits, points and colons. -/
theorem spelled_of_parse? {s : String} {a : Address} (h : parse? s = some a) :
    ∀ c ∈ s.toList, MaySpell c := by
  rw [parse?] at h
  split at h
  · rename_i bs hbytes
    exact mem_of_reads_nil (reads_of_readBytes hbytes)
  · split at h
    · rename_i gs hgroups
      exact mem_of_reads_nil (reads_of_readV6 hgroups)
    · cases h

/-- A text with another character is no address. -/
theorem parse?_eq_none {s : String} {c : Char} (hc : c ∈ s.toList) (hother : ¬ MaySpell c) :
    parse? s = none := by
  cases h : parse? s with
  | none => rfl
  | some a => exact absurd (spelled_of_parse? h c hc) hother

end Net.Address

/-! ## Memory -/

namespace Memory

variable {m : Memory} {storage : StorageSettings}

/-- There are blocks as large as the archives need, and each is given after those before it. -/
structure Suffices (m : Memory) (storage : StorageSettings) : Prop where
  room_lt : ∀ s, storage.room s < Word.half
  gives_spans : m.gives (storage.room .traces) 0
  gives_logs : m.gives (storage.room .logs) (storage.room .traces)
  gives_metrics : m.gives (storage.room .metrics) (storage.room .traces + storage.room .logs)

theorem take_eq_ok_iff {given bytes rest : Nat} : m.take given bytes = .ok rest ↔
    bytes < Word.half ∧ m.gives bytes given ∧ given + bytes = rest := by
  unfold take
  split
  · rename_i hlarge
    simp [Nat.not_lt.2 hlarge]
  · rename_i hfits
    split <;> simp_all [Nat.not_le.1 hfits]

/-- The archives of a hub are made if and only if there is the memory for them. -/
theorem exists_reserve_eq_ok_iff :
    (∃ given, m.reserve storage = .ok given) ↔ m.Suffices storage := by
  simp only [reserve, List.foldlM_cons, List.foldlM_nil, bind_eq_ok_iff, take_eq_ok_iff,
    Nat.zero_add]
  constructor
  · intro h
    obtain ⟨_, _, hspans, _, hlogs, _, hmetrics, -⟩ := h
    obtain ⟨rspans, gspans, rfl⟩ := hspans
    obtain ⟨rlogs, glogs, rfl⟩ := hlogs
    obtain ⟨rmetrics, gmetrics, rfl⟩ := hmetrics
    refine ⟨?_, gspans, glogs, gmetrics⟩
    intro s
    cases s with
    | traces => exact rspans
    | logs => exact rlogs
    | metrics => exact rmetrics
  · intro h
    exact ⟨_, _, ⟨h.room_lt .traces, h.gives_spans, rfl⟩, _, ⟨h.room_lt .logs, h.gives_logs, rfl⟩,
      _, ⟨h.room_lt .metrics, h.gives_metrics, rfl⟩, rfl⟩

theorem reserve_eq_error_of_not_suffices (h : ¬ m.Suffices storage) :
    ∃ e, m.reserve storage = .error e := by
  cases hreserve : m.reserve storage with
  | error e => exact ⟨e, rfl⟩
  | ok given => exact absurd (exists_reserve_eq_ok_iff.1 ⟨given, hreserve⟩) h

theorem not_suffices_of_room {s : Signal} (h : Word.half ≤ storage.room s) :
    ¬ m.Suffices storage :=
  fun hsuffices => Nat.not_lt.2 h (hsuffices.room_lt s)

end Memory

/-! ## Checks -/

/-- Settings that are loaded are accepted. -/
theorem validate_of_loadSettings {d : Directory} {vars : List (String × String)} {path : String}
    {settings : Settings} (h : loadSettings d vars path = .ok settings) :
    settings.validate = .ok () := by
  simp only [loadSettings, bind, Except.bind, pure, Except.pure] at h
  split at h
  · cases h
  · split at h
    · cases h
    · split at h
      · cases h
      · rename_i hvalid
        cases h
        simp only [Except.mapError] at hvalid
        split at hvalid
        · cases hvalid
        · rename_i u hok
          exact hok

namespace CommandLine

variable {s : Surroundings} {path out err : String} {settings : Settings}

/-- A directory with one file and no variables. -/
def Surroundings.ofFile (path content : String) : Surroundings where
  directory := ⟨[(path, content)]⟩
  vars := []

/-- What a check says of settings in which it finds nothing wrong. -/
def approval (settings : Settings) : String :=
  "Validating configuration...\n" ++ "✓ Configuration is valid\n\nSummary:\n" ++
    String.join ((summary settings).map fun line => "  " ++ line ++ "\n")

/-- What a hub says first. -/
def greeting : String := "Starting telemetry hub...\n"

theorem loadFailure_ne_exit_zero (e : LoadError) : loadFailure out e ≠ .exit 0 path err := by
  cases e <;> simp [loadFailure, failure]

/-- A check finds nothing wrong if the file is there and settings can be loaded. -/
theorem checkSettings_eq_exit_iff : checkSettings s path = .exit 0 out err ↔
    s.directory.holds path ∧
      ∃ settings, load s path = .ok settings ∧ out = approval settings ∧ err = "" := by
  rw [checkSettings]
  split
  · rename_i hholds
    cases load s path with
    | error e => simp only [loadFailure_ne_exit_zero, reduceCtorEq, false_and, exists_false,
        and_false]
    | ok settings =>
      constructor
      · intro h
        cases h
        exact ⟨hholds, settings, rfl, rfl, rfl⟩
      · rintro ⟨-, _, hload, rfl, rfl⟩
        cases hload
        rfl
  · rename_i hmissing
    simp [hmissing, failure]

/-- What becomes of a hub whose settings can be loaded. -/
theorem serve_of_load (hload : load s path = .ok settings) : serve s path =
    match s.memory.reserve settings.storage with
    | .error e => .exit (memoryCode e) greeting (e.message ++ "\n")
    | .ok _ =>
      match Http.Router.make settings.metrics, Net.Address.parse? settings.server.host with
      | .error _, _ => .exit 101 greeting ("Invalid route: " ++ settings.metrics.endpoint ++ "\n")
      | .ok _, none => failure greeting "invalid IP address syntax"
      | .ok router, some address => .serving settings router address greeting := by
  rw [serve, hload]
  rfl

/-- A hub without the memory for its archives ends before it looks at its host. -/
theorem serve_of_reserve_error (hload : load s path = .ok settings) {e : MemoryError}
    (hmemory : s.memory.reserve settings.storage = .error e) :
    serve s path = .exit (memoryCode e) greeting (e.message ++ "\n") := by
  rw [serve_of_load hload, hmemory]

theorem serve_eq_serving_iff (hload : load s path = .ok settings) {router : Http.Router}
    {address : Net.Address} : serve s path = .serving settings router address greeting ↔
      s.memory.Suffices settings.storage ∧ Http.Router.make settings.metrics = .ok router ∧
        Net.Address.parse? settings.server.host = some address := by
  rw [← Memory.exists_reserve_eq_ok_iff, serve_of_load hload]
  cases s.memory.reserve settings.storage with
  | error e => simp
  | ok given =>
    cases Http.Router.make settings.metrics <;> cases Net.Address.parse? settings.server.host <;>
      simp [failure]

theorem serve_eq_exit_iff (hload : load s path = .ok settings)
    (hmemory : s.memory.Suffices settings.storage) {router : Http.Router}
    (hrouter : Http.Router.make settings.metrics = .ok router) :
    (∃ code, serve s path = .exit code out err) ↔
      Net.Address.parse? settings.server.host = none ∧ out = greeting ∧
        err = "Error: invalid IP address syntax\n" := by
  obtain ⟨given, hgiven⟩ := Memory.exists_reserve_eq_ok_iff.2 hmemory
  rw [serve_of_load hload, hgiven, hrouter]
  cases Net.Address.parse? settings.server.host <;> simp [failure, eq_comm]

/-- What becomes of a command line that runs a hub with these settings is up to the memory and to
the host, where the metrics endpoint fits in. An archive for which there are no blocks is never
made, and a host is no address if a character of it may not stand in one. -/
structure MemoryAndHostDecide (s : Surroundings) (args : List String) (settings : Settings) :
    Prop where
  serving : ∀ router address, perform s args = .serving settings router address greeting ↔
    s.memory.Suffices settings.storage ∧ Http.Router.make settings.metrics = .ok router ∧
      Net.Address.parse? settings.server.host = some address
  short : ¬ s.memory.Suffices settings.storage →
    ∃ e, s.memory.reserve settings.storage = .error e ∧
      perform s args = .exit (memoryCode e) greeting (e.message ++ "\n")
  failing : s.memory.Suffices settings.storage →
    ∀ router, Http.Router.make settings.metrics = .ok router → ∀ out err,
      (∃ code, perform s args = .exit code out err) ↔
        Net.Address.parse? settings.server.host = none ∧ out = greeting ∧
          err = "Error: invalid IP address syntax\n"
  oversized : ∀ signal, Word.half ≤ settings.storage.room signal →
    ¬ s.memory.Suffices settings.storage
  unspelled : ∀ c ∈ settings.server.host.toList, ¬ Net.Address.MaySpell c →
    Net.Address.parse? settings.server.host = none

/-- Where a check finds nothing wrong, a hub loads the same settings, they are accepted, and where
the metrics endpoint fits in, the hub listens if and only if there is the memory for its archives
and its host is an address. -/
theorem serves_iff_of_checked {check run : List String}
    (hcheck : parseArguments check = .run .checkSettings path)
    (hrun : parseArguments run = .run .serve path) (hpassed : perform s check = .exit 0 out err) :
    ∃ settings, load s path = .ok settings ∧ settings.validate = .ok () ∧
      out = approval settings ∧ MemoryAndHostDecide s run settings := by
  simp only [perform, hcheck] at hpassed
  obtain ⟨-, settings, hload, rfl, -⟩ := checkSettings_eq_exit_iff.1 hpassed
  have hserve : perform s run = serve s path := by simp only [perform, hrun]
  refine ⟨settings, hload, validate_of_loadSettings hload, rfl, ?_⟩
  exact {
    serving := fun router address => by rw [hserve, serve_eq_serving_iff hload]
    short := fun hshort => by
      obtain ⟨e, he⟩ := Memory.reserve_eq_error_of_not_suffices hshort
      exact ⟨e, he, hserve.trans (serve_of_reserve_error hload he)⟩
    failing := fun hmemory router hrouter out err => by
      simp only [hserve]
      exact serve_eq_exit_iff hload hmemory hrouter
    oversized := fun signal hroom => Memory.not_suffices_of_room hroom
    unspelled := fun c hc hother => Net.Address.parse?_eq_none hc hother }

/-- Settings with an address pass a check. -/
theorem loopback_checked :
    ∃ settings, load (.ofFile "hub.toml" "[server]\nhost = '::1'\n") "hub.toml" = .ok settings ∧
      settings.validate = .ok () ∧
      approval { server := { host := "::1" } } = approval settings ∧
      MemoryAndHostDecide (.ofFile "hub.toml" "[server]\nhost = '::1'\n")
        ["serve", "--config=hub.toml"] settings :=
  serves_iff_of_checked
    (show parseArguments ["-c", "hub.toml", "config", "validate"] = _ by decide) (by decide)
    (show perform _ _ = .exit 0 (approval { server := { host := "::1" } }) "" by decide +kernel)

/-- The name of a machine passes a check and is not served. -/
theorem checked_name_not_served :
    perform (.ofFile "config.toml" "[server]\nhost = 'localhost'\n") ["config", "validate"] =
        .exit 0 (approval { server := { host := "localhost" } }) "" ∧
      perform (.ofFile "config.toml" "[server]\nhost = 'localhost'\n") ["serve"] =
        .exit 1 greeting "Error: invalid IP address syntax\n" :=
  ⟨by decide +kernel, by decide +kernel⟩

/-- A capacity for which there are no blocks passes a check too. -/
example :
    perform (.ofFile "config.toml" "[storage]\nlog_capacity = 9223372036854775807\n")
          ["config", "validate"] =
        .exit 0 (approval { storage := { logCapacity := 9223372036854775807 } }) "" ∧
      perform (.ofFile "config.toml" "[storage]\nlog_capacity = 9223372036854775807\n") ["serve"] =
        .exit 101 greeting "capacity overflow\n" :=
  ⟨by decide +kernel, by decide +kernel⟩

end CommandLine

end SignalHub
