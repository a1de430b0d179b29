import Mathlib.Data.List.Perm.Basic
import Mathlib.Data.Set.List
import SignalHub.Filter
import SignalHub.Settings.Exchange
import SignalHub.Proofs.Rewording
/-!
# The exchange formats read back

Spans, log entries, records that wrap one of them, filters and settings are read back from their
texts, and from the texts of all other ways to write them. The tag of a record may stand before its
content or after it, where the content has been set aside by then, or both in a list.

Results:
* `Attributes.ofEntries_of_perm`: attributes are what their entries are, in any order.
* `decode_taggedForms`: the three forms of a tagged value.
* `Span.lawful_codec`, `LogEntry.lawful_codec`, `Filter.lawful_codec`, `Settings.lawful_codec`: the
  formats.
* `reads_reworded`: all texts that stand for a value are read as the value.
-/
namespace SignalHub

open Json Json.Codec

/-! ## Attributes -/

namespace Attributes

variable {a : Attributes} {entries : List (String × String)}

/-- A new entry is added. -/
theorem perm_place {name value : String} (h : name ∉ entries.map (·.1)) :
    (place name value entries).Perm ((name, value) :: entries) := by
  induction entries with
  | nil => exact .refl _
  | cons e rest ih =>
    obtain ⟨k, v⟩ := e
    have hne : name ≠ k := fun heq => h (heq ▸ List.mem_cons_self)
    have hrest := ih fun hmem => h (List.mem_cons_of_mem _ hmem)
    rw [place, if_neg hne]
    split
    · exact .refl _
    · exact (hrest.cons _).trans (.swap ..)

/-- Entries of new names are added. -/
theorem perm_foldl_insert (h : ((entries ++ a.entries).map (·.1)).Nodup) :
    (entries.foldl (fun a e => a.insert e.1 e.2) a).entries.Perm (entries ++ a.entries) := by
  induction entries generalizing a with
  | nil => exact .refl _
  | cons e entries ih =>
    have hnew : e.1 ∉ a.entries.map (·.1) := fun hmem => by
      rw [List.cons_append, List.map_cons, List.nodup_cons, List.map_append] at h
      exact h.1 (List.mem_append_right _ hmem)
    have hmoved : (entries ++ (a.insert e.1 e.2).entries).Perm (e :: entries ++ a.entries) :=
      ((perm_place hnew).append_left entries).trans List.perm_middle
    exact (ih ((hmoved.map _).nodup_iff.2 h)).trans hmoved

theorem nodup_names (a : Attributes) : (a.entries.map (·.1)).Nodup :=
  List.pairwise_map.2 (a.sorted.imp fun hlt heq => by
    rw [heq, Text.not_precedes_self] at hlt
    cases hlt)

/-- Attributes are determined by what their entries are. -/
theorem ext_of_perm {a b : Attributes} (h : a.entries.Perm b.entries) : a = b := by
  have hentries : a.entries = b.entries := by
    refine h.eq_of_pairwise (fun e e' _ _ hlt hgt => ?_) a.sorted b.sorted
    have hself := Text.precedes_trans hlt hgt
    rw [Text.not_precedes_self] at hself
    cases hself
  cases a
  cases b
  cases hentries
  rfl

/-- Attributes are put together from their entries in any order. -/
theorem ofEntries_of_perm (h : entries.Perm a.entries) : ofEntries entries = a := by
  have hnodup : ((entries ++ empty.entries).map (·.1)).Nodup := by
    rw [show empty.entries = [] from rfl, List.append_nil]
    exact (h.map _).nodup_iff.2 a.nodup_names
  have hperm := perm_foldl_insert hnodup
  rw [show empty.entries = [] from rfl, List.append_nil] at hperm
  exact ext_of_perm (hperm.trans h)

/-- An entry as a member. -/
def member (e : String × String) : String × Json := (e.1, .str e.2)

theorem member_injective : Function.Injective member := by
  rintro ⟨k, v⟩ ⟨k', v'⟩ h
  cases h
  rfl

theorem nodup_members (a : Attributes) : ((a.entries.map member).map (·.1)).Nodup := by
  rw [List.map_map]
  exact a.nodup_names

theorem decodeEntries_members (src : Source) (entries : List (String × String)) :
    decodeEntries src (Node.ofMembers (entries.map member)) = .ok entries := by
  induction entries with
  | nil => rfl
  | cons e entries ih =>
    exact bind_eq_ok (a := e.1) rfl (bind_eq_ok (a := e.2) rfl (bind_eq_ok ih rfl))

/-- Where nothing has a default the members of an object stand all there, in some order. -/
theorem exists_perm_of_written {written : List (String × Json)}
    (h : Written (.obj []) (a.entries.map member) written) :
    ∃ entries : List (String × String),
      entries.Perm a.entries ∧ written = entries.map member := by
  have hmem (m : String × Json) (hm : m ∈ written) : m ∈ a.entries.map member := by
    obtain ⟨m', hm', hname⟩ := List.mem_map.1 (h.names m hm)
    obtain ⟨e, he, rfl⟩ := List.mem_map.1 hm'
    have hvalue := (h.values m hm (.str e.2) (hname ▸ hm')).eq_of_not_obj nofun
    rwa [show m = member e from Prod.ext hname.symm hvalue]
  have hleft (m : String × Json) (hm : m ∈ a.entries.map member) : m ∈ written := by
    by_cases hname : m.1 ∈ written.map (·.1)
    · obtain ⟨m', hm', hname⟩ := List.mem_map.1 hname
      rwa [← List.inj_on_of_nodup_map a.nodup_members (hmem m' hm') hm hname]
    · cases h.left m hm hname
  obtain ⟨entries, rfl⟩ := (Set.range_list_map member).ge fun m hm =>
    (List.mem_map.1 (hmem m hm)).imp fun _ he => he.2
  refine ⟨entries, (List.map_perm_map_iff member_injective).1 ?_, rfl⟩
  exact (List.perm_ext_iff_of_nodup (.of_map _ h.nodup) (.of_map _ a.nodup_members)).2 fun m =>
    ⟨hmem m, hleft m⟩

theorem lawful_codec : codec.Lawful 1 (.obj []) where
  plain a := .obj fun m hm => by
    obtain ⟨e, -, rfl⟩ := List.mem_map.1 hm
    exact .str
  reads a src j hj := by
    obtain ⟨written, rfl, hwritten⟩ := hj.exists_written a.nodup_members
    obtain ⟨entries, hperm, rfl⟩ := exists_perm_of_written hwritten
    refine bind_eq_ok (decodeEntries_members src entries) (bind_eq_ok (a := ()) rfl ?_)
    rw [ofEntries_of_perm hperm]
    rfl

end Attributes

/-! ## Tagged values -/

namespace Json.Codec

variable {α : Type} {tag content name : String} {alternatives : List (Alternative α)}
  {read : Source → Node → Decoded α} {a : α} {j : Json} {src : Source}

/-- The forms of a tagged value: the tag first, the content first, and both in a list. -/
def taggedForms (tag content name : String) (j : Json) : List Json :=
  [.obj [(tag, .str name), (content, j)], .obj [(content, j), (tag, .str name)],
    .arr [.str name, j]]

theorem nextMember_tag (n : Node) (rest : List (Node × Node)) :
    nextMember tag content ((.str (Node.usable tag), n) :: rest) = .ok (some (true, n, rest)) :=
  bind_eq_ok (a := tag) rfl (by rw [if_pos rfl]; rfl)

theorem nextMember_content (hne : content ≠ tag) (n : Node) (rest : List (Node × Node)) :
    nextMember tag content ((.str (Node.usable content), n) :: rest) =
      .ok (some (false, n, rest)) :=
  bind_eq_ok (a := content) rfl (by rw [if_neg hne, if_pos rfl]; rfl)

theorem inside_ok {s : Step} {r : Decoded α} (h : r = .ok a) : inside s r = .ok a := by
  rw [h]
  rfl

/-- Each form of a tagged value is read, if the content is by the rule of the alternative. -/
theorem decode_taggedForms {label : String} {encode : α → String × Json} (hne : content ≠ tag)
    (hplain : Plain (Node.maxDepth - 1) j) (hread : alternatives.lookup name = some read)
    (hdecode : ∀ src, read src (Node.ofJson j) = .ok a) :
    ∀ j' ∈ taggedForms tag content name j,
      (tagged label tag content alternatives encode).decode src (Node.ofJson j') = .ok a := by
  have hvariant : variant alternatives name = .ok read := by rw [variant, hread]
  have hchoice : decodeChoice alternatives src (.str (Node.usable name)) = .ok read :=
    (decodeChoice_str alternatives src name).trans hvariant
  have hkept : orFault ((Node.ofJson j).settle (Node.maxDepth - 1)) = .ok j := by
    rw [settle_ofJson hplain]
    rfl
  intro j' hj'
  simp only [taggedForms, List.mem_cons, List.not_mem_nil, or_false] at hj'
  rcases hj' with rfl | rfl | rfl
  · refine bind_eq_ok (nextMember_tag _ _) (bind_eq_ok (inside_ok hchoice) ?_)
    exact bind_eq_ok (nextMember_content hne _ _) (bind_eq_ok (inside_ok (hdecode src)) rfl)
  -- The content comes first, so it is read from what was kept of it.
  · refine bind_eq_ok (nextMember_content hne _ _) (bind_eq_ok hkept ?_)
    refine bind_eq_ok (nextMember_tag _ _) (bind_eq_ok (inside_ok hchoice) ?_)
    exact bind_eq_ok (hdecode .kept) rfl
  · exact bind_eq_ok (inside_ok hvariant) (bind_eq_ok (inside_ok (hdecode src)) rfl)

/-- Each form of a tagged value is nested one deeper than the content. -/
theorem plain_taggedForms {depth : Nat} (hj : Plain depth j) :
    ∀ j' ∈ taggedForms tag content name j, Plain (depth + 1) j' := by
  intro j' hj'
  simp only [taggedForms, List.mem_cons, List.not_mem_nil, or_false] at hj'
  rcases hj' with rfl | rfl | rfl
  · refine .obj fun m hm => ?_
    simp only [List.mem_cons, List.not_mem_nil, or_false] at hm
    rcases hm with rfl | rfl
    · exact .str
    · exact hj
  · refine .obj fun m hm => ?_
    simp only [List.mem_cons, List.not_mem_nil, or_false] at hm
    rcases hm with rfl | rfl
    · exact hj
    · exact .str
  · refine .arr fun i hi => ?_
    simp only [List.mem_cons, List.not_mem_nil, or_false] at hi
    rcases hi with rfl | rfl
    · exact .str
    · exact hj

end Json.Codec

/-! ## The formats -/

theorem SpanStatus.lawful_codec {depth : Nat} {defaults : Json} :
    SpanStatus.codec.Lawful depth defaults :=
  lawful_choice fun status => by cases status <;> decide

theorem Signal.lawful_codec {depth : Nat} {defaults : Json} :
    Signal.codec.Lawful depth defaults :=
  lawful_choice fun signal => by cases signal <;> decide

/-- Texts that may be null. -/
theorem lawful_optional_text {depth : Nat} {defaults : Json} :
    (option text).Lawful depth defaults :=
  lawful_option lawful_text nofun

theorem Span.lawful_codec : Span.codec.Lawful 2 (defaultsOf Span.fields) := by
  refine lawful_struct ?_ (by decide) Span.rebuild_fields
  exact ⟨⟨⟨⟨⟨⟨⟨⟨⟨⟨trivial, lawful_text⟩, lawful_text⟩, lawful_optional_text⟩, lawful_text⟩,
    lawful_text⟩, lawful_word _⟩, lawful_word _⟩, SpanStatus.lawful_codec⟩, lawful_optional_text⟩,
    Attributes.lawful_codec⟩

theorem LogEntry.lawful_codec : LogEntry.codec.Lawful 2 (defaultsOf LogEntry.fields) := by
  refine lawful_struct ?_ (by decide) LogEntry.rebuild_fields
  exact ⟨⟨⟨⟨⟨⟨⟨trivial, lawful_word _⟩, lawful_text⟩, lawful_text⟩, lawful_text⟩,
    lawful_optional_text⟩, lawful_optional_text⟩, Attributes.lawful_codec⟩

theorem Filter.lawful_codec : Filter.codec.Lawful 1 (defaultsOf Filter.fields) := by
  refine lawful_struct ?_ (by decide) Filter.rebuild_fields
  exact ⟨⟨⟨⟨⟨⟨⟨⟨⟨trivial, lawful_option Signal.lawful_codec nofun⟩, lawful_optional_text⟩,
    lawful_optional_text⟩, lawful_optional_text⟩, lawful_optional_text⟩, lawful_optional_text⟩,
    lawful_optional_text⟩, lawful_bool⟩, lawful_option lawful_int64 nofun⟩

theorem lawful_server :
    (struct "struct ServerConfig" (ServerSettings.fields settingCodecs)).Lawful 1
      (defaultsOf (ServerSettings.fields settingCodecs)) := by
  refine lawful_struct ?_ (by decide) fun _ => rfl
  exact ⟨⟨⟨⟨trivial, lawful_text⟩, lawful_word16⟩, lawful_text⟩, lawful_text⟩

theorem StorageSettings.lawful_codec : StorageSettings.codec.Lawful 1
    (defaultsOf (StorageSettings.fields settingCodecs)) := by
  refine lawful_struct ?_ (by decide) fun _ => rfl
  exact ⟨⟨⟨⟨⟨⟨trivial, lawful_word _⟩, lawful_word _⟩, lawful_word _⟩, lawful_word _⟩,
    lawful_word _⟩, lawful_word _⟩

theorem StreamSettings.lawful_codec : StreamSettings.codec.Lawful 1
    (defaultsOf (StreamSettings.fields settingCodecs)) := by
  refine lawful_struct ?_ (by decide) fun _ => rfl
  exact ⟨⟨⟨⟨trivial, lawful_word _⟩, lawful_word _⟩, lawful_word _⟩, lawful_word _⟩

theorem MetricsSettings.lawful_codec : MetricsSettings.codec.Lawful 1
    (defaultsOf (MetricsSettings.fields settingCodecs)) := by
  refine lawful_struct ?_ (by decide) fun _ => rfl
  exact ⟨⟨trivial, lawful_bool⟩, lawful_text⟩

/-- The declared fields of settings in JSON. -/
def Settings.jsonFields : Fields Codec Settings Settings :=
  Settings.fields settingCodecs fun label fs => struct label fs

/-- Each section of the defaults is what is written of the default section. -/
theorem Settings.lawful_codec : Settings.codec.Lawful 2 (defaultsOf Settings.jsonFields) := by
  refine lawful_struct ?_ (by decide) fun _ => rfl
  exact ⟨⟨⟨⟨trivial, lawful_server⟩, StorageSettings.lawful_codec⟩, StreamSettings.lawful_codec⟩,
    MetricsSettings.lawful_codec⟩

/-! ## Records -/

/-- What may be left out of the content of a record. -/
def Record.defaults : Record → Json
  | .span _ => defaultsOf Span.fields
  | .log _ => defaultsOf LogEntry.fields
  | .metric _ => defaultsOf MetricPoint.fields

/-- The forms of a record that is no metric point are read, whichever way its content is written. -/
theorem Record.reads_taggedForms {r : Record} (hr : r.signal ≠ .metrics) {content : Json}
    (h : Reworded r.defaults r.parts.2 content) :
    ∀ j ∈ taggedForms "kind" "record" r.parts.1 content, Record.codec.Reads r j := by
  intro j hj
  cases r with
  | span s =>
    have hplain : Plain 2 content := h.plain (Span.lawful_codec.plain s)
    refine reads_of_decode (plain_taggedForms hplain j hj).transcribed
      (decode_taggedForms (by decide) (hplain.mono (by decide)) rfl (fun src => ?_) j hj)
    exact congrArg (Except.map Record.span) (Span.lawful_codec.reads s src content h)
  | log l =>
    have hplain : Plain 2 content := h.plain (LogEntry.lawful_codec.plain l)
    refine reads_of_decode (plain_taggedForms hplain j hj).transcribed
      (decode_taggedForms (by decide) (hplain.mono (by decide)) rfl (fun src => ?_) j hj)
    exact congrArg (Except.map Record.log) (LogEntry.lawful_codec.reads l src content h)
  | metric p => exact absurd rfl hr

/-! ## All formats -/

/-- Spans, log entries, records that wrap one of them, filters and settings are read from the text
that is written of them, and from that of every other way to write them. -/
theorem reads_reworded :
    (∀ (s : Span) (j : Json), Reworded (defaultsOf Span.fields) (Span.codec.encode s) j →
      Span.codec.Reads s j) ∧
    (∀ (l : LogEntry) (j : Json),
      Reworded (defaultsOf LogEntry.fields) (LogEntry.codec.encode l) j →
      LogEntry.codec.Reads l j) ∧
    (∀ (r : Record) (content : Json), r.signal ≠ .metrics →
      Reworded r.defaults r.parts.2 content →
      ∀ j ∈ taggedForms "kind" "record" r.parts.1 content, Record.codec.Reads r j) ∧
    (∀ (f : Filter) (j : Json), Reworded (defaultsOf Filter.fields) (Filter.codec.encode f) j →
      Filter.codec.Reads f j) ∧
    (∀ (s : Settings) (j : Json),
      Reworded (defaultsOf Settings.jsonFields) (Settings.codec.encode s) j →
      Settings.codec.Reads s j) := by
  refine ⟨?_, ?_, ?_, ?_, ?_⟩
  · exact fun s j h => Span.lawful_codec.reads_text h
  · exact fun l j h => LogEntry.lawful_codec.reads_text h
  · exact fun r content hr h => Record.reads_taggedForms hr h
  · exact fun f j h => Filter.lawful_codec.reads_text h
  · exact fun s j h => Settings.lawful_codec.reads_text h

/-- A log entry whose texts need escapes. -/
def escapedEntry : LogEntry where
  timestamp := 0
  service := "café"
  severity := "WARN"
  body := "say \"no\"\n\u0001"
  traceId := none
  spanId := some ""
  attributes := Attributes.ofEntries [("b", "2"), ("a", "1")]

/-- The same entry without what has its default, in another order throughout. -/
def reorderedEntry : Json :=
  .obj [("attributes", .obj [("b", .str "2"), ("a", .str "1")]), ("span_id", .str ""),
    ("body", .str escapedEntry.body), ("severity", .str "WARN"),
    ("service_name", .str escapedEntry.service)]

theorem reworded_escapedEntry :
    Reworded (defaultsOf LogEntry.fields) (LogEntry.codec.encode escapedEntry) reorderedEntry := by
  have hattributes : Reworded (.obj []) (.obj [("a", .str "1"), ("b", .str "2")])
      (.obj [("b", .str "2"), ("a", .str "1")]) := by
    refine reworded_of_lookup (by decide) (by decide) ?_ ?_
    · simp only [List.forall_mem_cons]
      exact ⟨⟨_, rfl, .refl⟩, ⟨_, rfl, .refl⟩, nofun⟩
    · simp only [List.forall_mem_cons]
      exact ⟨.inl (by decide), .inl (by decide), nofun⟩
  show Reworded _ (.obj [("timestamp_unix_nano", Json.nat 0),
    ("service_name", .str escapedEntry.service), ("severity", .str "WARN"),
    ("body", .str escapedEntry.body), ("trace_id", .null), ("span_id", .str ""),
    ("attributes", .obj [("a", .str "1"), ("b", .str "2")])]) _
  refine reworded_of_lookup (by decide) (by decide) ?_ ?_
  · simp only [List.forall_mem_cons]
    exact ⟨⟨_, rfl, hattributes⟩, ⟨_, rfl, .refl⟩, ⟨_, rfl, .refl⟩, ⟨_, rfl, .refl⟩,
      ⟨_, rfl, .refl⟩, nofun⟩
  · simp only [List.forall_mem_cons]
    exact ⟨.inr rfl, .inl (by decide), .inl (by decide), .inl (by decide), .inr rfl,
      .inl (by decide), .inl (by decide), nofun⟩

theorem reads_of_reordered : (Record.log escapedEntry).signal ≠ .metrics ∧
    Reworded (Record.log escapedEntry).defaults (Record.log escapedEntry).parts.2 reorderedEntry ∧
    Record.codec.Reads (.log escapedEntry)
      (.obj [("record", reorderedEntry), ("kind", .str "log")]) :=
  ⟨by decide, reworded_escapedEntry, reads_reworded.2.2.1 (.log escapedEntry) reorderedEntry
    (by decide) reworded_escapedEntry _ (List.mem_cons_of_mem _ List.mem_cons_self)⟩

end SignalHub
