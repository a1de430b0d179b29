import SignalHub.Http.Service
import SignalHub.Proofs.Declarations
import SignalHub.Proofs.Forms
import SignalHub.Proofs.Numerals
/-!
# What query strings say

A structure that is read from a form has each of its values from the parameter of that name, or by
default. So what was written of it reads as it was, in whatever order the parameters stand and
whatever stands between them under other names. A query and a live stream name their conditions
alike, so one form says the same to both.

Results:
* `Params.ofPairs_eq_ok_iff`: what it means that a form can be read.
* `Params.ofPairs_of_perm`: what was written is read back.
* `Filter.readable_params`: every filter can be written and read.
* `Filter.Reads.unique`: a form names the conditions of a filter in one way only.
-/
namespace SignalHub

namespace Http

namespace Params

variable {σ α : Type} {pairs : List (String × String)}

/-- What a form says of a parameter. -/
def value (pairs : List (String × String)) (name : String) (p : Param α) (default? : Option α) :
    Except ParamError α :=
  match pairs.lookup name, default? with
  | some s, _ => p.read s
  | none, some a => .ok a
  | none, none => .error (.problem (.missingField name))

/-- How the parameter of a name is checked, if there is one. -/
def rule (fields : Fields Param σ α) (name : String) : Option (String → Except ParamError Unit) :=
  fields.find? name fun f s => (f.codec.read s).map fun _ => ()

/-- A form can be read if all its pairs pass and each field gets a value. -/
theorem ofPairs_eq_ok_iff {fields : Fields Param σ α} {a : α} :
    ofPairs fields pairs = .ok a ↔ check (rule fields) [] pairs = .ok () ∧
      fields.build (fun _ f => value pairs f.name f.codec f.default?) = .ok a := by
  have hsteps : ofPairs fields pairs = (check (rule fields) [] pairs).bind fun _ =>
      fields.build (fun _ f => value pairs f.name f.codec f.default?) := rfl
  rw [hsteps]
  cases check (rule fields) [] pairs with
  | error e => simp [Except.bind]
  | ok => simp [Except.bind]

/-! ### What was written -/

theorem lookup_eq_of_filter {name : String} :
    pairs.lookup name = ((pairs.filter (·.1 = name)).head?).map (·.2) := by
  induction pairs with
  | nil => rfl
  | cons p pairs ih =>
    rw [List.lookup_cons]
    by_cases hp : p.1 = name
    · rw [List.filter_cons_of_pos (by simpa using hp), hp, beq_self_eq_true]
      rfl
    · rw [List.filter_cons_of_neg (by simpa using hp), ← ih,
        beq_eq_false_iff_ne.2 (Ne.symm hp)]

/-- Each known name stands there once, with a value that passes, or not at all. -/
theorem check_eq_ok {rule : String → Option (String → Except ParamError Unit)} {seen : List String}
    (hseen : ∀ name ∈ seen, pairs.filter (·.1 = name) = [])
    (hknown : ∀ name read, rule name = some read → pairs.filter (·.1 = name) = [] ∨
      ∃ v, pairs.filter (·.1 = name) = [(name, v)] ∧ read v = .ok ()) :
    check rule seen pairs = .ok () := by
  induction pairs generalizing seen with
  | nil => rfl
  | cons p pairs ih =>
    obtain ⟨k, v⟩ := p
    have hself : ((k, v) :: pairs).filter (·.1 = k) = (k, v) :: pairs.filter (·.1 = k) :=
      List.filter_cons_of_pos (by simp)
    have hother : ∀ name, k ≠ name →
        ((k, v) :: pairs).filter (·.1 = name) = pairs.filter (·.1 = name) := fun name hne =>
      List.filter_cons_of_neg (by simpa using hne)
    have hne : ∀ name ∈ seen, k ≠ name := by
      rintro name hname rfl
      rw [hseen _ hname] at hself
      cases hself
    have hseen' : ∀ name ∈ seen, pairs.filter (·.1 = name) = [] := fun name hname => by
      rw [← hother name (hne name hname)]
      exact hseen name hname
    rw [check]
    cases hrule : rule k with
    | none =>
      refine ih hseen' fun name read hread => ?_
      have hk : k ≠ name := by
        rintro rfl
        rw [hrule] at hread
        cases hread
      rw [← hother name hk]
      exact hknown name read hread
    | some read =>
      obtain hnone | ⟨v', hone, hpass⟩ := hknown k read hrule
      · rw [hnone] at hself
        cases hself
      · rw [hone] at hself
        obtain ⟨hv, hrest⟩ := List.cons.inj hself
        cases hv
        simp only [if_neg fun h => hne k h rfl, hpass, bind, Except.bind]
        refine ih (fun name hname => ?_) fun name read' hread => ?_
        · rcases List.mem_cons.1 hname with rfl | hname
          · exact hrest.symm
          · exact hseen' name hname
        · by_cases hk : k = name
          · subst hk
            exact .inl hrest.symm
          · rw [← hother name hk]
            exact hknown name read' hread

/-- What is written of a field is read as its value, and what is not written is so by default. -/
def Readable (s : σ) (f : Field Param σ α) : Prop :=
  match f.codec.write (f.get s) with
  | some v => f.codec.read v = .ok (f.get s)
  | none => f.default? = some (f.get s)

/-- The pairs have what is written of a field under its name, and nothing else. -/
def Says (s : σ) (pairs : List (String × String)) (f : Field Param σ α) : Prop :=
  pairs.filter (·.1 = f.name) = ((f.codec.write (f.get s)).map (f.name, ·)).toList

variable {fields : Fields Param σ α} {s : σ}

theorem value_of_says {f : Field Param σ α} (hread : Readable s f) (hsaid : Says s pairs f) :
    value pairs f.name f.codec f.default? = .ok (f.get s) := by
  rw [Says] at hsaid
  rw [Readable] at hread
  simp only [value, lookup_eq_of_filter, hsaid]
  cases hwrite : f.codec.write (f.get s) with
  | some v =>
    rw [hwrite] at hread
    exact hread
  | none =>
    rw [hwrite] at hread
    simp only [Option.map_none, Option.toList_none, List.head?_nil, hread]

theorem ofPairs_of_says (hread : fields.All (Readable s)) (hsaid : fields.All (Says s pairs)) :
    ofPairs fields pairs = .ok (fields.rebuild s) := by
  have hboth := hread.and hsaid
  refine ofPairs_eq_ok_iff.2 ⟨check_eq_ok (fun _ h => absurd h List.not_mem_nil) ?_,
    Fields.build_of_all (hboth.imp fun f hf => value_of_says hf.1 hf.2)⟩
  intro name read hrule
  obtain ⟨β, f, ⟨hread, hsaid⟩, rfl, rfl⟩ := hboth.of_find? hrule
  rw [Says] at hsaid
  rw [Readable] at hread
  cases hwrite : f.codec.write (f.get s) with
  | none =>
    rw [hwrite] at hsaid
    exact .inl hsaid
  | some v =>
    rw [hwrite] at hsaid hread
    refine .inr ⟨v, hsaid, ?_⟩
    simp only [hread, Except.map]

theorem toPairs_more {β : Type} (init : Fields Param σ (α → β)) (last : Field Param σ α) :
    toPairs (.more init last) s =
      toPairs init s ++ ((last.codec.write (last.get s)).map (last.name, ·)).toList := by
  rw [toPairs, Fields.mapList, List.filterMap_append, ← toPairs]
  cases last.codec.write (last.get s) <;> rfl

theorem name_mem_of_toPairs {p : String × String} (hp : p ∈ toPairs fields s) :
    p.1 ∈ fields.names := by
  induction fields with
  | done a => cases hp
  | more init last ih =>
    rw [toPairs_more, List.mem_append] at hp
    rcases hp with hp | hp
    · exact List.mem_append_left _ (ih hp)
    · obtain ⟨v, -, rfl⟩ := Option.map_eq_some_iff.1 (Option.mem_toList.1 hp)
      exact List.mem_append_right _ (List.mem_singleton_self last.name)

theorem filter_eq_nil_of_names {name : String} (hname : ∀ p ∈ pairs, p.1 ≠ name) :
    pairs.filter (·.1 = name) = [] :=
  List.filter_eq_nil_iff.2 fun p hp => by simpa using hname p hp

/-- What is written says of each field what it is. -/
theorem says_toPairs (hnames : fields.names.Nodup) : fields.All (Says s (toPairs fields s)) := by
  induction fields with
  | done a => trivial
  | more init last ih =>
    obtain ⟨hinit, -, hlast⟩ := List.nodup_append.1 hnames
    have hnew : ∀ name ∈ init.names, name ≠ last.name := fun name hname =>
      hlast name hname last.name (List.mem_singleton_self _)
    refine ⟨((ih hinit).and init.all_mem_names).imp fun f hf => ?_, ?_⟩
    · show (toPairs (.more init last) s).filter (·.1 = f.name) = _
      rw [toPairs_more, List.filter_append, hf.1, filter_eq_nil_of_names, List.append_nil]
      intro p hp
      obtain ⟨v, -, rfl⟩ := Option.map_eq_some_iff.1 (Option.mem_toList.1 hp)
      exact (hnew f.name hf.2).symm
    · show (toPairs (.more init last) s).filter (·.1 = last.name) = _
      rw [toPairs_more, List.filter_append, filter_eq_nil_of_names fun p hp =>
        hnew p.1 (name_mem_of_toPairs hp), List.nil_append]
      cases last.codec.write (last.get s) <;> simp

/-- The order does not matter, nor what stands under other names. -/
theorem says_of_perm {extra : List (String × String)} (hnames : fields.names.Nodup)
    (hpairs : pairs.Perm (toPairs fields s ++ extra)) (hextra : ∀ p ∈ extra, p.1 ∉ fields.names) :
    fields.All (Says s pairs) := by
  refine ((says_toPairs (s := s) hnames).and fields.all_mem_names).imp fun f hf => ?_
  have hunknown : extra.filter (·.1 = f.name) = [] :=
    filter_eq_nil_of_names fun p hp he => hextra p hp (he ▸ hf.2)
  have hperm := hpairs.filter (·.1 = f.name)
  rw [List.filter_append, hunknown, List.append_nil, hf.1] at hperm
  rw [Says]
  cases hwrite : f.codec.write (f.get s) with
  | none =>
    rw [hwrite] at hperm
    exact List.perm_nil.1 hperm
  | some v =>
    rw [hwrite] at hperm
    exact List.perm_singleton.1 hperm

/-- What was written of a structure reads as that structure. -/
theorem ofPairs_of_perm {extra : List (String × String)} (hread : fields.All (Readable s))
    (hnames : fields.names.Nodup) (hpairs : pairs.Perm (toPairs fields s ++ extra))
    (hextra : ∀ p ∈ extra, p.1 ∉ fields.names) : ofPairs fields pairs = .ok (fields.rebuild s) :=
  ofPairs_of_says hread (says_of_perm hnames hpairs hextra)

end Params

namespace Param

variable {α : Type}

/-- What is written is read as it was, and everything can be written. -/
def Lawful (p : Param α) : Prop := ∀ a, ∃ v, p.write a = some v ∧ p.read v = .ok a

theorem lawful_text : text.Lawful := fun s => ⟨s, rfl, rfl⟩

theorem lawful_bool : bool.Lawful := fun b => by cases b <;> exact ⟨_, rfl, rfl⟩

theorem lawful_int64 : int64.Lawful := by
  intro i
  have hlow : -(Word.half : Int) ≤ i.toInt := i.le_toInt
  have hhigh : i.toInt ≤ ((Word.half - 1 : Nat) : Int) := Int.le_of_lt_add_one i.toInt_lt
  refine ⟨toString i.toInt, rfl, ?_⟩
  simp only [int64, Text.readSigned_toString hlow hhigh, Except.map, Except.mapError,
    Int64.ofInt_toInt]

theorem lawful_choice {alternatives : List (String × α)} {name : α → String}
    (h : ∀ a, alternatives.lookup (name a) = some a) : (choice alternatives name).Lawful := by
  intro a
  refine ⟨name a, rfl, ?_⟩
  simp only [choice, h a]

variable {σ : Type} {p : Param α}

theorem Lawful.readable (hp : p.Lawful) (name : String) (default? : Option α) (get : σ → α)
    (s : σ) : Params.Readable s ⟨name, p, default?, get⟩ := by
  obtain ⟨v, hwrite, hread⟩ := hp (get s)
  simp only [Params.Readable, hwrite, hread]

/-- What is left out is left out by default. -/
theorem Lawful.readable_option (hp : p.Lawful) (name : String) (get : σ → Option α) (s : σ) :
    Params.Readable s ⟨name, option p, some none, get⟩ := by
  simp only [Params.Readable, option]
  cases get s with
  | none => rfl
  | some a =>
    obtain ⟨v, hwrite, hread⟩ := hp a
    simp only [Option.bind_some, hwrite, hread, Except.map]

end Param

end Http

open Http Params

/-! ## Filters -/

theorem Filter.nodup_params : Filter.params.names.Nodup := by decide

/-- Every filter can be written as a form and read back. -/
theorem Filter.readable_params (f : Filter) : Filter.params.All (Readable f) := by
  have hsignal : (Param.choice Signal.all Signal.label).Lawful :=
    Param.lawful_choice fun s => by cases s <;> rfl
  have htext := Param.lawful_text
  exact ⟨⟨⟨⟨⟨⟨⟨⟨⟨trivial, hsignal.readable_option _ _ f⟩, htext.readable_option _ _ f⟩,
    htext.readable_option _ _ f⟩, htext.readable_option _ _ f⟩, htext.readable_option _ _ f⟩,
    htext.readable_option _ _ f⟩, htext.readable_option _ _ f⟩,
    Param.lawful_bool.readable _ _ _ f⟩, Param.lawful_int64.readable_option _ _ f⟩

/-- A form names these conditions. -/
structure Filter.Reads (pairs : List (String × String)) (f : Filter) : Prop where
  signal : value pairs "kind" (.option (.choice Signal.all Signal.label)) (some none) =
    .ok f.signal
  service : value pairs "service" (.option .text) (some none) = .ok f.service
  severity : value pairs "severity" (.option .text) (some none) = .ok f.severity
  spanName : value pairs "span_name" (.option .text) (some none) = .ok f.spanName
  traceId : value pairs "trace_id" (.option .text) (some none) = .ok f.traceId
  spanStatus : value pairs "span_status" (.option .text) (some none) = .ok f.spanStatus
  metricName : value pairs "metric_name" (.option .text) (some none) = .ok f.metricName
  errorsOnly : value pairs "errors_only" .bool (some false) = .ok f.errorsOnly

namespace Filter

variable {pairs : List (String × String)} {f g : Filter}

/-- A filter that is read from a form has the conditions that the form names. -/
theorem reads_of_ofPairs (hf : ofPairs params pairs = .ok f) : f.Reads pairs := by
  have hbuild := (ofPairs_eq_ok_iff.1 hf).2
  simp only [params, Fields.defaulted, Fields.build_more_ok] at hbuild
  obtain ⟨_, limit, ⟨_, errorsOnly, ⟨_, metricName, ⟨_, spanStatus, ⟨_, traceId, ⟨_, spanName,
    ⟨_, severity, ⟨_, service, ⟨_, signal, hmk, hsignal, rfl⟩, hservice, rfl⟩, hseverity, rfl⟩,
    hspanName, rfl⟩, htraceId, rfl⟩, hspanStatus, rfl⟩, hmetricName, rfl⟩, herrorsOnly, rfl⟩,
    hlimit, rfl⟩ := hbuild
  cases hmk
  exact ⟨hsignal, hservice, hseverity, hspanName, htraceId, hspanStatus, hmetricName, herrorsOnly⟩

/-- So has the filter of a live stream. -/
theorem reads_of_live {r : LiveRequest} (hr : ofPairs LiveRequest.params pairs = .ok r) :
    r.filter.Reads pairs := by
  have hbuild := (ofPairs_eq_ok_iff.1 hr).2
  simp only [LiveRequest.params, Fields.defaulted, Fields.build_more_ok] at hbuild
  obtain ⟨_, paused, ⟨_, backfill, ⟨_, errorsOnly, ⟨_, metricName, ⟨_, spanStatus, ⟨_, traceId,
    ⟨_, spanName, ⟨_, severity, ⟨_, service, ⟨_, signal, hmk, hsignal, rfl⟩, hservice, rfl⟩,
    hseverity, rfl⟩, hspanName, rfl⟩, htraceId, rfl⟩, hspanStatus, rfl⟩, hmetricName, rfl⟩,
    herrorsOnly, rfl⟩, hbackfill, rfl⟩, hpaused, rfl⟩ := hbuild
  cases hmk
  exact ⟨hsignal, hservice, hseverity, hspanName, htraceId, hspanStatus, hmetricName, herrorsOnly⟩

/-- The conditions of a form are what they are, whatever limit goes with them. -/
theorem Reads.unique (hf : f.Reads pairs) (hg : g.Reads pairs) :
    { f with limit := none } = { g with limit := none } := by
  rw [mk.injEq]
  exact ⟨Except.ok.inj (hf.signal.symm.trans hg.signal),
    Except.ok.inj (hf.service.symm.trans hg.service),
    Except.ok.inj (hf.severity.symm.trans hg.severity),
    Except.ok.inj (hf.spanName.symm.trans hg.spanName),
    Except.ok.inj (hf.traceId.symm.trans hg.traceId),
    Except.ok.inj (hf.spanStatus.symm.trans hg.spanStatus),
    Except.ok.inj (hf.metricName.symm.trans hg.metricName),
    Except.ok.inj (hf.errorsOnly.symm.trans hg.errorsOnly), rfl⟩

end Filter

end SignalHub
