import SignalHub.Proofs.Twins
/-!
# The names of services

Each archive has a roster of the services that sent it records. A service is entered by its first
record and stays when its records are gone. So the roster of an archive names exactly the services
of all records that it ever accepted, and the hub names those of all three, without repetition and
in ascending order, in whatever order they came.

Results:
* `Hub.roster`: the services that an archive names.
* `Hub.Enrols`: a roster is exact.
* `Ascending.eq_of_mem_iff`: ascending lists with the same names are the same.
* `Deed.Idle`: deeds that accept nothing.
* `Scene.rosters_exact`: all rosters, after any deeds.
-/
namespace SignalHub

open Text (precedes)

/-! ## Ascending names -/

/-- Names in ascending order, which are distinct. -/
def Ascending (names : List String) : Prop := names.Pairwise fun a b => precedes a b

namespace Ascending

variable {a b : List String}

theorem nodup (h : Ascending a) : a.Nodup := by
  refine List.Pairwise.imp (fun hlt heq => ?_) h
  rw [heq, Text.not_precedes_self] at hlt
  cases hlt

/-- Which names there are decides how they are listed. -/
theorem eq_of_mem_iff (ha : Ascending a) (hb : Ascending b) (h : ∀ name, name ∈ a ↔ name ∈ b) :
    a = b := by
  have hperm : a.Perm b := (List.perm_ext_iff_of_nodup ha.nodup hb.nodup).2 h
  refine hperm.eq_of_pairwise (fun s t _ _ hlt hgt => ?_) ha hb
  have hself := Text.precedes_trans hlt hgt
  rw [Text.not_precedes_self] at hself
  cases hself

end Ascending

theorem Archive.ascending_add {α : Type} {a : Archive α} (h : Ascending a.services)
    (service : String) (x : α) : Ascending (a.add service x).services := by
  simp only [add]
  split
  · exact h
  · exact pairwise_insertName h

namespace Hub

variable {h h' : Hub} {rs : List Record} {s : Signal} {name : String}

/-- The services that the archive of a signal names. -/
def roster (h : Hub) : Signal → List String
  | .traces => h.spans.services
  | .logs => h.logs.services
  | .metrics => h.metrics.services

theorem knows_iff (h : Hub) (s : Signal) (name : String) : h.knows s name ↔ name ∈ h.roster s := by
  cases s <;> exact decide_eq_true_iff

theorem Agree.roster_eq (ha : h.Agree h') (s : Signal) : h'.roster s = h.roster s := by
  cases s
  · exact congrArg Archive.services ha.spans
  · exact congrArg Archive.services ha.logs
  · exact congrArg Archive.services ha.metrics

theorem ascending_store (hh : ∀ s, Ascending (h.roster s)) (r : Record) (s : Signal) :
    Ascending ((h.store r).roster s) := by
  cases r with
  | span x =>
    cases s with
    | traces => exact Archive.ascending_add (hh .traces) x.service x
    | logs => exact hh .logs
    | metrics => exact hh .metrics
  | log x =>
    cases s with
    | traces => exact hh .traces
    | logs => exact Archive.ascending_add (hh .logs) x.service x
    | metrics => exact hh .metrics
  | metric x =>
    cases s with
    | traces => exact hh .traces
    | logs => exact hh .logs
    | metrics => exact Archive.ascending_add (hh .metrics) x.service x

theorem ascending_recordAll (hh : ∀ s, Ascending (h.roster s)) (rs : List Record) (s : Signal) :
    Ascending ((h.recordAll rs).roster s) := by
  induction rs generalizing h with
  | nil => exact hh s
  | cons r rs ih =>
    refine ih fun s => ?_
    rw [(h.agree_record r).roster_eq]
    exact ascending_store hh r s

/-- The archive of a signal names exactly the services of the records that it accepted, whether it
retains them or not, and finds them by their names. -/
structure Enrols (h : Hub) (rs : List Record) (s : Signal) : Prop where
  ascending : Ascending (h.roster s)
  mem_iff : ∀ name, name ∈ h.roster s ↔ ∃ r ∈ rs, r.signal = s ∧ r.service = name
  knows_iff : ∀ name, h.knows s name ↔ name ∈ h.roster s
  retained : ∀ r ∈ h.retained s, r.service ∈ h.roster s

theorem mem_servicesOf : name ∈ Record.servicesOf s rs ↔
    ∃ r ∈ rs, r.signal = s ∧ r.service = name := by
  simp [Record.servicesOf, Record.ofSignal, and_assoc]

theorem Remembers.enrols {storage : StorageSettings} (hr : h.Remembers storage rs)
    (hh : Ascending (h.roster s)) : h.Enrols rs s where
  ascending := hh
  mem_iff name := by rw [← h.knows_iff, hr.indexes, mem_servicesOf]
  knows_iff := h.knows_iff s
  retained r hr' := (h.knows_iff s _).1 (hr.holds.knows_retained hr.indexes hr')

/-- The hub names what its archives name. -/
theorem mem_services (h : Hub) (name : String) : name ∈ h.services ↔ ∃ s, name ∈ h.roster s := by
  rw [services, mem_mergeNames, mem_mergeNames, or_assoc]
  constructor
  · rintro (hs | hs | hs)
    · exact ⟨.traces, hs⟩
    · exact ⟨.logs, hs⟩
    · exact ⟨.metrics, hs⟩
  · rintro ⟨s, hs⟩
    cases s
    · exact .inl hs
    · exact .inr (.inl hs)
    · exact .inr (.inr hs)

theorem ascending_services (hh : Ascending (h.roster .traces)) : Ascending h.services :=
  pairwise_mergeNames (pairwise_mergeNames hh)

end Hub

/-! ## Deeds -/

/-- Deeds that accept nothing: what only asks, what looks for news, and batches that are refused. -/
inductive Deed.Idle (s : Scene) : Deed → Prop
  | query (about : Option Signal) (f : Filter) : Idle s (.act (.query about f))
  | trace (value : List UInt8) : Idle s (.act (.trace value))
  | poll (id : Nat) : Idle s (.act (.event (.poll id)))
  | turn (id : Nat) : Idle s (.act (.event (.turn id)))
  | refused (signal : Signal) (receivedAt : UInt64) (r : Http.Request)
      (hstatus : (Http.handle receivedAt s.world.site r []
        (Http.intakeEndpoint signal)).1.status ≠ 202) :
      Idle s (.act (.post signal receivedAt r))

theorem Deed.Idle.accepts_eq {s : Scene} {d : Deed} (hd : d.Idle s) : d.accepts = [] := by
  cases hd with
  | query | trace | poll | turn => rfl
  | refused signal receivedAt r hstatus =>
    obtain ⟨answer, after, hhandle, hintake⟩ :=
      Http.intake_handle signal receivedAt s.world.site r []
    rw [hhandle] at hstatus
    exact hintake.kept_eq_nil hstatus

/-- The path at which the services of a hub are asked for. -/
def Http.servicesPath : String := "/api/v1/services"

theorem Http.serve_services {m : MetricsSettings} {router : Router} {r : Request}
    (hrouter : Router.make m = .ok router) (hmethod : r.method = .get)
    (hpath : r.target.path = Text.bytes servicesPath) (receivedAt : UInt64) (site : Site) :
    serve router receivedAt site r = (.json 200 (servicesJson site.hub), site) := by
  have hroute : (⟨Router.literal servicesPath, [(.read, .services)]⟩ : Route) ∈ Router.base := by
    decide
  exact serve_literal hrouter hroute rfl rfl hpath (by simp [hmethod]) (by rw [hmethod]; rfl)
    receivedAt site

namespace Scene

theorem ascending_run (storage : StorageSettings) (stream : StreamSettings) (ds : List Deed)
    (s : Signal) : Ascending (((start storage stream).run ds).hub.roster s) := by
  rw [(twin_start storage stream ds).roster_eq]
  refine Hub.ascending_recordAll (fun s => ?_) _ s
  cases s <;> exact List.Pairwise.nil

/-- The services that are named after deeds are those of the records that they accepted. -/
theorem mem_services_run (storage : StorageSettings) (stream : StreamSettings) (ds : List Deed)
    (name : String) : name ∈ ((start storage stream).run ds).hub.services ↔
      ∃ r ∈ ds.flatMap Deed.accepts, r.service = name := by
  have henrols := fun s => (remembers_start storage stream ds).enrols
    (ascending_run storage stream ds s)
  rw [Hub.mem_services]
  simp only [(henrols _).mem_iff]
  constructor
  · rintro ⟨s, r, hr, -, hname⟩
    exact ⟨r, hr, hname⟩
  · rintro ⟨r, hr, hname⟩
    exact ⟨r.signal, r, hr, rfl, hname⟩

/-- After any deeds, every archive names exactly the services of all records that it ever accepted,
among them those of all it retains. The hub names what its archives name, each service once and in
ascending order, so that only the services that sent records decide about the list, and not when
they did. What asks, looks for news or is refused changes no roster. And a request for the services
is answered with the list and its length. -/
theorem rosters_exact (storage : StorageSettings) (stream : StreamSettings) (ds : List Deed) :
    let s := (start storage stream).run ds
    let accepted := ds.flatMap Deed.accepts
    let names := s.hub.services
    (∀ signal, s.hub.Enrols accepted signal) ∧
    (Ascending names ∧ names.Nodup ∧ ∀ name, name ∈ names ↔ ∃ signal, name ∈ s.hub.roster signal) ∧
    (∀ storage' stream' ds', (∀ name, (∃ r ∈ accepted, r.service = name) ↔
        ∃ r ∈ ds'.flatMap Deed.accepts, r.service = name) →
      ((start storage' stream').run ds').hub.services = names) ∧
    (∀ d : Deed, d.Idle s → ∀ signal, (s.step d).hub.roster signal = s.hub.roster signal) ∧
    ∀ m router receivedAt r, Http.Router.make m = .ok router → r.method = .get →
      r.target.path = Text.bytes Http.servicesPath →
      Http.serve router receivedAt s.world.site r =
        (.json 200 (.obj [("total", .nat names.length), ("services", .arr (names.map .str))]),
          s.world.site) := by
  intro s accepted names
  have hascending := ascending_run storage stream ds
  have hnames : Ascending names := Hub.ascending_services (hascending .traces)
  refine ⟨fun signal => (remembers_start storage stream ds).enrols (hascending signal),
    ⟨hnames, hnames.nodup, s.hub.mem_services⟩, fun storage' stream' ds' hsame => ?_,
    fun d hd signal => ?_, fun m router receivedAt r hrouter hmethod hpath => ?_⟩
  · have hascending' := ascending_run storage' stream' ds' .traces
    refine (Hub.ascending_services hascending').eq_of_mem_iff hnames fun name => ?_
    rw [mem_services_run, mem_services_run]
    exact (hsame name).symm
  · have htwin := s.twin_step d
    rw [hd.accepts_eq] at htwin
    exact htwin.roster_eq signal
  · exact Http.serve_services hrouter hmethod hpath receivedAt s.world.site

/-- A line of the log of a service. -/
def lineOf (service : String) : Record := .log ⟨1, service, "INFO", "x", none, none, .empty⟩

/-- Where only one line is retained, and another service's line comes after that of `b`, the service
`b` is still named, where it belongs. -/
theorem evicted_service_named :
    let ds := ["b", "a"].map fun service => Deed.act (.event (.record (lineOf service)))
    let s := (start { logCapacity := 1 } {}).run ds
    let r : Http.Request := ⟨.get, ⟨Text.bytes Http.servicesPath, []⟩, none, .empty⟩
    s.hub.services = ["a", "b"] ∧ s.hub.retained .logs = [lineOf "a"] ∧
    s.hub.Enrols [lineOf "b", lineOf "a"] .logs ∧
    ((start {} {}).run ds.reverse).hub.services = s.hub.services ∧
    (s.step (.act (.trace []))).hub.roster .logs = s.hub.roster .logs ∧
    Http.serve Http.Router.base 9 s.world.site r =
      (.json 200 (.obj [("total", .nat s.hub.services.length),
        ("services", .arr (s.hub.services.map .str))]), s.world.site) := by
  intro ds s r
  obtain ⟨henrols, -, hsame, hidle, hserved⟩ := rosters_exact { logCapacity := 1 } {} ds
  refine ⟨by decide +kernel, rfl, henrols .logs, hsame {} {} ds.reverse fun name => ?_,
    hidle _ (.trace []) .logs, hserved { enabled := false } _ 9 r rfl rfl rfl⟩
  simp [ds, Deed.accepts, Act.accepts, Event.accepts, or_comm]

end Scene

end SignalHub
