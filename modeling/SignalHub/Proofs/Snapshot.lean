import SignalHub.Proofs.Asking
import SignalHub.Proofs.Scene
/-!
# Feeds and queries

A feed reads ranges of positions, oldest first; a query scans from the newest record back and skips
archives that cannot have a match. Both come down to the matches among what is retained. So the
first look of a feed that starts far enough back is the answer to the same query, turned round. A
live stream and a query that are asked for with one query string look for the same records.

Results:
* `Scene.remembers_run`: every hub remembers the end of what it accepted.
* `Feed.records_look_fresh`, `Hub.records_found`: what both find.
* `Hub.Remembers.snapshot`: the first poll of a feed against the answer to a query.
* `Http.Shared`: what a query and a live stream with one query string have in common.
* `feeds_agree_with_queries`: all of it, in every scene and at every site.
-/
namespace SignalHub

/-! ## Every hub -/

/-- The records that a deed accepts. -/
def Deed.accepts : Deed → List Record
  | .act a => a.accepts
  | .subscribe | .read _ | .unsubscribe _ | .release _ | .switch _ _ => []

namespace Scene

variable {s : Scene} {storage : StorageSettings} {rs : List Record}

theorem limits_unsubscribe (h : Hub) (id : Nat) : (h.unsubscribe id).limits = h.limits := by
  rw [Hub.unsubscribe]
  split <;> rfl

theorem remembers_step (hs : s.hub.Remembers storage rs) (d : Deed) :
    (s.step d).hub.Remembers storage (rs ++ d.accepts) := by
  cases d with
  | act a => exact World.remembers_act hs a
  | subscribe =>
    rw [Deed.accepts, List.append_nil]
    exact hs.agree s.hub.agree_subscribe rfl
  | read id =>
    rw [Deed.accepts, List.append_nil, step]
    split
    · exact hs
    · exact hs.agree (s.hub.agree_readPing id) rfl
  | unsubscribe id =>
    rw [Deed.accepts, List.append_nil, step]
    split
    · exact hs
    · exact hs.agree (s.hub.agree_unsubscribe id) (limits_unsubscribe s.hub id)
  | release id =>
    rw [Deed.accepts, List.append_nil, step]
    split
    · exact hs
    · exact hs.agree (s.hub.agree_discard id) (s.hub.limits_discard id)
  | switch value paused =>
    rw [Deed.accepts, List.append_nil, step, Http.answer_serveSwitch]
    split
    · exact hs
    · split <;> exact hs

/-- A hub remembers the end of what all deeds accepted. -/
theorem remembers_run (hs : s.hub.Remembers storage rs) (ds : List Deed) :
    (s.run ds).hub.Remembers storage (rs ++ ds.flatMap Deed.accepts) := by
  induction ds generalizing s rs with
  | nil => simpa [run] using hs
  | cons d ds ih =>
    have hrest := ih (remembers_step hs d)
    rwa [List.append_assoc, ← List.flatMap_cons] at hrest

theorem remembers_start (storage : StorageSettings) (stream : StreamSettings) (ds : List Deed) :
    ((start storage stream).run ds).hub.Remembers storage (ds.flatMap Deed.accepts) := by
  have hrun := remembers_run (s := start storage stream) (Hub.remembers_empty storage) ds
  rwa [List.nil_append] at hrun

end Scene

/-! ## What both find -/

theorem Filter.matchesRecord_withoutLimit (f : Filter) :
    ({ f with limit := none } : Filter).matchesRecord = f.matchesRecord := by
  funext r
  cases r <;> rfl

theorem QueryResult.size_eq_zero_iff (r : QueryResult) : r.size = 0 ↔ ∀ s, r.records s = [] := by
  simp only [size, Nat.add_eq_zero_iff, List.length_eq_zero_iff]
  constructor
  · rintro ⟨⟨hspans, hlogs⟩, hmetrics⟩ s
    cases s <;> simp [records, *]
  · intro h
    have hspans := h .traces
    have hlogs := h .logs
    have hmetrics := h .metrics
    simp only [records, List.map_eq_nil_iff] at hspans hlogs hmetrics
    exact ⟨⟨hspans, hlogs⟩, hmetrics⟩

/-- The records that are retained have the positions before the head. -/
theorem Hub.position_eq (h : Hub) (s : Signal) :
    h.position s = h.first s + (h.stats s).retained := by
  cases s <;> rfl

theorem Feed.attach_eq (h : Hub) {f : Filter} (hf : f.validate = .ok ()) (b : PerSignal Nat) :
    attach h f b = .ok (⟨h.bulletin.nextId, f, startCursor h b, false, false⟩, h.subscribe.2) := by
  rw [attach, hf]
  rfl

variable {h h' : Hub} {rs : List Record} {storage : StorageSettings}

/-- A feed that starts far enough back finds all matches among what is retained. -/
theorem Feed.records_look_fresh (hh : h.Holds rs) (ha : h.Agree h') {f : Feed} {b : PerSignal Nat}
    (hcursor : f.cursor = startCursor h b) {s : Signal} (hb : (h.stats s).retained ≤ b.get s) :
    (f.look h').records s = (h.retained s).filter f.filter.matchesRecord := by
  have hfirst : h'.first s = h.first s := by
    rw [Hub.first_eq_evicted, Hub.first_eq_evicted, ha.stats_eq]
  have hstart : f.cursor.get s ≤ h.first s := by
    have hcur : f.cursor.get s = h.position s - b.get s := by rw [hcursor]; cases s <;> rfl
    rw [hcur, h.position_eq]
    omega
  rw [records_look (ha.holds hh), hfirst, Nat.max_eq_right hstart, hh.retained_eq]

/-- A search finds the newest matches among what is retained. -/
theorem Hub.records_found (hr : h.Remembers storage rs) (f : Filter) (n : Nat) (s : Signal) :
    (h.found f n).records s = ((h.retained s).filter f.matchesRecord).reverse.take n := by
  rw [hr.holds.records_found hr.indexes, hr.holds.retained_eq_latest, List.filter_reverse]

/-- What the first poll of a feed has to do with the answer to a query. -/
structure Hub.Snapshot (h : Hub) (f : Filter) (first : Option Delta) (answer : QueryResult) :
    Prop where
  /-- The feed delivers nothing if the query finds nothing, and only then. -/
  none_iff : first = none ↔ answer.size = 0
  /-- Up to the limit that queries have by default, both are the same records in reverse order. -/
  reverse : (∀ s, ((h.retained s).filter f.matchesRecord).length ≤ h.limits.standard) →
    ∀ s, first.toList.flatMap (·.records s) = (answer.records s).reverse

/-- A feed that is attached far enough back and polled at once yields what a query without a limit
does, turned round. -/
theorem Hub.Remembers.snapshot (hr : h.Remembers storage rs) {f : Filter}
    (hf : f.validate = .ok ()) {b : PerSignal Nat} (hb : ∀ s, (h.stats s).retained ≤ b.get s) :
    ∃ feed h' answer, Feed.attach h f b = .ok (feed, h') ∧
      (h.query { f with limit := none }).1 = .ok answer ∧
      h.Snapshot f (feed.poll h').1 answer := by
  refine ⟨_, _, h.found { f with limit := none } h.limits.standard, Feed.attach_eq h hf b, rfl, ?_⟩
  have hlook : ∀ s, (Feed.look h.subscribe.2 _).records s = (h.retained s).filter f.matchesRecord :=
    fun s => Feed.records_look_fresh hr.holds h.agree_subscribe
      (f := ⟨h.bulletin.nextId, f, Feed.startCursor h b, false, false⟩) rfl (hb s)
  have hfound : ∀ s, (h.found { f with limit := none } h.limits.standard).records s =
      ((h.retained s).filter f.matchesRecord).reverse.take h.limits.standard := fun s => by
    rw [records_found hr, f.matchesRecord_withoutLimit]
  constructor
  case none_iff =>
    rw [Feed.poll_eq_none_iff_look rfl, QueryResult.size_eq_zero_iff]
    refine forall_congr' fun s => ?_
    have hpos := h.limits.standard_pos
    rw [hlook, hfound, List.take_eq_nil_iff, List.reverse_eq_nil_iff, or_iff_right hpos.ne']
  case reverse =>
    intro hfew s
    rw [Feed.records_poll rfl, hlook, hfound, List.take_of_length_le, List.reverse_reverse]
    rw [List.length_reverse]
    exact hfew s

/-! ## One query string -/

namespace Http

/-- The path at which live streams are opened. -/
def livePath : String := "/api/v1/live"

theorem status_response_ne_ok (e : ApiError) : e.response.status ≠ 200 := by
  cases e <;> simp [ApiError.response, ApiError.status, Response.json]

variable {m : MetricsSettings} {router : Router} {r : Request} {site : Site}

theorem serve_live (hrouter : Router.make m = .ok router) (hmethod : r.method = .get)
    (hpath : r.target.path = Text.bytes livePath) (receivedAt : UInt64) (site : Site) :
    serve router receivedAt site r = answer site (serveLive site r.target) := by
  have hroute : (⟨Router.literal livePath, [(.read, .live)]⟩ : Route) ∈ Router.base := by decide
  exact serve_literal hrouter hroute rfl rfl hpath (by simp [hmethod]) (by rw [hmethod]; rfl)
    receivedAt site

theorem ofPairs_of_readParams {σ : Type} {fields : Fields Param σ σ} {t : Target} {a : σ}
    (hread : readParams fields t = .ok a) :
    Params.ofPairs fields (Text.formPairs t.query) = .ok a := by
  rw [readParams, Params.read] at hread
  cases hpairs : Params.ofPairs fields (Text.formPairs t.query) with
  | error e => rw [hpairs] at hread; cases hread
  | ok b => rw [hpairs] at hread; cases hread; rfl

/-- A query that is answered has a valid filter, which was read from the query string. -/
theorem exists_filter_of_status (hrouter : Router.make m = .ok router) (hmethod : r.method = .get)
    (hpath : r.target.path = Text.bytes (queryPath none)) {receivedAt : UInt64}
    (hstatus : (serve router receivedAt site r).1.status = 200) :
    ∃ f answer, Params.ofPairs Filter.params (Text.formPairs r.target.query) = .ok f ∧
      (site.hub.query f).1 = .ok answer ∧ serve router receivedAt site r =
        (.json 200 (.obj (("total", .nat answer.size) :: answer.members)),
          site.withHub (site.hub.query f).2) := by
  rw [serve_query hrouter none hmethod hpath] at hstatus ⊢
  cases hread : readParams Filter.params r.target with
  | error e =>
    simp only [queryEndpoint, handle, serveQuery, hread] at hstatus
    exact absurd hstatus (status_response_ne_ok e)
  | ok f =>
    rw [handle_query none receivedAt site [] hread] at hstatus ⊢
    cases hquery : (site.hub.query f).1 with
    | error e =>
      rw [hquery] at hstatus
      exact absurd hstatus (status_response_ne_ok _)
    | ok answer => exact ⟨f, answer, ofPairs_of_readParams hread, hquery, rfl⟩

/-- A live stream that is opened has the filter that was read from the query string. -/
theorem exists_request_of_status (hrouter : Router.make m = .ok router) (hmethod : r.method = .get)
    (hpath : r.target.path = Text.bytes livePath) {receivedAt : UInt64}
    (hstatus : (serve router receivedAt site r).1.status = 200) :
    ∃ l, Params.ofPairs LiveRequest.params (Text.formPairs r.target.query) = .ok l ∧
      openLive site l = .ok (serve router receivedAt site r) := by
  rw [serve_live hrouter hmethod hpath] at hstatus ⊢
  cases hread : readParams LiveRequest.params r.target with
  | error e =>
    simp only [serveLive, hread, bind, Except.bind, answer] at hstatus
    exact absurd hstatus (status_response_ne_ok e)
  | ok l =>
    refine ⟨l, ofPairs_of_readParams hread, ?_⟩
    simp only [serveLive, hread, bind, Except.bind, openLive_eq, answer]

/-- What a query and a live stream that are asked for with one query string have in common. -/
structure Shared (f : Filter) (feed : Feed) (site site' : Site) (asked opened : Response × Site) :
    Prop where
  /-- The query shows what it finds with the filter. -/
  asked_eq : ∃ answer, (site.hub.query f).1 = .ok answer ∧ asked =
    (.json 200 (.obj (("total", .nat answer.size) :: answer.members)),
      site.withHub (site.hub.query f).2)
  /-- The stream runs the feed, which was attached to the hub, and perhaps paused. -/
  opened_eq : ∃ b h' paused, Feed.attach site'.hub feed.filter b = .ok (feed, h') ∧
    opened.2 = (site'.withHub h').launch { feed with paused := paused } liveCapacity
      (site'.stream.keepaliveSeconds.toNat * 1000) .listening true
  filter_eq : feed.filter = { f with limit := none }
  matches_eq : ∀ x, feed.filter.matchesRecord x = f.matchesRecord x

theorem exists_shared (hrouter : Router.make m = .ok router) {r' : Request} {site' : Site}
    {query : List UInt8} (hmethod : r.method = .get) (hmethod' : r'.method = .get)
    (htarget : r.target = ⟨Text.bytes (queryPath none), query⟩)
    (htarget' : r'.target = ⟨Text.bytes livePath, query⟩) {receivedAt receivedAt' : UInt64}
    (hstatus : (serve router receivedAt site r).1.status = 200)
    (hstatus' : (serve router receivedAt' site' r').1.status = 200) :
    ∃ f feed, Shared f feed site site' (serve router receivedAt site r)
      (serve router receivedAt' site' r') := by
  obtain ⟨f, answer, hf, hquery, hasked⟩ :=
    exists_filter_of_status hrouter hmethod (by rw [htarget]) hstatus
  obtain ⟨l, hl, hopened⟩ :=
    exists_request_of_status hrouter hmethod' (by rw [htarget']) hstatus'
  rw [htarget] at hf
  rw [htarget'] at hl
  have hfilter : l.filter = { f with limit := none } :=
    (Filter.reads_of_live hl).unique (Filter.reads_of_ofPairs hf)
  have hvalid : l.filter.validate = .ok () := rfl
  rw [openLive_eq] at hopened
  have hserved := Except.ok.inj hopened
  refine ⟨f, ⟨site'.hub.bulletin.nextId, l.filter,
    Feed.startCursor site'.hub (l.window site'.stream), false, false⟩, ⟨answer, hquery, hasked⟩,
    ⟨l.window site'.stream, _, l.paused, Feed.attach_eq site'.hub hvalid _, ?_⟩, hfilter, ?_⟩
  · rw [← hserved, LiveRequest.feed]
  · intro x
    rw [hfilter, f.matchesRecord_withoutLimit]

end Http

/-! ## All of it -/

open Http in
/-- Feeds and queries agree. In every scene, a feed with a valid filter that is attached as far back
as anything is retained and polled at once delivers what a query with the filter without its limit
finds, turned round, and nothing exactly if the query finds nothing. And a query string that is
accepted both for a query and for a live stream asks both for the same records. -/
theorem feeds_agree_with_queries :
    (∀ (storage : StorageSettings) (stream : StreamSettings) (ds : List Deed) (f : Filter)
      (b : PerSignal Nat), let h := ((Scene.start storage stream).run ds).hub
      f.validate = .ok () → (∀ s, (h.stats s).retained ≤ b.get s) →
      ∃ feed h' answer, Feed.attach h f b = .ok (feed, h') ∧
        (h.query { f with limit := none }).1 = .ok answer ∧
        h.Snapshot f (feed.poll h').1 answer) ∧
    ∀ (m : MetricsSettings) (router : Router) (r r' : Request) (query : List UInt8)
      (site site' : Site) (receivedAt receivedAt' : UInt64), Router.make m = .ok router →
      r.method = .get → r.target = ⟨Text.bytes (queryPath none), query⟩ →
      r'.method = .get → r'.target = ⟨Text.bytes livePath, query⟩ →
      (serve router receivedAt site r).1.status = 200 →
      (serve router receivedAt' site' r').1.status = 200 →
      ∃ f feed, Shared f feed site site' (serve router receivedAt site r)
        (serve router receivedAt' site' r') := by
  constructor
  · intro storage stream ds f b h hf hb
    exact (Scene.remembers_start storage stream ds).snapshot hf hb
  · intro m router r r' query site site' receivedAt receivedAt' hrouter hmethod htarget hmethod'
      htarget' hstatus hstatus'
    exact exists_shared hrouter hmethod hmethod' htarget htarget' hstatus hstatus'

open Http in
/-- After a line of a log, asked for with a limit and for a stream that starts paused. -/
theorem feeds_agree_with_queries_on_lines :
    let ds := [Deed.act (.event (.record World.line))]
    let h := ((Scene.start {} {}).run ds).hub
    let f := { Filter.ofService "" with limit := some 1 }
    let query := Text.formText [("service", ""), ("limit", "5"), ("paused", "true")]
    let site := Site.start (.empty {}) {}
    let asked := serve Router.base 9 site ⟨.get, ⟨Text.bytes (queryPath none), query⟩, none, .empty⟩
    let opened := serve Router.base 9 site ⟨.get, ⟨Text.bytes livePath, query⟩, none, .empty⟩
    (∃ feed h' answer, Feed.attach h f (.uniform 1) = .ok (feed, h') ∧
      (h.query { f with limit := none }).1 = .ok answer ∧
      h.Snapshot f (feed.poll h').1 answer) ∧
    ∃ f feed, Shared f feed site site asked opened := by
  intro ds h f query site asked opened
  obtain ⟨hscene, hhttp⟩ := feeds_agree_with_queries
  have hrouter : Router.make { enabled := false } = .ok Router.base := rfl
  have hpairs : Text.formPairs query = [("service", ""), ("limit", "5"), ("paused", "true")] :=
    Text.formPairs_formText _
  refine ⟨hscene {} {} ds f (.uniform 1) rfl fun s => by cases s <;> decide,
    hhttp _ _ _ _ query _ _ _ _ hrouter rfl rfl rfl rfl ?_ ?_⟩
  · have hread : readParams Filter.params ⟨Text.bytes (queryPath none), query⟩ =
        .ok { Filter.ofService "" with limit := some 5 } := by
      rw [readParams, Params.read, hpairs]
      rfl
    rw [serve_query hrouter none rfl rfl, handle_query none 9 site [] hread]
    rfl
  · have hread : readParams LiveRequest.params ⟨Text.bytes livePath, query⟩ =
        .ok ⟨none, some "", none, none, none, none, none, false, none, true⟩ := by
      rw [readParams, Params.read, hpairs]
      rfl
    rw [serve_live hrouter rfl rfl, serveLive, hread]
    rfl

end SignalHub
