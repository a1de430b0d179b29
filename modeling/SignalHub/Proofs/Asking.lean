import SignalHub.Proofs.Accounts
import SignalHub.Proofs.Mounting
import SignalHub.Proofs.Parameters
/-!
# Queries over HTTP

A filter that is written as a query string asks for what it is: the answer shows what a query with
that filter finds, of one signal or of all, or says that the filter is invalid. Nothing is changed
by it but the counts of scans and of rejected queries.

Results:
* `Http.Target.ofUri_query`: the path and the query string of a URI.
* `Http.handle_query`: the answer to a query whose filter has been read.
* `Http.Answered`: what becomes of a query.
* `Http.queries_over_http`: what becomes of every filter that is written as a query string.
-/
namespace SignalHub

/-! ## Answers -/

/-- What an answer shows of one signal, or of all. -/
def QueryResult.shown (r : QueryResult) : Option Signal → List (String × Json)
  | none => r.members
  | some .traces => [("spans", spansJson r.spans)]
  | some .logs => [("logs", logsJson r.logs)]
  | some .metrics => [("metrics", metricsJson r.metrics)]

/-- How many records that is. -/
def QueryResult.total (r : QueryResult) : Option Signal → Nat
  | none => r.spans.length + r.logs.length + r.metrics.length
  | some .traces => r.spans.length
  | some .logs => r.logs.length
  | some .metrics => r.metrics.length

namespace Http

/-- The path at which records of one signal, or of all, are asked for. -/
def queryPath : Option Signal → String
  | none => "/api/v1/query"
  | some .traces => "/api/v1/spans"
  | some .logs => "/api/v1/logs"
  | some .metrics => "/api/v1/metrics"

/-- What answers there. -/
def queryEndpoint : Option Signal → Endpoint
  | none => .query
  | some .traces => .getSpans
  | some .logs => .getLogs
  | some .metrics => .getMetrics

/-- The answer that shows what was found, or refuses the filter. -/
def queryResponse (about : Option Signal) : Except FilterError QueryResult → Response
  | .ok found => .json 200 (.obj (("total", .nat (found.total about)) :: found.shown about))
  | .error e => (refuseFilter e).response

/-- The answer to a query whose filter has been read. -/
theorem handle_query (about : Option Signal) (receivedAt : UInt64) (site : Site) {r : Request}
    (values : List (List UInt8)) {f : Filter} (hf : readParams Filter.params r.target = .ok f) :
    handle receivedAt site r values (queryEndpoint about) =
      (queryResponse about (site.hub.query f).1, site.withHub (site.hub.ask about f)) := by
  cases about with
  | none =>
    simp only [queryEndpoint, handle, serveQuery, hf, Hub.query, Hub.ask, Hub.search]
    cases f.validate <;> rfl
  | some s =>
    cases s <;>
    · simp only [queryEndpoint, handle, serveQuery, hf, Hub.query, Hub.querySpans, Hub.queryLogs,
        Hub.queryMetrics, Hub.ask, Hub.search]
      cases f.validate <;> rfl

/-! ## URIs -/

theorem takeWhile_ne_of_not_mem {b : UInt8} {bs : List UInt8} (hb : b ∉ bs) :
    bs.takeWhile (· != b) = bs := by
  have hall : ∀ a ∈ bs, (a != b) = true := fun a ha => bne_iff_ne.2 fun he => hb (he ▸ ha)
  have happend : (bs ++ []).takeWhile (· != b) = bs ++ [].takeWhile (· != b) :=
    List.takeWhile_append_of_pos hall
  rwa [List.append_nil, List.takeWhile_nil, List.append_nil] at happend

/-- A path and a query string, separated by a question mark. -/
theorem Target.split_append {path : List UInt8} (hpath : (0x3F : UInt8) ∉ path)
    (query : List UInt8) : split (path ++ 0x3F :: query) = ⟨path, query⟩ := by
  have hpass : ∀ b ∈ path, (b != 0x3F) = true := fun b hb => bne_iff_ne.2 fun he => hpath (he ▸ hb)
  rw [split, List.takeWhile_append_of_pos hpass, List.dropWhile_append_of_pos hpass]
  simp

/-- A URI that is a path and a query string names just these. -/
theorem Target.ofUri_query {uri : String} {path query : List UInt8}
    (huri : Text.bytes uri = path ++ 0x3F :: query) (hslash : path.head? = some 0x2F)
    (hpath : (0x3F : UInt8) ∉ path) (hhash : (0x23 : UInt8) ∉ path)
    (hquery : (0x23 : UInt8) ∉ query) : ofUri uri = ⟨path, query⟩ := by
  obtain ⟨rest, rfl⟩ : ∃ rest, path = 0x2F :: rest := by
    cases path with
    | nil => cases hslash
    | cons b rest => cases hslash; exact ⟨rest, rfl⟩
  have hplain : (0x23 : UInt8) ∉ 0x2F :: rest ++ 0x3F :: query := by
    rw [List.mem_append, List.mem_cons (l := query)]
    rintro (h | h | h)
    · exact hhash h
    · exact absurd h (by decide)
    · exact hquery h
  simp only [ofUri, huri, takeWhile_ne_of_not_mem hplain]
  exact split_append hpath query

theorem ofUri_queryPath {about : Option Signal} {pairs : List (String × String)} {uri : String}
    (huri : Text.bytes uri = Text.bytes (queryPath about) ++ 0x3F :: Text.formText pairs) :
    Target.ofUri uri = ⟨Text.bytes (queryPath about), Text.formText pairs⟩ := by
  have hpath : ∀ about, (Text.bytes (queryPath about)).head? = some 0x2F ∧
      (0x3F : UInt8) ∉ Text.bytes (queryPath about) ∧
      (0x23 : UInt8) ∉ Text.bytes (queryPath about) := by
    intro about
    cases about with
    | none => decide
    | some s => cases s <;> decide
  obtain ⟨hslash, hmark, hhash⟩ := hpath about
  exact Target.ofUri_query huri hslash hmark hhash (Text.hash_not_mem_formText pairs)

/-! ## What changes -/

/-- A query changes nothing but the counts of scans and of rejected queries. -/
theorem ask_changes (h : Hub) (about : Option Signal) (f : Filter) : ∃ scans rejected,
    h.ask about f =
      { h with tally := { h.tally with scans := scans, rejectedQueries := rejected } } := by
  rw [Hub.ask_eq]
  split
  · obtain ⟨scans, hfold, -⟩ := Hub.foldl_note h f (Signal.among about) h.tally
    exact ⟨scans, h.tally.rejectedQueries, by rw [hfold]⟩
  · exact ⟨h.tally.scans, h.tally.rejectedQueries + 1, rfl⟩

/-! ## Requests -/

/-- In every router the path leads to the endpoint. -/
theorem exists_route_query (about : Option Signal) :
    ∃ route ∈ Router.base, Router.isReadable route ∧
      route.pattern = (Text.bytes (queryPath about)).map Part.literal ∧
      route.handler? .get = some (queryEndpoint about) := by
  cases about with
  | none => exact ⟨Router.base[4], by decide, rfl, rfl, rfl⟩
  | some s =>
    cases s with
    | traces => exact ⟨Router.base[1], by decide, rfl, rfl, rfl⟩
    | logs => exact ⟨Router.base[2], by decide, rfl, rfl, rfl⟩
    | metrics => exact ⟨Router.base[3], by decide, rfl, rfl, rfl⟩

variable {m : MetricsSettings} {router : Router} {r : Request}

theorem serve_query (hrouter : Router.make m = .ok router) (about : Option Signal)
    (hmethod : r.method = .get) (hpath : r.target.path = Text.bytes (queryPath about))
    (receivedAt : UInt64) (site : Site) :
    serve router receivedAt site r = handle receivedAt site r [] (queryEndpoint about) := by
  obtain ⟨route, hbase, hread, hpattern, hhandler⟩ := exists_route_query about
  rw [← hmethod] at hhandler
  exact serve_literal hrouter hbase hread hpattern hpath (by simp [hmethod]) hhandler receivedAt
    site

/-- What becomes of a query. -/
structure Answered (about : Option Signal) (f : Filter) (site : Site) (served : Response × Site) :
    Prop where
  /-- If the limit is positive, or none is given, what is found is shown. -/
  found : (∀ n, f.limit = some n → 0 < n) → ∃ found, (site.hub.query f).1 = .ok found ∧
    served.1 = .json 200 (.obj (("total", .nat (found.total about)) :: found.shown about))
  refused : ∀ n, f.limit = some n → n ≤ 0 → served.1 = .json 400 (.obj [("error", .obj
    [("message", .str ("Invalid filter: " ++ ("limit must be greater than 0, got " ++
      toString n.toInt))), ("type", .str "invalid_filter")])])
  /-- Archives, subscriptions, couriers and all other counts stay as they are. -/
  site_eq : ∃ scans rejected, served.2 = site.withHub { site.hub with
    tally := { site.hub.tally with scans := scans, rejectedQueries := rejected } }

theorem answered_queryResponse (about : Option Signal) (f : Filter) (site : Site) :
    Answered about f site
      (queryResponse about (site.hub.query f).1, site.withHub (site.hub.ask about f)) where
  found hlimit := by
    have hvalid : f.validate = .ok () := by
      rw [Filter.validate]
      cases hn : f.limit with
      | none => rfl
      | some n => exact if_neg (Int64.not_le.2 (hlimit n hn))
    rw [Hub.query, Hub.search, hvalid]
    exact ⟨_, rfl, rfl⟩
  refused n hn hle := by
    have hinvalid : f.validate = .error (.limitNotPositive n) := by
      rw [Filter.validate, hn]
      exact if_pos hle
    rw [Hub.query, Hub.search, hinvalid]
    rfl
  site_eq := by
    obtain ⟨scans, rejected, hask⟩ := ask_changes site.hub about f
    exact ⟨scans, rejected, by rw [hask]⟩

/-- A filter that is written as a query string, in any order and with any other names in between,
is answered at each path with what a query with that filter finds. -/
theorem queries_over_http (hrouter : Router.make m = .ok router) (about : Option Signal)
    (f : Filter) {pairs extra : List (String × String)}
    (hpairs : pairs.Perm (Params.toPairs Filter.params f ++ extra))
    (hextra : ∀ p ∈ extra, p.1 ∉ Filter.params.names) {uri : String}
    (huri : Text.bytes uri = Text.bytes (queryPath about) ++ 0x3F :: Text.formText pairs)
    (hmethod : r.method = .get) (htarget : r.target = .ofUri uri) (receivedAt : UInt64)
    (site : Site) : Answered about f site (serve router receivedAt site r) := by
  rw [ofUri_queryPath huri] at htarget
  have hread : readParams Filter.params r.target = .ok f := by
    have hpairs := Params.ofPairs_of_perm f.readable_params Filter.nodup_params hpairs hextra
    rw [htarget, readParams, Params.read, Text.formPairs_formText, hpairs, Filter.params]
    rfl
  rw [serve_query hrouter about hmethod (by rw [htarget]),
    handle_query about receivedAt site [] hread]
  exact answered_queryResponse about f site

/-- Failed spans of a service with a name that needs encoding. -/
def failures : Filter :=
  { Filter.ofService "a&b =ü" with errorsOnly := true, limit := some 5 }

theorem failures_over_http :
    let pairs := [("limit", "5"), ("x", "%"), ("errors_only", "true"), ("service", "a&b =ü")]
    let uri := "/api/v1/query?limit=5&x=%25&errors_only=true&service=a%26b+%3D%C3%BC"
    let r : Request := ⟨.get, .ofUri uri, none, .empty⟩
    let site := Site.start (.empty {}) {}
    pairs.Perm (Params.toPairs Filter.params failures ++ [("x", "%")]) ∧
      Text.bytes uri = Text.bytes (queryPath none) ++ 0x3F :: Text.formText pairs ∧
      (serve Router.base 9 site r).1.status = 200 := by
  intro pairs uri r site
  have hpairs : pairs.Perm (Params.toPairs Filter.params failures ++ [("x", "%")]) := by
    decide +kernel
  have huri : Text.bytes uri = Text.bytes (queryPath none) ++ 0x3F :: Text.formText pairs := by
    decide +kernel
  have hrouter : Router.make { enabled := false } = .ok Router.base := rfl
  have hanswered := queries_over_http hrouter none failures hpairs (by decide) huri (r := r) rfl rfl
    9 site
  have hlimit : ∀ n, failures.limit = some n → 0 < n := fun n hn => by
    cases hn
    decide
  obtain ⟨found, hfound, hserved⟩ := hanswered.found hlimit
  exact ⟨hpairs, huri, by rw [hserved]; rfl⟩

end Http

end SignalHub
