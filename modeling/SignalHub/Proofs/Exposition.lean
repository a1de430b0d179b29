import SignalHub.Proofs.Forms
import SignalHub.Proofs.Mounting
import SignalHub.Settings.Validity
/-!
# Where the exposition may be served

Settings are accepted with any metrics endpoint that begins with a slash, and no more is asked of
it. With some endpoints no router comes about: they are no patterns, or conflict with a route that
every hub has. Others fit in and take paths away from the routes with a parameter, as they go on
literally where those have the parameter. A path is even lost if the endpoint would match it but for
a slash at its own end. And an endpoint is no path if it goes on with a query or a fragment.

Results:
* `MetricsSettings.Works`: what is expected of the router of a hub.
* `MetricsSettings.works_iff`: the endpoints for which it does that.
* `MetricsSettings.accepted_endpoints_fail`: accepted endpoints for which it does not.
-/
namespace SignalHub

open Http

namespace Http

/-! ## Routes of every hub -/

/-- A pattern without parameters, or with one for a segment that does not end in a slash. -/
inductive Pattern.Plain : Pattern → Prop
  | path (s : List UInt8) : Plain (s.map .literal)
  | value (s name m : List UInt8) (hm : ¬ Branch.slash <:+ m) :
    Plain (s.map .literal ++ .param name :: m.map .literal)

namespace Router

variable {router : Router} {p : Pattern} {r : Route} {path : List UInt8}
  {values : List (List UInt8)}

theorem plain_under {s name more : String} (h : ¬ Branch.slash <:+ Text.bytes more) :
    (under s name more).Plain := by
  rw [under, List.append_assoc]
  exact .value _ _ _ h

theorem base_plain : ∀ r ∈ base, r.pattern.Plain := by
  simp only [base, List.forall_mem_cons]
  exact ⟨.path _, .path _, .path _, .path _, .path _, plain_under (by decide), .path _, .path _,
    .path _, plain_under (by decide), plain_under (by decide), by simp⟩

/-- No route of a hub precedes another one. -/
theorem base_first : ∀ r ∈ base, ∀ r' ∈ base, ¬ r'.pattern.precedes r.pattern := by decide

end Router

namespace Pattern

variable {p q : Pattern} {s m name path : List UInt8}

theorem covers_path : covers (s.map .literal) path ↔ path = s := by
  have h := covers_literals s [] path
  rw [List.append_nil] at h
  simp [h, covers]

theorem not_slash_suffix {value : List UInt8} (hvalue : (0x2F : UInt8) ∉ value)
    (hm : ¬ Branch.slash <:+ m) : ¬ Branch.slash <:+ value ++ m := fun h => by
  cases m with
  | nil => exact hvalue (by simpa using h.subset (List.mem_singleton_self 0x2F))
  | cons e m =>
    exact hm (List.suffix_of_suffix_length_le h (List.suffix_append _ _) (by simp [Branch.slash]))

/-- A path that is covered, with the value of the parameter. -/
theorem Plain.cases_of_covers (hq : q.Plain) (h : q.covers path) :
    q = path.map .literal ∨ ∃ s name m value,
      q = s.map .literal ++ .param name :: m.map .literal ∧ (0x2F : UInt8) ∉ value ∧
        value ++ m ≠ [] ∧ ¬ Branch.slash <:+ value ++ m ∧ path = s ++ (value ++ m) := by
  cases hq with
  | path s => exact Or.inl (by rw [covers_path.1 h])
  | value s name m hm =>
    obtain ⟨more, rfl, hmore⟩ := (covers_literals _ _ _).1 h
    cases more with
    | nil => cases hmore
    | cons c cs =>
      obtain ⟨value, rest, hpath, hvalue, hrest⟩ := exists_segment (c :: cs)
      rw [covers, hpath, dropWhile_segment hvalue hrest, covers_path] at hmore
      subst hmore
      exact Or.inr ⟨s, name, rest, value, rfl, hvalue, by simp [← hpath],
        not_slash_suffix hvalue hm, by rw [hpath]⟩

end Pattern

namespace Router

variable {router : Router} {p : Pattern} {r : Route} {path : List UInt8}
  {values : List (List UInt8)}

/-- What a route of every hub covers leads to it. -/
theorem find_base (hr : r ∈ base) (h : r.pattern.covers path) :
    ∃ values, base.find path = some (r, values) := by
  rcases (base_plain r hr).cases_of_covers h with
    hp | ⟨s, name, m, value, hp, hvalue, hne, -, rfl⟩
  · exact ⟨_, orderly_base.find_path hr hp⟩
  · exact ⟨_, orderly_base.find_first hr hp hvalue hne (base_first r hr)⟩

/-! ## Routes beside the exposition -/

/-- Whether a path gets to the parameter of a route. -/
theorem contend_mounted (hr : r ∈ base) (htidy : p.tidy) {s name m : List UInt8}
    (hp : r.pattern = s.map .literal ++ .param name :: m.map .literal) {c : UInt8}
    {cs : List UInt8} (hend : ¬ Branch.slash <:+ c :: cs) {n : Nat} (hn : (c :: cs).length < n) :
    Branch.contend n c cs (Branch.beyond s (mounted p base).branches) = .missed ↔
      ¬ (p.precedes r.pattern ∧ p.reaches (s ++ c :: cs)) := by
  have hfirst : ∀ b ∈ branches (base.map (extend p)), ¬ b.pattern.precedes r.pattern := by
    intro b hb
    obtain ⟨hb, hpattern⟩ := mem_branches.1 hb
    obtain ⟨a, ha, hab⟩ := List.mem_map.1 hb
    rw [hpattern, ← hab, extend_pattern]
    exact base_first r hr a ha
  by_cases hmem : p ∈ base.map (·.pattern)
  · have hmounted : mounted p base = base.map (extend p) := by
      rw [mounted, if_pos hmem, List.append_nil]
    obtain ⟨a, ha, hap⟩ := List.mem_map.1 hmem
    have hp' : ¬ p.precedes r.pattern := hap ▸ base_first r hr a ha
    rw [hmounted, Branch.contend_none hp hfirst]
    simp [hp']
  · have hmounted : (mounted p base).branches =
        branches (base.map (extend p)) ++ [⟨p, ⟨p, [(.read, .exposition)]⟩⟩] := by
      rw [mounted, if_neg hmem, branches, List.map_append]
      rfl
    rw [hmounted, Branch.contend_append hp hfirst, Branch.contend_single hp htidy hn hend]

/-- A path is left to its route, unless the pattern of the exposition precedes that one and reaches
the path. -/
theorem find_kept (horderly : Orderly (mounted p base)) (htidy : p.tidy)
    (hno : ¬ (p.precedes r.pattern ∧ p.reaches path)) (h : base.find path = some (r, values)) :
    (mounted p base).find path = some (extend p r, values) := by
  obtain ⟨hr, hcovers⟩ := covers_of_find h
  have hmem : extend p r ∈ mounted p base := mem_mounted.2 (Or.inl ⟨r, hr, rfl⟩)
  rcases (base_plain r hr).cases_of_covers hcovers with
    hp | ⟨s, name, m, value, hp, hvalue, hne, hend, rfl⟩
  · cases (orderly_base.find_path hr hp).symm.trans h
    exact horderly.find_path hmem (by rw [extend_pattern, hp])
  · cases (orderly_base.find_first hr hp hvalue hne (base_first r hr)).symm.trans h
    obtain ⟨c, cs, hpath⟩ := List.exists_cons_of_ne_nil hne
    obtain ⟨n, hn, hfind⟩ :=
      horderly.find_value hmem (by rw [extend_pattern, hp]) hvalue hpath
    rw [hpath] at hno hend ⊢
    rw [hfind, (contend_mounted hr htidy hp hend hn).2 hno]
    rfl

/-- Such a path is lost, or the exposition gets it. -/
theorem find_taken (horderly : Orderly (mounted p base)) (htidy : p.tidy) (hr : r ∈ base)
    (hcovers : r.pattern.covers path) (hprecedes : p.precedes r.pattern) (hreaches : p.reaches path)
    {r' : Route} (h : (mounted p base).find path = some (r', values)) :
    r' = ⟨p, [(.read, .exposition)]⟩ := by
  have hmem : extend p r ∈ mounted p base := mem_mounted.2 (Or.inl ⟨r, hr, rfl⟩)
  rcases (base_plain r hr).cases_of_covers hcovers with
    hp | ⟨s, name, m, value, hp, hvalue, hne, hend, rfl⟩
  · rw [hp, Pattern.not_precedes_literals] at hprecedes
    cases hprecedes
  · obtain ⟨c, cs, hpath⟩ := List.exists_cons_of_ne_nil hne
    obtain ⟨n, hn, hfind⟩ :=
      horderly.find_value hmem (by rw [extend_pattern, hp]) hvalue hpath
    rw [hpath] at hreaches hend h
    rw [hfind] at h
    have hnot := (contend_mounted hr htidy hp hend hn).not.2 (not_not.2 ⟨hprecedes, hreaches⟩)
    cases hm : Branch.contend n c cs (Branch.beyond s (mounted p base).branches) with
    | missed => exact absurd hm hnot
    | refused => rw [hm] at h; cases h
    | found a vs =>
      rw [hm] at h
      cases h
      obtain ⟨b, hb, rfl, hb'⟩ := Branch.precedes_of_contend hp hm
      obtain ⟨hb, hpattern⟩ := mem_branches.1 hb
      rcases mem_mounted.1 hb with ⟨a, ha, hab⟩ | ⟨-, hnew⟩
      · rw [hpattern, ← hab, extend_pattern] at hb'
        exact absurd hb' (base_first r hr a ha)
      · exact hnew

end Router

/-! ## Reading the exposition -/

/-- How all is answered that can be read from every hub. -/
def readTypes : List (Option String) := [some "application/json", some "text/event-stream"]

theorem contentType_serveQuery {ρ : Type} (site : Site) (t : Target)
    (run : Hub → Filter → Except FilterError ρ × Hub) (view : ρ → List (String × Json))
    (size : ρ → Nat) : (serveQuery site t run view size).1.contentType ∈ readTypes := by
  rw [serveQuery]
  split
  · exact List.mem_cons_self
  · split <;> exact List.mem_cons_self

theorem contentType_answer (site : Site) {x : Except ApiError (Response × Site)}
    (h : ∀ r, x = .ok r → r.1.contentType ∈ readTypes) :
    (answer site x).1.contentType ∈ readTypes := by
  cases x with
  | error e => exact List.mem_cons_self
  | ok r => exact h r rfl

theorem contentType_serveTrace (site : Site) (value : List UInt8) (r : Response × Site)
    (h : serveTrace site value = .ok r) : r.1.contentType ∈ readTypes := by
  obtain ⟨traceId, -, h⟩ := exists_of_bind h
  split at h <;> cases h
  exact List.mem_cons_self

theorem contentType_serveLive (site : Site) (t : Target) (r : Response × Site)
    (h : serveLive site t = .ok r) : r.1.contentType ∈ readTypes := by
  obtain ⟨live, -, h⟩ := exists_of_bind h
  obtain ⟨attached, -, h⟩ := exists_of_bind h
  cases h
  exact List.mem_cons_of_mem _ (List.mem_singleton_self _)

theorem contentType_handle {r : Route} (hr : r ∈ Router.base) {e : Endpoint}
    (he : r.handler? .get = some e) (receivedAt : UInt64) (site : Site) (req : Request)
    (values : List (List UInt8)) :
    (handle receivedAt site req values e).1.contentType ∈ readTypes := by
  have hread : ∀ r ∈ Router.base, ∀ e ∈ [Endpoint.postSpans, .postLogs, .postMetrics, .pause,
      .resume, .exposition], r.handler? .get ≠ some e := by decide
  cases e with
  | health | services | status => exact List.mem_cons_self
  | getSpans | getLogs | getMetrics | query => exact contentType_serveQuery ..
  | trace => exact contentType_answer site (contentType_serveTrace site _)
  | live => exact contentType_answer site (contentType_serveLive site _)
  | postSpans | postLogs | postMetrics | pause | resume | exposition =>
    exact absurd he (hread r hr _ (by decide))

/-! ## What is expected -/

/-- The handler that a request gets to, and the values of the path's parameters. -/
def Router.handler? (router : Router) (path : List UInt8) (m : Method) :
    Option (Endpoint × List (List UInt8)) :=
  (router.find path).bind fun (r, values) => (r.handler? m).map (·, values)

theorem serve_of_handler? {router : Router} {r : Request} {e : Endpoint}
    {values : List (List UInt8)} (receivedAt : UInt64) (site : Site)
    (h : router.handler? r.target.path r.method = some (e, values)) :
    serve router receivedAt site r =
      let answered := handle receivedAt site r values e
      if r.method = .head then headOnly answered else answered := by
  obtain ⟨⟨route, values'⟩, hfind, hhandled⟩ := Option.bind_eq_some_iff.1 h
  obtain ⟨e', he, heq⟩ := Option.map_eq_some_iff.1 hhandled
  cases heq
  simp only [serve, hfind, he]

/-- What is expected of a router that serves the exposition: it is read at its endpoint, and what is
handled without it gets to the same handler as before. -/
structure Router.Serves (router : Router) (m : MetricsSettings) : Prop where
  exposed : ∀ receivedAt site (r : Request), r.method = .get →
    r.target = Target.ofUri m.endpoint → serve router receivedAt site r =
      (⟨200, some "text/plain; version=0.0.4", .lines site.hub.tally.exposition, none⟩, site)
  kept : ∀ path method handled, Router.base.handler? path method = some handled →
    router.handler? path method = some handled

/-- What is handled without the exposition is answered as before. -/
theorem Router.Serves.serve_eq {router : Router} {m : MetricsSettings} (hserves : router.Serves m)
    {r : Request} (h : (Router.base.handler? r.target.path r.method).isSome) (receivedAt : UInt64)
    (site : Site) : serve router receivedAt site r = serve Router.base receivedAt site r := by
  obtain ⟨⟨e, values⟩, he⟩ := Option.isSome_iff_exists.1 h
  rw [serve_of_handler? receivedAt site he,
    serve_of_handler? receivedAt site (hserves.kept _ _ _ he)]

/-- No route of a hub loses a path to the pattern: where the pattern precedes a route, it covers no
path of that route, neither as it is nor without a slash at its end. -/
def Pattern.Spares (p : Pattern) : Prop :=
  ∀ r ∈ Router.base, p.precedes r.pattern → ∀ path, r.pattern.covers path →
    ∀ q : Pattern, q = p ∨ q ++ [.literal 0x2F] = p → ¬ q.covers path

end Http

namespace MetricsSettings

variable {m : MetricsSettings} {p : Pattern} {router : Router}

/-- Whether the endpoint makes a router that does what is expected. -/
def Works (m : MetricsSettings) : Prop := ∃ router, Router.make m = .ok router ∧ router.Serves m

/-- What settings are accepted for. -/
theorem head_of_validate {s : Settings} (h : s.validate = .ok ()) :
    (Text.bytes s.metrics.endpoint).head? = some 0x2F := by
  have hfault : s.metrics.fault? = none := by
    rw [Settings.validate] at h
    split at h
    · cases h
    · rename_i hnone
      have hall : s.storage.fault? = none ∧ s.stream.fault? = none ∧ s.server.fault? = none ∧
          s.metrics.fault? = none := by simpa [Settings.fault?] using hnone
      exact hall.2.2.2
  rw [MetricsSettings.fault?, faultIf] at hfault
  split at hfault
  · cases hfault
  · rename_i hhead
    have hslash : s.metrics.endpoint.toList.head? = some '/' := by simpa using hhead
    obtain ⟨cs, hcs⟩ := List.head?_eq_some_iff.1 hslash
    rw [Text.bytes_eq_flatMap, hcs]
    rfl

theorem make_ne_relative (h : (Text.bytes m.endpoint).head? = some 0x2F) :
    Router.make m ≠ .error .relative := by
  rw [Router.make]
  split
  · exact bind_ne (Pattern.parse_ne_relative h) fun p => Router.mount_ne_relative
  · simp

/-- Only the route of the exposition answers as the exposition does. -/
theorem covers_of_exposed (hserves : (Router.mounted p Router.base).Serves m) :
    p.covers (Target.ofUri m.endpoint).path := by
  have hexposed := hserves.exposed 0 (Site.start (.empty {}) {})
    ⟨.get, Target.ofUri m.endpoint, none, .empty⟩ rfl rfl
  have htype := congrArg (fun answered => answered.1.contentType) hexposed
  rw [serve] at htype
  split at htype
  · cases htype
  · rename_i route values hfind
    obtain ⟨hmem, hcovers⟩ := Router.covers_of_find hfind
    split at htype
    · cases htype
    · rename_i e he
      rcases Router.mem_mounted.1 hmem with ⟨r, hr, rfl⟩ | ⟨-, rfl⟩
      · by_cases hp : r.pattern = p
        · rwa [Router.extend_pattern, hp] at hcovers
        · rw [Router.extend_of_ne hp] at he
          have hread := contentType_handle hr he 0 (Site.start (.empty {}) {})
            ⟨.get, Target.ofUri m.endpoint, none, .empty⟩ values
          simp only [reduceCtorEq, if_false] at htype
          rw [htype] at hread
          exact absurd hread (by decide)
      · exact hcovers

/-- Each route handles some request, and none of them with the exposition. -/
theorem exists_handled : ∀ r ∈ Router.base, ∃ h ∈ r.handlers,
    r.handler? (if h.1 = .read then .get else .post) = some h.2 ∧ h.2 ≠ .exposition := by
  decide

theorem eq_exposition {method : Method} {e : Endpoint}
    (h : Route.handler? ⟨p, [(.read, .exposition)]⟩ method = some e) : e = .exposition := by
  cases method <;> cases h <;> rfl

theorem spares_of_kept (horderly : Router.Orderly (Router.mounted p Router.base))
    (htidy : p.tidy) (hserves : (Router.mounted p Router.base).Serves m) : p.Spares := by
  intro r hr hprecedes path hcovers q hq hqcovers
  have hreaches : p.reaches path := Pattern.reaches_iff.2 ⟨q, hq, hqcovers⟩
  obtain ⟨values, hbase⟩ := Router.find_base hr hcovers
  obtain ⟨h, -, hhandler, hne⟩ := exists_handled r hr
  have hkept := hserves.kept path (if h.1 = .read then .get else .post) (h.2, values)
    (by simp [Router.handler?, hbase, hhandler])
  obtain ⟨⟨r', values'⟩, hfind, hr'⟩ := Option.bind_eq_some_iff.1 hkept
  obtain rfl := Router.find_taken horderly htidy hr hcovers hprecedes hreaches hfind
  obtain ⟨e, he, heq⟩ := Option.map_eq_some_iff.1 hr'
  cases heq
  exact hne (eq_exposition he)

theorem serves_of_spares (hfits : Router.Fits p Router.base)
    (hparse : Pattern.parse m.endpoint = .ok p)
    (hcovers : p.covers (Target.ofUri m.endpoint).path) (hspares : p.Spares) :
    (Router.mounted p Router.base).Serves m where
  exposed receivedAt site r hmethod htarget := by
    obtain ⟨htidy, htext, -⟩ := Pattern.parse_spec hparse
    obtain ⟨route, hroute, rfl, hhandler⟩ := Router.exists_exposed hfits
    have hpath := Pattern.path_prefix (Pattern.head_of_parse hparse)
    have hspells := Pattern.spells_of_covers htidy (htext ▸ hpath) hcovers
    obtain ⟨values, hfind⟩ := (Router.orderly_of_parse hparse hfits).find_spelled hroute hspells
    have hhandled : (Router.mounted route.pattern Router.base).handler? r.target.path r.method =
        some (.exposition, values) := by
      simp [Router.handler?, htarget, hfind, hmethod, hhandler]
    rw [serve_of_handler? receivedAt site hhandled, if_neg (by rw [hmethod]; decide)]
    rfl
  kept path method handled h := by
    obtain ⟨⟨r, values⟩, hfind, hhandled⟩ := Option.bind_eq_some_iff.1 h
    obtain ⟨e, he, rfl⟩ := Option.map_eq_some_iff.1 hhandled
    obtain ⟨hr, hr'⟩ := Router.covers_of_find hfind
    have hno : ¬ (p.precedes r.pattern ∧ p.reaches path) := fun ⟨hprecedes, hreaches⟩ => by
      obtain ⟨q, hq, hqcovers⟩ := Pattern.reaches_iff.1 hreaches
      exact hspares r hr hprecedes path hr' q hq hqcovers
    have hkept := Router.find_kept (Router.orderly_of_parse hparse hfits)
      (Pattern.parse_spec hparse).1 hno hfind
    simp [Router.handler?, hkept, Router.handler?_extend he]

/-- Accepted settings keep out nothing but endpoints that begin with no slash. With one that does
the router works if and only if it is a pattern, fits in between the routes, is spelled by the path
that it has as a URI, and spares the routes with a parameter. -/
theorem works_iff {s : Settings} (hvalid : s.validate = .ok ()) (hon : s.metrics.enabled) :
    Router.make s.metrics ≠ .error .relative ∧
      (s.metrics.Works ↔ ∃ p, Pattern.parse s.metrics.endpoint = .ok p ∧
        Router.Fits p Router.base ∧ p.covers (Target.ofUri s.metrics.endpoint).path ∧
          p.Spares) := by
  refine ⟨make_ne_relative (head_of_validate hvalid), ⟨?_, ?_⟩⟩
  · rintro ⟨router, hmake, hserves⟩
    obtain ⟨p, hparse, hfits, rfl⟩ := (Router.make_iff hon).1 hmake
    exact ⟨p, hparse, hfits, covers_of_exposed hserves,
      spares_of_kept (Router.orderly_of_parse hparse hfits) (Pattern.parse_spec hparse).1 hserves⟩
  · rintro ⟨p, hparse, hfits, hcovers, hspares⟩
    exact ⟨_, (Router.make_iff hon).2 ⟨p, hparse, hfits, rfl⟩,
      serves_of_spares hfits hparse hcovers hspares⟩

/-- The endpoint by default works. -/
theorem default_endpoint_works : ({} : Settings).validate = .ok () ∧
    ({} : MetricsSettings).enabled ∧ ({} : MetricsSettings).Works :=
  have hfirst : ∀ r ∈ Router.base, ¬ (Router.literal "/metrics").precedes r.pattern := by decide
  ⟨by decide, rfl, (works_iff (s := {}) (by decide) rfl).2.2
    ⟨Router.literal "/metrics", by decide, by decide, by decide,
      fun r hr hprecedes => absurd hprecedes (hfirst r hr)⟩⟩

/-- Accepted endpoints that make no router, or one that loses the path of a trace. -/
theorem accepted_endpoints_fail :
    (({ metrics := { endpoint := "/m*" } } : Settings).validate = .ok () ∧
      Router.make { endpoint := "/m*" } = .error .unnamed) ∧
    (({ metrics := { endpoint := "/api/v1/traces/t1/" } } : Settings).validate = .ok () ∧
      ∃ router, Router.make { endpoint := "/api/v1/traces/t1/" } = .ok router ∧
        Router.base.handler? (Text.bytes "/api/v1/traces/t1") .get =
          some (.trace, [Text.bytes "t1"]) ∧
        router.handler? (Text.bytes "/api/v1/traces/t1") .get = none) :=
  ⟨⟨by decide, by decide⟩, by decide, _, rfl, by decide, by decide⟩

end MetricsSettings

end SignalHub
