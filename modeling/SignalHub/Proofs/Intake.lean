import SignalHub.Proofs.History
import SignalHub.Proofs.Mounting
/-!
# Posted batches

A batch is kept as a whole or not at all. It is kept if the request is JSON of an admissible size
that spells a list of records, and none of them lacks what a posted record must have; then the hub
is as if the records had been recorded one by one, with the time of receipt where they had none.

Results:
* `Http.posted?`, `Record.Complete`, `Http.kept`: which batches are kept, and as what.
* `Http.keepAll_eq`: keeping records in order is recording them one by one.
* `Http.intake_ingest`: what becomes of a batch, for every kind of record.
* `Http.batch_kept_whole_or_refused`: the same for a request to any hub.
-/
namespace SignalHub

namespace Record

/-- Whether a record has what it must have beside a service. -/
def HasParts : Record → Prop
  | .span s => s.traceId ≠ "" ∧ s.spanId ≠ ""
  | .log _ => True
  | .metric p => p.name ≠ ""

instance : DecidablePred HasParts
  | .span _ => inferInstanceAs (Decidable (_ ∧ _))
  | .log _ => inferInstanceAs (Decidable True)
  | .metric _ => inferInstanceAs (Decidable (_ ≠ _))

/-- Whether a posted record lacks nothing. -/
def Complete (r : Record) : Prop := r.service ≠ "" ∧ r.HasParts

instance : DecidablePred Complete := fun _ => inferInstanceAs (Decidable (_ ∧ _))

/-- What is said of the record at place `i` of a batch if it lacks something beside a service. -/
def lack? (i : Nat) : Record → Option String
  | .span s =>
    if s.traceId = "" ∨ s.spanId = "" then
      some ("span " ++ toString i ++ " is missing trace_id or span_id")
    else none
  | .log _ => none
  | .metric p =>
    if p.name = "" then some ("metric point " ++ toString i ++ " has an empty name") else none

/-- The record with the time of receipt, if it is one that needs a timestamp and has none. -/
def stamped (now : UInt64) : Record → Record
  | .span s => .span s
  | .log l => .log (if l.timestamp = 0 then { l with timestamp := now } else l)
  | .metric p => .metric (if p.timestamp = 0 then { p with timestamp := now } else p)

theorem lack?_eq_none_iff (i : Nat) (r : Record) : r.lack? i = none ↔ r.HasParts := by
  cases r with
  | span s => simp [lack?, HasParts, not_or]
  | log l => simp [lack?, HasParts]
  | metric p => simp [lack?, HasParts]

@[simp] theorem signal_stamped (now : UInt64) (r : Record) : (r.stamped now).signal = r.signal := by
  cases r <;> rfl

end Record

/-! ## Recording in order -/

namespace Hub

theorem position_record (h : Hub) (r : Record) (s : Signal) :
    (h.record r).2.position s = h.position s + if r.signal = s then 1 else 0 := by
  rw [(agree_record h r).position_eq]
  cases r <;> cases s <;> simp [store, position, Archive.add, Record.signal]

theorem recordAll_cons (h : Hub) (r : Record) (rs : List Record) :
    h.recordAll (r :: rs) = (h.record r).2.recordAll rs := rfl

theorem recordAll_append (h : Hub) (rs rs' : List Record) :
    h.recordAll (rs ++ rs') = (h.recordAll rs).recordAll rs' := List.foldl_append ..

end Hub

namespace Http

/-- The position of the last of so many records of a signal that are kept in order. -/
def lastPosition? (h : Hub) (s : Signal) (count : Nat) : Option Nat :=
  if count = 0 then none else some (h.position s + (count - 1))

theorem keepAll_cons (h : Hub) (last : Option Nat) (r : Record) (rs : List Record) :
    keepAll h last (r :: rs) = keepAll (h.record r).2 (some (h.position r.signal)) rs := rfl

/-- Keeping records in order is recording them one by one. -/
theorem keepAll_eq {s : Signal} {rs : List Record} (hs : ∀ r ∈ rs, r.signal = s) (h : Hub)
    (last : Option Nat) :
    keepAll h last rs = ((lastPosition? h s rs.length).or last, h.recordAll rs) := by
  induction rs generalizing h last with
  | nil => rfl
  | cons r rs ih =>
    have hr : r.signal = s := hs r List.mem_cons_self
    have hpos : (h.record r).2.position s = h.position s + 1 := by
      rw [Hub.position_record, if_pos hr]
    rw [keepAll_cons, ih (fun a ha => hs a (List.mem_cons_of_mem _ ha)), Hub.recordAll_cons, hr]
    congr 1
    -- What comes last prevails, so the position of `r` counts only if nothing follows.
    cases rs with
    | nil => simp [lastPosition?]
    | cons a rs =>
      simp only [lastPosition?, List.length_cons, hpos, Nat.add_eq_zero_iff, Nat.one_ne_zero,
        and_false, if_false, Option.some_or]
      congr 1
      omega

/-- Records of one signal get the positions behind its head, one after the other. -/
theorem position_recordAll {s : Signal} {rs : List Record} (hs : ∀ r ∈ rs, r.signal = s) (h : Hub) :
    (h.recordAll rs).position s = h.position s + rs.length := by
  induction rs generalizing h with
  | nil => rfl
  | cons r rs ih =>
    have hr : r.signal = s := hs r List.mem_cons_self
    rw [Hub.recordAll_cons, ih (fun a ha => hs a (List.mem_cons_of_mem _ ha)),
      Hub.position_record, if_pos hr, List.length_cons]
    omega

/-! ## Batches -/

/-- The records of a signal that some bytes spell, as a JSON list. -/
def decodeRecords (s : Signal) (bs : List UInt8) : Json.Decoded (List Record) :=
  match s with
  | .traces => ((Json.Codec.list Span.codec).ofFirst bs).map fun xs => xs.map .span
  | .logs => ((Json.Codec.list LogEntry.codec).ofFirst bs).map fun xs => xs.map .log
  | .metrics => ((Json.Codec.list MetricPoint.codec).ofFirst bs).map fun xs => xs.map .metric

/-- The records that a request posts, if it is JSON of an admissible size that spells a list of
them. -/
def posted? (s : Signal) (r : Request) : Option (List Record) :=
  if r.contentType.any isJson ∧ r.body.size ≤ maxBody then
    (decodeRecords s (trimmed r.body)).toOption
  else none

/-- The records that a hub keeps of a request which is received at that time. -/
def kept (s : Signal) (receivedAt : UInt64) (r : Request) : List Record :=
  match posted? s r with
  | some rs => if ∀ x ∈ rs, x.Complete then rs.map (·.stamped receivedAt) else []
  | none => []

/-- The answer that tells of so many records kept, and of the position of the last one. -/
def accepted (h : Hub) (s : Signal) (count : Nat) : Response :=
  .json 202 (.obj [("accepted", .nat count),
    ("last_position", .ofOption .nat (lastPosition? h s count))])

/-- What a batch of some type must be like to take in records of a signal. -/
structure Batch.Takes {α : Type} (b : Batch α) (s : Signal) : Prop where
  signal : ∀ x, (b.record x).signal = s
  service : ∀ x, (b.record x).service = b.service x
  lack : ∀ i x, (b.record x).lack? i = if b.lacks x then some (b.complaint i) else none
  stamp : ∀ now x, b.record (b.stamp now x) = (b.record x).stamped now
  decode : ∀ bs, decodeRecords s bs =
    ((Json.Codec.list b.codec).ofFirst bs).map fun xs => xs.map b.record

theorem takes_spans : Batch.spans.Takes .traces where
  signal _ := rfl
  service _ := rfl
  lack i x := by simp [Batch.spans, Record.lack?]
  stamp _ _ := rfl
  decode _ := rfl

theorem takes_logs : Batch.logs.Takes .logs where
  signal _ := rfl
  service _ := rfl
  lack _ _ := rfl
  stamp _ _ := rfl
  decode _ := rfl

theorem takes_metrics : Batch.metrics.Takes .metrics where
  signal _ := rfl
  service _ := rfl
  lack i x := by simp [Batch.metrics, Record.lack?]
  stamp _ _ := rfl
  decode _ := rfl

variable {α : Type} {b : Batch α} {s : Signal} {r : Request} {xs : List α} {h : Hub}
  {receivedAt : UInt64}

/-- A request is read as the batch it posts, or refused. -/
theorem readBatch_cases (hb : b.Takes s) (r : Request) :
    (∃ xs, readBatch b.codec r = .ok xs ∧ posted? s r = some (xs.map b.record)) ∨
      ∃ refusal, readBatch b.codec r = .error refusal ∧ posted? s r = none ∧
        refusal.status ≠ 202 := by
  rw [readBatch, posted?]
  by_cases htype : r.contentType.any isJson
  case neg => exact Or.inr ⟨_, if_pos (by simpa using htype), by simp [htype], by decide⟩
  rw [if_neg (by simp [htype])]
  by_cases hsize : maxBody < r.body.size
  · exact Or.inr ⟨_, if_pos hsize, if_neg fun h => absurd h.2 (Nat.not_le_of_lt hsize), by decide⟩
  rw [if_neg hsize, if_pos ⟨htype, Nat.le_of_not_lt hsize⟩, hb.decode]
  cases (Json.Codec.list b.codec).ofFirst (trimmed r.body) with
  | ok xs => exact Or.inl ⟨xs, rfl, rfl⟩
  | error e =>
    refine Or.inr ⟨refuse e, rfl, rfl, ?_⟩
    cases e <;> simp [refuse, Response.text]

theorem posted?_of_decode (htype : r.contentType.any isJson) (hsize : r.body.size ≤ maxBody)
    {rs : List Record} (hdecode : (decodeRecords s (trimmed r.body)).toOption = some rs) :
    posted? s r = some rs := by
  rw [posted?, if_pos ⟨htype, hsize⟩, hdecode]

theorem toOption_decodeRecords_logs {bs : List UInt8} {xs : List LogEntry}
    (h : ((Json.Codec.list LogEntry.codec).ofFirst bs).toOption = some xs) :
    (decodeRecords .logs bs).toOption = some (xs.map .log) := by
  rw [decodeRecords]
  cases hread : (Json.Codec.list LogEntry.codec).ofFirst bs with
  | error e => rw [hread] at h; cases h
  | ok ys =>
    rw [hread] at h
    cases h
    rfl

theorem fault?_eq_none_iff (hb : b.Takes s) (xs : List α) :
    b.fault? xs = none ↔ ∀ x ∈ xs.map b.record, x.Complete := by
  have hlacks : ∀ x, b.lacks x = false ↔ (b.record x).HasParts := by
    intro x
    rw [← Record.lack?_eq_none_iff 0, hb.lack]
    cases b.lacks x <;> simp
  rw [Batch.fault?]
  cases hempty : xs.findIdx? fun x => (b.service x).isEmpty with
  | some i =>
    obtain ⟨hi, hx, -⟩ := List.findIdx?_eq_some_iff_getElem.1 hempty
    simp only [reduceCtorEq, false_iff]
    intro hall
    have hcomplete := hall _ (List.mem_map_of_mem (List.getElem_mem hi))
    refine hcomplete.1 ?_
    rw [hb.service]
    simpa using hx
  | none =>
    rw [List.findIdx?_eq_none_iff] at hempty
    rw [Option.map_eq_none_iff, List.findIdx?_eq_none_iff]
    constructor
    · intro hnone x hx
      obtain ⟨a, ha, rfl⟩ := List.mem_map.1 hx
      refine ⟨?_, (hlacks a).1 (hnone a ha)⟩
      rw [hb.service]
      simpa using hempty a ha
    · exact fun hall a ha => (hlacks a).2 (hall _ (List.mem_map_of_mem ha)).2

/-- The first place that satisfies `q`, from the items up to it. -/
theorem findIdx?_eq_some_of_take {q : α → Bool} {i : Nat} {x : α} (hi : xs[i]? = some x)
    (hx : q x) (hbefore : ∀ y ∈ xs.take i, q y = false) : xs.findIdx? q = some i := by
  obtain ⟨hlt, rfl⟩ := List.getElem?_eq_some_iff.1 hi
  rw [List.findIdx?_eq_some_iff_getElem]
  refine ⟨hlt, hx, fun j hj => ?_⟩
  rw [hbefore _ (List.mem_take_iff_getElem.2 ⟨j, by omega, rfl⟩)]
  exact Bool.false_ne_true

theorem fault?_of_no_service (hb : b.Takes s) {i : Nat} {x : Record}
    (hi : (xs.map b.record)[i]? = some x) (hx : x.service = "")
    (hbefore : ∀ y ∈ (xs.map b.record).take i, y.service ≠ "") :
    b.fault? xs =
      some (.badRequest ("record " ++ toString i ++ " has an empty service_name")) := by
  rw [List.getElem?_map, Option.map_eq_some_iff] at hi
  obtain ⟨a, ha, rfl⟩ := hi
  have hfirst : xs.findIdx? (fun x => (b.service x).isEmpty) = some i := by
    refine findIdx?_eq_some_of_take ha (by simpa [hb.service] using hx) fun y hy => ?_
    have hne := hbefore (b.record y) (by rw [← List.map_take]; exact List.mem_map_of_mem hy)
    rw [hb.service] at hne
    simpa using hne
  rw [Batch.fault?, hfirst]

theorem fault?_of_lack (hb : b.Takes s) (hservice : ∀ y ∈ xs.map b.record, y.service ≠ "")
    {i : Nat} {x : Record} {text : String} (hi : (xs.map b.record)[i]? = some x)
    (hx : x.lack? i = some text) (hbefore : ∀ y ∈ (xs.map b.record).take i, y.HasParts) :
    b.fault? xs = some (.badRequest text) := by
  rw [List.getElem?_map, Option.map_eq_some_iff] at hi
  obtain ⟨a, ha, rfl⟩ := hi
  rw [hb.lack] at hx
  have hlacks : b.lacks a := by
    by_contra hno
    rw [if_neg hno] at hx
    cases hx
  rw [if_pos hlacks] at hx
  cases hx
  have hnone : xs.findIdx? (fun x => (b.service x).isEmpty) = none := by
    rw [List.findIdx?_eq_none_iff]
    intro y hy
    have hne := hservice _ (List.mem_map_of_mem hy)
    rw [hb.service] at hne
    simpa using hne
  have hfirst : xs.findIdx? b.lacks = some i := by
    refine findIdx?_eq_some_of_take ha hlacks fun y hy => ?_
    have hparts := hbefore (b.record y) (by rw [← List.map_take]; exact List.mem_map_of_mem hy)
    rw [← Record.lack?_eq_none_iff 0, hb.lack] at hparts
    by_contra hyes
    rw [if_pos (by simpa using hyes)] at hparts
    cases hparts
  rw [Batch.fault?, hnone]
  simp only [hfirst, Option.map_some]

/-! ## What becomes of a batch -/

/-- What becomes of a batch: the answer, and the hub after it. -/
structure Intake (s : Signal) (receivedAt : UInt64) (h : Hub) (r : Request)
    (answer : Response) (after : Hub) : Prop where
  status_iff : answer.status = 202 ↔ ∃ rs, posted? s r = some rs ∧ ∀ x ∈ rs, x.Complete
  /-- A batch that lacks nothing is recorded, one record after the other. -/
  kept : ∀ rs, posted? s r = some rs → (∀ x ∈ rs, x.Complete) →
    answer = accepted h s rs.length ∧ after = h.recordAll (rs.map (·.stamped receivedAt))
  /-- The record at place `i` gets the position `i` behind the head. -/
  position : ∀ rs i x, posted? s r = some rs → rs[i]? = some x →
    ((h.recordAll ((rs.take i).map (·.stamped receivedAt))).record (x.stamped receivedAt)).1 =
      h.position s + i
  refused : answer.status ≠ 202 → after = h
  /-- A record without a service is complained of first. -/
  no_service : ∀ rs i x, posted? s r = some rs → rs[i]? = some x → x.service = "" →
    (∀ y ∈ rs.take i, y.service ≠ "") →
    answer = (ApiError.badRequest
      ("record " ++ toString i ++ " has an empty service_name")).response
  lack : ∀ rs i x text, posted? s r = some rs → (∀ y ∈ rs, y.service ≠ "") →
    rs[i]? = some x → x.lack? i = some text → (∀ y ∈ rs.take i, y.HasParts) →
    answer = (ApiError.badRequest text).response

/-- A request that posts no batch is refused. -/
theorem intake_of_refusal {answer : Response} (hp : posted? s r = none)
    (ha : answer.status ≠ 202) : Intake s receivedAt h r answer h where
  status_iff := by simp [hp, ha]
  kept := by simp [hp]
  position := by simp [hp]
  refused _ := rfl
  no_service := by simp [hp]
  lack := by simp [hp]

theorem status_response_ne (e : ApiError) : e.response.status ≠ 202 := by
  cases e <;> simp [ApiError.response, ApiError.status, Response.json]

/-- A batch without a fault is recorded, one record after the other. -/
theorem ingest_of_no_fault (hb : b.Takes s) (hread : readBatch b.codec r = .ok xs)
    (hfault : b.fault? xs = none) : ingest b receivedAt h r =
      (accepted h s xs.length, h.recordAll ((xs.map b.record).map (·.stamped receivedAt))) := by
  have hstamped : xs.map (fun x => b.record (b.stamp receivedAt x)) =
      (xs.map b.record).map (·.stamped receivedAt) := by
    rw [List.map_map]
    exact List.map_congr_left fun x _ => hb.stamp receivedAt x
  have hsignal : ∀ x ∈ (xs.map b.record).map (·.stamped receivedAt), x.signal = s := by
    intro x hx
    obtain ⟨y, hy, rfl⟩ := List.mem_map.1 hx
    obtain ⟨a, -, rfl⟩ := List.mem_map.1 hy
    rw [Record.signal_stamped, hb.signal]
  simp only [ingest, hread, hfault, hstamped, keepAll_eq hsignal, List.length_map, Option.or_none,
    accepted]

theorem position_of_posted (hb : b.Takes s) (h : Hub) (receivedAt : UInt64) {i : Nat} {x : Record}
    (hi : (xs.map b.record)[i]? = some x) :
    ((h.recordAll (((xs.map b.record).take i).map (·.stamped receivedAt))).record
      (x.stamped receivedAt)).1 = h.position s + i := by
  have hsignal : ∀ y ∈ xs.map b.record, (y.stamped receivedAt).signal = s := by
    intro y hy
    obtain ⟨a, -, rfl⟩ := List.mem_map.1 hy
    rw [Record.signal_stamped, hb.signal]
  obtain ⟨hlt, hx⟩ := List.getElem?_eq_some_iff.1 hi
  have hbefore : ∀ y ∈ ((xs.map b.record).take i).map (·.stamped receivedAt), y.signal = s := by
    intro y hy
    obtain ⟨z, hz, rfl⟩ := List.mem_map.1 hy
    exact hsignal z (List.mem_of_mem_take hz)
  have hxs : (x.stamped receivedAt).signal = s := hsignal x (hx ▸ List.getElem_mem hlt)
  show (Hub.recordAll h _).position (x.stamped receivedAt).signal = _
  rw [hxs, position_recordAll hbefore, List.length_map, List.length_take]
  omega

/-- What becomes of a batch of any kind of record. -/
theorem intake_ingest (hb : b.Takes s) (receivedAt : UInt64) (h : Hub) (r : Request) :
    Intake s receivedAt h r (ingest b receivedAt h r).1 (ingest b receivedAt h r).2 := by
  rcases readBatch_cases hb r with ⟨xs, hread, hp⟩ | ⟨refusal, hread, hp, hstatus⟩
  case inr =>
    rw [ingest, hread]
    exact intake_of_refusal hp hstatus
  have hposted : ∀ rs, posted? s r = some rs → rs = xs.map b.record := by
    intro rs hrs
    rw [hp] at hrs
    exact (Option.some.inj hrs).symm
  have hcomplete := fault?_eq_none_iff hb xs
  have hrefused : ∀ e, b.fault? xs = some e → ingest b receivedAt h r = (e.response, h) := by
    intro e he
    simp only [ingest, hread, he]
  constructor
  case status_iff =>
    cases hfault : b.fault? xs with
    | none =>
      rw [ingest_of_no_fault hb hread hfault]
      exact iff_of_true rfl ⟨_, hp, hcomplete.1 hfault⟩
    | some e =>
      rw [hrefused e hfault]
      refine iff_of_false (status_response_ne e) ?_
      rintro ⟨rs, hrs, hall⟩
      obtain rfl := hposted rs hrs
      rw [hcomplete.2 hall] at hfault
      cases hfault
  case kept =>
    intro rs hrs hall
    obtain rfl := hposted rs hrs
    rw [ingest_of_no_fault hb hread (hcomplete.2 hall), List.length_map]
    exact ⟨rfl, rfl⟩
  case position =>
    intro rs i x hrs hi
    obtain rfl := hposted rs hrs
    exact position_of_posted hb h receivedAt hi
  case refused =>
    intro hne
    cases hfault : b.fault? xs with
    | none =>
      rw [ingest_of_no_fault hb hread hfault] at hne
      exact absurd rfl hne
    | some e => rw [hrefused e hfault]
  case no_service =>
    intro rs i x hrs hi hx hbefore
    obtain rfl := hposted rs hrs
    rw [hrefused _ (fault?_of_no_service hb hi hx hbefore)]
  case lack =>
    intro rs i x text hrs hservice hi hx hbefore
    obtain rfl := hposted rs hrs
    rw [hrefused _ (fault?_of_lack hb hservice hi hx hbefore)]

/-- Nothing is kept of a request that is not answered with success. -/
theorem Intake.kept_eq_nil {answer : Response} {after : Hub}
    (hi : Intake s receivedAt h r answer after) (hstatus : answer.status ≠ 202) :
    Http.kept s receivedAt r = [] := by
  rw [Http.kept]
  cases hrs : posted? s r with
  | none => rfl
  | some rs => exact if_neg fun hall => hstatus (hi.status_iff.2 ⟨rs, hrs, hall⟩)

/-- What the hub keeps of a request, whether it is answered with success or not. -/
theorem Intake.after_eq {answer : Response} {after : Hub}
    (hi : Intake s receivedAt h r answer after) :
    after = h.recordAll (Http.kept s receivedAt r) := by
  by_cases hstatus : answer.status = 202
  · obtain ⟨rs, hrs, hall⟩ := hi.status_iff.1 hstatus
    rw [(hi.kept rs hrs hall).2, Http.kept, hrs]
    simp only [if_pos hall]
  · rw [hi.refused hstatus, hi.kept_eq_nil hstatus]
    rfl

/-! ## Requests -/

/-- The path that batches of a signal are posted to. -/
def intakePath : Signal → String
  | .traces => "/api/v1/spans"
  | .logs => "/api/v1/logs"
  | .metrics => "/api/v1/metrics"

/-- What takes in the batches of a signal. -/
def intakeEndpoint : Signal → Endpoint
  | .traces => .postSpans
  | .logs => .postLogs
  | .metrics => .postMetrics

/-- What becomes of a batch at a site: nothing but the hub can change. -/
theorem intake_handle (s : Signal) (receivedAt : UInt64) (site : Site) (r : Request)
    (values : List (List UInt8)) :
    ∃ answer after, handle receivedAt site r values (intakeEndpoint s) =
        (answer, site.withHub after) ∧ Intake s receivedAt site.hub r answer after := by
  cases s with
  | traces => exact ⟨_, _, rfl, intake_ingest takes_spans receivedAt site.hub r⟩
  | logs => exact ⟨_, _, rfl, intake_ingest takes_logs receivedAt site.hub r⟩
  | metrics => exact ⟨_, _, rfl, intake_ingest takes_metrics receivedAt site.hub r⟩

/-- In every router the path leads to the endpoint. -/
theorem exists_route_intake (s : Signal) :
    ∃ route ∈ Router.base, Router.isReadable route ∧
      route.pattern = (Text.bytes (intakePath s)).map Part.literal ∧
      route.handler? .post = some (intakeEndpoint s) := by
  cases s with
  | traces => exact ⟨Router.base[1], by decide, rfl, rfl, rfl⟩
  | logs => exact ⟨Router.base[2], by decide, rfl, rfl, rfl⟩
  | metrics => exact ⟨Router.base[3], by decide, rfl, rfl, rfl⟩

theorem serve_intake {m : MetricsSettings} {router : Router} (hrouter : Router.make m = .ok router)
    (s : Signal) (hmethod : r.method = .post) (hpath : r.target.path = Text.bytes (intakePath s))
    (receivedAt : UInt64) (site : Site) :
    serve router receivedAt site r = handle receivedAt site r [] (intakeEndpoint s) := by
  obtain ⟨route, hbase, hread, hpattern, hhandler⟩ := exists_route_intake s
  rw [← hmethod] at hhandler
  exact serve_literal hrouter hbase hread hpattern hpath (by simp [hmethod]) hhandler receivedAt
    site

/-- A batch that is posted to a hub is kept whole or not at all, and nothing else changes. -/
theorem batch_kept_whole_or_refused {m : MetricsSettings} {router : Router}
    (hrouter : Router.make m = .ok router) (s : Signal) (receivedAt : UInt64) (site : Site)
    (r : Request) (hmethod : r.method = .post)
    (hpath : r.target.path = Text.bytes (intakePath s)) :
    let served := serve router receivedAt site r
    served.2 = site.withHub served.2.hub ∧
      Intake s receivedAt site.hub r served.1 served.2.hub := by
  intro served
  obtain ⟨route, hbase, hread, hpattern, hhandler⟩ := exists_route_intake s
  obtain ⟨answer, after, hhandle, hintake⟩ := intake_handle s receivedAt site r []
  have hserved : served = (answer, site.withHub after) := by
    rw [← hmethod] at hhandler
    exact (serve_literal hrouter hbase hread hpattern hpath (by simp [hmethod]) hhandler receivedAt
      site).trans hhandle
  rw [hserved]
  exact ⟨rfl, hintake⟩

/-- Two lines of a log, the first one without a timestamp. -/
def twoLines : Request where
  method := .post
  target := ⟨Text.bytes (intakePath .logs), []⟩
  contentType := some "application/json"
  body := ("[\x7b\"service_name\":\"a\",\"severity\":\"INFO\",\"body\":\"x\"\x7d," ++
    "\x7b\"service_name\":\"a\",\"severity\":\"INFO\",\"body\":\"y\"," ++
    "\"timestamp_unix_nano\":5\x7d]").toUTF8

theorem two_lines_kept :
    let site := Site.start (.empty {}) {}
    Router.make { enabled := false } = .ok Router.base ∧ twoLines.method = .post ∧
      twoLines.target.path = Text.bytes (intakePath .logs) ∧
      (serve Router.base 9 site twoLines).1 = accepted site.hub .logs 2 ∧
      (serve Router.base 9 site twoLines).2.hub = site.hub.recordAll
        [.log ⟨9, "a", "INFO", "x", none, none, .empty⟩,
          .log ⟨5, "a", "INFO", "y", none, none, .empty⟩] := by
  intro site
  have hrouter : Router.make { enabled := false } = .ok Router.base := rfl
  have hread : ((Json.Codec.list LogEntry.codec).ofFirst (trimmed twoLines.body)).toOption =
      some [⟨0, "a", "INFO", "x", none, none, .empty⟩,
        ⟨5, "a", "INFO", "y", none, none, .empty⟩] := by decide +kernel
  have hposted := posted?_of_decode (r := twoLines) (by decide +kernel) (by decide +kernel)
    (toOption_decodeRecords_logs hread)
  obtain ⟨-, hintake⟩ := batch_kept_whole_or_refused hrouter .logs 9 site twoLines rfl rfl
  obtain ⟨hanswer, hafter⟩ := hintake.kept _ hposted (by decide +kernel)
  simp only [List.map_cons, List.map_nil, Record.stamped, if_true,
    if_neg (show ¬ (5 : UInt64) = 0 by decide)] at hafter
  exact ⟨hrouter, rfl, rfl, hanswer, hafter⟩

end Http

end SignalHub
