import SignalHub.Proofs.Asking
import SignalHub.Proofs.Exchange
import SignalHub.Proofs.Intake
import SignalHub.Proofs.Layouts
/-!
# Metric points at another hub

A metric point is read from its own text, and only its value can come back as another double: as
the one that its digits, as a double, are scaled to. That one is finite, has the same sign and is
next to the value, and it is the value where reading rounds only once. So a hub to which the answer
of another hub is posted keeps each point with everything but its value as it was, and the value as
it is read. That the value need not be the same is seen at a point whose digits, with the zero
behind the point, are too long for a double.

Results:
* `Json.Codec.Carries`: what is read of a value that may have doubles in it.
* `MetricPoint.Copy`: what a point becomes that is written and read.
* `MetricPoint.Copy.carries`: a copy is read from the text of its point.
* `Http.serve_asked`, `Http.serve_posted`: points are shown by one hub and kept by another.
* `Http.points_carried_over`: what becomes of points that one hub shows and another takes in.
-/
namespace SignalHub

/-! ## Texts with doubles -/

namespace Json

/-- A finite double is read as what its decimal is scaled to. -/
theorem transcribed_float {f g : Float} (hf : f.isFinite) (hg : Decimal.reread f = .ok g) :
    Transcribed (.num (.float f)) (.num (.float g)) :=
  transcribed_num (exists_cons_floatText hf) fun hrest => parseNumber_floatText hf hg hrest

namespace Codec

variable {α : Type} {c : Codec α} {a b : α} {as bs : List α}

/-- Whether the text of `a` is read as what is written of `b`, and that is decoded as `b`. -/
structure Carries (c : Codec α) (a b : α) : Prop where
  transcribed : Transcribed (c.encode a) (c.encode b)
  decode : ∀ src, c.decode src (Node.ofJson (c.encode b)) = .ok b

theorem Lawful.carries {depth : Nat} {defaults : Json} (hc : c.Lawful depth defaults) (a : α) :
    c.Carries a a :=
  ⟨(hc.plain a).transcribed, fun src => hc.reads a src _ .refl⟩

theorem carries_double {f g : Float} (hf : f.isFinite) (hg : Decimal.reread f = .ok g) :
    double.Carries f g :=
  ⟨transcribed_float hf hg, fun _ => rfl⟩

/-- What is carried is read from the text. -/
theorem Carries.reads (h : c.Carries a b) : c.Reads b (c.encode a) :=
  reads_of_decode h.transcribed (h.decode .text)

/-- Only one value is read from a text. -/
theorem Reads.unique {j : Json} (ha : c.Reads a j) (hb : c.Reads b j) : a = b := by
  obtain ⟨s, hs, ha⟩ := ha
  obtain ⟨t, ht, hb⟩ := hb
  rw [ofText, hs] at ha
  rw [ofText, ht, ha] at hb
  exact Except.ok.inj hb

theorem decodeItems_ofItems {src : Source}
    (h : ∀ b ∈ bs, c.decode src (Node.ofJson (c.encode b)) = .ok b) (i : Nat) :
    decodeItems c src i (Node.ofItems (bs.map c.encode)) = .ok bs := by
  induction bs generalizing i with
  | nil => rfl
  | cons b bs ih =>
    have hrest := ih (fun b hb => h b (List.mem_cons_of_mem _ hb)) (i + 1)
    exact bind_eq_ok (inside_ok (h b List.mem_cons_self)) (bind_eq_ok hrest rfl)

/-- A list is carried item by item. -/
theorem carries_list (h : List.Forall₂ c.Carries as bs) : (list c).Carries as bs where
  transcribed := by
    refine transcribed_arr ?_
    rw [List.forall₂_map_left_iff, List.forall₂_map_right_iff]
    exact h.imp fun _ _ hc => hc.transcribed
  decode src := by
    refine bind_eq_ok (decodeItems_ofItems (fun b hb => ?_) 0) rfl
    obtain ⟨i, hi, rfl⟩ := List.mem_iff_getElem.1 hb
    exact (h.get (h.length_eq ▸ hi) hi).decode src

/-- A structure is carried field by field. -/
theorem carries_struct {σ : Type} {fields : Fields Codec σ σ} {label : String} {s t : σ}
    (hnodup : fields.names.Nodup) (hrebuild : fields.rebuild t = t)
    (h : fields.All fun f => f.codec.Carries (f.get s) (f.get t)) :
    (struct label fields).Carries s t where
  transcribed :=
    transcribed_obj (Fields.forall₂_mapList _ _ (h.imp fun _ hf => ⟨rfl, hf.transcribed⟩))
  decode src := by
    have hnames : (fields.mapList fun f => (f.name, f.codec.encode (f.get t))).map (·.1) =
        fields.names := Fields.map_mapList _ _ fields
    have hmembers := Fields.all_mem_mapList (fun f => (f.name, f.codec.encode (f.get t))) fields
    refine decodeMembers_of_found hrebuild (hnames.symm ▸ hnodup)
      (fun m hm => hnames ▸ List.mem_map_of_mem hm) ?_
    exact (h.and hmembers).imp fun f hf => .inl ⟨_, hf.2, hf.1.decode src⟩

end Codec

end Json

/-! ## Points -/

namespace MetricPoint

open Json Json.Codec

/-- What a point becomes that is written and read: only the value is read anew. -/
structure Copy (p q : MetricPoint) : Prop where
  same : q = { p with value := q.value }
  reread : Decimal.reread p.value = .ok q.value
  retained : Decimal.Retained p.value q.value

variable {p q : MetricPoint} {ps : List MetricPoint}

theorem exists_copy (hp : p.value.isFinite) : ∃ q, Copy p q := by
  obtain ⟨w, hreread, hretained⟩ := Decimal.exists_reread hp
  exact ⟨{ p with value := w }, rfl, hreread, hretained⟩

theorem Copy.eq (h : Copy p q) {w : Float} (hw : (Decimal.reread p.value).toOption = some w) :
    q = { p with value := w } := by
  have hvalue : q.value = w := by
    rw [h.reread] at hw
    exact Option.some.inj hw
  rw [h.same, hvalue]

theorem exists_copies (h : ∀ p ∈ ps, p.value.isFinite) : ∃ qs, List.Forall₂ Copy ps qs := by
  induction ps with
  | nil => exact ⟨[], .nil⟩
  | cons p ps ih =>
    obtain ⟨q, hq⟩ := exists_copy (h p List.mem_cons_self)
    obtain ⟨qs, hqs⟩ := ih fun p hp => h p (List.mem_cons_of_mem _ hp)
    exact ⟨q :: qs, .cons hq hqs⟩

theorem lawful_instrument {depth : Nat} {defaults : Json} :
    Instrument.codec.Lawful depth defaults :=
  lawful_choice fun instrument => by cases instrument <;> decide

/-- The text of a point is read as its copy. -/
theorem Copy.carries (h : Copy p q) (hp : p.value.isFinite) : codec.Carries p q := by
  have plain {α : Type} {c : Codec α} (hc : c.Lawful 1 (.obj [])) (a : α) : c.Carries a a :=
    hc.carries a
  have hvalue := carries_double hp h.reread
  rw [h.same]
  refine carries_struct (by decide) (rebuild_fields _) ?_
  exact ⟨⟨⟨⟨⟨⟨trivial, plain (lawful_word _) _⟩, plain lawful_text _⟩, plain lawful_text _⟩,
    plain lawful_instrument _⟩, hvalue⟩, plain Attributes.lawful_codec _⟩

end MetricPoint

/-! ## Requests -/

namespace Http

open MetricPoint (Copy)

/-- A point with a finite value that has all that a posted point must have, and a timestamp. -/
structure Portable (p : MetricPoint) : Prop where
  finite : p.value.isFinite
  service : p.service ≠ ""
  name : p.name ≠ ""
  timestamp : p.timestamp ≠ 0

/-- A request for the metric points that match a filter. -/
structure Asks (r : Request) (f : Filter) : Prop where
  method : r.method = .get
  path : r.target.path = Text.bytes (queryPath (some .metrics))
  filter : readParams Filter.params r.target = .ok f

/-- A request that posts metric points as a hub writes them. -/
structure Posts (r : Request) (ps : List MetricPoint) : Prop where
  method : r.method = .post
  path : r.target.path = Text.bytes (intakePath .metrics)
  type : r.contentType.any isJson
  body : r.body.data.toList = Json.render (metricsJson ps)
  size : r.body.size ≤ maxBody

variable {m : MetricsSettings} {router : Router} {r : Request} {f : Filter}
  {ps qs : List MetricPoint}

/-- A hub that is asked for metric points shows what it finds. -/
theorem serve_asked (hrouter : Router.make m = .ok router) (h : Asks r f) {site : Site}
    {found : QueryResult} (hfound : (site.hub.query f).1 = .ok found) (now : UInt64) :
    (serve router now site r).1 = .json 200 (.obj
      [("total", .nat found.metrics.length), ("metrics", metricsJson found.metrics)]) := by
  rw [serve_query hrouter (some .metrics) h.method h.path,
    handle_query (some .metrics) now site [] h.filter, hfound]
  rfl

/-- A body that does not end in a blank is taken as it is. -/
theorem trimmed_concat {body : ByteArray} {front : List UInt8} {b : UInt8}
    (hbody : body.data.toList = front ++ [b]) (hb : b ≠ 0x20) : trimmed body = front ++ [b] := by
  have hsize : body.size = front.length + 1 := by
    rw [← ByteArray.size_data, ← Array.length_toList, hbody, List.length_append,
      List.length_singleton]
  have hlast : body[front.length]? = some b := by
    have hlt : front.length < body.size := by omega
    rw [getElem?_pos body front.length hlt, ByteArray.getElem_eq_getElem_data]
    simp [← Array.getElem_toList, hbody]
  have htrim : trimmedSize body body.size = body.size := by
    rw [hsize, trimmedSize, hlast, if_neg (by simpa using hb)]
  rw [trimmed, htrim]
  simp [hbody]

theorem renderItems_concat (items : List Json) :
    ∃ front, Json.renderItems items = front ++ [0x5D] := by
  induction items with
  | nil => exact ⟨[], rfl⟩
  | cons j items ih =>
    obtain ⟨front, hfront⟩ := ih
    refine ⟨0x2C :: Json.render j ++ front, ?_⟩
    rw [Json.renderItems, hfront, List.append_assoc]

/-- The text of a list ends in a bracket. -/
theorem render_arr_concat (items : List Json) :
    ∃ front, Json.render (.arr items) = front ++ [0x5D] := by
  cases items with
  | nil => exact ⟨[0x5B], rfl⟩
  | cons j items =>
    obtain ⟨front, hfront⟩ := renderItems_concat items
    refine ⟨0x5B :: Json.render j ++ front, ?_⟩
    rw [Json.render, hfront, List.append_assoc]

/-- Posted points are read as their copies. -/
theorem posted?_copies (h : Posts r ps) (hps : ∀ p ∈ ps, Portable p)
    (hcopies : List.Forall₂ Copy ps qs) : posted? .metrics r = some (qs.map .metric) := by
  have hcarries : List.Forall₂ MetricPoint.codec.Carries ps qs :=
    ((List.forall₂_and_left ps qs).2 ⟨hps, hcopies⟩).imp fun _ _ hpq => hpq.2.carries hpq.1.finite
  have hread := Json.Codec.carries_list hcarries
  obtain ⟨front, hfront⟩ := render_arr_concat (ps.map MetricPoint.codec.encode)
  have hbody : trimmed r.body = Json.render (metricsJson ps) := by
    have hconcat := h.body.trans hfront
    rw [trimmed_concat hconcat (by decide)]
    exact hfront.symm
  have hparse : Json.parse (Json.render (metricsJson ps)) =
      (Node.ofJson (metricsJson qs), some []) := hread.transcribed.parse_render
  have hfirst : (Json.Codec.list MetricPoint.codec).ofFirst (trimmed r.body) = .ok qs := by
    rw [hbody, Json.Codec.ofFirst, hparse]
    exact hread.decode .text
  refine posted?_of_decode h.type h.size ?_
  rw [decodeRecords, hfirst]
  rfl

/-- Copies of points that can be kept as they are can be, too. -/
theorem portable_copies (hcopies : List.Forall₂ Copy ps qs) (hps : ∀ p ∈ ps, Portable p) :
    ∀ q ∈ qs, Portable q := by
  induction hcopies with
  | nil => exact hps
  | @cons p q ps qs hcopy hcopies ih =>
    obtain ⟨hp, hps⟩ := List.forall_mem_cons.1 hps
    refine List.forall_mem_cons.2 ⟨⟨hcopy.retained.finite, ?_, ?_, ?_⟩, ih hps⟩
    · rw [hcopy.same]
      exact hp.service
    · rw [hcopy.same]
      exact hp.name
    · rw [hcopy.same]
      exact hp.timestamp

theorem stamped_portable {qs : List MetricPoint} (hqs : ∀ q ∈ qs, Portable q) (now : UInt64) :
    (qs.map Record.metric).map (·.stamped now) = qs.map Record.metric := by
  rw [List.map_map]
  refine List.map_congr_left fun q hq => ?_
  simp [Record.stamped, (hqs q hq).timestamp]

/-- A hub to which points are posted keeps their copies, one after the other. -/
theorem serve_posted (hrouter : Router.make m = .ok router) (h : Posts r ps)
    (hps : ∀ p ∈ ps, Portable p) (hcopies : List.Forall₂ Copy ps qs) (now : UInt64) (site : Site) :
    serve router now site r = (accepted site.hub .metrics ps.length,
      site.withHub (site.hub.recordAll (qs.map .metric))) := by
  have hqs := portable_copies hcopies hps
  have hcomplete : ∀ x ∈ qs.map Record.metric, x.Complete := by
    intro x hx
    obtain ⟨q, hq, rfl⟩ := List.mem_map.1 hx
    exact ⟨(hqs q hq).service, (hqs q hq).name⟩
  obtain ⟨answer, after, hhandle, hintake⟩ := intake_handle .metrics now site r []
  obtain ⟨rfl, rfl⟩ := hintake.kept _ (posted?_copies h hps hcopies) hcomplete
  rw [serve_intake hrouter .metrics h.method h.path, hhandle, stamped_portable hqs,
    List.length_map, hcopies.length_eq]

/-- A point with a finite value is read from its text with everything but its value as it was, and
the value as its digits are scaled, which keeps its sign and all of its size but a little, and the
value as it was where reading rounds once. So a hub keeps what another hub shows of its points. -/
theorem points_carried_over {m m' : MetricsSettings} {router router' : Router}
    (hrouter : Router.make m = .ok router) (hrouter' : Router.make m' = .ok router') :
    (∀ p : MetricPoint, p.value.isFinite →
      ∃ q, Copy p q ∧ MetricPoint.codec.Reads q (MetricPoint.codec.encode p)) ∧
    (∀ (now : UInt64) (site : Site) (r : Request) (f : Filter) (found : QueryResult),
      Asks r f → (site.hub.query f).1 = .ok found →
      (serve router now site r).1 = .json 200 (.obj
        [("total", .nat found.metrics.length), ("metrics", metricsJson found.metrics)])) ∧
    ∀ (now : UInt64) (site : Site) (r : Request) (ps : List MetricPoint),
      (∀ p ∈ ps, Portable p) → Posts r ps →
      ∃ qs, List.Forall₂ Copy ps qs ∧ serve router' now site r =
        (accepted site.hub .metrics ps.length,
          site.withHub (site.hub.recordAll (qs.map .metric))) := by
  refine ⟨fun p hp => ?_, fun now site r f found h hfound => ?_, fun now site r ps hps h => ?_⟩
  · obtain ⟨q, hcopy⟩ := MetricPoint.exists_copy hp
    exact ⟨q, hcopy, (hcopy.carries hp).reads⟩
  · exact serve_asked hrouter h hfound now
  · obtain ⟨qs, hcopies⟩ := MetricPoint.exists_copies fun p hp => (hps p hp).finite
    exact ⟨qs, hcopies, serve_posted hrouter' h hps hcopies now site⟩

/-- A point whose digits, with the zero behind the point, are too many for a double. -/
def drifting : MetricPoint := ⟨1, "a", "m", .sum, Float.ofNat 7205759403792804, .empty⟩

/-- It comes back with its value smaller by one. -/
theorem drifting_not_read_as_written :
    let drifted := { drifting with value := Float.ofNat 7205759403792803 }
    drifting.value.isFinite ∧ drifted.value ≠ drifting.value ∧
      MetricPoint.codec.Reads drifted (MetricPoint.codec.encode drifting) ∧
      ¬ MetricPoint.codec.Reads drifting (MetricPoint.codec.encode drifting) := by
  intro drifted
  have hfinite : drifting.value.isFinite := by decide +kernel
  have hne : drifted.value ≠ drifting.value := by decide +kernel
  obtain ⟨q, hcopy⟩ := MetricPoint.exists_copy hfinite
  have hq : q = drifted := hcopy.eq (by decide +kernel)
  rw [hq] at hcopy
  have hreads := (hcopy.carries hfinite).reads
  exact ⟨hfinite, hne, hreads, fun h => hne (congrArg MetricPoint.value (hreads.unique h))⟩

/-- A point whose value takes one digit. -/
def reading : MetricPoint := ⟨5, "a", "m", .gauge, 0.1, .empty⟩

/-- The request for all metric points. -/
def askAll : Request where
  method := .get
  target := ⟨Text.bytes (queryPath (some .metrics)), []⟩
  contentType := none
  body := .empty

/-- The request that posts the point. -/
def postReading : Request where
  method := .post
  target := ⟨Text.bytes (intakePath .metrics), []⟩
  contentType := some "application/json"
  body := ⟨(Json.render (metricsJson [reading])).toArray⟩

theorem reading_carried_over :
    let empty := Site.start (.empty {}) {}
    let site := empty.withHub (empty.hub.recordAll [.metric reading])
    Router.make { enabled := false } = .ok Router.base ∧ Asks askAll .all ∧ Portable reading ∧
      Posts postReading [reading] ∧
      (serve Router.base 7 site askAll).1 =
        .json 200 (.obj [("total", .nat 1), ("metrics", metricsJson [reading])]) ∧
      (serve Router.base 9 empty postReading).2 = site := by
  intro empty site
  have hrouter : Router.make { enabled := false } = .ok Router.base := rfl
  have hasks : Asks askAll .all := ⟨rfl, rfl, rfl⟩
  have hportable : Portable reading :=
    ⟨by decide +kernel, by decide, by decide, by decide⟩
  have hposts : Posts postReading [reading] :=
    ⟨rfl, rfl, by decide +kernel, List.toList_toArray, by decide +kernel⟩
  obtain ⟨hread, hshown, hkept⟩ := points_carried_over hrouter hrouter
  have hfound : (site.hub.query .all).1 = .ok ⟨[], [], [reading]⟩ := rfl
  obtain ⟨qs, hcopies, hserved⟩ := hkept 9 empty postReading [reading]
    (List.forall_mem_singleton.2 hportable) hposts
  obtain ⟨q, _, hcopy, hnil, rfl⟩ := List.forall₂_cons_left_iff.1 hcopies
  obtain rfl := List.forall₂_nil_left_iff.1 hnil
  have hq : q = reading := hcopy.eq (by decide +kernel)
  refine ⟨hrouter, hasks, hportable, hposts, ?_, ?_⟩
  · exact hshown 7 site askAll .all _ hasks hfound
  · rw [hserved, hq]
    rfl

end Http

end SignalHub
