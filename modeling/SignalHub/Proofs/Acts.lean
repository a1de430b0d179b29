import SignalHub.Proofs.Index
import SignalHub.Proofs.Intake
import SignalHub.Proofs.Moves
/-!
# Events and requests

Beside the events of a world there is what clients ask for: queries of one archive or of all, look
ups of traces, and batches of records. Together they are the acts that a hub can meet, in any order.

Whatever is done, the hub itself only meets a few things: records are recorded, someone subscribes,
leaves or reads a ping, or a query is counted.

Results:
* `World.act`, `World.play`: what acts do.
* `Act.accepts`: the records that are accepted by an act.
* `Hub.Becomes.preserves`: what becomes of a hub keeps what each part of it keeps.
* `World.hub_act`: what an act makes of the hub.
-/
namespace SignalHub

/-- Something that happens, or that a client asks for. -/
inductive Act where
  | event (e : Event)
  /-- A query about one signal, or about all. -/
  | query (about : Option Signal) (f : Filter)
  /-- A trace is looked up; `value` is its name as it stands in a path. -/
  | trace (value : List UInt8)
  /-- A batch of records of a signal is posted. -/
  | post (s : Signal) (receivedAt : UInt64) (r : Http.Request)

/-- The records that are accepted by an event. -/
def Event.accepts : Event → List Record
  | .record r => [r]
  | _ => []

/-- The records that are accepted by an act. -/
def Act.accepts : Act → List Record
  | .event e => e.accepts
  | .query _ _ => []
  | .trace _ => []
  | .post s receivedAt r => Http.kept s receivedAt r

/-- The query that an act is: the signal that it is about, if not all, and its filter. -/
def Act.query? : Act → Option (Option Signal × Filter)
  | .query about f => some (about, f)
  | .event _ => none
  | .trace _ => none
  | .post _ _ _ => none

namespace Hub

/-- The hub after a query about one signal, or about all. -/
def ask (h : Hub) (about : Option Signal) (f : Filter) : Hub :=
  match about with
  | none => (h.query f).2
  | some .traces => (h.querySpans f).2
  | some .logs => (h.queryLogs f).2
  | some .metrics => (h.queryMetrics f).2

/-- What can become of a hub without a query, when these records are accepted. -/
inductive Becomes (h : Hub) : List Record → Hub → Prop where
  | accepts (rs : List Record) : Becomes h rs (h.recordAll rs)
  | subscribes : Becomes h [] h.subscribe.2
  | discards (id : Nat) : Becomes h [] (h.discard id)
  | readsPing (id : Nat) : Becomes h [] (h.readPing id).2

theorem Becomes.refl (h : Hub) : h.Becomes [] h := .accepts []

/-- What is kept by a record and by a change of subscribers is kept in any case. -/
theorem Becomes.preserves {P : Hub → List Record → Prop}
    (hrecord : ∀ {h rs}, P h rs → ∀ r, P (h.record r).2 (rs ++ [r]))
    (hsubscribe : ∀ {h rs}, P h rs → P h.subscribe.2 rs)
    (hdiscard : ∀ {h rs}, P h rs → ∀ id, P (h.discard id) rs)
    (hread : ∀ {h rs}, P h rs → ∀ id, P (h.readPing id).2 rs)
    {h h' : Hub} {rs new : List Record} (hb : h.Becomes new h') (hp : P h rs) :
    P h' (rs ++ new) := by
  have hall : ∀ new h rs, P h rs → P (h.recordAll new) (rs ++ new) := by
    intro new
    induction new with
    | nil => exact fun h rs hp => (List.append_nil rs).symm ▸ hp
    | cons r new ih =>
      intro h rs hp
      have hrest := ih _ _ (hrecord hp r)
      rwa [List.append_assoc, List.singleton_append] at hrest
  cases hb with
  | accepts => exact hall new h rs hp
  | subscribes =>
    rw [List.append_nil]
    exact hsubscribe hp
  | discards id =>
    rw [List.append_nil]
    exact hdiscard hp id
  | readsPing id =>
    rw [List.append_nil]
    exact hread hp id

end Hub

theorem Courier.Rouses.becomes {now : Nat} {h g : Hub} {c : Courier} {l : Listener} {b : Bool}
    {due : Nat} (hr : c.Rouses now h g l b due) : h.Becomes [] g := by
  cases hr with
  | abandoned | resumed | ticked => exact .refl h
  | pinged => exact .readsPing c.feed.id

theorem Courier.Turns.becomes {now : Nat} {h h' : Hub} {c c' : Courier}
    (ht : c.Turns now h h' c') : h.Becomes [] h' := by
  cases ht with
  | ends => exact .discards c.feed.id
  | puts => exact .refl h
  | looks _ _ _ hr => exact hr.becomes

namespace World

/-- What an act does. -/
def act (w : World) : Act → World
  | .event e => w.step e
  | .query about f => { w with site := w.site.withHub (w.hub.ask about f) }
  | .trace value => { w with site := (Http.answer w.site (Http.serveTrace w.site value)).2 }
  | .post s receivedAt r =>
    { w with
      site := (Http.handle receivedAt w.site r [] (Http.intakeEndpoint s)).2
      accepted := w.accepted ++ Http.kept s receivedAt r }

/-- What acts do, one after the other. -/
def play (w : World) (acts : List Act) : World := acts.foldl act w

variable (w : World)

theorem play_cons (a : Act) (acts : List Act) : w.play (a :: acts) = (w.act a).play acts := rfl

theorem hub_take (id : Nat) : (w.site.take id).2.hub = w.hub := by
  rw [Site.take]
  split <;> rfl

/-- What an event makes of the hub. -/
theorem becomes_step (e : Event) : w.hub.Becomes e.accepts (w.step e).hub := by
  cases e with
  | record r => exact .accepts [r]
  | attach f backfill =>
    cases hv : f.validate with
    | error =>
      simp only [step, Feed.attach, hv]
      exact .refl w.hub
    | ok =>
      simp only [step, Feed.attach, hv]
      exact .subscribes
  | live r =>
    simp only [step, openLive_eq]
    exact .subscribes
  | poll id =>
    simp only [step]
    split <;> exact .refl w.hub
  | drop id =>
    -- Nothing happens unless there is such a feed.
    simp only [step]
    split
    · exact .refl w.hub
    · exact .discards id
  | launch id capacity keepalive listener =>
    simp only [step]
    split <;> exact .refl w.hub
  | turn id =>
    simp only [step]
    split
    · exact .refl w.hub
    split
    · exact .refl w.hub
    · rename_i ht
      exact (Courier.turns_of_turn ht).becomes
  | take id =>
    have hsite : (w.step (.take id)).hub = w.hub := by
      rw [hub, site_take]
      exact w.hub_take id
    rw [hsite]
    exact .refl w.hub
  | pause | resume | close | leave | shutdown | advance => exact .refl w.hub

/-- What an event adds to the records that were accepted. -/
theorem accepted_step (e : Event) :
    (w.step e).accepted = w.accepted ++ e.accepts := by
  cases e with
  | record r => rfl
  | turn id =>
    rw [step]
    split
    · exact (List.append_nil _).symm
    · split <;> exact (List.append_nil _).symm
  | attach | live | poll | drop | launch | take =>
    rw [step]
    split <;> exact (List.append_nil _).symm
  | pause | resume | close | leave | shutdown | advance => exact (List.append_nil _).symm

theorem accepted_act (a : Act) :
    (w.act a).accepted = w.accepted ++ a.accepts := by
  cases a with
  | event e => exact w.accepted_step e
  | query about f => exact (List.append_nil _).symm
  | trace value => exact (List.append_nil _).symm
  | post s receivedAt r => rfl

/-- Looking up a trace changes nothing. -/
theorem act_trace (value : List UInt8) : w.act (.trace value) = w := by
  have hanswer : (Http.answer w.site (Http.serveTrace w.site value)).2 = w.site := by
    rw [Http.serveTrace]
    cases Http.pathText "trace_id" value with
    | error e => rfl
    | ok traceId =>
      simp only [bind, Except.bind]
      cases w.site.hub.trace traceId <;> rfl
  show { w with site := (Http.answer w.site (Http.serveTrace w.site value)).2 } = w
  rw [hanswer]

theorem hub_trace (value : List UInt8) : (w.act (.trace value)).hub = w.hub :=
  congrArg hub (w.act_trace value)

/-- A batch that is posted is recorded as far as it is kept. -/
theorem hub_post (s : Signal) (receivedAt : UInt64) (r : Http.Request) :
    (w.act (.post s receivedAt r)).hub = w.hub.recordAll (Http.kept s receivedAt r) := by
  obtain ⟨answer, after, hhandle, hintake⟩ := Http.intake_handle s receivedAt w.site r []
  show (Http.handle receivedAt w.site r [] (Http.intakeEndpoint s)).2.hub = _
  rw [hhandle]
  exact hintake.after_eq

/-- What an act makes of the hub: it answers a query, or something becomes of it. -/
theorem hub_act (a : Act) :
    (∃ about f, a = .query about f ∧ (w.act a).hub = w.hub.ask about f) ∨
      a.query? = none ∧ w.hub.Becomes a.accepts (w.act a).hub := by
  cases a with
  | query about f => exact Or.inl ⟨about, f, rfl, rfl⟩
  | event e => exact Or.inr ⟨rfl, w.becomes_step e⟩
  | trace value =>
    have hsame := w.hub_trace value
    rw [hsame]
    exact Or.inr ⟨rfl, .refl w.hub⟩
  | post s receivedAt r =>
    have hrecorded := w.hub_post s receivedAt r
    rw [hrecorded]
    exact Or.inr ⟨rfl, .accepts _⟩

end World

end SignalHub
