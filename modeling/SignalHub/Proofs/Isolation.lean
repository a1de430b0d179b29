import SignalHub.Proofs.Registers
import SignalHub.Proofs.Without
/-!
# What subscribers know of each other

Take away all that one subscriber does: its coming, its polls and turns, its pauses and its end.
What the others are and see stays the same, and so do the answers to all requests, but for the
numbers of those who came later, the number of subscribers and the metrics about subscribers.

Results:
* `Scene.Lacks`: a scene and the scene without one of its subscribers.
* `Scene.lacks_given`, `Scene.Lacks.step_self`: its coming, and what it does itself.
* `Scene.Lacks.step`, `Scene.Lacks.run`: what others do, and whole runs.
* `Scene.Alike`: what is the same for others in two scenes.
* `Scene.subscribers_isolated`: runs with and without it are alike.
-/
namespace SignalHub

/-! ## Deeds -/

/-- A number in a path, in the absence of `b`. It stays as it is spelled unless it changes. -/
def Http.renumberValue (b : Nat) (value : List UInt8) : List UInt8 :=
  match pathWord "subscriber_id" value with
  | .ok id => if shift b id = id then value else Text.bytes (toString (shift b id))
  | .error _ => value

theorem Http.pathWord_renumberValue (b : Nat) (value : List UInt8) :
    pathWord "subscriber_id" (renumberValue b value) =
      (pathWord "subscriber_id" value).map (shift b) := by
  unfold renumberValue
  cases hid : pathWord "subscriber_id" value with
  | error e => exact hid
  | ok id =>
    simp only
    split
    · rename_i hsame
      rw [hid, Except.map, hsame]
    · have hle : shift b id ≤ Word.top := Nat.le_trans (shift_le b id) (le_top_of_pathWord hid)
      rw [pathWord_toString _ hle]
      rfl

/-- The subscription that a deed is about. -/
def Deed.about : Deed → Option Nat
  | .act a => a.about
  | .subscribe => none
  | .read id | .unsubscribe id | .release id => some id
  | .switch value _ => (Http.pathWord "subscriber_id" value).toOption

/-- The deed in the absence of `b`. -/
def Deed.renumber (b : Nat) : Deed → Deed
  | .act a => .act (a.renumber b)
  | .subscribe => .subscribe
  | .read id => .read (shift b id)
  | .unsubscribe id => .unsubscribe (shift b id)
  | .release id => .release (shift b id)
  | .switch value paused => .switch (Http.renumberValue b value) paused

/-- What is done by others than `b`, and what happens to all. -/
def Deed.others (b : Nat) (ds : List Deed) : List Deed := ds.filter fun d => d.about ≠ some b

/-- The holder under another number. -/
def Holder.withId (id : Nat) (o : Holder) : Holder := { o with id := id }

/-- The holder in the absence of `b`. -/
def Holder.renumber (b : Nat) (o : Holder) : Holder := o.withId (shift b o.id)

theorem World.Lacks.switch?_eq {b i : Nat} {w w' : World} (hw : w.Lacks b w') (hi : i ≠ b) :
    w'.site.switch? (shift b i) = w.site.switch? i := by
  have hfind := find?_leaveOut (fun c : Courier => c.feed.id) (Courier.renumber b) (b := b)
    (l := w.couriers) (p := fun c => c.feed.id == i && c.isLive && !c.hasEnded)
    (q := fun c => c.feed.id == shift b i && c.isLive && !c.hasEnded)
    (fun c hc => by simp [hc, Ne.symm hi]) fun c hc => by
      show (shift b c.feed.id == shift b i && c.isLive && !c.hasEnded) = _
      rw [show (shift b c.feed.id == shift b i) = (c.feed.id == i) from
        decide_eq_decide.2 (shift_inj hc hi)]
  rw [← hw.couriers_eq] at hfind
  rw [Site.switch?, Site.switch?, show w'.site.couriers = w'.couriers from rfl, hfind,
    Option.map_map]
  rfl

namespace Scene

/-- The second scene is what the first one is in the absence of `b`. -/
structure Lacks (b : Nat) (s s' : Scene) : Prop where
  world : s.world.Lacks b s'.world
  holders_eq : s'.holders = leaveOut Holder.id (Holder.renumber b) b s.holders
  register_eq : s'.register = leaveOut id (shift b) b s.register

variable {b i : Nat} {s s' : Scene} {d : Deed}

theorem Lacks.holder?_eq (hs : s.Lacks b s') (hi : i ≠ b) :
    s'.holder? (shift b i) = (s.holder? i).map (·.renumber b) := by
  rw [holder?, hs.holders_eq]
  exact find?_key_leaveOut Holder.id (Holder.renumber b) (fun _ => rfl) hi

theorem Lacks.withHub (hs : s.Lacks b s') {h h' : Hub} (hh : h.Lacks b h') :
    (s.withHub h).Lacks b (s'.withHub h') :=
  ⟨hs.world.withHub hh, hs.holders_eq, hs.register_eq⟩

theorem Lacks.withHub_self (hs : s.Lacks b s') {h : Hub} (hh : h.Lacks b s'.hub) :
    (s.withHub h).Lacks b s' := hs.withHub hh

/-- What is struck off and entered in the register. -/
theorem leaveOut_register {closed opened : Option Nat} (hclosed : closed ≠ some b)
    (hopened : opened ≠ some b) (l : List Nat) :
    leaveOut id (shift b) b ((l.filter fun i => closed ≠ some i) ++ opened.toList) =
      ((leaveOut id (shift b) b l).filter fun i => closed.map (shift b) ≠ some i) ++
        (opened.map (shift b)).toList := by
  rw [leaveOut_append]
  congr 1
  · refine leaveOut_filter id (shift b) fun j hj => ?_
    cases closed with
    | none => rfl
    | some k =>
      have hk : k ≠ b := fun h => hclosed (congrArg some h)
      simp only [Option.map_some, ne_eq, Option.some.injEq]
      exact decide_eq_decide.2 (not_congr (shift_inj hk hj))
  · cases opened with
    | none => rfl
    | some k =>
      have hk : k ≠ b := fun h => hopened (congrArg some h)
      simp [leaveOut, hk]

theorem leaveOut_register_self {closed : Option Nat} (hclosed : ∀ i, closed = some i → i = b)
    (l : List Nat) : leaveOut id (shift b) b (l.filter fun i => closed ≠ some i) =
      leaveOut id (shift b) b l := by
  have hfilter := leaveOut_filter id (shift b) (l := l) (b := b) (p := fun i => closed ≠ some i)
    (q := fun _ => true) fun j hj => by
      symm
      simpa using fun h => hj (hclosed j h)
  rw [hfilter, List.filter_true]

/-! ## What it does itself -/

theorem Lacks.step_self (hs : s.Lacks b s') (hd : d.about = some b) : (s.step d).Lacks b s' := by
  cases d with
  | act a =>
    have hclosed : ∀ i, s.world.closed? a = some i → i = b := fun i hi =>
      Option.some.inj ((World.closed?_of_about hi).symm.trans hd)
    have hworld : (s.world.act a).Lacks b s'.world := by
      cases a with
      | event e => exact hs.world.step_self hd
      | query | trace | post => cases hd
    refine ⟨hworld, hs.holders_eq, ?_⟩
    rw [hs.register_eq]
    simp only [Scene.step]
    rw [World.opened?_of_about hd, Option.toList_none, List.append_nil,
      leaveOut_register_self hclosed]
  | subscribe => cases hd
  | read id =>
    obtain rfl := Option.some.inj hd
    simp only [Scene.step]
    split
    · exact hs
    · exact hs.withHub_self hs.world.hub.readPing_self
  | unsubscribe id =>
    obtain rfl := Option.some.inj hd
    simp only [Scene.step]
    split
    · exact hs
    · have hhub := hs.withHub_self hs.world.hub.unsubscribe_self
      refine ⟨hhub.world, ?_, hs.register_eq⟩
      rw [hs.holders_eq]
      exact (leaveOut_modify_self Holder.id (Holder.renumber id)
        (g := fun o => { o with unsubscribed := true }) fun _ ho => ho).symm
  | release id =>
    obtain rfl := Option.some.inj hd
    simp only [Scene.step]
    split
    · exact hs
    · have hhub := hs.withHub_self hs.world.hub.discard_self
      refine ⟨hhub.world, ?_, hs.register_eq⟩
      rw [hs.holders_eq]
      exact (leaveOut_filter_ne_self Holder.id (Holder.renumber id)).symm
  | switch value paused =>
    simp only [Scene.step, Http.answer_serveSwitch]
    simp only [Deed.about] at hd
    split
    · exact hs
    · rename_i id hid
      rw [hid] at hd
      obtain rfl := Option.some.inj hd
      split
      · exact ⟨hs.world.setPaused_self paused, hs.holders_eq, hs.register_eq⟩
      · exact hs

/-! ## What others do -/

theorem Lacks.switch (hs : s.Lacks b s') {value : List UInt8} {paused : Bool}
    (hd : (Deed.switch value paused).about ≠ some b) :
    (s.step (.switch value paused)).Lacks b
      (s'.step (.switch (Http.renumberValue b value) paused)) := by
  simp only [Scene.step, Http.answer_serveSwitch, Http.pathWord_renumberValue]
  simp only [Deed.about] at hd
  cases hid : Http.pathWord "subscriber_id" value with
  | error e => exact hs
  | ok id =>
    have hi : id ≠ b := fun h => hd (by rw [hid, h]; rfl)
    simp only [Except.map, hs.world.switch?_eq hi]
    split
    · exact ⟨hs.world.setPaused hi paused, hs.holders_eq, hs.register_eq⟩
    · exact hs

theorem Lacks.act (hs : s.Lacks b s') (hsound : s.Sound) (hb : b < s.hub.bulletin.nextId) {a : Act}
    (ha : a.about ≠ some b) : (s.step (.act a)).Lacks b (s'.step (.act (a.renumber b))) := by
  refine ⟨hs.world.act hsound.world hb ha, hs.holders_eq, ?_⟩
  have hclosed : s.world.closed? a ≠ some b := fun h => ha (World.closed?_of_about h)
  have hopened : s.world.opened? a ≠ some b := fun h =>
    Nat.ne_of_lt hb (World.opened?_eq_some h)
  simp only [Scene.step]
  rw [hs.world.closed?_eq ha, hs.world.opened?_eq, hs.register_eq,
    leaveOut_register hclosed hopened]

/-- What others do, and what happens to all, makes the same of both scenes. -/
theorem Lacks.step (hs : s.Lacks b s') (hsound : s.Sound) (hb : b < s.hub.bulletin.nextId)
    (hd : d.about ≠ some b) : (s.step d).Lacks b (s'.step (d.renumber b)) := by
  have hne {id : Nat} (hid : some id ≠ some b) : id ≠ b := fun h => hid (congrArg some h)
  cases d with
  | act a => exact hs.act hsound hb hd
  | subscribe =>
    have hhub := hs.withHub (hs.world.hub.subscribe hb)
    have hholders := leaveOut_concat Holder.id (Holder.renumber b)
      (a := ⟨s.hub.bulletin.nextId, false⟩) (Nat.ne_of_gt hb) s.holders
    rw [← hs.holders_eq] at hholders
    refine ⟨hhub.world, ?_, hs.register_eq⟩
    simp only [Scene.step, Deed.renumber]
    rw [show s'.hub.subscribe.1 = shift b s.hub.bulletin.nextId from hs.world.nextId_eq]
    exact hholders.symm
  | read id =>
    have hi := hne hd
    simp only [Scene.step, Deed.renumber]
    rw [hs.holder?_eq hi]
    cases s.holder? id with
    | none => exact hs
    | some o => exact hs.withHub (hs.world.hub.readPing hi).2
  | unsubscribe id =>
    have hi := hne hd
    simp only [Scene.step, Deed.renumber]
    rw [hs.holder?_eq hi]
    cases s.holder? id with
    | none => exact hs
    | some o =>
      have hhub := hs.withHub (hs.world.hub.unsubscribe hi)
      have hholders := leaveOut_modify Holder.id (Holder.renumber b) (l := s.holders)
        (g := fun o => { o with unsubscribed := true })
        (k := fun o => { o with unsubscribed := true }) (fun _ => rfl) hi (fun _ ho => ho)
        fun _ _ => rfl
      rw [← hs.holders_eq] at hholders
      exact ⟨hhub.world, hholders.symm, hs.register_eq⟩
  | release id =>
    have hi := hne hd
    simp only [Scene.step, Deed.renumber]
    rw [hs.holder?_eq hi]
    cases s.holder? id with
    | none => exact hs
    | some o =>
      have hhub := hs.withHub (hs.world.hub.discard hi)
      have hholders := leaveOut_filter_ne Holder.id (Holder.renumber b) (l := s.holders)
        (fun _ => rfl) hi
      rw [← hs.holders_eq] at hholders
      exact ⟨hhub.world, hholders.symm, hs.register_eq⟩
  | switch value paused => exact hs.switch hd

/-! ## Its coming -/

theorem nextId_le_step (hs : s.Sound) (d : Deed) :
    s.hub.bulletin.nextId ≤ (s.step d).hub.bulletin.nextId := by
  rcases given_step hs d with ⟨-, hle⟩ | ⟨-, hlt⟩
  · exact hle
  · exact Nat.le_of_lt hlt

theorem blank_step (hblank : s.world.Blank) (hs : s.Sound) (d : Deed) : (s.step d).world.Blank := by
  have hquiet (hdiary : (s.step d).world.diary = s.world.diary) : (s.step d).world.Blank := by
    intro i hi
    rw [hdiary]
    exact hblank i (Nat.le_trans (nextId_le_step hs d) hi)
  cases d with
  | act a => exact hblank.act hs.world a
  | subscribe | switch => exact hquiet rfl
  | read | unsubscribe | release =>
    refine hquiet ?_
    simp only [Scene.step]
    split <;> rfl

theorem blank_run (hblank : s.world.Blank) (hs : s.Sound) (ds : List Deed) :
    (s.run ds).world.Blank := by
  induction ds generalizing s with
  | nil => exact hblank
  | cons d ds ih => exact ih (blank_step hblank hs d) (hs.step d)

theorem lacks_nextId (hblank : s.world.Blank) (hs : s.Sound) :
    s.Lacks s.hub.bulletin.nextId s := by
  refine ⟨hblank.lacks hs.world, (leaveOut_of_lt Holder.id _ (fun o ho => hs.lt_nextId ho)
    fun o ho => ?_).symm, (leaveOut_of_lt id _ (fun i hi => ?_) fun i hi => shift_of_lt hi).symm⟩
  · rw [Holder.renumber, shift_of_lt ho]
    rfl
  · obtain ⟨c, hc, rfl, -⟩ := (hs.register_iff i).1 hi
    exact hs.world.lt_nextId _ (World.id_mem_of_courier hc)

/-- After its coming the scene is without it what it was before. -/
theorem lacks_given (hblank : s.world.Blank) (hs : s.Sound) (hb : b ∈ s.given d) :
    (s.step d).Lacks b s ∧ b < (s.step d).hub.bulletin.nextId := by
  have hlacks := lacks_nextId hblank hs
  rcases given_step hs d with ⟨hnone, -⟩ | ⟨hone, hlt⟩
  · rw [hnone] at hb
    cases hb
  rw [hone] at hb
  obtain rfl := List.mem_singleton.1 hb
  refine ⟨?_, hlt⟩
  cases d with
  | subscribe =>
    have hhub := hlacks.withHub_self hlacks.world.hub.subscribe_self
    refine ⟨hhub.world, ?_, hlacks.register_eq⟩
    exact hlacks.holders_eq.trans (leaveOut_concat_self Holder.id _ (a := ⟨_, false⟩) rfl _).symm
  | act a =>
    cases a with
    | event e =>
      cases e with
      | attach f backfill =>
        cases hv : f.validate with
        | error e => simp [given, Feed.attach, hv] at hone
        | ok =>
          refine ⟨hlacks.world.attach_self hv backfill, hlacks.holders_eq, ?_⟩
          refine hlacks.register_eq.trans ?_
          simp [Scene.step, World.closed?, World.opened?]
      | live r =>
        refine ⟨hlacks.world.live_self r, hlacks.holders_eq, ?_⟩
        have hregister : (s.step (.act (.event (.live r)))).register =
            s.register ++ [s.world.hub.bulletin.nextId] := by
          simp [Scene.step, World.opened?_live, World.closed?]
        rw [hregister]
        exact hlacks.register_eq.trans (leaveOut_concat_self id _ rfl _).symm
      | _ => cases hone
    | _ => cases hone
  | _ => cases hone

/-! ## Runs with and without it -/

theorem Lacks.run (hs : s.Lacks b s') (hsound : s.Sound) (hb : b < s.hub.bulletin.nextId)
    (ds : List Deed) : (s.run ds).Lacks b (s'.run ((Deed.others b ds).map (·.renumber b))) := by
  induction ds generalizing s s' with
  | nil => exact hs
  | cons d ds ih =>
    have hb' := Nat.lt_of_lt_of_le hb (nextId_le_step hsound d)
    by_cases hd : d.about = some b
    · rw [Deed.others, List.filter_cons_of_neg (by simp [hd])]
      exact ih (hs.step_self hd) (hsound.step d) hb'
    · rw [Deed.others, List.filter_cons_of_pos (by simp [hd])]
      exact ih (hs.step hsound hb hd) (hsound.step d) hb'

/-! ## What is the same -/

/-- Others than `b` are the same in both scenes, but for their numbers, which change by `ρ`. They
look and read alike, and all requests are answered alike. Only the number of subscribers and the two
metrics about them may differ. -/
structure Alike (b : Nat) (ρ : Nat → Nat) (s s' : Scene) : Prop where
  feed? : ∀ i, i ≠ b →
    s'.world.feed? (ρ i) = (s.world.feed? i).map fun f => f.withId (ρ f.id)
  courier? : ∀ i, i ≠ b → s'.world.site.courier? (ρ i) =
    (s.world.site.courier? i).map fun c => c.withId (ρ c.feed.id)
  holder? : ∀ i, i ≠ b → s'.holder? (ρ i) = (s.holder? i).map fun o => o.withId (ρ o.id)
  box? : ∀ i, i ≠ b → s'.hub.bulletin.box? (ρ i) = s.hub.bulletin.box? i
  register : ∀ i, i ≠ b → (ρ i ∈ s'.register ↔ i ∈ s.register)
  /-- The deltas that they have got so far. -/
  tells : ∀ i, i ≠ b → (s.world.diary i).Tells (s'.world.diary (ρ i))
  polls : ∀ f : Feed, (f.withId (ρ f.id)).poll s'.hub =
    ((f.poll s.hub).1, (f.poll s.hub).2.withId (ρ f.id))
  query : ∀ f, (s'.hub.query f).1 = (s.hub.query f).1
  querySpans : ∀ f, (s'.hub.querySpans f).1 = (s.hub.querySpans f).1
  queryLogs : ∀ f, (s'.hub.queryLogs f).1 = (s.hub.queryLogs f).1
  queryMetrics : ∀ f, (s'.hub.queryMetrics f).1 = (s.hub.queryMetrics f).1
  trace : ∀ id, s'.hub.trace id = s.hub.trace id
  services : s'.hub.services = s.hub.services
  stats : ∀ signal, s'.hub.stats signal = s.hub.stats signal
  status : ({ s'.hub.status s'.world.site.uptimeSeconds with subscribers := 0 } : Status) =
    { s.hub.status s.world.site.uptimeSeconds with subscribers := 0 }
  tally : s'.hub.tally.discreet = s.hub.tally.discreet

theorem Lacks.mem_register_iff (hs : s.Lacks b s') (hi : i ≠ b) :
    shift b i ∈ s'.register ↔ i ∈ s.register := by
  rw [hs.register_eq, leaveOut, List.mem_map]
  constructor
  · rintro ⟨j, hj, hshift⟩
    obtain ⟨hmem, hne⟩ := List.mem_filter.1 hj
    exact (shift_inj (of_decide_eq_true hne) hi).1 hshift ▸ hmem
  · exact fun hmem => ⟨i, List.mem_filter.2 ⟨hmem, decide_eq_true hi⟩, rfl⟩

theorem Lacks.alike (hs : s.Lacks b s') : s.Alike b (shift b) s' where
  feed? _ hi := hs.world.feed?_eq hi
  courier? _ hi := hs.world.courier?_eq hi
  holder? _ hi := hs.holder?_eq hi
  box? _ hi := hs.world.hub.box?_eq hi
  register _ hi := hs.mem_register_iff hi
  tells := hs.world.tells
  polls f := by
    have hnew : (f.poll s.hub).2.withId (shift b f.id) = (f.poll s.hub).2.renumber b := by
      rw [← f.id_poll s.hub]
      rfl
    rw [hnew]
    exact f.poll_renumber hs.world.hub
  query f := (hs.world.hub.answers f).1
  querySpans f := (hs.world.hub.answers f).2.1
  queryLogs f := (hs.world.hub.answers f).2.2.1
  queryMetrics f := (hs.world.hub.answers f).2.2.2
  trace id := by rw [hub, hs.world.hub.eq]; rfl
  services := by rw [hub, hs.world.hub.eq]; rfl
  stats := hs.world.hub.stats_eq
  status := by
    rw [Site.uptimeSeconds, show s'.world.site.now = s.world.site.now from hs.world.now_eq, hub,
      hs.world.hub.eq]
    rfl
  tally := hs.world.hub.tally_eq

section

variable {α : Type} {key : α → Nat} (set : Nat → α → α) (hset : ∀ a, set (key a) a = a)
  (hover : ∀ m n a, set m (set n a) = set m a)

include hset hover

/-- What is the same under other numbers is the same if the number is. -/
theorem eq_of_renamed {m n : Nat} {a c : α} (hkey : key c = key a)
    (hrenamed : set m c = set n a) : c = a := by
  rw [← hset c, ← hover (key c) m c, hrenamed, hover, hkey, hset]

theorem eq_map_of_renamed {ρ : Nat → Nat} {x y : Option α} (hx : ∀ a, x = some a → key a = i)
    (hy : ∀ a, y = some a → key a = i)
    (hmap : y.map (fun a => set (ρ (key a)) a) = x.map fun a => set (ρ (key a)) a) :
    y = x.map fun a => set (id (key a)) a := by
  simp only [id_eq, hset, Option.map_id']
  cases x with
  | none => simpa using hmap
  | some a =>
    cases y with
    | none => cases hmap
    | some c =>
      have hkey : key c = key a := (hy c rfl).trans (hx a rfl).symm
      rw [eq_of_renamed set hset hover hkey (Option.some.inj hmap)]

end

/-- What both scenes have in common with a third one they have in common. -/
theorem Alike.both {ρ : Nat → Nat} {t u : Scene} (hs : s.Alike b ρ u) (ht : t.Alike b ρ u) :
    s.Alike b id t where
  feed? i hi := eq_map_of_renamed Feed.withId (fun _ => rfl) (fun _ _ _ => rfl)
    (fun _ hf => (World.mem_of_feed? hf).2) (fun _ hf => (World.mem_of_feed? hf).2)
    ((ht.feed? i hi).symm.trans (hs.feed? i hi))
  courier? i hi := eq_map_of_renamed Courier.withId (fun _ => rfl)
    (fun _ _ _ => rfl) (fun _ hc => (World.mem_of_courier? hc).2)
    (fun _ hc => (World.mem_of_courier? hc).2) ((ht.courier? i hi).symm.trans (hs.courier? i hi))
  holder? i hi := eq_map_of_renamed Holder.withId (fun _ => rfl) (fun _ _ _ => rfl)
    (fun _ ho => (Sound.mem_of_holder? ho).2) (fun _ ho => (Sound.mem_of_holder? ho).2)
    ((ht.holder? i hi).symm.trans (hs.holder? i hi))
  box? i hi := (ht.box? i hi).symm.trans (hs.box? i hi)
  register i hi := (ht.register i hi).symm.trans (hs.register i hi)
  tells i hi := by
    obtain ⟨hdeltas, htaken⟩ := hs.tells i hi
    obtain ⟨hdeltas', htaken'⟩ := ht.tells i hi
    exact ⟨hdeltas'.symm.trans hdeltas, htaken'.symm.trans htaken⟩
  polls f := by
    obtain ⟨hyield, hfeed⟩ := Prod.mk.inj ((ht.polls f).symm.trans (hs.polls f))
    have hid : (f.poll t.hub).2.id = (f.poll s.hub).2.id :=
      (f.id_poll t.hub).trans (f.id_poll s.hub).symm
    have hsame := eq_of_renamed Feed.withId (fun _ => rfl) (fun _ _ _ => rfl) hid hfeed
    show f.poll t.hub = ((f.poll s.hub).1, (f.poll s.hub).2.withId f.id)
    rw [← f.id_poll s.hub]
    exact Prod.ext hyield hsame
  query f := (ht.query f).symm.trans (hs.query f)
  querySpans f := (ht.querySpans f).symm.trans (hs.querySpans f)
  queryLogs f := (ht.queryLogs f).symm.trans (hs.queryLogs f)
  queryMetrics f := (ht.queryMetrics f).symm.trans (hs.queryMetrics f)
  trace i := (ht.trace i).symm.trans (hs.trace i)
  services := ht.services.symm.trans hs.services
  stats signal := (ht.stats signal).symm.trans (hs.stats signal)
  status := ht.status.symm.trans hs.status
  tally := ht.tally.symm.trans hs.tally

/-- Take all that a subscriber does out of a run, its coming included, or let it do other things
after its coming. Then others are the same, look and read alike, and all requests are answered
alike. Numbers change for those who came later, and only if it does not come at all. -/
theorem subscribers_isolated (storage : StorageSettings) (stream : StreamSettings)
    (before : List Deed) (coming : Deed) (after after' : List Deed)
    (hb : b ∈ ((start storage stream).run before).given coming)
    (hothers : Deed.others b after' = Deed.others b after) :
    let s := (start storage stream).run before
    ((s.step coming).run after).Alike b (shift b)
      (s.run ((Deed.others b after).map (·.renumber b))) ∧
    ((s.step coming).run after).Alike b id ((s.step coming).run after') := by
  intro s
  have hstart : (start storage stream).Sound := sound_start storage stream
  have hs : s.Sound := hstart.run before
  have hblank : s.world.Blank := blank_run (fun _ _ => ⟨rfl, rfl⟩) hstart before
  obtain ⟨hlacks, hlt⟩ := lacks_given hblank hs hb
  have hwithout := hlacks.run (hs.step coming) hlt after
  have hwithout' := hlacks.run (hs.step coming) hlt after'
  rw [hothers] at hwithout'
  exact ⟨hwithout.alike, hwithout.alike.both hwithout'.alike⟩

theorem live_stream_isolated :
    let attach := Deed.act (.event (.attach World.everything.filter (.uniform 1)))
    let line := Deed.act (.event (.record World.line))
    let s := (start {} {}).run [attach]
    let live := s.step (.act (.event (.live World.everything)))
    let with2 := live.run [line, .act (.event (.turn 2)), attach, .switch (Text.bytes "2") true,
      .act (.event (.poll 3))]
    let without2 := s.run [line, attach, .act (.event (.poll 2))]
    let other := live.run [line, attach, .act (.event (.leave 2)), .act (.event (.turn 2)),
      .act (.event (.poll 3))]
    2 ∈ s.given (.act (.event (.live World.everything))) ∧
    with2.register = [2] ∧ (with2.world.feed? 3).map (·.cursor.logs) = some 1 ∧
    (without2.world.feed? 2).map (·.cursor) = (with2.world.feed? 3).map (·.cursor) ∧
    (other.world.feed? 3).map (·.cursor) = (with2.world.feed? 3).map (·.cursor) := by
  intro attach line s live with2 without2 other
  obtain ⟨hwithout, hother⟩ : with2.Alike 2 (shift 2) without2 ∧ with2.Alike 2 id other :=
    subscribers_isolated {} {} [attach] (.act (.event (.live World.everything)))
      [line, .act (.event (.turn 2)), attach, .switch (Text.bytes "2") true,
        .act (.event (.poll 3))]
      [line, attach, .act (.event (.leave 2)), .act (.event (.turn 2)), .act (.event (.poll 3))]
      (by decide) rfl
  have hfeed : without2.world.feed? 2 = _ := hwithout.feed? 3 (by decide)
  have hfeed' : other.world.feed? 3 = _ := hother.feed? 3 (by decide)
  refine ⟨by decide, by decide, by decide, ?_, ?_⟩
  · rw [hfeed, Option.map_map]
    rfl
  · rw [hfeed', Option.map_map]
    rfl

end Scene

end SignalHub
