import SignalHub.Memory
import SignalHub.Proofs.Acts
/-!
# Queries and what was accepted

A query is answered from the records accepted so far: of each signal it yields the newest matches
among the last records, as many of them as the archive can hold.

Results:
* `Hub.Remembers`: a hub remembers the end of what it accepted.
* `World.remembers_play`: it does so after any acts.
* `World.query_answers_history`: the answer to a query after any acts.
-/
namespace SignalHub

namespace StorageSettings

/-- How many records of each signal a query yields at most, if its filter is valid. -/
def wanted (storage : StorageSettings) (f : Filter) : Except FilterError Nat :=
  let most := max storage.maxLimit.toNat 1
  match f.limit with
  | some n => if n ≤ 0 then .error (.limitNotPositive n) else .ok (min n.toInt.toNat most)
  | none => .ok (max 1 (min storage.defaultLimit.toNat most))

/-- A limit that is positive is not read as one that is no size. -/
theorem wanted_eq (storage : StorageSettings) (f : Filter) : storage.wanted f =
    f.validate.map fun _ =>
      (Limits.make storage.defaultLimit.toNat storage.maxLimit.toNat).resolve f := by
  rw [wanted, Filter.validate, Limits.resolve]
  cases f.limit with
  | none =>
    have hclamp : max 1 (min storage.defaultLimit.toNat (max storage.maxLimit.toNat 1)) =
        min (max storage.defaultLimit.toNat 1) (max storage.maxLimit.toNat 1) := by omega
    exact congrArg Except.ok hclamp
  | some n =>
    by_cases hn : n ≤ 0
    · simp only [if_pos hn, Except.map]
    · have hpos : ¬ n < 0 := fun h => hn (Int64.le_of_lt h)
      simp only [if_neg hn, if_neg hpos, Except.map, Limits.make]

end StorageSettings

namespace Hub

variable {storage : StorageSettings} {h : Hub} {rs : List Record}

/-- The hub holds the end of the records accepted and knows all their services. -/
structure Remembers (storage : StorageSettings) (h : Hub) (rs : List Record) : Prop where
  holds : h.Holds rs
  indexes : h.Indexes rs
  capacity_eq : ∀ s, h.capacity s = storage.capacity s
  limits_eq : h.limits = .make storage.defaultLimit.toNat storage.maxLimit.toNat

theorem remembers_empty (storage : StorageSettings) : (empty storage).Remembers storage [] where
  holds := holds_empty storage
  indexes := indexes_empty storage
  capacity_eq s := by cases s <;> rfl
  limits_eq := rfl

/-- Subscribers, pings and counts do not matter. -/
theorem Remembers.agree (hr : h.Remembers storage rs) {h' : Hub} (ha : h.Agree h')
    (hl : h'.limits = h.limits) : h'.Remembers storage rs where
  holds := ha.holds hr.holds
  indexes := ha.indexes hr.indexes
  capacity_eq s := by
    rw [capacity, ha.stats_eq]
    exact hr.capacity_eq s
  limits_eq := hl.trans hr.limits_eq

theorem Remembers.record (hr : h.Remembers storage rs) (r : Record) :
    (h.record r).2.Remembers storage (rs ++ [r]) := by
  have hstore : (h.store r).Remembers storage (rs ++ [r]) := by
    refine ⟨hr.holds.store r, hr.indexes.store r, fun s => ?_, ?_⟩
    · rw [capacity_store, hr.capacity_eq]
    · cases r <;> exact hr.limits_eq
  refine hstore.agree (agree_record h r) ?_
  simp only [Hub.record, announce]
  split <;> rfl

theorem limits_discard (h : Hub) (id : Nat) : (h.discard id).limits = h.limits := by
  simp only [discard, unsubscribe]
  split <;> rfl

theorem Remembers.becomes (hr : h.Remembers storage rs) {new : List Record} {h' : Hub}
    (hb : h.Becomes new h') : h'.Remembers storage (rs ++ new) :=
  hb.preserves Remembers.record (fun {h _} hr => hr.agree h.agree_subscribe rfl)
    (fun {h _} hr id => hr.agree (h.agree_discard id) (h.limits_discard id))
    (fun {h _} hr id => hr.agree (h.agree_readPing id) rfl) hr

/-! ## Queries -/

theorem agree_search {ρ : Type} (h : Hub) (f : Filter) (run : Nat → ρ) (note : Tally → Tally) :
    h.Agree (h.search f run note).2 ∧ (h.search f run note).2.limits = h.limits := by
  rw [search]
  split <;> exact ⟨⟨rfl, rfl, rfl⟩, rfl⟩

theorem Remembers.ask (hr : h.Remembers storage rs) (about : Option Signal) (f : Filter) :
    (h.ask about f).Remembers storage rs := by
  have hsearch {ρ : Type} (run : Nat → ρ) (note : Tally → Tally) :
      (h.search f run note).2.Remembers storage rs :=
    hr.agree (h.agree_search f run note).1 (h.agree_search f run note).2
  cases about with
  | none => exact hsearch _ _
  | some s => cases s <;> exact hsearch _ _

theorem search_fst {ρ : Type} (hr : h.Remembers storage rs) (f : Filter) (run : Nat → ρ)
    (note : Tally → Tally) : (h.search f run note).1 = (storage.wanted f).map run := by
  rw [search, storage.wanted_eq, ← hr.limits_eq]
  cases f.validate <;> rfl

/-- The answer to a query is read off the records accepted. -/
theorem Remembers.query_eq (hr : h.Remembers storage rs) (f : Filter) :
    (h.query f).1.map QueryResult.records = (storage.wanted f).map fun n s =>
      ((Record.latest s (storage.capacity s) rs).reverse.filter f.matchesRecord).take n := by
  have hfound : ∀ n, (h.found f n).records = fun s =>
      ((Record.latest s (storage.capacity s) rs).reverse.filter f.matchesRecord).take n := by
    intro n
    funext s
    rw [hr.holds.records_found hr.indexes, hr.capacity_eq]
  rw [query, search_fst hr]
  cases storage.wanted f with
  | error e => rfl
  | ok n => exact congrArg Except.ok (hfound n)

/-- A query about one signal yields its part of the answer. -/
theorem query_parts (h : Hub) (f : Filter) :
    (h.querySpans f).1 = (h.query f).1.map QueryResult.spans ∧
      (h.queryLogs f).1 = (h.query f).1.map QueryResult.logs ∧
      (h.queryMetrics f).1 = (h.query f).1.map QueryResult.metrics := by
  rw [querySpans, queryLogs, queryMetrics, query, search, search, search, search]
  cases f.validate <;> exact ⟨rfl, rfl, rfl⟩

end Hub

namespace World

theorem remembers_act {w : World} {storage : StorageSettings} {rs : List Record}
    (hw : w.hub.Remembers storage rs) (a : Act) :
    (w.act a).hub.Remembers storage (rs ++ a.accepts) := by
  rcases w.hub_act a with ⟨about, f, rfl, hasked⟩ | ⟨-, hbecomes⟩
  · rw [hasked, Act.accepts, List.append_nil]
    exact hw.ask about f
  · exact hw.becomes hbecomes

theorem remembers_play {w : World} {storage : StorageSettings} {rs : List Record}
    (hw : w.hub.Remembers storage rs) (acts : List Act) :
    (w.play acts).hub.Remembers storage (rs ++ acts.flatMap Act.accepts) := by
  induction acts generalizing w rs with
  | nil => simpa [play] using hw
  | cons a acts ih =>
    have hrest := ih (remembers_act hw a)
    rwa [List.append_assoc, ← List.flatMap_cons] at hrest

/-- A query is answered from the records accepted by all acts before it. It fails if its limit is
not positive; else it yields, of each signal, the newest matches among the last records, up to its
limit. The archives that it does not read could not have held a match. -/
theorem query_answers_history (storage : StorageSettings) (stream : StreamSettings)
    (acts : List Act) (f : Filter) :
    let h := ((start storage stream).play acts).hub
    let accepted := acts.flatMap Act.accepts
    (h.query f).1.map QueryResult.records = ((storage.wanted f).map fun n s =>
      ((Record.latest s (storage.capacity s) accepted).reverse.filter f.matchesRecord).take n) ∧
    (h.querySpans f).1 = (h.query f).1.map QueryResult.spans ∧
    (h.queryLogs f).1 = (h.query f).1.map QueryResult.logs ∧
    (h.queryMetrics f).1 = (h.query f).1.map QueryResult.metrics := by
  intro h accepted
  have hr : h.Remembers storage accepted := by
    have hplay := remembers_play (w := start storage stream) (Hub.remembers_empty storage) acts
    rwa [List.nil_append] at hplay
  exact ⟨hr.query_eq f, h.query_parts f⟩

/-- The greatest limit prevails over the default, and zero counts as one. -/
example : ({ defaultLimit := 50, maxLimit := 0 } : StorageSettings).wanted .all = .ok 1 := rfl

end World

end SignalHub
