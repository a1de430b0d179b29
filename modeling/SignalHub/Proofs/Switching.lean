import SignalHub.Proofs.Exposition
import SignalHub.Proofs.Numerals
/-!
# Pause switches by number

The path of a pause switch has the number of a live stream between literal parts. In the routes of
every hub such a path leads to the switch with whatever stands in the place of the number, and so it
does in a router that serves the exposition besides, if that keeps what is handled without it. A
number in decimal digits reads as itself.

Results:
* `Http.pathWord_toString`: reading a number that was written.
* `Router.find_switch`: where the path of a switch leads.
* `Http.serve_switch`: what becomes of a request to a switch, whatever the metrics endpoint.
-/
namespace SignalHub

/-! ## Numbers in paths -/

namespace Http

/-- A number reads as it was written. -/
theorem pathWord_toString (name : String) {n : Nat} (hn : n ≤ Word.top) :
    pathWord name (Text.bytes (toString n)) = .ok n := by
  have hplain : (0x25 : UInt8) ∉ Text.bytes (toString n) := fun hmem =>
    absurd (Text.isDigit_of_mem_toString 0x25 hmem) (by decide)
  rw [pathWord, pathText, Text.percentDecode_of_plain hplain, Text.ofBytes?_bytes]
  simp only [bind, Except.bind, Text.readUnsigned_toString hn]
  rfl

theorem le_top_of_pathWord {name : String} {value : List UInt8} {n : Nat}
    (hread : pathWord name value = .ok n) : n ≤ Word.top := by
  rw [pathWord] at hread
  cases htext : pathText name value with
  | error e => rw [htext] at hread; cases hread
  | ok s =>
    rw [htext] at hread
    simp only [bind, Except.bind] at hread
    cases hn : Text.readUnsigned Word.top s with
    | error e => rw [hn] at hread; cases hread
    | ok m =>
      rw [hn] at hread
      cases hread
      exact Text.le_of_readUnsigned hn

theorem slash_not_mem_toString (n : Nat) : (0x2F : UInt8) ∉ Text.bytes (toString n) := fun hmem =>
  absurd (Text.isDigit_of_mem_toString 0x2F hmem) (by decide)

/-! ## Routes -/

/-- The path of the switch of the live stream that is named so. -/
def switchPath (value : List UInt8) (paused : Bool) : List UInt8 :=
  Text.bytes "/api/v1/live/" ++ value ++ Text.bytes (if paused then "/pause" else "/resume")

/-- What serves a switch. -/
def switchEndpoint (paused : Bool) : Endpoint := if paused then .pause else .resume

/-- The route of a switch. -/
def switchRoute (paused : Bool) : Route :=
  ⟨Router.under "/api/v1/live/" "subscriber_id" (if paused then "/pause" else "/resume"),
    [(.write, switchEndpoint paused)]⟩

namespace Router

theorem switchRoute_mem : ∀ paused, switchRoute paused ∈ base := by decide

/-- The path of a switch leads to it. -/
theorem find_switch {value : List UInt8} (hvalue : (0x2F : UInt8) ∉ value) (paused : Bool) :
    base.find (switchPath value paused) = some (switchRoute paused, [value]) := by
  have hpattern : (switchRoute paused).pattern = (Text.bytes "/api/v1/live/").map .literal ++
      .param (Text.bytes "subscriber_id") ::
        (Text.bytes (if paused then "/pause" else "/resume")).map .literal := by
    simp [switchRoute, under, literal]
  have hne : value ++ Text.bytes (if paused then "/pause" else "/resume") ≠ [] :=
    List.append_ne_nil_of_right_ne_nil _ (by cases paused <;> decide)
  rw [switchPath, List.append_assoc]
  exact orderly_base.find_first (switchRoute_mem paused) hpattern hvalue hne
    (base_first _ (switchRoute_mem paused))

end Router

variable {router : Router} {m : MetricsSettings} {value : List UInt8} {r : Request}

/-- Where nothing is lost to the exposition, all that is handled without it is answered as it is by
the routes of every hub. -/
theorem serve_eq_base (hmake : Router.make m = .ok router)
    (hserves : m.enabled → router.Serves m)
    (h : (Router.base.handler? r.target.path r.method).isSome) (receivedAt : UInt64)
    (site : Site) : serve router receivedAt site r = serve Router.base receivedAt site r := by
  by_cases hon : m.enabled
  · exact (hserves hon).serve_eq h receivedAt site
  · rw [Router.make, if_neg hon] at hmake
    cases hmake
    rfl

/-- What becomes of a request to a switch. -/
theorem serve_switch (hmake : Router.make m = .ok router) (hserves : m.enabled → router.Serves m)
    (hvalue : (0x2F : UInt8) ∉ value) (paused : Bool) (receivedAt : UInt64) (site : Site)
    (hmethod : r.method = .post) (hpath : r.target.path = switchPath value paused) :
    serve router receivedAt site r = answer site (serveSwitch site value paused) := by
  have hfind : Router.base.find r.target.path = some (switchRoute paused, [value]) := by
    rw [hpath, Router.find_switch hvalue]
  have hhandled : (Router.base.handler? r.target.path r.method).isSome := by
    rw [Router.handler?, hfind, hmethod]
    cases paused <;> rfl
  rw [serve_eq_base hmake hserves hhandled, serve, hfind]
  simp only [hmethod]
  cases paused <;> rfl

end Http

end SignalHub
