/-!
# Sets of characters as ranges

A set of characters is a list of inclusive ranges of code points in ascending order, so a search
ends at the first range above the character.

Results:
* `inRanges`: membership.
-/
namespace SignalHub.Text

/-- Whether a number lies in one of the ranges, which ascend. -/
def inRanges (n : Nat) : List (Nat × Nat) → Bool
  | [] => false
  | (first, last) :: rest => if n < first then false else n ≤ last || inRanges n rest

end SignalHub.Text
