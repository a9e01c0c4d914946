/-!
# Sets of characters as ranges of code points

A set of characters given by a property of the Unicode standard is written as the list of its ranges, in ascending order.
-/

namespace DaxPlan.Text

/-- The code point lies in one of the ranges, ends included. -/
def inRanges (ranges : List (Nat × Nat)) (c : Char) : Bool :=
  ranges.any (fun r => r.1 ≤ c.toNat && c.toNat ≤ r.2)

end DaxPlan.Text
