import DaxPlan.Number.Power

/-!
# Unsigned numbers in a text

A count is written in decimal digits, with a plus sign in front at most, and is below two to the sixty-fourth.
-/

namespace DaxPlan.Text

/-- The largest count that can be read. -/
def maxUnsigned : Nat := Number.twoPow 64 - 1

/-- The value of a text that is nothing but a count. -/
def unsigned? (s : List Char) : Option Nat :=
  let digits := match s with
    | '+' :: rest => rest
    | _ => s
  if digits.isEmpty || !digits.all Char.isDigit then none
  else
    let value := digits.foldl (fun n c => 10 * n + (c.toNat - '0'.toNat)) 0
    if value ≤ maxUnsigned then some value else none

/-- Equality of two texts without regard to the case of the letters A to Z. -/
def equalIgnoringAsciiCase (a b : List Char) : Bool := a.map Char.toLower == b.map Char.toLower

end DaxPlan.Text
