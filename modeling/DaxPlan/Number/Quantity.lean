import DaxPlan.Number.Text

/-!
# Quantities

Durations, shares and coordinates are quantities. Whatever measures them has the four operations, an order, and a value for the
sum of no quantities. Floating-point numbers run; rational numbers are the exact arithmetic in which the geometry of a layout
and the balance of a plan's times can be stated.
-/

namespace DaxPlan

/-- The numbers that times and coordinates are measured in. -/
class Quantity (α : Type) extends Add α, Sub α, Mul α, Div α, BEq α where
  /-- A count as a quantity. -/
  ofNat : Nat → α
  /-- The sum of no quantities. -/
  emptySum : α
  lt : α → α → Bool
  le : α → α → Bool
  /-- The smaller of two; one that is no number does not count. -/
  min : α → α → α
  /-- The larger of two; one that is no number does not count. -/
  max : α → α → α
  /-- A total order, for sorting. -/
  order : α → α → Ordering
  /-- A number, and not an infinite one. -/
  isFinite : α → Bool

/-- How quantities are written for a reader. -/
class QuantityText (α : Type) where
  /-- The shortest text that reads back. -/
  shortest : α → String
  /-- Rounded to a fixed number of places. -/
  fixed : Nat → α → String

namespace Quantity

variable {α : Type} [Quantity α]

/-- Nothing at all. -/
def zero : α := ofNat 0

/-- Half of a quantity. -/
def half (x : α) : α := x / ofNat 2

/-- The sum of a list, from left to right. -/
def sum (xs : List α) : α := xs.foldl (· + ·) emptySum

end Quantity

/-! ## Floating-point numbers -/

/-- The place of a float in the order by sign and magnitude: negative numbers first, and minus zero before zero. -/
def floatRank (x : Float) : Int :=
  let bits := x.toBits.toNat
  if bits < Number.twoPow 63 then bits else (Number.twoPow 63 : Int) - 1 - bits

/-- Minus zero, which adding any float to gives back that float. -/
def minusZero : Float := Float.ofBits 0x8000000000000000

instance : Quantity Float where
  ofNat n := Float.ofNat n
  emptySum := minusZero
  lt x y := x < y
  le x y := x ≤ y
  min x y := if x.isNaN then y else if y < x then y else x
  max x y := if x.isNaN then y else if x < y then y else x
  order x y := compare (floatRank x) (floatRank y)
  isFinite x := x.isFinite

instance : QuantityText Float where
  shortest := Number.shortestText Number.plainFormat
  fixed := Number.fixedText

/-! ## Rational numbers -/

instance : Quantity Rat where
  ofNat n := n
  emptySum := 0
  lt x y := x < y
  le x y := x ≤ y
  min x y := if y < x then y else x
  max x y := if x < y then y else x
  order x y := if x < y then .lt else if x == y then .eq else .gt
  isFinite _ := true

instance : QuantityText Rat where
  shortest x := toString x
  fixed places x :=
    let scaled := Number.roundToEven (x.num.natAbs * Number.tenPow places) x.den
    let fraction := if places == 0 then "" else "." ++ Number.paddedText places (scaled % Number.tenPow places)
    Number.signText (x < 0) ++ Number.digitText (scaled / Number.tenPow places) ++ fraction

end DaxPlan
