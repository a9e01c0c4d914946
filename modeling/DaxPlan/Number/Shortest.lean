import DaxPlan.Number.Binary

/-!
# The shortest decimal that reads back

Among the decimals that lie nearer to a floating-point number than to any other, or half way with an even significand, the
shortest is the one with the fewest digits; among several of that many digits it is the one nearest to the number.
-/

namespace DaxPlan.Number

/-- A positive decimal: `digits · 10 ^ scale`. -/
structure Decimal where
  digits : Nat
  scale : Int
  deriving DecidableEq, Repr

/-- `numerator / denominator ≤ digits · 10 ^ scale`, in whole numbers. -/
def Decimal.atLeast (d : Decimal) (numerator denominator : Nat) : Bool :=
  if 0 ≤ d.scale then numerator ≤ d.digits * tenPow d.scale.toNat * denominator
  else numerator * tenPow (-d.scale).toNat ≤ d.digits * denominator

/-- `digits · 10 ^ scale ≤ numerator / denominator`, in whole numbers. -/
def Decimal.atMost (d : Decimal) (numerator denominator : Nat) : Bool :=
  if 0 ≤ d.scale then d.digits * tenPow d.scale.toNat * denominator ≤ numerator
  else d.digits * denominator ≤ numerator * tenPow (-d.scale).toNat

/-- The interval of reals that round to a number, in quarters of its significand's unit: below a power of two the neighbour is
half as far away. -/
structure RoundingInterval where
  low : Nat
  high : Nat
  denominator : Nat
  closed : Bool

/-- The rounding interval of a nonzero finite number. -/
def Binary.roundingInterval (b : Binary) : RoundingInterval :=
  let narrow := b.significand == twoPow 52 && b.exponent > -1074
  let low := 4 * b.significand - (if narrow then 1 else 2)
  let high := 4 * b.significand + 2
  let closed := b.significand % 2 == 0
  if 0 ≤ b.exponent then ⟨low * twoPow b.exponent.toNat, high * twoPow b.exponent.toNat, 4, closed⟩
  else ⟨low, high, 4 * twoPow (-b.exponent).toNat, closed⟩

/-- The decimal reads back as the number the interval belongs to. -/
def RoundingInterval.contains (r : RoundingInterval) (d : Decimal) : Bool :=
  if r.closed then d.atLeast r.low r.denominator && d.atMost r.high r.denominator
  else !d.atMost r.low r.denominator && !d.atLeast r.high r.denominator

/-- The largest decimal with the given scale that is not above `numerator / denominator`. -/
def Decimal.floor (numerator denominator : Nat) (scale : Int) : Decimal :=
  if 0 ≤ scale then ⟨numerator / (denominator * tenPow scale.toNat), scale⟩
  else ⟨numerator * tenPow (-scale).toNat / denominator, scale⟩

/-- Twice the value is at most the sum of the decimal and its successor: the decimal is the nearer of the two, or as near. -/
def Decimal.nearerThanNext (d : Decimal) (numerator denominator : Nat) : Bool :=
  Decimal.atLeast ⟨2 * d.digits + 1, d.scale⟩ (2 * numerator) denominator

/-- The number of decimal digits of a natural number; zero has one. -/
def digitCount (n : Nat) : Nat := (Nat.toDigits 10 n).length

/-- The exponent of the leading digit's place, plus one: `10 ^ (magnitude - 1) ≤ numerator / denominator < 10 ^ magnitude`. -/
def magnitude (numerator denominator : Nat) : Int :=
  if denominator ≤ numerator then digitCount (numerator / denominator)
  else
    let guess : Nat := digitCount ((denominator + numerator - 1) / numerator)
    -- `numerator · 10 ^ guess` reaches the denominator; one place less may do
    if denominator ≤ numerator * tenPow (guess - 1) then 2 - (guess : Int) else 1 - (guess : Int)

/-- The candidates with one more digit at a time; the first that reads back is the shortest. -/
def shortestFrom (r : RoundingInterval) (numerator denominator : Nat) (top : Int) : Nat → Nat → Decimal
  | 0, count => Decimal.floor numerator denominator (top - count)
  | fuel + 1, count =>
    let low := Decimal.floor numerator denominator (top - count)
    let high : Decimal := ⟨low.digits + 1, low.scale⟩
    let lowFits := low.digits != 0 && r.contains low
    let highFits := r.contains high
    if lowFits && (!highFits || low.nearerThanNext numerator denominator) then low
    else if highFits then high
    else shortestFrom r numerator denominator top fuel (count + 1)

/-- Takes the zeros off the end of the digits. -/
def Decimal.trimZeros : Nat → Decimal → Decimal
  | 0, d => d
  | fuel + 1, d => if d.digits != 0 && d.digits % 10 == 0 then trimZeros fuel ⟨d.digits / 10, d.scale + 1⟩ else d

/-- The shortest decimal of a nonzero finite number's magnitude. Seventeen digits always suffice. -/
def Binary.shortest (b : Binary) : Decimal :=
  let (numerator, denominator) := b.fraction
  let d := shortestFrom b.roundingInterval numerator denominator (magnitude numerator denominator) 17 1
  d.trimZeros 20

end DaxPlan.Number
