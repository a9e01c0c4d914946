import DaxPlan.Number.Power

/-!
# Floating-point numbers as exact fractions

A finite 64-bit floating-point number is `± significand · 2 ^ exponent` with whole numbers on both places. What is printed,
rounded or sorted is computed from these, in exact arithmetic.
-/

namespace DaxPlan.Number

/-- The value of a finite floating-point number. -/
structure Binary where
  negative : Bool
  significand : Nat
  exponent : Int
  deriving DecidableEq, Repr

/-- What the 64 bits of a floating-point number say. -/
inductive Reading where
  | finite (value : Binary)
  | infinite (negative : Bool)
  | nan
  deriving DecidableEq, Repr

/-- Reads sign, exponent field and fraction field. A zero exponent field has no hidden leading bit. -/
def Reading.ofBits (bits : UInt64) : Reading :=
  let b : Nat := bits.toNat
  let negative := b / twoPow 63 == 1
  let field : Nat := b / twoPow 52 % twoPow 11
  let fraction : Nat := b % twoPow 52
  if field == 2047 then
    if fraction == 0 then .infinite negative else .nan
  else if field == 0 then .finite ⟨negative, fraction, -1074⟩
  else .finite ⟨negative, twoPow 52 + fraction, (field : Int) - 1075⟩

/-- The reading of a float. -/
def Reading.ofFloat (x : Float) : Reading := Reading.ofBits x.toBits

/-- The magnitude as a fraction: numerator and denominator. -/
def Binary.fraction (b : Binary) : Nat × Nat :=
  if 0 ≤ b.exponent then (b.significand * twoPow b.exponent.toNat, 1)
  else (b.significand, twoPow (-b.exponent).toNat)

end DaxPlan.Number
