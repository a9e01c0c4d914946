import DaxPlan.Number.Quantity
import Mathlib.Algebra.BigOperators.Ring.List
import Mathlib.Algebra.Order.Field.Rat

/-!
# Exact arithmetic

Over the rational numbers the operations of a quantity are those of the ordered field.
-/

namespace DaxPlan.Quantity

/-- Counts are exact. -/
theorem ofNat_rat (n : Nat) : (ofNat n : Rat) = n := rfl

/-- The neutral element of the exact numbers. -/
theorem zero_rat : (zero : Rat) = 0 := Nat.cast_zero

/-- Halves are exact. -/
theorem half_rat (x : Rat) : half x = x / 2 := rfl

/-- Exact numbers are compared by their order. -/
theorem lt_rat_iff {x y : Rat} : lt x y = true ↔ x < y := decide_eq_true_iff

/-- Exact numbers are compared by their order, equality included. -/
theorem le_rat_iff {x y : Rat} : le x y = true ↔ x ≤ y := decide_eq_true_iff

/-- The greater of two exact numbers is their join. -/
theorem max_rat (x y : Rat) : Quantity.max x y = x ⊔ y := by
  by_cases h : x < y
  · exact (if_pos h).trans (sup_of_le_right h.le).symm
  · exact (if_neg h).trans (sup_of_le_left (not_lt.mp h)).symm

/-- The smaller of two exact numbers is their meet. -/
theorem min_rat (x y : Rat) : Quantity.min x y = x ⊓ y := by
  by_cases h : y < x
  · exact (if_pos h).trans (inf_of_le_right h.le).symm
  · exact (if_neg h).trans (inf_of_le_left (not_lt.mp h)).symm

/-- The sum of exact numbers is that of their list, from whichever end it is added up. -/
theorem sum_rat (xs : List Rat) : sum xs = xs.sum := List.sum_eq_foldl.symm

end DaxPlan.Quantity
