/-!
# Powers and sums of natural numbers

The powers of two and of ten, by which floating-point numbers and decimals are scaled, the sum of a list of counts, and sums that
are kept in a machine word.
-/

namespace DaxPlan.Number

/-- Two to a power. -/
def twoPow (n : Nat) : Nat := Nat.pow 2 n

/-- Ten to a power. -/
def tenPow (n : Nat) : Nat := Nat.pow 10 n

/-- The sum of two numbers in a machine word of sixty-four bits: it wraps around. -/
def addWord (a b : Nat) : Nat := (a + b) % twoPow 64

/-- The sum of some counts. -/
def total (counts : List Nat) : Nat := counts.foldr Nat.add 0

@[simp] theorem total_nil : total [] = 0 := rfl

@[simp] theorem total_cons (n : Nat) (counts : List Nat) : total (n :: counts) = n + total counts := rfl

/-- Two lists add up to the sum of their sums. -/
theorem total_append (a b : List Nat) : total (a ++ b) = total a + total b := by
  induction a with
  | nil => simp
  | cons n a ih => simp [ih, Nat.add_assoc]

end DaxPlan.Number
