import DaxPlan.Number.Read
import DaxPlan.Number.Text
import Mathlib.Algebra.Group.Nat.Defs
import Mathlib.Data.List.TakeWhile
import Mathlib.Order.Basic

/-!
# Digits are read back

The digits of a natural number make that number again, also with zeros in front of them up to a width.
-/

namespace DaxPlan.Number

variable {n width : Nat}

/-- Digits are taken up to the first character that is none. -/
theorem takeWhile_digits {digits s : List Char} (h : ∀ c ∈ digits, c.isDigit = true) (hs : ∀ c ∈ s.head?, c.isDigit = false) :
    (digits ++ s).takeWhile Char.isDigit = digits := by
  rw [List.takeWhile_append_of_pos h]
  cases s with
  | nil => exact List.append_nil _
  | cons c s => rw [List.takeWhile_cons_of_neg (by simp [hs c rfl]), List.append_nil]

/-- A number is written in digits. -/
theorem isDigit_of_mem_toDigits {c : Char} (h : c ∈ Nat.toDigits 10 n) : c.isDigit = true :=
  Nat.isDigit_of_mem_toDigits (by decide) (by decide) h

/-- The digits of a number are all that is written of it. -/
theorem takeWhile_toDigits (n : Nat) : (Nat.toDigits 10 n).takeWhile Char.isDigit = Nat.toDigits 10 n :=
  List.takeWhile_eq_self_iff.mpr (fun _ hc => isDigit_of_mem_toDigits hc)

/-- The digits of a number are read as that number. -/
theorem digitsToNat_toDigits (n : Nat) : digitsToNat (Nat.toDigits 10 n) = n :=
  Nat.ofDigitChars_toDigits (by decide) (by decide)

/-- A number has a digit at least. -/
theorem toDigits_eq_cons (n : Nat) : ∃ c rest, Nat.toDigits 10 n = c :: rest ∧ c.isDigit = true := by
  obtain ⟨c, rest, heq⟩ := List.exists_cons_of_ne_nil (Nat.toDigits_ne_nil (n := n) (b := 10))
  exact ⟨c, rest, heq, isDigit_of_mem_toDigits (heq ▸ List.mem_cons_self)⟩

/-- Digits have no zero in front. -/
theorem head?_toDigits (h : 0 < n) : (Nat.toDigits 10 n).head? ≠ some '0' := by
  induction n using Nat.strongRecOn with
  | ind n ih =>
    by_cases hn : n < 10
    · rw [Nat.toDigits_of_lt_base hn]
      simp
      omega
    · have hfront := ih (n / 10) (by omega) (by omega)
      obtain ⟨c, digits, hdigits⟩ := List.exists_cons_of_ne_nil (Nat.toDigits_ne_nil (n := n / 10) (b := 10))
      rw [Nat.toDigits_of_base_le (by decide) (by omega), hdigits]
      rwa [hdigits] at hfront

/-! ## Zeros in front -/

/-- Zeros in front of a number are digits too. -/
theorem isDigit_of_mem_padded {count : Nat} {c : Char} (h : c ∈ List.replicate count '0' ++ Nat.toDigits 10 n) :
    c.isDigit = true := by
  rcases List.mem_append.mp h with hzero | hdigit
  · rw [List.eq_of_mem_replicate hzero]
    rfl
  · exact isDigit_of_mem_toDigits hdigit

/-- Zeros in front of a number mean nothing. -/
theorem digitsToNat_padded (count n : Nat) : digitsToNat (List.replicate count '0' ++ Nat.toDigits 10 n) = n := by
  change Nat.ofDigitChars 10 _ 0 = _
  rw [Nat.ofDigitChars_append, Nat.ofDigitChars_replicate_zero, Nat.mul_zero]
  exact digitsToNat_toDigits n

/-- A padded number is written in digits. -/
theorem isDigit_of_mem_paddedText {c : Char} (h : c ∈ (paddedText width n).toList) : c.isDigit = true := by
  rw [paddedText, String.toList_ofList] at h
  exact isDigit_of_mem_padded h

/-- A padded number is read as that number. -/
theorem digitsToNat_paddedText (width n : Nat) : digitsToNat (paddedText width n).toList = n := by
  rw [paddedText, String.toList_ofList]
  exact digitsToNat_padded _ n

/-- A number that is not too long is padded to the width. -/
theorem length_paddedText (hwidth : 0 < width) (h : n < 10 ^ width) : (paddedText width n).toList.length = width := by
  have hlength := (Nat.length_toDigits_le_iff (b := 10) (n := n) (by decide) hwidth).mpr h
  rw [paddedText, String.toList_ofList, List.length_append, List.length_replicate]
  omega

/-- A padded number has a digit at least. -/
theorem paddedText_eq_cons (width n : Nat) : ∃ c rest, (paddedText width n).toList = c :: rest ∧ c.isDigit = true := by
  obtain ⟨c, rest, heq⟩ : ∃ c rest, (paddedText width n).toList = c :: rest := by
    refine List.exists_cons_of_ne_nil ?_
    rw [paddedText, String.toList_ofList]
    exact List.append_ne_nil_of_right_ne_nil _ Nat.toDigits_ne_nil
  exact ⟨c, rest, heq, isDigit_of_mem_paddedText (heq ▸ List.mem_cons_self)⟩

end DaxPlan.Number
