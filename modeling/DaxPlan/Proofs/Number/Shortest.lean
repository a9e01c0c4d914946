import DaxPlan.Number.Shortest
import DaxPlan.Proofs.Number.Rounding

/-!
# Shortest decimals

The whole-number comparisons of decimals, fractions and rounding intervals are comparisons of rational numbers. Of the two decimals
around a number that have seventeen digits one lies in the interval of the numbers that are rounded to it (`seventeen_fit`), so the
shortest decimal reads back and has no more digits (`shortest_fits`). It is not above the largest number (`shortest_le_largest`).
-/

namespace DaxPlan.Number

variable {d : Decimal} {numerator denominator : Nat} {scale : ℤ}

/-! ## Decimals -/

/-- The number that a decimal stands for. -/
def Decimal.value (d : Decimal) : ℚ := d.digits * 10 ^ d.scale

theorem Decimal.atLeast_iff (d : Decimal) (numerator : Nat) (h : 0 < denominator) :
    d.atLeast numerator denominator = true ↔ (numerator : ℚ) / denominator ≤ d.value := by
  have hpos : (0 : ℚ) < denominator := by exact_mod_cast h
  rw [atLeast, value, div_le_iff₀ hpos]
  split
  · rename_i hscale
    obtain ⟨k, hk⟩ := Int.eq_ofNat_of_zero_le hscale
    rw [hk, Int.toNat_natCast, ← cast_tenPow, decide_eq_true_iff]
    exact_mod_cast Iff.rfl
  · obtain ⟨k, hk⟩ : ∃ k : Nat, d.scale = -k := ⟨(-d.scale).toNat, by omega⟩
    rw [hk, neg_neg, Int.toNat_natCast, zpow_neg, ← cast_tenPow, decide_eq_true_iff, mul_right_comm, ← div_eq_mul_inv,
      le_div_iff₀ (by rw [cast_tenPow]; positivity)]
    exact_mod_cast Iff.rfl

theorem Decimal.atMost_iff (d : Decimal) (numerator : Nat) (h : 0 < denominator) :
    d.atMost numerator denominator = true ↔ d.value ≤ (numerator : ℚ) / denominator := by
  have hpos : (0 : ℚ) < denominator := by exact_mod_cast h
  rw [atMost, value, le_div_iff₀ hpos]
  split
  · rename_i hscale
    obtain ⟨k, hk⟩ := Int.eq_ofNat_of_zero_le hscale
    rw [hk, Int.toNat_natCast, ← cast_tenPow, decide_eq_true_iff]
    exact_mod_cast Iff.rfl
  · obtain ⟨k, hk⟩ : ∃ k : Nat, d.scale = -k := ⟨(-d.scale).toNat, by omega⟩
    rw [hk, neg_neg, Int.toNat_natCast, zpow_neg, ← cast_tenPow, decide_eq_true_iff, mul_right_comm, ← div_eq_mul_inv,
      div_le_iff₀ (by rw [cast_tenPow]; positivity)]
    exact_mod_cast Iff.rfl

theorem Decimal.value_succ (digits : Nat) (scale : ℤ) : value ⟨digits + 1, scale⟩ = value ⟨digits, scale⟩ + 10 ^ scale := by
  rw [value, value]
  push_cast
  ring

theorem Decimal.value_le_largest_iff (digits scale : Nat) : value ⟨digits, scale⟩ ≤ largest ↔ digits * tenPow scale ≤ largest := by
  rw [value, ← cast_tenPow, ← Nat.cast_mul, Nat.cast_le]

@[simp] theorem Decimal.floor_scale (numerator denominator : Nat) (scale : ℤ) :
    (floor numerator denominator scale).scale = scale := by
  rw [floor]
  split <;> rfl

/-- The largest decimal of a scale that is not above a fraction. -/
theorem Decimal.floor_spec (numerator : Nat) (h : 0 < denominator) (scale : ℤ) :
    (floor numerator denominator scale).value ≤ (numerator : ℚ) / denominator ∧
      (numerator : ℚ) / denominator < (floor numerator denominator scale).value + 10 ^ scale := by
  have hten : ∀ k, 0 < tenPow k := fun k => Nat.pow_pos (by decide)
  have hnext : (floor numerator denominator scale).value + 10 ^ scale =
      value ⟨(floor numerator denominator scale).digits + 1, scale⟩ := by
    rw [value_succ, value, value, floor_scale]
  rw [hnext, ← not_le, ← atMost_iff _ _ h, ← atMost_iff _ _ h, atMost, atMost, floor_scale, floor]
  dsimp only
  split <;> rw [decide_eq_true_iff, decide_eq_true_iff, not_le]
  · have hmul : ∀ q, q * tenPow scale.toNat * denominator = denominator * tenPow scale.toNat * q := fun q => by ring
    rw [hmul, hmul]
    exact ⟨Nat.mul_div_le _ _, Nat.lt_mul_div_succ _ (Nat.mul_pos h (hten _))⟩
  · exact ⟨Nat.div_mul_le_self _ _, by rw [Nat.mul_comm _ denominator]; exact Nat.lt_mul_div_succ _ h⟩

theorem RoundingInterval.contains_iff (r : RoundingInterval) (h : 0 < r.denominator) (d : Decimal) :
    r.contains d = true ↔
      if r.closed then (r.low : ℚ) / r.denominator ≤ d.value ∧ d.value ≤ (r.high : ℚ) / r.denominator
      else (r.low : ℚ) / r.denominator < d.value ∧ d.value < (r.high : ℚ) / r.denominator := by
  rw [contains]
  split
  · rw [Bool.and_eq_true, d.atLeast_iff _ h, d.atMost_iff _ h]
  · rw [Bool.and_eq_true, Bool.not_eq_true', Bool.not_eq_true', Bool.eq_false_iff, Bool.eq_false_iff, Ne, Ne, d.atLeast_iff _ h,
      d.atMost_iff _ h, not_le, not_le]

/-! ## Places -/

theorem lt_tenPow_digitCount (n : Nat) : n < tenPow (digitCount n) :=
  (Nat.length_toDigits_le_iff (by decide) Nat.length_toDigits_pos).mp (Nat.le_refl _)

theorem digitCount_pos (n : Nat) : 0 < digitCount n := Nat.length_toDigits_pos

theorem tenPow_digitCount_le {n : Nat} (h : 0 < n) : tenPow (digitCount n - 1) ≤ n := by
  rcases Nat.eq_zero_or_pos (digitCount n - 1) with hone | hmore
  · rw [hone]
    exact h
  · have hlength := (Nat.length_toDigits_le_iff (b := 10) (n := n) (by decide) hmore).not
    rw [not_lt] at hlength
    exact hlength.mp (by unfold digitCount at hmore ⊢; omega)

theorem tenPow_le_iff (numerator : Nat) (hd : 0 < denominator) (k : Nat) :
    (10 : ℚ) ^ (k : ℤ) ≤ (numerator : ℚ) / denominator ↔ tenPow k * denominator ≤ numerator := by
  rw [le_div_iff₀ (by exact_mod_cast hd), ← cast_tenPow]
  exact_mod_cast Iff.rfl

theorem tenPow_neg_le_iff (numerator : Nat) (hd : 0 < denominator) (k : Nat) :
    (10 : ℚ) ^ (-k : ℤ) ≤ (numerator : ℚ) / denominator ↔ denominator ≤ numerator * tenPow k := by
  have hten : 0 < tenPow k := Nat.pow_pos (by decide)
  rw [zpow_neg, ← cast_tenPow, inv_eq_one_div, div_le_div_iff₀ (by exact_mod_cast hten) (by exact_mod_cast hd), one_mul]
  exact_mod_cast Iff.rfl

/-- The least count of numerators that reaches the denominator. -/
theorem ceil_spec (hn : 0 < numerator) (denominator : Nat) :
    denominator ≤ numerator * ((denominator + numerator - 1) / numerator) ∧
      (0 < denominator → numerator * ((denominator + numerator - 1) / numerator - 1) < denominator) := by
  have hdivmod := Nat.div_add_mod (denominator + numerator - 1) numerator
  have hmod := Nat.mod_lt (denominator + numerator - 1) hn
  rw [Nat.mul_sub_one]
  omega

/-- The place of the leading digit. -/
theorem magnitude_spec (hn : 0 < numerator) (hd : 0 < denominator) :
    (10 : ℚ) ^ (magnitude numerator denominator - 1) ≤ (numerator : ℚ) / denominator ∧
      (numerator : ℚ) / denominator < 10 ^ magnitude numerator denominator := by
  rw [← not_le, magnitude]
  dsimp only
  split
  · rename_i hle
    have hlow := tenPow_digitCount_le (Nat.div_pos hle hd)
    have hhigh := lt_tenPow_digitCount (numerator / denominator)
    have hcount := digitCount_pos (numerator / denominator)
    rw [← Nat.cast_one, ← Nat.cast_sub hcount, tenPow_le_iff _ hd, tenPow_le_iff _ hd, ← Nat.le_div_iff_mul_le hd,
      ← Nat.le_div_iff_mul_le hd, not_le]
    exact ⟨hlow, hhigh⟩
  · rename_i hlt
    rw [not_le] at hlt
    -- Below one, the digits of the reciprocal rounded up tell the place; if that is a power of ten, it has one too many.
    obtain ⟨hreach, hbelow⟩ := ceil_spec hn denominator
    have hbelow := hbelow hd
    generalize (denominator + numerator - 1) / numerator = guess at hreach hbelow ⊢
    have hguess : 0 < guess := by
      by_contra hzero
      rw [Nat.eq_zero_of_not_pos hzero] at hreach
      omega
    have hlow := tenPow_digitCount_le hguess
    have hhigh := lt_tenPow_digitCount guess
    obtain ⟨count, hcount⟩ := Nat.exists_eq_add_one.mpr (digitCount_pos guess)
    rw [hcount, Nat.add_sub_cancel] at hlow
    rw [hcount] at hhigh ⊢
    rw [Nat.add_sub_cancel]
    split
    · rename_i hfits
      obtain ⟨places, rfl⟩ : ∃ places, count = places + 1 := by
        refine Nat.exists_eq_add_one.mpr (Nat.pos_of_ne_zero ?_)
        rintro rfl
        rw [show tenPow 0 = 1 from rfl] at hfits
        omega
      rw [show (2 : ℤ) - ((places + 1 + 1 : Nat) : ℤ) - 1 = -((places + 1 : Nat) : ℤ) by push_cast; ring,
        show (2 : ℤ) - ((places + 1 + 1 : Nat) : ℤ) = -(places : ℤ) by push_cast; ring, tenPow_neg_le_iff _ hd,
        tenPow_neg_le_iff _ hd]
      refine ⟨hfits, ?_⟩
      have hless : tenPow places ≤ guess - 1 := by
        have hstep : tenPow (places + 1) = tenPow places * 10 := Nat.pow_succ 10 places
        have hpos : 0 < tenPow places := Nat.pow_pos (by decide)
        omega
      exact not_le.mpr ((Nat.mul_le_mul_left _ hless).trans_lt hbelow)
    · rename_i hfits
      rw [show (1 : ℤ) - ((count + 1 : Nat) : ℤ) - 1 = -((count + 1 : Nat) : ℤ) by push_cast; ring,
        show (1 : ℤ) - ((count + 1 : Nat) : ℤ) = -(count : ℤ) by push_cast; ring, tenPow_neg_le_iff _ hd, tenPow_neg_le_iff _ hd]
      exact ⟨hreach.trans (Nat.mul_le_mul_left _ hhigh.le), hfits⟩

/-! ## The interval of a number -/

namespace Binary

variable {b : Binary}

/-- The magnitude of a number. -/
def value (b : Binary) : ℚ := b.significand * 2 ^ b.exponent

theorem value_pos (h : 0 < b.significand) : 0 < b.value := by
  have hcast : (0 : ℚ) < b.significand := by exact_mod_cast h
  rw [value]
  positivity

theorem fraction_spec (b : Binary) : 0 < b.fraction.2 ∧ (b.fraction.1 : ℚ) / b.fraction.2 = b.value := by
  rw [fraction, value]
  split
  · rename_i he
    obtain ⟨k, hk⟩ := Int.eq_ofNat_of_zero_le he
    rw [hk, Int.toNat_natCast, ← cast_twoPow]
    exact ⟨Nat.one_pos, by push_cast; ring⟩
  · obtain ⟨k, hk⟩ : ∃ k : Nat, b.exponent = -k := ⟨(-b.exponent).toNat, by omega⟩
    rw [hk, neg_neg, Int.toNat_natCast, zpow_neg, ← cast_twoPow, div_eq_mul_inv]
    exact ⟨Nat.pow_pos (by decide), rfl⟩

/-- The ends of the interval in quarters of the significand's unit. -/
theorem roundingInterval_ends (b : Binary) :
    0 < b.roundingInterval.denominator ∧
      (b.roundingInterval.high : ℚ) / b.roundingInterval.denominator = (4 * b.significand + 2 : Nat) / 4 * 2 ^ b.exponent ∧
      (b.roundingInterval.low : ℚ) / b.roundingInterval.denominator =
        (4 * b.significand - (if b.significand == twoPow 52 && b.exponent > -1074 then 1 else 2) : Nat) / 4 * 2 ^ b.exponent := by
  rw [roundingInterval]
  generalize (4 * b.significand - _ : Nat) = low
  generalize 4 * b.significand + 2 = high
  split
  · rename_i he
    obtain ⟨k, hk⟩ := Int.eq_ofNat_of_zero_le he
    rw [hk, Int.toNat_natCast, ← cast_twoPow]
    refine ⟨Nat.succ_pos 3, ?_, ?_⟩ <;> (push_cast; ring)
  · obtain ⟨k, hk⟩ : ∃ k : Nat, b.exponent = -k := ⟨(-b.exponent).toNat, by omega⟩
    have hpos : 0 < twoPow k := Nat.pow_pos (by decide)
    rw [hk, neg_neg, Int.toNat_natCast, zpow_neg, ← cast_twoPow]
    refine ⟨Nat.mul_pos (by decide) hpos, ?_, ?_⟩ <;> (push_cast; rw [div_mul_eq_div_div, div_eq_mul_inv _ (twoPow k : ℚ)])

/-- The upper end of the interval lies half a unit of the significand above the number. The lower one is closer where the number is
a power of two, but still as far away as the 54th binary digit. -/
theorem roundingInterval_spec (hm : 0 < b.significand) (hm53 : b.significand < 2 ^ 53) :
    (b.roundingInterval.high : ℚ) / b.roundingInterval.denominator = b.value + 2 ^ b.exponent / 2 ∧
      (b.roundingInterval.low : ℚ) / b.roundingInterval.denominator ≤ b.value - b.value / 2 ^ 54 := by
  obtain ⟨-, hhigh, hlow⟩ := b.roundingInterval_ends
  rw [hhigh, hlow, value]
  have hunit : (0 : ℚ) < 2 ^ b.exponent := by positivity
  refine ⟨by push_cast; ring, ?_⟩
  split
  · rename_i hnarrow
    have hm52 : b.significand = 2 ^ 52 := by simpa [twoPow] using (Bool.and_eq_true_iff.mp hnarrow).1
    rw [Nat.cast_sub (by omega), hm52]
    push_cast
    apply le_of_eq
    ring
  · have hcast : (b.significand : ℚ) < 2 ^ 53 := by exact_mod_cast hm53
    rw [Nat.cast_sub (by omega)]
    push_cast
    nlinarith

end Binary

/-! ## The shortest decimal -/

section Shortest

variable {b : Binary} {r : RoundingInterval}

/-- A decimal of at most so many digits that reads back as the number. -/
structure Fits (b : Binary) (count : Nat) (d : Decimal) : Prop where
  pos : 0 < d.digits
  short : d.digits ≤ tenPow count
  contains : b.roundingInterval.contains d = true

theorem Fits.mono {m n : Nat} (h : Fits b m d) (hle : m ≤ n) : Fits b n d :=
  ⟨h.pos, h.short.trans (tenPow_le_tenPow hle), h.contains⟩

/-- The largest decimal of so many digits that is not above a number. -/
def lower (b : Binary) (count : Nat) : Decimal :=
  Decimal.floor b.fraction.1 b.fraction.2 (magnitude b.fraction.1 b.fraction.2 - count)

/-- The next decimal of that scale. -/
def upper (b : Binary) (count : Nat) : Decimal := ⟨(lower b count).digits + 1, (lower b count).scale⟩

/-- The candidates lie around the number, one unit of their last place apart, and do not have more digits. -/
theorem candidates_spec (hm : 0 < b.significand) (count : Nat) :
    (lower b count).value ≤ b.value ∧ b.value < (upper b count).value ∧
      ((upper b count).value - (lower b count).value) * 10 ^ ((count : ℤ) - 1) ≤ b.value ∧
      (lower b count).digits + 1 ≤ tenPow count := by
  obtain ⟨hd, hvalue⟩ := b.fraction_spec
  have hn : 0 < b.fraction.1 := by
    refine Nat.pos_of_ne_zero (fun hzero => ?_)
    have hpos := Binary.value_pos hm
    rw [← hvalue, hzero] at hpos
    simp at hpos
  obtain ⟨hplace, hnext⟩ := magnitude_spec hn hd
  have hfloor := Decimal.floor_spec b.fraction.1 hd (magnitude b.fraction.1 b.fraction.2 - count)
  have hupper : (upper b count).value = (lower b count).value + 10 ^ (magnitude b.fraction.1 b.fraction.2 - count) := by
    rw [upper, Decimal.value_succ, lower, Decimal.floor_scale, Decimal.value, Decimal.value, Decimal.floor_scale]
  rw [hvalue] at hplace hnext hfloor
  refine ⟨hfloor.1, hupper ▸ hfloor.2, ?_, ?_⟩
  · rw [hupper, add_sub_cancel_left, ← zpow_add₀ (by norm_num), sub_add_sub_cancel]
    exact hplace
  · have hlt : ((lower b count).digits : ℚ) * 10 ^ (magnitude b.fraction.1 b.fraction.2 - count) <
        tenPow count * 10 ^ (magnitude b.fraction.1 b.fraction.2 - count) := by
      have hdigits := hfloor.1.trans_lt hnext
      rw [Decimal.value, Decimal.floor_scale] at hdigits
      rw [cast_tenPow, ← zpow_add₀ (by norm_num), add_sub_cancel]
      exact hdigits
    exact_mod_cast lt_of_mul_lt_mul_right hlt (by positivity)

/-- With seventeen digits one of the two candidates reads back: they lie closer to each other than the ends of the interval do. -/
theorem seventeen_fit (hm : 0 < b.significand) (hm53 : b.significand < 2 ^ 53) :
    (lower b 17).digits ≠ 0 ∧ b.roundingInterval.contains (lower b 17) = true ∨
      b.roundingInterval.contains (upper b 17) = true := by
  obtain ⟨hlow, hhigh, hclose, -⟩ := candidates_spec hm 17
  obtain ⟨hends, -⟩ := b.roundingInterval_ends
  obtain ⟨htop, hbottom⟩ := Binary.roundingInterval_spec hm hm53
  have hpos := Binary.value_pos hm
  have hunit : b.value / 2 ^ 54 < 2 ^ b.exponent / 2 := by
    have hcast : (b.significand : ℚ) < 2 ^ 53 := by exact_mod_cast hm53
    have hunit : (0 : ℚ) < 2 ^ b.exponent := by positivity
    rw [Binary.value]
    nlinarith
  rw [show ((17 : Nat) : ℤ) - 1 = (16 : Nat) from rfl, zpow_natCast] at hclose
  by_contra hneither
  rw [not_or, RoundingInterval.contains_iff _ hends, RoundingInterval.contains_iff _ hends, htop] at hneither
  have hdigits : (lower b 17).digits ≠ 0 := by
    intro hzero
    have hvalue : (lower b 17).value = 0 := by simp [Decimal.value, hzero]
    rw [hvalue] at hclose
    nlinarith
  have hbelow : (lower b 17).value ≤ b.roundingInterval.low / b.roundingInterval.denominator := by
    by_contra habove
    refine hneither.1 ⟨hdigits, ?_⟩
    split <;> constructor <;> linarith
  have habove : b.value + 2 ^ b.exponent / 2 ≤ (upper b 17).value := by
    by_contra hbelow
    refine hneither.2 ?_
    split <;> constructor <;> linarith
  linarith

/-- The candidates of a number, tried with one more digit at a time. -/
def search (b : Binary) : Nat → Nat → Decimal :=
  shortestFrom b.roundingInterval b.fraction.1 b.fraction.2 (magnitude b.fraction.1 b.fraction.2)

/-- One of the candidates with so many digits is taken, or none of them reads back. -/
theorem search_step (hm : 0 < b.significand) (fuel count : Nat) :
    Fits b count (search b (fuel + 1) count) ∨
      search b (fuel + 1) count = search b fuel (count + 1) ∧
        ¬ ((lower b count).digits ≠ 0 ∧ b.roundingInterval.contains (lower b count) = true ∨
          b.roundingInterval.contains (upper b count) = true) := by
  obtain ⟨-, -, -, hshort⟩ := candidates_spec hm count
  have hsearch : search b (fuel + 1) count =
      if (lower b count).digits != 0 && b.roundingInterval.contains (lower b count) &&
          (!b.roundingInterval.contains (upper b count) || (lower b count).nearerThanNext b.fraction.1 b.fraction.2) then
        lower b count
      else if b.roundingInterval.contains (upper b count) then upper b count
      else search b fuel (count + 1) := rfl
  rw [hsearch]
  split
  · rename_i hlow
    rw [Bool.and_eq_true, Bool.and_eq_true, bne_iff_ne] at hlow
    exact Or.inl ⟨Nat.pos_of_ne_zero hlow.1.1, Nat.le_of_lt hshort, hlow.1.2⟩
  · rename_i hlow
    split
    · rename_i hhigh
      exact Or.inl ⟨Nat.succ_pos _, hshort, hhigh⟩
    · rename_i hhigh
      refine Or.inr ⟨rfl, fun hfits => hlow ?_⟩
      obtain ⟨hdigits, hfits⟩ := hfits.resolve_right hhigh
      simp [hdigits, hfits, hhigh]

theorem search_fits (hm : 0 < b.significand) (hm53 : b.significand < 2 ^ 53) {fuel count : Nat} (hfuel : fuel + count = 17) :
    Fits b 17 (search b (fuel + 1) count) := by
  induction fuel generalizing count with
  | zero =>
    obtain rfl : count = 17 := by omega
    exact (search_step hm 0 17).resolve_right (fun hneither => hneither.2 (seventeen_fit hm hm53))
  | succ fuel ih =>
    rcases search_step hm (fuel + 1) count with hfits | ⟨hnext, -⟩
    · exact hfits.mono (by omega)
    · rw [hnext]
      exact ih (by omega)

/-- Zeros taken off the end do not change the value. -/
theorem trimZeros_spec (fuel : Nat) (d : Decimal) (h : 0 < d.digits) :
    0 < (d.trimZeros fuel).digits ∧ (d.trimZeros fuel).digits ≤ d.digits ∧ (d.trimZeros fuel).value = d.value := by
  induction fuel generalizing d with
  | zero => exact ⟨h, Nat.le_refl _, rfl⟩
  | succ fuel ih =>
    rw [Decimal.trimZeros]
    split
    · rename_i hzero
      rw [Bool.and_eq_true, beq_iff_eq] at hzero
      obtain ⟨hpos, hle, hvalue⟩ := ih ⟨d.digits / 10, d.scale + 1⟩ (by dsimp only; omega)
      refine ⟨hpos, hle.trans (Nat.div_le_self _ _), hvalue.trans ?_⟩
      have hdigits : d.digits = 10 * (d.digits / 10) := by omega
      have hcast : (d.digits : ℚ) = 10 * (d.digits / 10 : Nat) := by exact_mod_cast hdigits
      rw [Decimal.value, Decimal.value, hcast, zpow_add₀ (by norm_num)]
      ring
    · exact ⟨h, Nat.le_refl _, rfl⟩

/-- The shortest decimal of a number reads back as it, and seventeen digits suffice for that. -/
theorem shortest_fits (hm : 0 < b.significand) (hm53 : b.significand < 2 ^ 53) : Fits b 17 b.shortest := by
  have hfits := search_fits hm hm53 (show 16 + 1 = 17 from rfl)
  obtain ⟨hpos, hle, hvalue⟩ := trimZeros_spec 20 _ hfits.pos
  have hends := b.roundingInterval_ends.1
  have hcontains := hfits.contains
  rw [RoundingInterval.contains_iff _ hends, ← hvalue, ← RoundingInterval.contains_iff _ hends] at hcontains
  exact ⟨hpos, hle.trans hfits.short, hcontains⟩

/-- A decimal that reads back as a number is not above the largest number, except as the largest number itself. -/
theorem Fits.value_le {count : Nat} {d : Decimal} (h : Fits b count d) (hm : 0 < b.significand) (hm53 : b.significand < 2 ^ 53)
    (he : b.exponent ≤ 971) (hnot : b.significand ≠ 2 ^ 53 - 1 ∨ b.exponent ≠ 971) : d.value ≤ largest := by
  have hcontains := (RoundingInterval.contains_iff _ b.roundingInterval_ends.1 d).mp h.contains
  rw [(Binary.roundingInterval_spec hm hm53).1] at hcontains
  have hle : d.value ≤ b.value + 2 ^ b.exponent / 2 := by
    split at hcontains
    · exact hcontains.2
    · exact hcontains.2.le
  refine hle.trans ?_
  rw [cast_largest, Binary.value]
  -- Half a unit above a number that is not the largest is not above the largest; the cases are its exponent.
  rcases eq_or_lt_of_le he with heq | hlt
  · have hless : b.significand + 1 ≤ 2 ^ 53 - 1 := by omega
    have hcast : (b.significand : ℚ) + 1 ≤ (2 ^ 53 - 1 : Nat) := by exact_mod_cast hless
    rw [heq, show (971 : ℤ) = ((971 : Nat) : ℤ) from rfl]
    have hunit : (0 : ℚ) < 2 ^ ((971 : Nat) : ℤ) := by positivity
    calc (b.significand : ℚ) * 2 ^ ((971 : Nat) : ℤ) + 2 ^ ((971 : Nat) : ℤ) / 2
        ≤ b.significand * 2 ^ ((971 : Nat) : ℤ) + 1 * 2 ^ ((971 : Nat) : ℤ) := by
          rw [one_mul]
          exact add_le_add_right (half_le_self hunit.le) _
      _ = (b.significand + 1) * 2 ^ ((971 : Nat) : ℤ) := (add_mul _ _ _).symm
      _ ≤ ((2 ^ 53 - 1 : Nat) : ℚ) * 2 ^ ((971 : Nat) : ℤ) := mul_le_mul_of_nonneg_right hcast hunit.le
  · have hunit : (2 : ℚ) ^ b.exponent * 2 ≤ 2 ^ ((971 : Nat) : ℤ) := by
      rw [← zpow_add_one₀ (by norm_num)]
      exact zpow_le_zpow_right₀ (by norm_num) (by omega)
    have hcast : (b.significand : ℚ) + 1 ≤ 2 ^ 53 := by exact_mod_cast hm53
    have hpos : (0 : ℚ) < 2 ^ b.exponent := by positivity
    calc (b.significand : ℚ) * 2 ^ b.exponent + 2 ^ b.exponent / 2 ≤ 2 ^ 52 * (2 ^ b.exponent * 2) := by nlinarith
      _ ≤ 2 ^ 52 * 2 ^ ((971 : Nat) : ℤ) := by gcongr
      _ ≤ ((2 ^ 53 - 1 : Nat) : ℚ) * 2 ^ ((971 : Nat) : ℤ) := by
        gcongr
        norm_num

/-- The shortest decimal of a number is not above the largest number. -/
theorem shortest_le_largest (hm : 0 < b.significand) (hm53 : b.significand < 2 ^ 53) (he : b.exponent ≤ 971) :
    b.shortest.value ≤ largest := by
  by_cases hlast : b.significand = 2 ^ 53 - 1 ∧ b.exponent = 971
  · obtain ⟨negative, significand, exponent⟩ := b
    obtain ⟨rfl, rfl⟩ : significand = 2 ^ 53 - 1 ∧ exponent = 971 := hlast
    have hshortest : ∀ negative, (⟨negative, 2 ^ 53 - 1, 971⟩ : Binary).shortest = ⟨17976931348623157, (292 : Nat)⟩ := by
      decide +kernel
    have hle : 17976931348623157 * tenPow 292 ≤ largest := by decide +kernel
    rw [hshortest]
    exact (Decimal.value_le_largest_iff _ _).mpr hle
  · exact (shortest_fits hm hm53).value_le hm hm53 he (by omega)

end Shortest

end DaxPlan.Number
