import DaxPlan.Number.Read
import Mathlib.Algebra.Order.Field.Power
import Mathlib.Tactic.Positivity
import Mathlib.Tactic.Ring
import Mathlib.Tactic.Linarith
import Mathlib.Tactic.FieldSimp
import Mathlib.Tactic.NormNum

/-!
# Bounds that rounding keeps

A number that is rounded to 53 binary digits does not pass one that has no more (`atMost_round`). So a product is not above a number
of 53 digits that the product of the factors' bounds is not above (`atMost_mul`), and a count of up to seventeen decimal digits is
scaled by a power of ten to a finite number if it is not scaled beyond the largest one (`isFinite_scaled_of_le`).
-/

namespace DaxPlan.Number

open Float.Model Float.Model.UnpackedFloat

/-! ## Shifting and rounding a significand -/

section Shift

variable {m k b : Nat}

theorem shiftRight_mantissa (em : ExtendedMantissa) (k : Nat) : (em >>> k).mantissa = em.mantissa / 2 ^ k := by
  induction k with
  | zero => exact (Nat.div_one _).symm
  | succ k ih =>
    change (em >>> k).mantissa / 2 = _
    rw [ih, Nat.div_div_eq_div_mul, Nat.pow_succ]

/-- Where nothing is lost by a shift, nothing is rounded. -/
theorem shiftRight_exact (h : 2 ^ k ∣ m) :
    (ExtendedMantissa.ofMantissaAndAccuracy m .exact) >>> k = ⟨m / 2 ^ k, false, false⟩ := by
  induction k with
  | zero => simp [HShiftRight.hShiftRight, Nat.repeat, ExtendedMantissa.ofMantissaAndAccuracy]
  | succ k ih =>
    obtain ⟨q, rfl⟩ := h
    have hk : 2 ^ (k + 1) * q = 2 ^ k * (2 * q) := by ring
    change ((ExtendedMantissa.ofMantissaAndAccuracy _ .exact) >>> k).shiftRightOne = _
    rw [ih ⟨2 * q, hk⟩, Nat.mul_div_cancel_left _ (by positivity), hk, Nat.mul_div_cancel_left _ (by positivity)]
    simp [ExtendedMantissa.shiftRightOne]

theorem roundedMantissa_le_add_one (em : ExtendedMantissa) : em.roundedMantissa ≤ em.mantissa + 1 := by
  obtain ⟨m, r, s⟩ := em
  cases r <;> cases s <;> simp [ExtendedMantissa.roundedMantissa, ExtendedMantissa.accuracy, Accuracy.roundToNearestEven]
  omega

/-- A significand that is not above a whole number is not rounded above it. -/
theorem roundedMantissa_le (h : m ≤ b * 2 ^ k) :
    ((ExtendedMantissa.ofMantissaAndAccuracy m .exact) >>> k).roundedMantissa ≤ b := by
  have hdiv : m / 2 ^ k ≤ b := Nat.div_le_of_le_mul (by rwa [Nat.mul_comm])
  rcases Nat.lt_or_eq_of_le hdiv with hlt | heq
  · have hround := roundedMantissa_le_add_one ((ExtendedMantissa.ofMantissaAndAccuracy m .exact) >>> k)
    rw [shiftRight_mantissa] at hround
    exact hround.trans hlt
  · have hm : m = 2 ^ k * b := by
      refine Nat.le_antisymm (by rwa [Nat.mul_comm]) ?_
      rw [← heq]
      exact Nat.mul_div_le m (2 ^ k)
    rw [shiftRight_exact ⟨b, hm⟩, ← heq]
    exact Nat.le_refl _

end Shift

/-! ## Rounding -/

/-- The largest finite number. -/
def largest : Nat := (2 ^ 53 - 1) * twoPow 971

theorem twoPow_le_twoPow {m n : Nat} (h : m ≤ n) : twoPow m ≤ twoPow n := Nat.pow_le_pow_right Nat.two_pos h

theorem tenPow_le_tenPow {m n : Nat} (h : m ≤ n) : tenPow m ≤ tenPow n := Nat.pow_le_pow_right (by decide) h

theorem cast_twoPow (n : Nat) : ((twoPow n : Nat) : ℚ) = 2 ^ (n : ℤ) := (Nat.cast_pow 2 n).trans (zpow_natCast 2 n).symm

theorem cast_tenPow (n : Nat) : ((tenPow n : Nat) : ℚ) = 10 ^ (n : ℤ) := (Nat.cast_pow 10 n).trans (zpow_natCast 10 n).symm

theorem cast_largest : (largest : ℚ) = ((2 ^ 53 - 1 : Nat) : ℚ) * 2 ^ ((971 : Nat) : ℤ) := by
  rw [largest, Nat.cast_mul, cast_twoPow]

theorem bound_le_largest {b x : Nat} (hb : b < 2 ^ 53) (hx : x ≤ 971) : (b : ℚ) * 2 ^ (x : ℤ) ≤ largest := by
  rw [← cast_twoPow, ← Nat.cast_mul, Nat.cast_le]
  exact Nat.mul_le_mul (Nat.le_pred_of_lt hb) (twoPow_le_twoPow hx)

/-- The number of binary places of a significand that are lost by rounding. -/
def lostPlaces (m : Nat) (e : ℤ) : Nat := (max (m.log2 + e - 52) (-1074) - e).toNat

section Round

variable {m b : Nat} {e x : ℤ} {bound : ℚ}

theorem shiftToTargetExponent_eq (m : Nat) (e : ℤ) :
    shiftToTargetExponent Format.binary64 m e .exact =
      ((ExtendedMantissa.ofMantissaAndAccuracy m .exact) >>> lostPlaces m e, e + lostPlaces m e) := by
  have htarget : Format.binary64.targetExponent (totalExponent m e) = max (m.log2 + e - 52) (-1074) := by
    unfold Format.targetExponent totalExponent Format.minExponent Format.mantissaBits
    norm_num
    omega
  rw [shiftToTargetExponent, shiftToExponent, htarget]
  rfl

theorem two_zpow_log2_le (hm : m ≠ 0) (e : ℤ) : (2 : ℚ) ^ ((m.log2 : ℤ) + e) ≤ m * 2 ^ e := by
  rw [zpow_add₀ (by norm_num), zpow_natCast]
  gcongr
  exact_mod_cast Nat.log2_self_le hm

/-- The first digit of a number up to the largest one stands at a place below 1024. -/
theorem log2_add_lt (hm : m ≠ 0) (h : (m : ℚ) * 2 ^ e ≤ largest) : m.log2 + e < 1024 := by
  have hlargest : (largest : ℚ) < 2 ^ (1024 : ℤ) := by
    have hlt : largest < twoPow 1024 := by decide +kernel
    rw [show (1024 : ℤ) = (1024 : Nat) from rfl, ← cast_twoPow, Nat.cast_lt]
    exact hlt
  exact (zpow_lt_zpow_iff_right₀ (by norm_num)).mp (((two_zpow_log2_le hm e).trans h).trans_lt hlargest)

/-- A number with more than 53 digits before the last place of one of 53 is above that one. -/
theorem lt_of_log2 (hm : m ≠ 0) (hb : b < 2 ^ 53) (h : 53 + x ≤ m.log2 + e) : (b : ℚ) * 2 ^ x < m * 2 ^ e := by
  refine lt_of_lt_of_le ?_ (two_zpow_log2_le hm e)
  calc (b : ℚ) * 2 ^ x < 2 ^ (53 : ℤ) * 2 ^ x := by
        gcongr
        exact_mod_cast hb
    _ = 2 ^ (53 + x) := (zpow_add₀ (by norm_num) _ _).symm
    _ ≤ 2 ^ (m.log2 + e) := zpow_le_zpow_right₀ (by norm_num) h

/-- The rounded significand of a number that is not above one of 53 binary digits is not above it either. -/
theorem rounded_le (hb : b < 2 ^ 53) (hx : -1074 ≤ x) (h : (m : ℚ) * 2 ^ e ≤ b * 2 ^ x) :
    (((ExtendedMantissa.ofMantissaAndAccuracy m .exact) >>> lostPlaces m e).roundedMantissa : ℚ) * 2 ^ (e + lostPlaces m e) ≤
      b * 2 ^ x := by
  have htwo : (0 : ℚ) < 2 ^ e := by positivity
  -- Up to the last place of the bound whole units are compared; past it no place is lost, or the number were above the bound.
  by_cases hle : e + lostPlaces m e ≤ x
  · obtain ⟨n, rfl⟩ : ∃ n : Nat, x = e + lostPlaces m e + n := ⟨(x - (e + lostPlaces m e)).toNat, by omega⟩
    have hm : m ≤ b * 2 ^ n * 2 ^ lostPlaces m e := by
      rw [zpow_add₀ (by norm_num), zpow_add₀ (by norm_num), zpow_natCast, zpow_natCast] at h
      have hdiv : (m : ℚ) ≤ b * 2 ^ n * 2 ^ lostPlaces m e := by
        refine le_of_mul_le_mul_right (h.trans_eq ?_) htwo
        ring
      exact_mod_cast hdiv
    have hround := roundedMantissa_le hm
    calc _ ≤ ((b * 2 ^ n : Nat) : ℚ) * 2 ^ (e + lostPlaces m e) := by gcongr
      _ = b * 2 ^ (e + lostPlaces m e + n) := by
        rw [zpow_add₀ (by norm_num) (e + lostPlaces m e), zpow_natCast]
        push_cast
        ring
  · rcases Nat.eq_zero_or_pos (lostPlaces m e) with hzero | hpos
    · have hround : ((ExtendedMantissa.ofMantissaAndAccuracy m .exact) >>> 0).roundedMantissa ≤ m :=
        roundedMantissa_le (Nat.le_of_eq (Nat.mul_one m).symm)
      rw [hzero]
      calc _ ≤ (m : ℚ) * 2 ^ (e + (0 : Nat)) := by gcongr
        _ ≤ b * 2 ^ x := by simpa using h
    · -- the number has more than 53 digits before the last place of the bound, and so is above it
      have hplaces : m.log2 + e = e + lostPlaces m e + 52 := by
        unfold lostPlaces at hle hpos ⊢
        omega
      have hm : m ≠ 0 := by
        rintro rfl
        simp at hplaces
        omega
      exact absurd h (not_le.mpr (lt_of_log2 hm hb (by omega)))

/-- The last place of a rounded number up to the largest one fits the exponent field. -/
theorem add_lostPlaces_bounds (h : (m : ℚ) * 2 ^ e ≤ largest) (he : e ≤ 971 ∨ 52 ≤ m.log2) :
    -1074 ≤ e + lostPlaces m e ∧ e + lostPlaces m e ≤ 971 := by
  have hplace : m ≠ 0 → m.log2 + e < 1024 := fun hm => log2_add_lt hm h
  have hzero : m = 0 → m.log2 = 0 := by
    rintro rfl
    rfl
  unfold lostPlaces
  omega

/-- Rounding a number up to the largest one gives zero, or a number that fits its exponent field. -/
theorem roundWithAccuracy_cases (hb : b < 2 ^ 53) (hx : -1074 ≤ x) (hlargest : (b : ℚ) * 2 ^ x ≤ largest)
    (h : (m : ℚ) * 2 ^ e ≤ b * 2 ^ x) (he : e ≤ 971 ∨ 52 ≤ m.log2) (s : Sign) :
    roundWithAccuracy Format.binary64 s m e .exact = .zero s ∨
      ∃ m' e' hm', roundWithAccuracy Format.binary64 s m e .exact = .finite s m' e' hm' ∧ -1074 ≤ e' ∧ e' ≤ 971 ∧
        (m' : ℚ) * 2 ^ e' ≤ b * 2 ^ x := by
  have hrounded := rounded_le hb hx h
  rw [roundWithAccuracy, shiftToTargetExponent_eq]
  dsimp only
  generalize hr : ((ExtendedMantissa.ofMantissaAndAccuracy m .exact) >>> lostPlaces m e).roundedMantissa = r at hrounded ⊢
  rw [shiftToTargetExponent_eq]
  dsimp only
  have hfirst := add_lostPlaces_bounds (h.trans hlargest) he
  have hsecond := add_lostPlaces_bounds (hrounded.trans hlargest) (Or.inl hfirst.2)
  have hvalue : ((r / 2 ^ lostPlaces r (e + lostPlaces m e) : Nat) : ℚ) *
      2 ^ (e + lostPlaces m e + lostPlaces r (e + lostPlaces m e)) ≤ b * 2 ^ x := by
    refine le_trans ?_ hrounded
    rw [zpow_add₀ (by norm_num) (e + lostPlaces m e), zpow_natCast, mul_left_comm, mul_comm _ ((2 : ℚ) ^ (e + _))]
    gcongr
    exact_mod_cast Nat.div_mul_le_self r _
  have hshifted := shiftRight_mantissa (ExtendedMantissa.ofMantissaAndAccuracy r .exact) (lostPlaces r (e + lostPlaces m e))
  generalize (ExtendedMantissa.ofMantissaAndAccuracy r .exact) >>> lostPlaces r (e + lostPlaces m e) = shifted at hshifted ⊢
  by_cases hne : shifted.mantissa = 0
  · exact Or.inl (dif_pos hne)
  · refine Or.inr ⟨shifted.mantissa, _, Nat.pos_of_ne_zero hne, dif_neg hne, hsecond.1, hsecond.2, ?_⟩
    rw [hshifted]
    exact hvalue

end Round

/-! ## Packed numbers -/

/-- A finite number that is not larger in magnitude. -/
def AtMost (bound : ℚ) : UnpackedFloat → Prop
  | .zero _ => True
  | .finite _ mantissa exponent _ => (mantissa : ℚ) * 2 ^ exponent ≤ bound
  | .infinity _ | .notANumber => False

theorem isFinite_of_atMost {f : UnpackedFloat} {bound : ℚ} (h : AtMost bound f) : f.isFinite = true := by
  cases f with
  | zero => rfl
  | finite => rfl
  | infinity => exact h.elim
  | notANumber => exact h.elim

theorem atMost_pack_zero (s : Sign) (bound : ℚ) : AtMost bound (Float.Model.pack (.zero s)).unpack := by
  have hzero : (Float.Model.pack (.zero s)).unpack = .zero s := by cases s <;> rfl
  rw [hzero]
  trivial

/-- The exponent field of a packed number is neither that of the infinite numbers nor that of the smallest ones. -/
theorem exponentField_spec {e : ℤ} (hlow : -1074 ≤ e) (hhigh : e ≤ 971) :
    (BitVec.ofNat 11 (e + 1075).toNat).toNat = (e + 1075).toNat ∧ BitVec.ofNat 11 (e + 1075).toNat ≠ -1#11 ∧
      BitVec.ofNat 11 (e + 1075).toNat ≠ 0#11 := by
  have hfield : (BitVec.ofNat 11 (e + 1075).toNat).toNat = (e + 1075).toNat := by
    rw [BitVec.toNat_ofNat, Nat.mod_eq_of_lt (by omega)]
  have hother : ∀ field : BitVec 11, field.toNat ≠ (e + 1075).toNat → BitVec.ofNat 11 (e + 1075).toNat ≠ field := by
    rintro field hne rfl
    exact hne hfield
  have hlast : (-1#11 : BitVec 11).toNat = 2047 := rfl
  have hzero : (0#11 : BitVec 11).toNat = 0 := rfl
  exact ⟨hfield, hother _ (by omega), hother _ (by omega)⟩

/-- A number with a digit before its point is unpacked to that digit and its fraction. -/
theorem atMost_unpack {fields : BitVec Format.binary64.numBits} {bound : ℚ} (hfinite : unpackExponent fields ≠ -1#11)
    (hnormal : unpackExponent fields ≠ 0#11)
    (h : ((1#1 ++ unpackMantissa fields).toNat : ℚ) * 2 ^ ((unpackExponent fields).toNat - 1075 : ℤ) ≤ bound) :
    AtMost bound (UnpackedFloat.unpack Format.binary64 fields) := by
  unfold UnpackedFloat.unpack
  dsimp only
  rw [if_neg hfinite, if_neg hnormal]
  exact h

/-- The smallest numbers are unpacked to their fraction. -/
theorem atMost_unpack_small {fields : BitVec Format.binary64.numBits} {bound : ℚ} (hsmall : unpackExponent fields = 0#11)
    (h : ((unpackMantissa fields).toNat : ℚ) * 2 ^ (-1074 : ℤ) ≤ bound) :
    AtMost bound (UnpackedFloat.unpack Format.binary64 fields) := by
  unfold UnpackedFloat.unpack
  dsimp only
  rw [if_neg (by rw [hsmall]; decide), if_pos hsmall]
  by_cases hzero : unpackMantissa fields = 0#52
  · rw [dif_pos hzero]
    trivial
  · rw [dif_neg hzero]
    have hexponent : ((unpackExponent fields).toNat : ℤ) - (Format.binary64.exponentBias + 52) + 1 = -1074 := by
      rw [hsmall]
      rfl
    exact (congrArg (fun e : ℤ => ((unpackMantissa fields).toNat : ℚ) * 2 ^ e) hexponent).trans_le h

theorem atMost_pack {s : Sign} {m : Nat} {e : ℤ} {bound : ℚ} (hm : 0 < m) (hlow : -1074 ≤ e) (hhigh : e ≤ 971)
    (h : (m : ℚ) * 2 ^ e ≤ bound) : AtMost bound (Float.Model.pack (.finite s m e hm)).unpack := by
  have hbiased : (e + Format.binary64.exponentBias + Format.binary64.mantissaBitsWithoutImplicit).toNat = (e + 1075).toNat := by
    norm_num [Format.exponentBias]
    omega
  have hfits : ¬ 2 ^ Format.binary64.exponentBits ≤ (e + 1075).toNat + 1 := by
    norm_num
    omega
  obtain ⟨hfield, hfinite, hnormal⟩ := exponentField_spec hlow hhigh
  unfold Float.Model.unpack Float.Model.pack UnpackedFloat.pack
  dsimp only
  rw [hbiased, if_neg hfits]
  -- With all 53 digits the leading one is implied by the exponent; with fewer the number is subnormal.
  split
  · rename_i hdigits
    refine atMost_unpack (by rwa [unpackExponent_packComponents]) (by rwa [unpackExponent_packComponents]) ?_
    rw [unpackExponent_packComponents, unpackMantissa_packComponents]
    have hm53 : 2 ^ 52 ≤ m ∧ m < 2 ^ 53 := (Nat.log2_eq_iff hm.ne').mp (Nat.succ_injective hdigits)
    have hsignificand : (1#1 ++ BitVec.ofNat 52 m).toNat = m := by
      rw [BitVec.toNat_append, ← Nat.shiftLeft_add_eq_or_of_lt (BitVec.ofNat 52 m).isLt, BitVec.toNat_ofNat m 52]
      change 2 ^ 52 + m % 2 ^ 52 = m
      omega
    have hexponent : ((BitVec.ofNat 11 (e + 1075).toNat).toNat : ℤ) - 1075 = e := by
      rw [hfield]
      omega
    exact (congrArg₂ (fun (m : Nat) (e : ℤ) => (m : ℚ) * 2 ^ e) hsignificand hexponent).trans_le h
  · refine atMost_unpack_small (by rw [unpackExponent_packComponents]) ?_
    rw [unpackMantissa_packComponents]
    have hsmaller : (BitVec.ofNat 52 m).toNat ≤ m := by
      rw [BitVec.toNat_ofNat]
      exact Nat.mod_le _ _
    have hexponent : (2 : ℚ) ^ (-1074 : ℤ) ≤ 2 ^ e := zpow_le_zpow_right₀ (by norm_num) hlow
    exact (mul_le_mul (Nat.cast_le.mpr hsmaller) hexponent (by positivity) (Nat.cast_nonneg m)).trans h

/-- A number that is rounded does not pass one of 53 digits. -/
theorem atMost_round {m b : Nat} {e x : ℤ} (hb : b < 2 ^ 53) (hx : -1074 ≤ x) (hlargest : (b : ℚ) * 2 ^ x ≤ largest)
    (h : (m : ℚ) * 2 ^ e ≤ b * 2 ^ x) (he : e ≤ 971 ∨ 52 ≤ m.log2) (s : Sign) :
    AtMost (b * 2 ^ x) (Float.Model.pack (roundWithAccuracy Format.binary64 s m e .exact)).unpack := by
  rcases roundWithAccuracy_cases hb hx hlargest h he s with heq | ⟨m', e', hm', heq, hlow, hhigh, hvalue⟩
  · rw [heq]
    exact atMost_pack_zero s _
  · rw [heq]
    exact atMost_pack hm' hlow hhigh hvalue

/-- What is unpacked has 53 digits, or the least exponent. -/
theorem unpack_normal {fields : BitVec Format.binary64.numBits} {s : Sign} {m : Nat} {e : ℤ} {hm : 0 < m}
    (h : UnpackedFloat.unpack Format.binary64 fields = .finite s m e hm) : 52 ≤ m.log2 ∧ e ≤ 971 ∨ e = -1074 := by
  unfold UnpackedFloat.unpack at h
  dsimp only at h
  by_cases hfinite : unpackExponent fields = -1#11
  · rw [if_pos hfinite] at h
    by_cases hzero : unpackMantissa fields = 0#52
    · rw [if_pos hzero] at h
      cases h
    · rw [if_neg hzero] at h
      cases h
  rw [if_neg hfinite] at h
  by_cases hsmall : unpackExponent fields = 0#11
  · rw [if_pos hsmall] at h
    by_cases hzero : unpackMantissa fields = 0#52
    · rw [dif_pos hzero] at h
      cases h
    · rw [dif_neg hzero] at h
      obtain ⟨-, -, rfl⟩ := UnpackedFloat.finite.inj h
      rw [hsmall]
      exact Or.inr rfl
  · rw [if_neg hsmall] at h
    obtain ⟨-, rfl, rfl⟩ := UnpackedFloat.finite.inj h
    refine Or.inl ⟨?_, ?_⟩
    · rw [Nat.le_log2 hm.ne', BitVec.toNat_append]
      exact Nat.left_le_or
    · have hfield : (unpackExponent fields).toNat ≠ 2047 := fun heq => hfinite (BitVec.eq_of_toNat_eq heq)
      have hlt : (unpackExponent fields).toNat < 2048 := (unpackExponent fields).isLt
      norm_num [Format.exponentBias]
      omega

section Float

variable {b : Nat} {e : ℤ} {c d : ℚ}

theorem log2_mul {m n : Nat} (hm : 0 < m) (hn : 0 < n) (h : 52 ≤ m.log2 ∨ 52 ≤ n.log2) : 52 ≤ (m * n).log2 := by
  rw [Nat.le_log2 hm.ne', Nat.le_log2 hn.ne'] at h
  rw [Nat.le_log2 (Nat.mul_ne_zero hm.ne' hn.ne')]
  rcases h with hle | hle
  · exact hle.trans (Nat.le_mul_of_pos_right m hn)
  · exact hle.trans (Nat.le_mul_of_pos_left n hm)

/-- A product is bounded by a number of 53 digits that the product of the bounds does not pass. -/
theorem atMost_mul {x y : Float} (hx : AtMost c x.toModel.unpack) (hy : AtMost d y.toModel.unpack) (hb : b < 2 ^ 53)
    (he : -1074 ≤ e) (hlargest : (b : ℚ) * 2 ^ e ≤ largest) (h : c * d ≤ b * 2 ^ e) :
    AtMost (b * 2 ^ e) (x * y).toModel.unpack := by
  change AtMost _ (Float.Model.pack (UnpackedFloat.mul Format.binary64 x.toModel.unpack y.toModel.unpack)).unpack
  cases hxu : x.toModel.unpack with
  | infinity => exact (hxu ▸ hx).elim
  | notANumber => exact (hxu ▸ hx).elim
  | zero s =>
    cases hyu : y.toModel.unpack with
    | infinity => exact (hyu ▸ hy).elim
    | notANumber => exact (hyu ▸ hy).elim
    | zero s' => exact atMost_pack_zero _ _
    | finite s' m' e' hm' => exact atMost_pack_zero _ _
  | finite s m x hm =>
    cases hyu : y.toModel.unpack with
    | infinity => exact (hyu ▸ hy).elim
    | notANumber => exact (hyu ▸ hy).elim
    | zero s' => exact atMost_pack_zero _ _
    | finite s' m' x' hm' =>
      have hxm : (m : ℚ) * 2 ^ x ≤ c := by
        rw [hxu] at hx
        exact hx
      have hym : (m' : ℚ) * 2 ^ x' ≤ d := by
        rw [hyu] at hy
        exact hy
      refine atMost_round hb he hlargest ?_ ?_ _
      · calc ((m * m' : Nat) : ℚ) * 2 ^ (x + x') = (m * 2 ^ x) * (m' * 2 ^ x') := by
              rw [zpow_add₀ (by norm_num)]
              push_cast
              ring
          _ ≤ c * d := mul_le_mul hxm hym (by positivity) (le_trans (by positivity) hxm)
          _ ≤ b * 2 ^ e := h
      · -- normal factors have a product with digits enough, and with the least exponent it is small
        have hmul := log2_mul hm hm'
        have hxn := unpack_normal hxu
        have hyn := unpack_normal hyu
        omega

/-- Compares in whole numbers. -/
def atMostNat (bound : Nat) : UnpackedFloat → Bool
  | .zero _ => true
  | .finite _ m e _ => if 0 ≤ e then m * 2 ^ e.toNat ≤ bound else m ≤ bound * 2 ^ (-e).toNat
  | .infinity _ | .notANumber => false

theorem atMost_of_atMostNat {bound : Nat} {f : UnpackedFloat} (h : atMostNat bound f = true) : AtMost bound f := by
  cases f with
  | infinity => cases h
  | notANumber => cases h
  | zero => trivial
  | finite s m e hm =>
    change (if 0 ≤ e then decide (m * 2 ^ e.toNat ≤ bound) else decide (m ≤ bound * 2 ^ (-e).toNat)) = true at h
    change (m : ℚ) * 2 ^ e ≤ bound
    split at h
    · rename_i he
      obtain ⟨k, rfl⟩ := Int.eq_ofNat_of_zero_le he
      rw [zpow_natCast]
      exact_mod_cast of_decide_eq_true h
    · obtain ⟨k, rfl⟩ : ∃ k : Nat, e = -k := ⟨(-e).toNat, by omega⟩
      have hle : (m : ℚ) ≤ bound * 2 ^ k := by
        have hle := of_decide_eq_true h
        rw [neg_neg, Int.toNat_natCast] at hle
        exact_mod_cast hle
      rwa [zpow_neg, zpow_natCast, ← div_eq_mul_inv, div_le_iff₀ (by positivity)]

theorem atMostNat_powers : ∀ k : Fin Float.exactlyRepresentablePowersOfTen.size,
    atMostNat (10 ^ k.val) (Float.exactlyRepresentablePowersOfTen[k]).toModel.unpack = true := by
  decide +kernel

theorem atMost_powers (k : Nat) (hk : k < Float.exactlyRepresentablePowersOfTen.size) :
    AtMost ((10 ^ k : Nat) : ℚ) (Float.exactlyRepresentablePowersOfTen[k]).toModel.unpack :=
  atMost_of_atMostNat (atMostNat_powers ⟨k, hk⟩)

theorem shiftLeft_value (m k : Nat) (e : ℤ) : ((m <<< k : Nat) : ℚ) * 2 ^ (e - k) = m * 2 ^ e := by
  rw [Nat.shiftLeft_eq, zpow_sub₀ (by norm_num), zpow_natCast]
  push_cast
  field_simp

theorem atMost_toFloat {n : Nat} (hn : n < 2 ^ 53) : AtMost n n.toUInt64.toFloat.toModel.unpack := by
  have hlargest : (n : ℚ) * 2 ^ (0 : ℤ) ≤ largest := bound_le_largest hn (Nat.zero_le _)
  have hvalue : n.toUInt64.toNat = n := by
    rw [Nat.toUInt64_eq, UInt64.toNat_ofNat', Nat.mod_eq_of_lt (by omega)]
  change AtMost n (Float.Model.pack (normalize Format.binary64 (n.toUInt64.toNat : ℤ) 0 .positive)).unpack
  rw [hvalue, UnpackedFloat.normalize]
  split
  · rename_i hlt
    rw [Int.compare_eq_lt] at hlt
    omega
  · exact atMost_pack_zero _ _
  · rw [Int.toNat_natCast, ← mul_one (n : ℚ), ← zpow_zero (2 : ℚ), UnpackedFloat.round, decreaseExponent]
    refine atMost_round hn (by norm_num) hlargest (le_of_eq ?_) (Or.inl (by omega)) _
    exact shiftLeft_value n _ 0

/-- A decimal without a fraction is read as a number that does not pass one of 53 digits that it does not pass. -/
theorem atMost_ofScientific {n k : Nat} (hk : k ≤ 308) (hb : b < 2 ^ 53) (he : -1074 ≤ e) (hlargest : (b : ℚ) * 2 ^ e ≤ largest)
    (h : (n : ℚ) * 10 ^ k ≤ b * 2 ^ e) : AtMost (b * 2 ^ e) (Float.ofScientific n false k).toModel.unpack := by
  rw [Float.ofScientific]
  split
  · rename_i hsmall
    refine atMost_mul (atMost_toFloat hsmall.1) (atMost_powers k _) hb he hlargest ?_
    rw [Nat.cast_pow]
    exact h
  · change AtMost _ (Float.Model.pack (UnpackedFloat.ofScientific Format.binary64 n k)).unpack
    rw [UnpackedFloat.ofScientific]
    by_cases hn : n = 0
    · rw [dif_pos hn]
      exact atMost_pack_zero _ _
    · rw [dif_neg hn]
      have hscale : (2 : ℤ) ^ Format.binary64.exponentBits = 2048 := rfl
      rw [hscale, if_neg (by omega), if_neg (by omega), if_pos (by omega)]
      refine atMost_round hb he hlargest ((le_of_eq ?_).trans h) (Or.inr ?_) _
      · rw [Int.toNat_natCast, Nat.cast_mul, Nat.cast_pow, Nat.cast_ofNat, add_zero, ← zero_sub, mul_right_comm, shiftLeft_value,
          zpow_zero, mul_one]
      · have hten : 0 < 10 ^ (k : ℤ).toNat := Nat.pow_pos (by decide)
        have hfactor : 2 ^ 52 ≤ n <<< Format.binary64.mantissaBits := by
          rw [Nat.shiftLeft_eq, show Format.binary64.mantissaBits = 53 from rfl]
          omega
        have hle := hfactor.trans (Nat.le_mul_of_pos_right _ hten)
        exact (Nat.le_log2 (Nat.ne_of_gt (Nat.lt_of_lt_of_le (by decide) hle))).mpr hle

end Float

/-! ## Scaled numbers -/

theorem nearestFloat_one {k : Nat} (hk : k ≤ 308) : nearestFloat 1 k = Float.ofScientific 1 false k := by
  have hdigits : digitCount 1 = 1 := rfl
  rw [nearestFloat, hdigits, if_neg (by simp; omega), if_neg (by push_cast; omega), if_pos (by omega), Int.toNat_natCast]

/-- A count up to one of 53 digits is scaled to a finite number, if the latter is scaled to one up to the largest. -/
theorem isFinite_scaled {n k b x p : Nat} (hb : b < 2 ^ 53) (hx : x ≤ 971) (hn : n ≤ b * twoPow x)
    (hpower : AtMost p (nearestFloat 1 k).toModel.unpack) (h : b * twoPow x * p ≤ largest) :
    (Float.ofNat n * nearestFloat 1 k).isFinite = true := by
  have hcount : AtMost (b * 2 ^ (x : ℤ)) (Float.ofNat n).toModel.unpack := by
    refine atMost_ofScientific (Nat.zero_le _) hb (by omega) (bound_le_largest hb hx) ?_
    rw [pow_zero, mul_one, ← cast_twoPow, ← Nat.cast_mul, Nat.cast_le]
    exact hn
  refine isFinite_of_atMost (atMost_mul hcount hpower (b := 2 ^ 53 - 1) (by decide) (by decide) (le_of_eq cast_largest.symm) ?_)
  rw [← cast_largest, ← cast_twoPow, ← Nat.cast_mul, ← Nat.cast_mul, Nat.cast_le]
  exact h

/-- The magnitude of a whole number. -/
def wholeValue : UnpackedFloat → Nat
  | .finite _ m e _ => m * 2 ^ e.toNat
  | .zero _ | .infinity _ | .notANumber => 0

theorem isFinite_scaled_of_wholeValue {n k b x : Nat} (hb : b < 2 ^ 53) (hx : x ≤ 971) (hn : n ≤ b * twoPow x)
    (hpower : atMostNat (wholeValue (nearestFloat 1 k).toModel.unpack) (nearestFloat 1 k).toModel.unpack = true)
    (h : b * twoPow x * wholeValue (nearestFloat 1 k).toModel.unpack ≤ largest) :
    (Float.ofNat n * nearestFloat 1 k).isFinite = true :=
  isFinite_scaled hb hx hn (atMost_of_atMostNat hpower) h

/-- The powers of ten up to this one lie below a number of 53 binary digits that seventeen decimal ones do not scale too far. -/
theorem atMost_small_power {k : Nat} (hk : k ≤ 291) :
    AtMost ((7220777503459319 * twoPow 914 : Nat) : ℚ) (nearestFloat 1 k).toModel.unpack := by
  have hlast : tenPow 291 ≤ 7220777503459319 * twoPow 914 := by decide +kernel
  have hpower : ((1 : Nat) : ℚ) * 10 ^ k ≤ (7220777503459319 : Nat) * 2 ^ ((914 : Nat) : ℤ) := by
    rw [Nat.cast_one, one_mul, ← zpow_natCast, ← cast_tenPow, ← cast_twoPow, ← Nat.cast_mul, Nat.cast_le]
    exact (tenPow_le_tenPow hk).trans hlast
  rw [nearestFloat_one (hk.trans (by decide)), Nat.cast_mul, cast_twoPow]
  exact atMost_ofScientific (hk.trans (by decide)) (by decide) (by decide) (bound_le_largest (by decide) (by decide)) hpower

/-- From here on the counts that can be scaled by a power of ten have less than 53 binary digits, and none is scaled too far by the
float that the power is read as. -/
theorem scaled_last : ∀ i < 16,
    let power := (nearestFloat 1 (293 + i : Nat)).toModel.unpack
    let count := largest / tenPow (293 + i)
    atMostNat (wholeValue power) power = true ∧ count < 2 ^ 53 ∧ count * twoPow 0 * wholeValue power ≤ largest := by
  decide +kernel

/-- One power before, the same holds but for the largest count. -/
theorem scaled_before_last :
    let power := (nearestFloat 1 (292 : Nat)).toModel.unpack
    let count := 8988465674311578 * twoPow 1
    atMostNat (wholeValue power) power = true ∧ count * wholeValue power ≤ largest ∧ largest / tenPow 292 = count + 1 ∧
      (Float.ofNat (count + 1) * nearestFloat 1 (292 : Nat)).isFinite = true := by
  decide +kernel

/-- A count of up to seventeen digits is scaled to a finite number, if it is not scaled beyond the largest. -/
theorem isFinite_scaled_of_le {n k : Nat} (hn : n ≤ tenPow 17) (hk : k ≤ 308) (h : n * tenPow k ≤ largest) :
    (Float.ofNat n * nearestFloat 1 k).isFinite = true := by
  have hcount : n ≤ largest / tenPow k := (Nat.le_div_iff_mul_le (Nat.pow_pos (by decide))).mpr h
  rcases Nat.lt_trichotomy k 292 with hlt | rfl | hgt
  · exact isFinite_scaled (b := 5 ^ 17) (x := 17) (by decide) (by decide) hn (atMost_small_power (Nat.le_of_lt_succ hlt))
      (by decide +kernel)
  · obtain ⟨hpower, hproduct, hlargest, hlast⟩ := scaled_before_last
    rw [hlargest] at hcount
    rcases Nat.le_or_eq_of_le_succ hcount with hle | rfl
    · exact isFinite_scaled_of_wholeValue (k := 292) (by decide) (by decide) hle hpower hproduct
    · exact hlast
  · obtain ⟨i, rfl⟩ := Nat.exists_eq_add_of_le (show 293 ≤ k from hgt)
    obtain ⟨hpower, hbits, hproduct⟩ := scaled_last i (by omega)
    exact isFinite_scaled_of_wholeValue (k := 293 + i) (x := 0) hbits (by decide) (hcount.trans (Nat.mul_one _).ge) hpower hproduct

end DaxPlan.Number
