import DaxPlan.Proofs.Json.Literals
import DaxPlan.Proofs.Number.Shortest

/-!
# Finite numbers in JSON text

What is written of a finite number is read as a number (`number?_shortestText`), if perhaps as a neighbour of it: the text has a
point or an exponent, its digits fit the significand, and where they are scaled up, the decimal is not above the largest number.
-/

namespace DaxPlan.Number

/-- The parts of a finite number. -/
theorem Reading.ofFloat_of_isFinite {x : Float} (h : x.isFinite = true) :
    ∃ b : Binary, Reading.ofFloat x = .finite b ∧ b.significand < 2 ^ 53 ∧ b.exponent ≤ 971 := by
  have htwo : twoPow 52 = 2 ^ 52 ∧ twoPow 11 = 2 ^ 11 := ⟨rfl, rfl⟩
  have hfield : x.toBits.toNat / twoPow 52 % twoPow 11 ≠ 2047 := by
    intro heq
    have hexponent : @Float.Model.UnpackedFloat.unpackExponent .binary64 x.toModel.toBits.toBitVec = -1#11 := by
      refine BitVec.eq_of_toNat_eq ?_
      rw [Float.Model.UnpackedFloat.unpackExponent, BitVec.toNat_cast, BitVec.extractLsb_toNat, Nat.shiftRight_eq_div_pow]
      exact heq
    change (Float.Model.UnpackedFloat.unpack .binary64 x.toModel.toBits.toBitVec).isFinite = true at h
    unfold Float.Model.UnpackedFloat.unpack at h
    dsimp only at h
    rw [if_pos hexponent] at h
    split at h <;> cases h
  rw [ofFloat, ofBits, beq_eq_false_iff_ne.mpr hfield, if_neg Bool.false_ne_true]
  have hfraction : x.toBits.toNat % twoPow 52 < 2 ^ 52 := Nat.mod_lt _ (by decide)
  have hrange : x.toBits.toNat / twoPow 52 % twoPow 11 < 2 ^ 11 := Nat.mod_lt _ (by decide)
  split
  · exact ⟨_, rfl, by dsimp only; omega, by dsimp only; omega⟩
  · exact ⟨_, rfl, by dsimp only; omega, by dsimp only; omega⟩

end DaxPlan.Number

namespace DaxPlan.Json

open Number

/-! ## Scaling -/

/-- A number that is scaled down stays one. -/
theorem scale?_of_neg {exponent : ℤ} (h : exponent < 0) (steps : Nat) (x : Float) : ∃ y, scale? steps x exponent = some y := by
  induction steps generalizing x exponent with
  | zero =>
    rw [scale?]
    dsimp only
    split
    · rw [if_neg (by omega)]
      exact ⟨_, rfl⟩
    · split
      · exact ⟨_, rfl⟩
      · rw [if_neg (by omega)]
        exact ⟨_, rfl⟩
  | succ steps ih =>
    rw [scale?]
    dsimp only
    split
    · rw [if_neg (by omega)]
      exact ⟨_, rfl⟩
    · rename_i hfar
      split
      · exact ⟨_, rfl⟩
      · rw [if_neg (by omega)]
        exact ih (by unfold maxStep; omega) _

/-- A number with a negative exponent is a floating-point number. -/
theorem realOf_of_neg {exponent : ℤ} (h : exponent < 0) (negative : Bool) (n : Nat) :
    ∃ y, realOf negative ⟨n, exponent⟩ = .number y := by
  obtain ⟨x, hx⟩ := scale?_of_neg h 4 (Float.ofNat n)
  exact ⟨signed negative x, by rw [realOf, hx]⟩

/-- A decimal of up to seventeen digits that is not above the largest number makes a number. -/
theorem realOf_of_le {d : Decimal} (hpos : 0 < d.digits) (hshort : d.digits ≤ tenPow 17) (hle : d.value ≤ largest)
    (negative : Bool) : ∃ y, realOf negative ⟨d.digits, d.scale⟩ = .number y := by
  rcases lt_or_ge d.scale 0 with hneg | hscale
  · exact realOf_of_neg hneg negative d.digits
  obtain ⟨digits, scale⟩ := d
  obtain ⟨k, rfl⟩ := Int.eq_ofNat_of_zero_le hscale
  dsimp only at hpos hshort
  rw [Decimal.value_le_largest_iff] at hle
  have hk : k ≤ 308 := by
    by_contra hk
    have hlarge : largest < tenPow 309 := by decide +kernel
    have hpower := tenPow_le_tenPow (show 309 ≤ k by omega)
    exact absurd (hlarge.trans_le (hpower.trans (Nat.le_mul_of_pos_left _ hpos))) (not_lt.mpr hle)
  have hfinite := isFinite_scaled_of_le hshort hk hle
  have hscaled : scale? 4 (Float.ofNat digits) k = some (Float.ofNat digits * nearestFloat 1 k) := by
    rw [scale?, if_pos (by omega)]
    dsimp only
    rw [if_pos (by omega)]
    exact if_pos hfinite
  exact ⟨signed negative (Float.ofNat digits * nearestFloat 1 k), by rw [realOf, hscaled]⟩

/-! ## Digits -/

section Digits

variable {negative : Bool} {whole fraction tail : List Char}

/-- A digit never makes a number smaller. -/
theorem le_ofDigitChars (s : List Char) (n : Nat) : n ≤ Nat.ofDigitChars 10 s n := by
  rw [Nat.ofDigitChars_eq_ofDigitChars_zero]
  exact (Nat.le_mul_of_pos_left n (by positivity)).trans (Nat.le_add_right _ _)

/-- Digits in front of the point are gathered without loss if they fit. -/
theorem gatherWhole_eq {n : Nat} {e : ℤ} {s : List Char} (h : Nat.ofDigitChars 10 s n ≤ maxSignificand) :
    gatherWhole ⟨n, e⟩ s = ⟨Nat.ofDigitChars 10 s n, e⟩ := by
  induction s generalizing n with
  | nil => rfl
  | cons c s ih =>
    rw [Nat.ofDigitChars_cons] at h ⊢
    rw [gatherWhole]
    dsimp only
    rw [if_neg (not_lt.mpr ((le_ofDigitChars s _).trans h))]
    exact ih h

/-- Digits behind the point are gathered without loss if they fit, each lowering the exponent by one. -/
theorem gatherFraction_eq {n : Nat} {e : ℤ} {s : List Char} (h : Nat.ofDigitChars 10 s n ≤ maxSignificand) :
    gatherFraction ⟨n, e⟩ s = ⟨Nat.ofDigitChars 10 s n, e - s.length⟩ := by
  induction s generalizing n e with
  | nil => rw [gatherFraction, List.length_nil, Nat.cast_zero, sub_zero]; rfl
  | cons c s ih =>
    rw [Nat.ofDigitChars_cons] at h ⊢
    rw [gatherFraction]
    dsimp only
    rw [if_neg (not_lt.mpr ((le_ofDigitChars s _).trans h)), ih h, List.length_cons, Nat.cast_succ, sub_sub, add_comm (1 : ℤ)]

/-- Where all digits fit, none is dropped. -/
theorem gathered_eq (h : digitsToNat (whole ++ fraction) ≤ maxSignificand) :
    gatherFraction (gatherWhole ⟨0, 0⟩ whole) fraction = ⟨digitsToNat (whole ++ fraction), -fraction.length⟩ := by
  change Nat.ofDigitChars 10 (whole ++ fraction) 0 ≤ _ at h
  rw [Nat.ofDigitChars_append] at h
  rw [gatherWhole_eq ((le_ofDigitChars fraction _).trans h), gatherFraction_eq h, zero_sub, ← Nat.ofDigitChars_append]
  rfl

/-- The digits before the point. A zero in front stands alone. -/
structure Whole (s : List Char) : Prop where
  digits : ∀ c ∈ s, c.isDigit = true
  nonempty : s ≠ []
  zero : s.head? = some '0' → s.length = 1

/-- Digits that do not start with zero are the whole part of a number. -/
theorem Whole.of_head {s : List Char} (hdigits : ∀ c ∈ s, c.isDigit = true) (hnonempty : s ≠ [])
    (h : s.head? ≠ some '0') : Whole s :=
  ⟨hdigits, hnonempty, fun hzero => absurd hzero h⟩

/-- The whole part of a number is not refused. -/
theorem Whole.refused_eq_false (h : Whole whole) :
    (whole.isEmpty || (whole.head? == some '0' && decide (1 < whole.length))) = false := by
  have hzero := h.zero
  have hnonempty := h.nonempty
  by_cases hhead : whole.head? = some '0' <;> simp [hhead, hnonempty]
  exact (hzero hhead).le

/-- A number with a point is scaled by its digits on both sides. -/
theorem unsigned?_point (hwhole : Whole whole) (hfraction : ∀ c ∈ fraction, c.isDigit = true) (hnonempty : fraction ≠ [])
    (htail : ∀ c ∈ tail.head?, c.isDigit = false) :
    unsigned? negative (whole ++ '.' :: (fraction ++ tail)) = scaled? negative whole true fraction tail := by
  have hpoint : ∀ c ∈ ('.' :: (fraction ++ tail)).head?, c.isDigit = false := by simp
  rw [unsigned?, takeWhile_digits hwhole.digits hpoint]
  dsimp only
  rw [hwhole.refused_eq_false, if_neg Bool.false_ne_true, List.drop_left]
  simp [takeWhile_digits hfraction htail, hnonempty, Nat.add_comm 1]

/-- A number without a point is scaled by its whole part. -/
theorem unsigned?_whole (hwhole : Whole whole) (htail : ∀ c ∈ tail.head?, c.isDigit = false ∧ c ≠ '.') :
    unsigned? negative (whole ++ tail) = scaled? negative whole false [] tail := by
  have hpoint : (tail.head? == some '.') = false := beq_eq_false_iff_ne.mpr (fun heq => (htail '.' heq).2 rfl)
  rw [unsigned?, takeWhile_digits hwhole.digits (fun c hc => (htail c hc).1)]
  dsimp only
  rw [hwhole.refused_eq_false, if_neg Bool.false_ne_true, List.drop_left, hpoint]
  rfl

/-- Without an exponent. -/
theorem scaled?_nil (h : digitsToNat (whole ++ fraction) ≤ maxSignificand) :
    scaled? negative whole true fraction [] = some (realOf negative ⟨digitsToNat (whole ++ fraction), -fraction.length⟩, []) := by
  rw [scaled?]
  dsimp only [exponent?]
  rw [gathered_eq h, add_zero]
  rfl

/-- An exponent as it is written. -/
def exponentText (n : ℤ) : List Char := 'e' :: ((if n < 0 then ['-'] else []) ++ Nat.toDigits 10 n.natAbs)

/-- The digits of an exponent are read back. -/
theorem exponentDigits?_toDigits (negative : Bool) (n : Nat) :
    exponentDigits? negative (Nat.toDigits 10 n) = some (if negative then -(n : ℤ) else n, []) := by
  rw [exponentDigits?, takeWhile_toDigits, digitsToNat_toDigits, List.drop_length]
  simp

/-- An exponent is read back. -/
theorem exponent?_exponentText (n : ℤ) : exponent? (exponentText n) = some (n, []) := by
  by_cases hneg : n < 0
  · have hvalue : -(n.natAbs : ℤ) = n := by omega
    rw [exponentText, if_pos hneg]
    change exponentDigits? true (Nat.toDigits 10 n.natAbs) = _
    rw [exponentDigits?_toDigits, if_pos rfl, hvalue]
  · have hvalue : (n.natAbs : ℤ) = n := by omega
    obtain ⟨c, rest, heq, hdigit⟩ := toDigits_eq_cons n.natAbs
    have hsign : c ≠ '-' ∧ c ≠ '+' := by
      constructor <;> (rintro rfl; exact absurd hdigit (by decide))
    rw [exponentText, if_neg hneg, List.nil_append, heq, exponent?_unsigned (by decide) hsign.1 hsign.2, ← heq,
      exponentDigits?_toDigits, if_neg Bool.false_ne_true, hvalue]

/-- A number with an exponent is scaled by it. -/
theorem scaled?_exponentText (h : digitsToNat (whole ++ fraction) ≤ maxSignificand) (point : Bool) (n : ℤ) :
    scaled? negative whole point fraction (exponentText n) =
      some (realOf negative ⟨digitsToNat (whole ++ fraction), n - fraction.length⟩, []) := by
  have hexponent : ((exponentText n).head? == some 'e' || (exponentText n).head? == some 'E') = true := rfl
  rw [scaled?, exponent?_exponentText]
  dsimp only
  rw [gathered_eq h, hexponent, Bool.not_true, Bool.and_false, if_neg Bool.false_ne_true, neg_add_eq_sub]

end Digits

/-! ## Decimals -/

section Decimals

variable {d : Decimal} {negative : Bool}

/-- One digit is the whole part of a number. -/
theorem whole_digit {c : Char} (h : c.isDigit = true) : Whole [c] := ⟨by simpa using h, List.cons_ne_nil _ _, fun _ => rfl⟩

/-- A number in the scientific form is read as its digits, scaled. -/
theorem unsigned?_scientific (h : d.digits ≤ maxSignificand) :
    unsigned? negative d.scientific.toList = some (realOf negative ⟨d.digits, d.scale⟩, []) := by
  obtain ⟨first, rest, heq, hfirst⟩ := toDigits_eq_cons d.digits
  have hexponent : d.scale + ((first :: rest).length : Nat) - 1 = d.scale + rest.length := by
    rw [List.length_cons]
    push_cast
    ring
  have htext : d.scientific.toList =
      [first] ++ ((if rest = [] then [] else '.' :: rest) ++ exponentText (d.scale + rest.length)) := by
    rw [Decimal.scientific, heq, hexponent, exponentText]
    cases rest <;> simp [digitText, apply_ite String.toList]
  have hvalue : digitsToNat ([first] ++ rest) = d.digits := by
    rw [List.singleton_append, ← heq]
    exact digitsToNat_toDigits d.digits
  have hrest : ∀ c ∈ rest, c.isDigit = true := fun c hc => isDigit_of_mem_toDigits (heq ▸ List.mem_cons_of_mem first hc)
  have htail : ∀ n, ∀ c ∈ (exponentText n).head?, c.isDigit = false ∧ c ≠ '.' := by
    intro n c hc
    obtain rfl : 'e' = c := by simpa [exponentText] using hc
    decide
  rw [htext]
  rcases eq_or_ne rest [] with rfl | hmore
  · rw [if_pos rfl, List.nil_append, unsigned?_whole (whole_digit hfirst) (htail _), scaled?_exponentText (hvalue ▸ h), hvalue]
    simp
  · rw [if_neg hmore]
    change unsigned? negative ([first] ++ '.' :: (rest ++ exponentText (d.scale + rest.length))) = _
    rw [unsigned?_point (whole_digit hfirst) hrest hmore (fun c hc => (htail _ c hc).1), scaled?_exponentText (hvalue ▸ h), hvalue,
      add_sub_cancel_right]

/-- A number with a point, of which all digits fit. -/
def Pointed (s : List Char) : Prop :=
  ∃ whole fraction, s = whole ++ '.' :: fraction ∧ Whole whole ∧ (∀ c ∈ fraction, c.isDigit = true) ∧ fraction ≠ [] ∧
    digitsToNat (whole ++ fraction) ≤ maxSignificand

/-- A number with a point is read as a floating-point number. -/
theorem Pointed.unsigned? {s : List Char} (h : Pointed s) (negative : Bool) :
    ∃ y, unsigned? negative s = some (.number y, []) := by
  obtain ⟨whole, fraction, rfl, hwhole, hfraction, hnonempty, hvalue⟩ := h
  have hlength := List.length_pos_of_ne_nil hnonempty
  obtain ⟨y, hy⟩ := realOf_of_neg (show -(fraction.length : ℤ) < 0 by omega) negative (digitsToNat (whole ++ fraction))
  refine ⟨y, ?_⟩
  rw [← List.append_nil fraction, unsigned?_point hwhole hfraction hnonempty (by simp), scaled?_nil hvalue, hy]

/-- A whole number with zeros behind it, a point and one more zero. -/
theorem pointed_whole {n count : Nat} (hpos : 0 < n) (hmax : n * 10 ^ (count + 1) ≤ maxSignificand) :
    Pointed (Nat.toDigits 10 n ++ List.replicate count '0' ++ ['.', '0']) := by
  obtain ⟨first, rest, heq, hfirst⟩ := toDigits_eq_cons n
  have hhead := head?_toDigits hpos
  refine ⟨_, ['0'], rfl, Whole.of_head (fun c hc => ?_) (by simp [heq]) (by simpa [heq] using hhead), by simp, by simp, ?_⟩
  · rcases List.mem_append.mp hc with hdigit | hzero
    · exact isDigit_of_mem_toDigits hdigit
    · rw [List.eq_of_mem_replicate hzero]
      rfl
  · rw [List.append_assoc, ← List.replicate_succ', digitsToNat]
    change Nat.ofDigitChars 10 _ 0 ≤ _
    rw [Nat.ofDigitChars_append, Nat.ofDigitChars_replicate_zero, Nat.mul_comm]
    exact (congrArg (· * 10 ^ (count + 1)) (digitsToNat_toDigits n)).trans_le hmax

/-- Digits with a point in front of the last places, and zeros in front where there are not enough of them. -/
theorem pointed_fraction {n places : Nat} (hpos : 0 < n) (hmax : n ≤ maxSignificand) (hplaces : 0 < places) :
    let padded := List.replicate (places + 1 - (Nat.toDigits 10 n).length) '0' ++ Nat.toDigits 10 n
    Pointed (padded.take (padded.length - places) ++ '.' :: padded.drop (padded.length - places)) := by
  intro padded
  have hdigits : ∀ c ∈ padded, c.isDigit = true := fun c hc => isDigit_of_mem_padded hc
  have hlength : padded.length = max (places + 1) (Nat.toDigits 10 n).length := by
    rw [List.length_append, List.length_replicate]
    omega
  have hhead : padded.head? = some '0' → padded.length = places + 1 := by
    intro hzero
    by_contra hlong
    have hnone : padded = Nat.toDigits 10 n := by
      change List.replicate _ '0' ++ _ = _
      rw [show places + 1 - (Nat.toDigits 10 n).length = 0 by omega, List.replicate_zero, List.nil_append]
    exact head?_toDigits hpos (hnone ▸ hzero)
  have hwhole : Whole (padded.take (padded.length - places)) := by
    refine ⟨fun c hc => hdigits c (List.mem_of_mem_take hc), List.ne_nil_of_length_pos ?_, fun hzero => ?_⟩
    · rw [List.length_take]
      omega
    · rw [List.head?_take, if_neg (by omega)] at hzero
      rw [List.length_take, hhead hzero]
      omega
  refine ⟨_, _, rfl, hwhole, fun c hc => hdigits c (List.mem_of_mem_drop hc), List.ne_nil_of_length_pos ?_, ?_⟩
  · rw [List.length_drop]
    omega
  · rw [List.take_append_drop, digitsToNat_padded]
    exact hmax

/-- A number in the positional form has a point, if its digits fit. -/
theorem pointed_positional (hpos : 0 < d.digits) (hmax : d.digits ≤ maxSignificand)
    (hwhole : d.digits * 10 ^ (d.scale.toNat + 1) ≤ maxSignificand) : Pointed (d.positional true).toList := by
  rw [Decimal.positional]
  split
  · simpa [digitText] using pointed_whole hpos hwhole
  · rename_i hscale
    simpa using pointed_fraction hpos hmax (show 0 < (-d.scale).toNat by omega)

/-- The layout of a decimal in the format of numbers. -/
def layout (d : Decimal) : String :=
  if -5 < d.scale + digitCount d.digits && d.scale + digitCount d.digits ≤ 16 then d.positional true else d.scientific

/-- A number of seventeen digits at most is read in either form. -/
theorem unsigned?_layout (hpos : 0 < d.digits) (hshort : d.digits ≤ tenPow 17) (hle : d.value ≤ largest) (negative : Bool) :
    ∃ y, unsigned? negative (layout d).toList = some (.number y, []) := by
  have hmax : d.digits ≤ maxSignificand := hshort.trans (by decide +kernel)
  rw [layout]
  split
  · rename_i hinside
    have hplace : d.scale + digitCount d.digits ≤ 16 := of_decide_eq_true (Bool.and_eq_true_iff.mp hinside).2
    have hwhole : d.digits * 10 ^ (d.scale.toNat + 1) ≤ maxSignificand := by
      rcases lt_or_ge d.scale 0 with hneg | hscale
      · rw [Int.toNat_of_nonpos hneg.le]
        exact (Nat.mul_le_mul_right _ hshort).trans (by decide +kernel)
      · calc d.digits * 10 ^ (d.scale.toNat + 1) ≤ tenPow (digitCount d.digits) * tenPow (d.scale.toNat + 1) :=
              Nat.mul_le_mul_right _ (lt_tenPow_digitCount _).le
          _ = tenPow (digitCount d.digits + (d.scale.toNat + 1)) := (Nat.pow_add 10 _ _).symm
          _ ≤ tenPow 17 := tenPow_le_tenPow (by omega)
          _ ≤ maxSignificand := by decide +kernel
    exact (pointed_positional hpos hmax hwhole).unsigned? negative
  · obtain ⟨y, hy⟩ := realOf_of_le hpos hshort hle negative
    exact ⟨y, hy ▸ unsigned?_scientific hmax⟩

end Decimals

/-! ## Numbers -/

/-- A number is read with its sign in front. -/
theorem number?_signed {negative : Bool} {s : List Char} {r : Json Float × List Char} (h : unsigned? negative s = some r) :
    number? ((signText negative).toList ++ s) = some r := by
  cases negative with
  | true => exact number?_minus.trans h
  | false =>
    refine (number?_unsigned (fun hminus => ?_)).trans h
    obtain ⟨t, rfl⟩ := List.head?_eq_some_iff.mp hminus
    simp [unsigned?] at h

/-- The text of a finite number is read as a number. -/
theorem exists_number?_shortestText {x : Float} (h : x.isFinite = true) :
    ∃ y, number? (shortestText numberFormat x).toList = some (.number y, []) := by
  obtain ⟨b, hb, hm53, he⟩ := Reading.ofFloat_of_isFinite h
  rw [shortestText, hb]
  dsimp only
  by_cases hzero : b.significand = 0
  · have hpointed : Pointed "0.0".toList := ⟨['0'], ['0'], rfl, whole_digit rfl, by simp, by simp, by decide⟩
    obtain ⟨y, hy⟩ := hpointed.unsigned? b.negative
    rw [hzero, if_pos (beq_self_eq_true 0)]
    exact ⟨y, by rw [String.toList_append]; exact number?_signed hy⟩
  · have hm : 0 < b.significand := Nat.pos_of_ne_zero hzero
    have hfits := shortest_fits hm hm53
    have hle := shortest_le_largest hm hm53 he
    rw [beq_eq_false_iff_ne.mpr hzero, if_neg Bool.false_ne_true]
    generalize b.shortest = d at hfits hle
    obtain ⟨y, hy⟩ := unsigned?_layout hfits.pos hfits.short hle b.negative
    exact ⟨y, by rw [String.toList_append]; exact number?_signed hy⟩

/-- The number that the text of a number is read as. -/
def reread (x : Float) : Float :=
  match number? (shortestText numberFormat x).toList with
  | some (.number y, _) => y
  | _ => x

/-- The text of a finite number is read as a number. -/
theorem number?_shortestText {x : Float} (h : x.isFinite = true) :
    number? (shortestText numberFormat x).toList = some (.number (reread x), []) := by
  obtain ⟨y, hy⟩ := exists_number?_shortestText h
  rw [reread, hy]

end DaxPlan.Json
