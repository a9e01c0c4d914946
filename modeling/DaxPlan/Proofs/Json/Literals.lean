import DaxPlan.Json.Reader
import DaxPlan.Json.Writer
import DaxPlan.Proofs.Number.Digits

/-!
# JSON literals are read back

A number is read alike whatever stands behind it that does not go on with it (`number?_append`), and a whole number within the
range of the reader comes back from its digits (`number?_int`). A text comes back from its escapes (`textLiteral?_escaped`).
-/

namespace DaxPlan.Json

open Number

/-! ## Numbers -/

/-- A number does not go on with what stands behind it. -/
def Stops (s : List Char) : Prop := ∀ c ∈ s.head?, c.isDigit = false ∧ c ≠ '.' ∧ c ≠ 'e' ∧ c ≠ 'E'

section Stops

variable {s t r : List Char} {v : Json Float}

/-- A text that starts with such a character ends a number. -/
theorem stops_cons {c : Char} (hdigit : c.isDigit = false) (hsigns : c ∉ ['.', 'e', 'E']) : Stops (c :: s) := by
  intro d hd
  obtain rfl : c = d := by simpa using hd
  simpa [hdigit] using hsigns

/-- The end of the text ends a number. -/
theorem stops_nil : Stops [] := nofun

/-- What ends a number has no digits to add to it. -/
theorem takeWhile_isDigit_append (hr : Stops r) : (s ++ r).takeWhile Char.isDigit = s.takeWhile Char.isDigit := by
  induction s with
  | nil =>
    cases r with
    | nil => rfl
    | cons c r => simp [(hr c rfl).1]
  | cons c s ih => simp [List.takeWhile_cons, ih]

/-- What is left behind the digits, with more behind it. -/
theorem drop_digits_append (hr : Stops r) :
    (s ++ r).drop ((s ++ r).takeWhile Char.isDigit).length = s.drop (s.takeWhile Char.isDigit).length ++ r := by
  rw [takeWhile_isDigit_append hr]
  exact List.drop_append_of_le_length (List.takeWhile_prefix _).length_le

/-- What ends a number starts none of its parts. -/
theorem head?_append_beq (hr : Stops r) {c : Char} (hc : c ∈ ['.', 'e', 'E']) :
    ((s ++ r).head? == some c) = (s.head? == some c) := by
  cases s with
  | cons d s => rfl
  | nil =>
    cases r with
    | nil => rfl
    | cons d r =>
      have hd := (hr d rfl).2
      have hne : d ≠ c := by
        rintro rfl
        simp_all
      simp [hne]

/-- Reads the digits of an exponent. -/
def exponentDigits? (negative : Bool) (s : List Char) : Option (Int × List Char) :=
  let digits := s.takeWhile Char.isDigit
  if digits.isEmpty then none
  else
    let value : Int := digitsToNat digits
    some (if negative then -value else value, s.drop digits.length)

/-- The digits of an exponent are read up to what ends the number. -/
theorem exponentDigits?_append {negative : Bool} {n : Int} (h : exponentDigits? negative t = some (n, [])) (hr : Stops r) :
    exponentDigits? negative (t ++ r) = some (n, r) := by
  unfold exponentDigits? at h ⊢
  dsimp only at h ⊢
  rw [drop_digits_append hr, takeWhile_isDigit_append hr]
  split at h
  · exact absurd h (by simp)
  · rename_i hdigits
    obtain ⟨rfl, hrest⟩ := Prod.mk.inj (Option.some.inj h)
    rw [if_neg hdigits, hrest, List.nil_append]

/-- An exponent without a sign is its digits. -/
theorem exponent?_unsigned {c d : Char} (hc : ¬ (c != 'e' && c != 'E') = true) (hminus : d ≠ '-') (hplus : d ≠ '+')
    (s : List Char) : exponent? (c :: d :: s) = exponentDigits? false (d :: s) := by
  unfold exponent?
  dsimp only
  rw [if_neg hc]
  split
  · simp_all
  · simp_all
  · rfl

/-- An exponent is read up to what ends the number. -/
theorem exponent?_append {n : Int} (h : exponent? t = some (n, [])) (hr : Stops r) : exponent? (t ++ r) = some (n, r) := by
  cases t with
  | nil =>
    obtain rfl : 0 = n := by simpa [exponent?] using h
    cases r with
    | nil => rfl
    | cons c r => simp [exponent?, (hr c rfl).2]
  | cons c t =>
    by_cases hc : (c != 'e' && c != 'E') = true
    · simp [exponent?, hc] at h
    · cases t with
      | nil => simp [exponent?, hc] at h
      | cons d t =>
        by_cases hminus : d = '-'
        · subst hminus
          simp only [exponent?, hc, List.cons_append] at h ⊢
          have hdigits : exponentDigits? true t = some (n, []) := h
          exact exponentDigits?_append hdigits hr
        · by_cases hplus : d = '+'
          · subst hplus
            simp only [exponent?, hc, List.cons_append] at h ⊢
            have hdigits : exponentDigits? false t = some (n, []) := h
            exact exponentDigits?_append hdigits hr
          · rw [exponent?_unsigned hc hminus hplus] at h
            rw [List.cons_append, List.cons_append, exponent?_unsigned hc hminus hplus]
            exact exponentDigits?_append h hr

/-- Reads what is left of a number behind its digits before and after the point. -/
def scaled? (negative : Bool) (whole : List Char) (point : Bool) (fraction rest : List Char) : Option (Json Float × List Char) :=
  let hasExponent := rest.head? == some 'e' || rest.head? == some 'E'
  match exponent? rest with
  | none => none
  | some (exponent, rest) =>
    if !point && !hasExponent then some (wholeOf negative whole, rest)
    else
      let g := gatherFraction (gatherWhole ⟨0, 0⟩ whole) fraction
      some (realOf negative ⟨g.significand, g.exponent + exponent⟩, rest)

/-- A number is scaled alike, whatever ends it. -/
theorem scaled?_append {negative point : Bool} {whole fraction : List Char}
    (h : scaled? negative whole point fraction t = some (v, [])) (hr : Stops r) :
    scaled? negative whole point fraction (t ++ r) = some (v, r) := by
  unfold scaled? at h ⊢
  have hexponent := fun c hc => head?_append_beq (s := t) (c := c) hr hc
  rw [hexponent 'e' (by simp), hexponent 'E' (by simp)]
  cases ht : exponent? t with
  | none => simp [ht] at h
  | some n =>
    obtain ⟨n, rest⟩ := n
    obtain rfl : rest = [] := by
      simp only [ht] at h
      split at h <;> simp_all
    simp only [ht, exponent?_append ht hr] at h ⊢
    split at h
    · rename_i hplain
      obtain ⟨rfl, -⟩ := Prod.mk.inj (Option.some.inj h)
      rw [if_pos hplain]
    · rename_i hplain
      obtain ⟨rfl, -⟩ := Prod.mk.inj (Option.some.inj h)
      rw [if_neg hplain]

/-- Reads a number behind its sign. -/
def unsigned? (negative : Bool) (s : List Char) : Option (Json Float × List Char) :=
  let whole := s.takeWhile Char.isDigit
  let rest := s.drop whole.length
  if whole.isEmpty || (whole.head? == some '0' && 1 < whole.length) then none
  else
    let point := rest.head? == some '.'
    let fraction := if point then (rest.drop 1).takeWhile Char.isDigit else []
    if point && fraction.isEmpty then none
    else scaled? negative whole point fraction (if point then rest.drop (1 + fraction.length) else rest)

/-- Behind a minus sign stands a number without a sign. -/
theorem number?_minus : number? ('-' :: s) = unsigned? true s := rfl

/-- A number without a minus sign has no sign. -/
theorem number?_unsigned (h : s.head? ≠ some '-') : number? s = unsigned? false s := by
  cases s with
  | nil => rfl
  | cons c s =>
    unfold number?
    split
    · rename_i hsign
      split at hsign
      · rename_i rest hcons
        simp [(List.cons.inj hcons).1] at h
      · obtain ⟨rfl, rfl⟩ := Prod.mk.inj hsign
        rfl

/-- A number without a sign is read up to what ends it. -/
theorem unsigned?_append {negative : Bool} (h : unsigned? negative t = some (v, [])) (hr : Stops r) :
    unsigned? negative (t ++ r) = some (v, r) := by
  unfold unsigned? at h ⊢
  dsimp only at h ⊢
  rw [drop_digits_append hr, takeWhile_isDigit_append hr]
  generalize t.drop (t.takeWhile Char.isDigit).length = rest at h ⊢
  generalize t.takeWhile Char.isDigit = whole at h ⊢
  split at h
  · exact absurd h (by simp)
  rename_i hwhole
  rw [if_neg hwhole]
  have hpoint : ((rest ++ r).head? == some '.') = (rest.head? == some '.') := head?_append_beq hr (by simp)
  by_cases hp : (rest.head? == some '.') = true
  · obtain ⟨fraction, rfl⟩ : ∃ fraction, rest = '.' :: fraction := by
      cases rest with
      | nil => simp at hp
      | cons c rest => exact ⟨rest, by simpa using hp⟩
    rw [hpoint]
    simp only [hp, if_true, List.cons_append, Nat.add_comm 1, List.drop_succ_cons, List.drop_zero] at h ⊢
    rw [drop_digits_append hr, takeWhile_isDigit_append hr]
    split at h
    · exact absurd h (by simp)
    · rename_i hfraction
      rw [if_neg hfraction]
      exact scaled?_append h hr
  · simp only [hpoint, hp, Bool.false_and, Bool.false_eq_true, if_false] at h ⊢
    exact scaled?_append h hr

/-- A number is read as it stands where it does not go on. -/
theorem number?_append (h : number? t = some (v, [])) (hr : Stops r) : number? (t ++ r) = some (v, r) := by
  by_cases hminus : t.head? = some '-'
  · obtain ⟨t, rfl⟩ := List.head?_eq_some_iff.mp hminus
    exact unsigned?_append h hr
  · rw [number?_unsigned hminus] at h
    cases t with
    | nil => simp [unsigned?] at h
    | cons c t =>
      rw [number?_unsigned (s := c :: t ++ r) (by simpa using hminus)]
      exact unsigned?_append h hr

end Stops

/-- The digits of a whole number are read as that number. -/
theorem unsigned?_toDigits (negative : Bool) (n : Nat) :
    unsigned? negative (Nat.toDigits 10 n) = some (wholeOf negative (Nat.toDigits 10 n), []) := by
  have hzero : ((Nat.toDigits 10 n).isEmpty || ((Nat.toDigits 10 n).head? == some '0' && 1 < (Nat.toDigits 10 n).length)) =
      false := by
    rcases Nat.eq_zero_or_pos n with rfl | hpos
    · rfl
    · have hhead := head?_toDigits hpos
      simp [hhead]
  unfold unsigned?
  simp only [takeWhile_toDigits, hzero, List.drop_length]
  simp [scaled?, exponent?]

/-- The text of a whole number within the range of the reader is read as that number. -/
theorem number?_int {n : Int} (hlow : -(twoPow 63 : Int) ≤ n) (hhigh : n < twoPow 64) :
    number? ((if n < 0 then "-" else "") ++ digitText n.natAbs).toList = some (.int n, []) := by
  have hlimits : twoPow 63 = 9223372036854775808 ∧ twoPow 64 = 18446744073709551616 := ⟨rfl, rfl⟩
  rw [hlimits.1] at hlow
  rw [hlimits.2] at hhigh
  by_cases hneg : n < 0
  · have htext : ((if n < 0 then "-" else "") ++ digitText n.natAbs).toList = '-' :: Nat.toDigits 10 n.natAbs := by
      simp [hneg, digitText]
    have hbound : ¬ maxSignificand < n.natAbs := by
      rw [maxSignificand, hlimits.2]
      omega
    have hnonzero : (n.natAbs == 0 || decide (twoPow 63 < n.natAbs)) = false := by
      rw [hlimits.1]
      simp
      omega
    have hvalue : -(n.natAbs : Int) = n := by omega
    rw [htext, number?_minus, unsigned?_toDigits, wholeOf, digitsToNat_toDigits, if_neg hbound, hnonzero, hvalue]
    rfl
  · have htext : ((if n < 0 then "-" else "") ++ digitText n.natAbs).toList = Nat.toDigits 10 n.natAbs := by
      simp [hneg, digitText]
    have hbound : ¬ maxSignificand < n.natAbs := by
      rw [maxSignificand, hlimits.2]
      omega
    have hvalue : (n.natAbs : Int) = n := by omega
    have hunsigned : (Nat.toDigits 10 n.natAbs).head? ≠ some '-' := by
      intro hminus
      have hdigit := Nat.isDigit_of_mem_toDigits (by decide) (by decide) (List.mem_of_mem_head? hminus)
      exact absurd hdigit (by decide)
    rw [htext, number?_unsigned hunsigned, unsigned?_toDigits, wholeOf, digitsToNat_toDigits, if_neg hbound, hvalue]
    rfl

/-! ## Texts -/

/-- What a character of a text is read as: a control character without an escape of its own as its number. -/
def unitOf (c : Char) : TextUnit :=
  if c.toNat < 32 ∧ c ∉ ['\n', '\r', '\t'] ∧ c.toNat ≠ 8 ∧ c.toNat ≠ 12 then .unit c.toNat else .char c

/-- The characters that are escaped by one letter. -/
def lettered : List Char := ['"', '\\', '\n', '\r', '\t', Char.ofNat 8, Char.ofNat 12]

/-- A character is escaped by a letter, or by its number, or stands for itself. -/
theorem escapeChar_cases (c : Char) :
    (∃ e, escapeChar c = ['\\', e] ∧ e ≠ 'u' ∧ shortEscape? e = some c ∧ unitOf c = .char c) ∨
    (c.toNat < 32 ∧ escapeChar c = ['\\', 'u', '0', '0', hexDigit (c.toNat / 16), hexDigit c.toNat] ∧
      unitOf c = .unit c.toNat) ∨
    (32 ≤ c.toNat ∧ c ≠ '"' ∧ c ≠ '\\' ∧ escapeChar c = [c] ∧ unitOf c = .char c) := by
  by_cases hletter : c ∈ lettered
  · left
    simp only [lettered, List.mem_cons, List.not_mem_nil, or_false] at hletter
    rcases hletter with rfl | rfl | rfl | rfl | rfl | rfl | rfl <;> exact ⟨_, rfl, by decide, rfl, rfl⟩
  · have hnumber : ∀ n, Char.ofNat n ∈ lettered → c.toNat ≠ n := by
      rintro n hn rfl
      rw [Char.ofNat_toNat] at hn
      exact hletter hn
    have hback := hnumber 8 (by decide)
    have hfeed := hnumber 12 (by decide)
    simp only [lettered, List.mem_cons, List.not_mem_nil, or_false, not_or] at hletter
    by_cases hcontrol : c.toNat < 32
    · exact .inr (.inl ⟨hcontrol, by simp [escapeChar, hletter, hback, hfeed, hcontrol],
        by simp [unitOf, hletter, hback, hfeed, hcontrol]⟩)
    · exact .inr (.inr ⟨by omega, hletter.1, hletter.2.1, by simp [escapeChar, hletter, hback, hfeed, hcontrol],
        by simp [unitOf, hcontrol]⟩)

/-- The number of a control character is read back. -/
theorem hexNumber?_control : ∀ n < 32, hexNumber? ['0', '0', hexDigit (n / 16), hexDigit n] = some n := by decide

/-- A character that is escaped is read as one unit. -/
theorem textUnits?_escapeChar (c : Char) (s : List Char) :
    textUnits? (escapeChar c ++ s) = (textUnits? s).map (fun r => (unitOf c :: r.1, r.2)) := by
  rcases escapeChar_cases c with
    ⟨e, hescape, hu, hshort, hunit⟩ | ⟨hcontrol, hescape, hunit⟩ | ⟨hplain, hquote, hsolidus, hescape, hunit⟩
  · rw [hescape, hunit, List.cons_append, List.cons_append, List.nil_append, textUnits?]
    · rw [hshort]
      cases textUnits? s <;> rfl
    · exact fun _ _ _ _ _ he _ => hu he
  · rw [hescape, hunit, List.cons_append, List.cons_append, List.cons_append, List.cons_append, List.cons_append,
      List.cons_append, List.nil_append, textUnits?, hexNumber?_control c.toNat hcontrol]
    cases textUnits? s <;> rfl
  · rw [hescape, hunit, List.cons_append, List.nil_append, textUnits?, if_neg (by omega)]
    · cases textUnits? s <;> rfl
    · exact hquote
    · exact fun _ _ _ _ _ hs _ => hsolidus hs
    · exact fun _ _ hs _ => hsolidus hs

/-- The unit of a character is joined as that character. -/
theorem joinUnits?_unitOf (c : Char) (units : List TextUnit) :
    joinUnits? (unitOf c :: units) = (joinUnits? units).map (c :: ·) := by
  unfold unitOf
  split
  · rename_i hc
    have hsmall : c.toNat < 32 := hc.1
    have hchar : Char.ofNat c.toNat = c := Char.ofNat_toNat c
    cases units with
    | nil => simp [joinUnits?, hchar]; omega
    | cons u units =>
      cases u with
      | char d => simp [joinUnits?, hchar]; omega
      | unit n =>
        rw [joinUnits?, if_neg (by simp; omega), if_neg (by simp; omega), hchar]
  · rw [joinUnits?]

/-- A quoted text: a quotation mark, the characters escaped, and another one. -/
theorem toList_quoteText (s : String) : (quoteText s).toList = '"' :: (s.toList.flatMap escapeChar ++ ['"']) := by
  simp [quoteText]

/-- A text is read back from its escapes. -/
theorem textLiteral?_escaped (s : String) (rest : List Char) :
    textLiteral? (s.toList.flatMap escapeChar ++ '"' :: rest) = some (some s, rest) := by
  have hunits : ∀ cs : List Char, textUnits? (cs.flatMap escapeChar ++ '"' :: rest) = some (cs.map unitOf, rest) := by
    intro cs
    induction cs with
    | nil => rfl
    | cons c cs ih => simp [textUnits?_escapeChar, ih]
  have hjoin : ∀ cs : List Char, joinUnits? (cs.map unitOf) = some cs := by
    intro cs
    induction cs with
    | nil => rfl
    | cons c cs ih => simp [joinUnits?_unitOf, ih]
  simp [textLiteral?, hunits, hjoin]

end DaxPlan.Json
