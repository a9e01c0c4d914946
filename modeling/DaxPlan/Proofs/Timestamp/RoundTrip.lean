import DaxPlan.Proofs.Number.Digits
import DaxPlan.Proofs.Timestamp.Calendar

/-!
# Points in time are read back

The text of a point in time of the calendar is read as that point (`ofText?_text`). Only nanoseconds that run past a second which is
not the last of its minute are read as part of the next second.
-/

namespace DaxPlan.Timestamp

open Number

variable {n width : Nat} {rest : List Char}

/-! ## Digits and separators -/

/-- A digit is no blank. -/
theorem isBlank_of_isDigit {c : Char} (h : c.isDigit = true) : Text.isBlank c = false := by
  have hrange : 48 ≤ c.toNat ∧ c.toNat ≤ 57 := by
    simpa [Char.isDigit, UInt32.le_iff_toNat_le] using h
  simp [Text.isBlank]
  omega

/-- Nothing is trimmed in front of a character that is no blank. -/
theorem trimStart_cons {c : Char} (h : Text.isBlank c = false) (s : List Char) : Text.trimStart (c :: s) = c :: s :=
  List.dropWhile_cons_of_neg (by simp [h])

/-- Nothing is trimmed in front of a number. -/
theorem trimStart_paddedText (width n : Nat) (rest : List Char) :
    Text.trimStart ((paddedText width n).toList ++ rest) = (paddedText width n).toList ++ rest := by
  obtain ⟨c, digits, heq, hc⟩ := paddedText_eq_cons width n
  rw [heq, List.cons_append, trimStart_cons (isBlank_of_isDigit hc)]

/-- A number of so many digits is read up to its last one, whatever stands behind it. -/
theorem number_paddedText (hwidth : 0 < width) (h : n < 10 ^ width) (rest : List Char) :
    number (some width) ((paddedText width n).toList ++ rest) = some (n, rest) := by
  have hlength := length_paddedText hwidth h
  have hdigits : ∀ c ∈ (paddedText width n).toList, c.isDigit = true := fun c hc => isDigit_of_mem_paddedText hc
  have hvalue : digitsValue (paddedText width n).toList = n := digitsToNat_paddedText width n
  rw [number, trimStart_paddedText]
  generalize (paddedText width n).toList = digits at hlength hdigits hvalue
  have hnonempty : digits.isEmpty = false := by
    cases digits with
    | nil => exact absurd hlength (by simp; omega)
    | cons => rfl
  rw [List.takeWhile_append_of_pos hdigits, List.take_left' hlength, hnonempty, if_neg Bool.false_ne_true, List.drop_left, hvalue]

/-- A number of any width is read up to what is no digit. -/
theorem number_none_paddedText (hrest : ∀ c ∈ rest.head?, c.isDigit = false) (width n : Nat) :
    number none ((paddedText width n).toList ++ rest) = some (n, rest) := by
  have hvalue : digitsValue (paddedText width n).toList = n := digitsToNat_paddedText width n
  obtain ⟨c, digits, heq, -⟩ := paddedText_eq_cons width n
  rw [number, trimStart_paddedText, takeWhile_digits (fun c hc => isDigit_of_mem_paddedText hc) hrest, List.drop_left, hvalue, heq]
  rfl

/-- A separator is read where it stands. -/
theorem separator_cons {c : Char} (h : Text.isBlank c = false) (rest : List Char) : separator c (c :: rest) = some ((), rest) := by
  rw [separator, trimStart_cons h]
  exact if_pos (beq_self_eq_true c)

/-! ## Dates -/

/-- A year with a minus sign is that many years before the year zero. -/
theorem year_minus {s : List Char} (h : s.head?.any Char.isDigit = true) :
    year ('-' :: s) = (number none s).map (fun r => (-(r.1 : Int), r.2)) := by
  rw [year, trimStart_cons (by decide)]
  exact if_pos h

/-- A plus sign changes no year. -/
theorem year_plus {s : List Char} (h : s.head?.any Char.isDigit = true) :
    year ('+' :: s) = (number none s).map (fun r => ((r.1 : Int), r.2)) := by
  rw [year, trimStart_cons (by decide)]
  exact if_pos h

/-- A year is read back. -/
theorem year_yearText (hrest : ∀ c ∈ rest.head?, c.isDigit = false) (y : Int) :
    year ((yearText y).toList ++ rest) = some (y, rest) := by
  rw [yearText]
  -- Years of four digits are written without a sign, and a digit is no sign; all others carry one.
  split
  · rename_i hfour
    rw [Bool.and_eq_true, decide_eq_true_iff, decide_eq_true_iff] at hfour
    have hread : number (some 4) ((paddedText 4 y.toNat).toList ++ rest) = some (y.toNat, rest) :=
      number_paddedText (by decide) (by omega) rest
    have hvalue : (y.toNat : Int) = y := by omega
    rw [year, trimStart_paddedText]
    obtain ⟨c, digits, heq, hc⟩ := paddedText_eq_cons 4 y.toNat
    rw [heq, List.cons_append] at hread ⊢
    split
    · rename_i hminus
      obtain ⟨rfl, -⟩ := List.cons.inj hminus
      exact absurd hc (by decide)
    · rename_i hplus
      obtain ⟨rfl, -⟩ := List.cons.inj hplus
      exact absurd hc (by decide)
    · rw [hread, Option.map_some, hvalue]
  · rename_i hfour
    have hread := number_none_paddedText hrest 4 y.natAbs
    obtain ⟨c, digits, heq, hc⟩ := paddedText_eq_cons 4 y.natAbs
    have hhead : ((paddedText 4 y.natAbs).toList ++ rest).head?.any Char.isDigit = true := by
      rw [heq]
      exact hc
    by_cases hneg : y < 0
    · have htext : ("-" ++ paddedText 4 y.natAbs).toList ++ rest = '-' :: ((paddedText 4 y.natAbs).toList ++ rest) := by simp
      have hvalue : -(y.natAbs : Int) = y := by omega
      rw [if_pos hneg, htext, year_minus hhead, hread, Option.map_some, hvalue]
    · have htext : ("+" ++ paddedText 4 y.natAbs).toList ++ rest = '+' :: ((paddedText 4 y.natAbs).toList ++ rest) := by simp
      have hvalue : (y.natAbs : Int) = y := by omega
      rw [if_neg hneg, htext, year_plus hhead, hread, Option.map_some, hvalue]

/-- A date as it is written. -/
def dateText (d : Date) : List Char :=
  (yearText d.year).toList ++ '-' :: ((paddedText 2 d.month).toList ++ '-' :: (paddedText 2 d.day).toList)

/-- A date is read back. -/
theorem date_dateText {d : Date} (h : d.isValid = true) (rest : List Char) : date (dateText d ++ rest) = some (d, rest) := by
  have hvalid := h
  simp only [Date.isValid, Bool.and_eq_true, decide_eq_true_iff] at h
  have hday : daysInMonth d.year d.month ≤ 31 := by
    unfold daysInMonth
    split
    · split <;> decide
    · split <;> decide
  rw [date, dateText, List.append_assoc, year_yearText (by simp)]
  simp only [Option.bind_eq_bind, Option.bind_some, List.cons_append, List.append_assoc,
    separator_cons (c := '-') (by decide), @number_paddedText d.month 2 (by decide) (by omega),
    @number_paddedText d.day 2 (by decide) (by omega)]
  exact if_pos hvalid

/-! ## Times -/

/-- The digits behind a point are read as nanoseconds. -/
theorem fraction_paddedText {nano : Nat} (hwidth : 0 < width) (hnine : width ≤ 9) (hnano : n * tenPow (9 - width) = nano)
    (h : n < 10 ^ width) (hrest : ∀ c ∈ rest.head?, c.isDigit = false) :
    fraction (("." ++ paddedText width n).toList ++ rest) = some (nano, rest) := by
  have htext : ("." ++ paddedText width n).toList ++ rest = '.' :: ((paddedText width n).toList ++ rest) := by simp
  have hlength := length_paddedText hwidth h
  have hdigits : ∀ c ∈ (paddedText width n).toList, c.isDigit = true := fun c hc => isDigit_of_mem_paddedText hc
  have hvalue : digitsValue (paddedText width n).toList = n := digitsToNat_paddedText width n
  have hafter : rest.dropWhile Char.isDigit = rest := by
    cases rest with
    | nil => rfl
    | cons c rest => exact List.dropWhile_cons_of_neg (by simp [hrest c rfl])
  obtain ⟨c, digits, heq, -⟩ := paddedText_eq_cons width n
  rw [htext, fraction, takeWhile_digits hdigits hrest, List.take_of_length_le (by omega), hvalue, hlength,
    List.dropWhile_append_of_pos hdigits, hafter, hnano, heq]
  rfl

/-- A fraction of a second is read back, whatever number of digits it is written with. -/
theorem fraction_fractionText (h : n < 1000000000) (hrest : ∀ c ∈ rest.head?, c.isDigit = false ∧ c ≠ '.') :
    fraction ((fractionText n).toList ++ rest) = some (n, rest) := by
  have hdigit : ∀ c ∈ rest.head?, c.isDigit = false := fun c hc => (hrest c hc).1
  rw [fractionText]
  split
  · rename_i hzero
    rw [eq_of_beq hzero]
    change fraction rest = _
    unfold fraction
    split
    · exact absurd rfl (hrest '.' rfl).2
    · rfl
  · split
    · rename_i hmilli
      exact fraction_paddedText (by decide) (by decide) (Nat.div_mul_cancel (Nat.dvd_of_mod_eq_zero (eq_of_beq hmilli))) (by omega)
        hdigit
    · split
      · rename_i hmicro
        exact fraction_paddedText (by decide) (by decide) (Nat.div_mul_cancel (Nat.dvd_of_mod_eq_zero (eq_of_beq hmicro)))
          (by omega) hdigit
      · exact fraction_paddedText (by decide) (by decide) (Nat.mul_one n) (by omega) hdigit

/-- A time of day as it is written. -/
def timeText (hour minute second nano : Nat) : List Char :=
  (paddedText 2 hour).toList ++ ':' ::
    ((paddedText 2 minute).toList ++ ':' :: ((paddedText 2 second).toList ++ (fractionText nano).toList))

/-- A time of day is read back; of a leap second, the second before it and more than a second of nanoseconds. -/
theorem timeOfDay_timeText {hour minute second nano : Nat} (hhour : hour < 24) (hminute : minute < 60) (hsecond : second < 61)
    (hnano : nano < 1000000000) (hrest : ∀ c ∈ rest.head?, c.isDigit = false ∧ c ≠ '.') :
    timeOfDay (timeText hour minute second nano ++ rest) =
      some (if second = 60 then (hour * 3600 + minute * 60 + 59, nano + 1000000000)
        else (hour * 3600 + minute * 60 + second, nano), rest) := by
  rw [timeOfDay, timeText]
  simp only [Option.bind_eq_bind, Option.bind_some, List.cons_append, List.append_assoc,
    separator_cons (c := ':') (by decide), @number_paddedText hour 2 (by decide) (by omega),
    @number_paddedText minute 2 (by decide) (by omega),
    @number_paddedText second 2 (by decide) (by omega), fraction_fractionText hnano hrest]
  rw [if_neg (by simp; omega)]
  by_cases hleap : second = 60 <;> simp [hleap]

/-! ## Points in time -/

/-- A point in time of the calendar. The nanoseconds may run past one second, and not past two. -/
structure InCalendar (t : Timestamp) : Prop where
  year : inCalendar (Date.ofDays (t.seconds.fdiv 86400)).year = true
  nanoseconds : t.nanoseconds < 2000000000

/-- Nanoseconds that run past a second belong to the next one, but in the last second of a minute. -/
def settled (t : Timestamp) : Timestamp :=
  if 1000000000 ≤ t.nanoseconds ∧ t.seconds % 60 ≠ 59 then ⟨t.seconds + 1, t.nanoseconds - 1000000000⟩ else t

/-- The second of its day. -/
def secondOfDay (t : Timestamp) : Nat := (t.seconds.fmod 86400).toNat

/-- The second of a day lies within the day. -/
theorem secondOfDay_spec (t : Timestamp) :
    t.secondOfDay < 86400 ∧ t.seconds = t.seconds.fdiv 86400 * 86400 + t.secondOfDay := by
  rw [secondOfDay, Int.fmod_eq_emod_of_nonneg _ (by decide), Int.fdiv_eq_ediv_of_nonneg _ (by decide)]
  omega

/-- A settled point in time lies on the same day. -/
theorem settled_day (t : Timestamp) : t.settled.seconds.fdiv 86400 = t.seconds.fdiv 86400 := by
  rw [settled]
  split
  · dsimp only
    rw [Int.fdiv_eq_ediv_of_nonneg _ (by decide), Int.fdiv_eq_ediv_of_nonneg _ (by decide)]
    omega
  · rfl

/-- The clock of a point in time: its hour, minute and second, of which a leap second is the sixtieth. -/
def clockText (t : Timestamp) : List Char :=
  timeText (t.secondOfDay / 3600) (t.secondOfDay / 60 % 60) (t.secondOfDay % 60 + t.nanoseconds / 1000000000)
    (t.nanoseconds % 1000000000)

/-- The time of day of a point in time is read back, settled. -/
theorem timeOfDay_clockText {t : Timestamp} (h : t.nanoseconds < 2000000000)
    (hrest : ∀ c ∈ rest.head?, c.isDigit = false ∧ c ≠ '.') :
    timeOfDay (t.clockText ++ rest) = some ((t.settled.secondOfDay, t.settled.nanoseconds), rest) := by
  obtain ⟨hsecond, hsplit⟩ := t.secondOfDay_spec
  obtain ⟨-, hsettled⟩ := t.settled.secondOfDay_spec
  rw [settled_day] at hsettled
  rw [clockText, timeOfDay_timeText (by omega) (by omega) (by omega) (Nat.mod_lt _ (by decide)) hrest]
  unfold settled at hsettled ⊢
  split at hsettled
  · rename_i hnext
    dsimp only at hsettled
    rw [if_neg (by omega), if_pos hnext]
    dsimp only
    rw [show t.nanoseconds % 1000000000 = t.nanoseconds - 1000000000 by omega]
    rw [show t.secondOfDay / 3600 * 3600 + t.secondOfDay / 60 % 60 * 60 + (t.secondOfDay % 60 + t.nanoseconds / 1000000000) =
      secondOfDay ⟨t.seconds + 1, t.nanoseconds - 1000000000⟩ by omega]
  · rename_i hsame
    rw [if_neg hsame]
    split
    · rw [show t.nanoseconds % 1000000000 + 1000000000 = t.nanoseconds by omega,
        show t.secondOfDay / 3600 * 3600 + t.secondOfDay / 60 % 60 * 60 + 59 = t.secondOfDay by omega]
    · rw [show t.nanoseconds % 1000000000 = t.nanoseconds by omega,
        show t.secondOfDay / 3600 * 3600 + t.secondOfDay / 60 % 60 * 60 + (t.secondOfDay % 60 + t.nanoseconds / 1000000000) =
          t.secondOfDay by omega]

/-- The text of a point in time: the date, a letter, the time of day, and the sign of the time zone. -/
theorem toList_text (t : Timestamp) :
    t.text.toList = dateText (Date.ofDays (t.seconds.fdiv 86400)) ++ 'T' :: (t.clockText ++ ['Z']) := by
  simp [text, dateText, clockText, timeText, secondOfDay]

/-- The text of a point in time is read as that point. -/
theorem ofText?_text {t : Timestamp} (h : t.InCalendar) : ofText? t.text = some t.settled := by
  have hvalid : (Date.ofDays (t.seconds.fdiv 86400)).isValid = true := (Date.isValid_ofDays _).trans h.year
  have htime : timeOfDay (t.clockText ++ ['Z']) = some ((t.settled.secondOfDay, t.settled.nanoseconds), ['Z']) :=
    timeOfDay_clockText h.nanoseconds (by simp)
  have hoffset : offset ['Z'] = some (0, []) := by decide
  have hutc : t.seconds.fdiv 86400 * 86400 + (t.settled.secondOfDay : Int) - 0 = t.settled.seconds := by
    obtain ⟨-, hsplit⟩ := t.settled.secondOfDay_spec
    rw [settled_day] at hsplit
    omega
  rw [ofText?, toList_text]
  simp only [Option.bind_eq_bind, date_dateText hvalid, htime, hoffset, Option.bind_some, Date.toDays_ofDays, hutc, settled_day,
    h.year]
  rfl

end DaxPlan.Timestamp
