import DaxPlan.Timestamp
import Mathlib.Order.Monotone.Basic

/-!
# The calendar

A day is counted within an era of 400 years: the years of it that are over, and the days of the year, which starts in March. The
date that is made of these is a day of its month (`Date.isValid_ofDays`) and counts the same days again (`Date.toDays_ofDays`).
-/

namespace DaxPlan.Timestamp.Date

/-! ## Years of an era -/

/-- The days of an era before one of its years. -/
def yearStart (year : Nat) : Nat := 365 * year + year / 4 - year / 100 + year / 400

/-- The days of an era up to one of its days, without the leap days. -/
def commonDays (day : Nat) : Nat := day - day / 1460 + day / 36524 - day / 146096

theorem commonDays_monotone : Monotone commonDays := by
  refine monotone_nat_of_le_succ (fun day => ?_)
  unfold commonDays
  omega

/-- The first and the last day of each year. -/
theorem commonDays_yearStart : ∀ year < 400,
    365 * year ≤ commonDays (yearStart year) ∧ commonDays (yearStart (year + 1) - 1) < 365 * (year + 1) := by
  decide +kernel

/-- The year in which a day of an era lies. -/
theorem yearStart_spec {day : Nat} (h : day < 146097) :
    commonDays day / 365 < 400 ∧ yearStart (commonDays day / 365) ≤ day ∧ day < yearStart (commonDays day / 365 + 1) := by
  have hyear : commonDays day / 365 < 400 := by
    have hlast : commonDays 146096 < 365 * 400 := by decide
    have hle := commonDays_monotone (Nat.le_of_lt_succ h)
    omega
  refine ⟨hyear, ?_, ?_⟩
  · by_contra hbefore
    obtain ⟨year, heq⟩ : ∃ year, commonDays day / 365 = year + 1 := by
      refine Nat.exists_eq_add_one.mpr (Nat.pos_of_ne_zero (fun hzero => hbefore ?_))
      rw [hzero]
      exact Nat.zero_le day
    rw [heq] at hbefore hyear
    have hlast := (commonDays_yearStart year (by omega)).2
    have hle : commonDays day ≤ commonDays (yearStart (year + 1) - 1) := commonDays_monotone (by omega)
    omega
  · by_contra hafter
    rcases Nat.lt_or_ge (commonDays day / 365 + 1) 400 with hlt | hge
    · have hfirst := (commonDays_yearStart _ hlt).1
      have hle : commonDays (yearStart (commonDays day / 365 + 1)) ≤ commonDays day := commonDays_monotone (by omega)
      omega
    · have hlast : yearStart 400 = 146097 := by decide
      rw [show commonDays day / 365 + 1 = 400 by omega] at hafter
      omega

/-! ## Days of a year -/

/-- The date of a day of a year that starts in March, in an era. -/
def ofEra (era : Int) (year day : Nat) : Date :=
  let monthFromMarch := (5 * day + 2) / 153
  let month := if monthFromMarch < 10 then monthFromMarch + 3 else monthFromMarch - 9
  ⟨year + era * 400 + (if month ≤ 2 then 1 else 0), month, day - (153 * monthFromMarch + 2) / 5 + 1⟩

/-- A day of a year of an era. Only a leap year has the last one. -/
structure IsDay (year day : Nat) : Prop where
  inEra : year < 400
  inYear : day ≤ 365
  leap : day = 365 → (year + 1) % 4 = 0 ∧ ((year + 1) % 100 = 0 → (year + 1) % 400 = 0)

theorem yearStart_succ : ∀ year < 400, yearStart (year + 1) ≤ yearStart year + 366 ∧
    (yearStart year + 365 < yearStart (year + 1) → (year + 1) % 4 = 0 ∧ ((year + 1) % 100 = 0 → (year + 1) % 400 = 0)) := by
  decide +kernel

/-- A day is one of a year of an era. -/
theorem ofDays_eq (days : Int) :
    ∃ era year day, IsDay year day ∧ days + 719468 = era * 146097 + yearStart year + day ∧ ofDays days = ofEra era year day := by
  have hmod := Int.emod_nonneg (days + 719468) (show (146097 : Int) ≠ 0 by decide)
  have hlt := Int.emod_lt_of_pos (days + 719468) (show (0 : Int) < 146097 by decide)
  have hsplit := Int.mul_ediv_add_emod (days + 719468) 146097
  have hdiv : (days + 719468).fdiv 146097 = (days + 719468) / 146097 := Int.fdiv_eq_ediv_of_nonneg _ (by decide)
  have hrem : (days + 719468).fmod 146097 = (days + 719468) % 146097 := Int.fmod_eq_emod_of_nonneg _ (by decide)
  obtain ⟨dayOfEra, hday⟩ := Int.eq_ofNat_of_zero_le hmod
  obtain ⟨hyear, hstart, hend⟩ := yearStart_spec (show dayOfEra < 146097 by omega)
  refine ⟨(days + 719468) / 146097, commonDays dayOfEra / 365, dayOfEra - yearStart (commonDays dayOfEra / 365),
    ⟨hyear, ?_, ?_⟩, ?_, ?_⟩
  · have hlength := (yearStart_succ _ hyear).1
    omega
  · exact fun hlast => (yearStart_succ _ hyear).2 (by omega)
  · omega
  · have hyearStart : yearStart (commonDays dayOfEra / 365) =
        365 * (commonDays dayOfEra / 365) + commonDays dayOfEra / 365 / 4 - commonDays dayOfEra / 365 / 100 := by
      unfold yearStart
      omega
    rw [ofDays, hdiv, hrem, hday, ofEra, hyearStart]
    rfl

/-- Months from March on. -/
theorem months : ∀ day ≤ 365, (5 * day + 2) / 153 ≤ 11 ∧ (153 * ((5 * day + 2) / 153) + 2) / 5 ≤ day := by omega

theorem toDays_ofEra {era : Int} {year day : Nat} (h : IsDay year day) :
    (ofEra era year day).toDays = era * 146097 + yearStart year + day - 719468 := by
  obtain ⟨hyear, hday, -⟩ := h
  obtain ⟨hmonth, hfirst⟩ := months day hday
  have hstart : (yearStart year : Int) = year * 365 + year / 4 - year / 100 := by
    unfold yearStart
    omega
  have hdiv : (year + era * 400 : Int).fdiv 400 = era := by
    rw [Int.fdiv_eq_ediv_of_nonneg _ (by decide)]
    omega
  have hmod : (year + era * 400 : Int).fmod 400 = year := by
    rw [Int.fmod_eq_emod_of_nonneg _ (by decide)]
    omega
  rw [hstart, toDays, ofEra]
  generalize (5 * day + 2) / 153 = month at hmonth hfirst
  dsimp only
  have hshift : (if (if month < 10 then month + 3 else month - 9) ≤ 2 then
      (year + era * 400 + (if (if month < 10 then month + 3 else month - 9) ≤ 2 then 1 else 0) - 1 : Int)
      else year + era * 400 + (if (if month < 10 then month + 3 else month - 9) ≤ 2 then 1 else 0)) = year + era * 400 := by
    split <;> omega
  have hback : ((if month < 10 then month + 3 else month - 9) + 9) % 12 = month := by
    split <;> omega
  rw [hshift, hdiv, hmod, hback]
  omega

theorem toDays_ofDays (days : Int) : (ofDays days).toDays = days := by
  obtain ⟨era, year, day, hday, hdays, hdate⟩ := ofDays_eq days
  rw [hdate, toDays_ofEra hday, ← hdays, Int.add_sub_cancel]

/-! ## Days of a month -/

theorem daysInMonth_of_ne_two {month : Nat} (h : month ≠ 2) (year : Int) : daysInMonth year month = daysInMonth 0 month := by
  rw [daysInMonth, daysInMonth, beq_eq_false_iff_ne.mpr h]
  rfl

/-- The days before February. -/
theorem day_table : ∀ day < 337,
    let monthFromMarch := (5 * day + 2) / 153
    let month := if monthFromMarch < 10 then monthFromMarch + 3 else monthFromMarch - 9
    month ≠ 2 ∧ day - (153 * monthFromMarch + 2) / 5 + 1 ≤ daysInMonth 0 month := by
  decide +kernel

theorem isLeapYear_iff (year : Int) : isLeapYear year = true ↔ year % 4 = 0 ∧ (year % 100 = 0 → year % 400 = 0) := by
  rw [isLeapYear, Int.fmod_eq_emod_of_nonneg _ (by decide), Int.fmod_eq_emod_of_nonneg _ (by decide),
    Int.fmod_eq_emod_of_nonneg _ (by decide)]
  simp
  exact fun _ => or_iff_not_imp_left.trans (by rw [not_not])

theorem day_ofEra_le {era : Int} {year day : Nat} (h : IsDay year day) :
    (ofEra era year day).day ≤ daysInMonth (ofEra era year day).year (ofEra era year day).month := by
  rcases Nat.lt_or_ge day 337 with hbefore | hfebruary
  · obtain ⟨hmonth, hday⟩ := day_table day hbefore
    exact hday.trans_eq (daysInMonth_of_ne_two hmonth _).symm
  · have hmonth : (5 * day + 2) / 153 = 11 := by
      have hday := h.inYear
      omega
    have hdate : ofEra era year day = ⟨year + era * 400 + 1, 2, day - 337 + 1⟩ := by
      rw [ofEra, hmonth]
      rfl
    rw [hdate]
    change day - 337 + 1 ≤ if isLeapYear (year + era * 400 + 1) then 29 else 28
    have hday := h.inYear
    split
    · omega
    · rename_i hleap
      have hless : day ≠ 365 := by
        intro hlast
        have hyear := h.leap hlast
        refine hleap ((isLeapYear_iff _).mpr ?_)
        omega
      omega

theorem ofDays_month (days : Int) : 1 ≤ (ofDays days).month ∧ (ofDays days).month ≤ 12 := by
  obtain ⟨era, year, day, hday, -, hdate⟩ := ofDays_eq days
  obtain ⟨hmonth, -⟩ := months day hday.inYear
  rw [hdate, ofEra]
  dsimp only
  split <;> omega

/-- The date of a day is a date, if its year is one of the calendar. -/
theorem isValid_ofDays (days : Int) : (ofDays days).isValid = inCalendar (ofDays days).year := by
  obtain ⟨hlow, hhigh⟩ := ofDays_month days
  have hday : 1 ≤ (ofDays days).day ∧ (ofDays days).day ≤ daysInMonth (ofDays days).year (ofDays days).month := by
    obtain ⟨era, year, day, hday, -, hdate⟩ := ofDays_eq days
    rw [hdate]
    exact ⟨Nat.succ_pos _, day_ofEra_le hday⟩
  simp [isValid, hlow, hhigh, hday]

end DaxPlan.Timestamp.Date
