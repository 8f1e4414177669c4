/-
The calendar of timestamps. Years are counted from March, in eras of 400: an era has four centuries, a century 25 leap
cycles and a cycle four years, and in each of them the last part may be longer or shorter than the others by a day. The
date of a day leads back to it.
-/

import AccessPolicy.Audit.Timestamp
import Mathlib.Tactic.IntervalCases
import Mathlib.Tactic.Ring

namespace AccessPolicy.Timestamp

/-! ### Eras -/

/-- A day of an era by its century, its leap cycle, its year and its place in the year. -/
structure EraDay where
  century : Nat
  cycle : Nat
  year : Nat
  day : Nat
  century_le : century ≤ 3
  cycle_le : cycle ≤ 24
  year_le : year ≤ 3
  day_le : day ≤ 365
  /-- Where the leap day is. -/
  leap : day = 365 → year = 3 ∧ (cycle < 24 ∨ century = 3)

namespace EraDay

def number (e : EraDay) : Nat := 36524 * e.century + 1461 * e.cycle + 365 * e.year + e.day

def yearOfEra (e : EraDay) : Nat := 100 * e.century + 4 * e.cycle + e.year

theorem exists_number_eq (day : Nat) (within : day < 146097) : ∃ e : EraDay, e.number = day := by
  obtain ⟨century, centuryDef⟩ : ∃ n, n = min 3 (day / 36524) := ⟨_, rfl⟩
  obtain ⟨inCentury, inCenturyDef⟩ : ∃ n, n = day - 36524 * century := ⟨_, rfl⟩
  obtain ⟨cycle, cycleDef⟩ : ∃ n, n = inCentury / 1461 := ⟨_, rfl⟩
  obtain ⟨inCycle, inCycleDef⟩ : ∃ n, n = inCentury - 1461 * cycle := ⟨_, rfl⟩
  obtain ⟨year, yearDef⟩ : ∃ n, n = min 3 (inCycle / 365) := ⟨_, rfl⟩
  have centuries : century ≤ 3 ∧ day = 36524 * century + inCentury ∧
      inCentury ≤ 36524 ∧ (inCentury = 36524 → century = 3) := by omega
  have cycles : cycle ≤ 24 ∧ inCentury = 1461 * cycle + inCycle ∧ inCycle ≤ 1460 := by omega
  have years : year ≤ 3 ∧ 365 * year ≤ inCycle ∧ inCycle - 365 * year ≤ 365 ∧
      (inCycle - 365 * year = 365 → year = 3 ∧ inCycle = 1460) := by omega
  refine ⟨⟨century, cycle, year, inCycle - 365 * year, by omega, by omega, by omega, by omega,
    by omega⟩, ?_⟩
  change 36524 * century + 1461 * cycle + 365 * year + (inCycle - 365 * year) = day
  omega

variable (e : EraDay)

/-- Only the last day of an era lies beyond its four centuries. -/
theorem number_div_century : e.number / 36524 = e.century + e.number / 146096 := by
  obtain ⟨century, cycle, year, day, _, _, _, _, leap⟩ := e
  unfold number
  dsimp only at *
  rcases Nat.lt_or_ge (1461 * cycle + 365 * year + day) 36524 with inside | beyond
  · have centuries : (36524 * century + 1461 * cycle + 365 * year + day) / 36524 = century := by
      omega
    have noEra : (36524 * century + 1461 * cycle + 365 * year + day) / 146096 = 0 := by omega
    omega
  · have last : 36524 * century + 1461 * cycle + 365 * year + day = 146096 := by omega
    have fourth : century = 3 := by omega
    rw [last, fourth]

theorem yearOfEra_eq :
    (e.number - e.number / 1460 + e.number / 36524 - e.number / 146096) / 365 = e.yearOfEra := by
  have centuries := e.number_div_century
  obtain ⟨century, cycle, year, day, _, _, _, _, leap⟩ := e
  unfold number at *
  unfold yearOfEra
  dsimp only at *
  -- A leap day has passed in this cycle or not.
  rcases Nat.lt_or_ge (24 * century + cycle + 365 * year + day) 1460 with before | behind
  · have leapDays : (36524 * century + 1461 * cycle + 365 * year + day) / 1460 =
        25 * century + cycle := by omega
    omega
  · have leapDays : (36524 * century + 1461 * cycle + 365 * year + day) / 1460 =
        25 * century + cycle + 1 := by omega
    omega

theorem day_eq :
    e.number - (365 * e.yearOfEra + e.yearOfEra / 4 - e.yearOfEra / 100) = e.day := by
  obtain ⟨century, cycle, year, day, _, _, _, _, _⟩ := e
  unfold number yearOfEra
  dsimp only
  omega

end EraDay

/-! ### Years -/

theorem daysBeforeYear_eq (year : Int) :
    daysBeforeYear year = 365 * year + year / 4 - year / 100 + year / 400 := by
  unfold daysBeforeYear
  rw [Int.fdiv_eq_ediv_of_nonneg _ (by decide), Int.fdiv_eq_ediv_of_nonneg _ (by decide),
    Int.fdiv_eq_ediv_of_nonneg _ (by decide)]

theorem isLeapYear_iff (year : Int) :
    isLeapYear year = true ↔ year % 4 = 0 ∧ (year % 100 ≠ 0 ∨ year % 400 = 0) := by
  simp [isLeapYear]

def dateInYear (year : Int) (dayOfYear : Nat) : Date :=
  let shifted := (5 * dayOfYear + 2) / 153
  let month := if shifted < 10 then shifted + 3 else shifted - 9
  { year := if month < 3 then year + 1 else year, month
    day := dayOfYear - (153 * shifted + 2) / 5 + 1 }

theorem dateOfDays_eq (days : Int) : ∃ year dayOfYear, dateOfDays days = dateInYear year dayOfYear ∧
    days + 719468 = daysBeforeYear year + dayOfYear ∧ dayOfYear ≤ 365 ∧
    (dayOfYear = 365 → isLeapYear (year + 1) = true) := by
  obtain ⟨era, eraDef⟩ : ∃ n, n = (days + 719468).fdiv 146097 := ⟨_, rfl⟩
  have quotient : era = (days + 719468) / 146097 := by
    rw [eraDef, Int.fdiv_eq_ediv_of_nonneg _ (by decide)]
  obtain ⟨e, number⟩ :=
    EraDay.exists_number_eq (days + 719468 - era * 146097).toNat (by omega)
  have whole : days + 719468 = era * 146097 + e.number := by omega
  refine ⟨e.yearOfEra + era * 400, e.day, ?_, ?_, e.day_le, ?_⟩
  · unfold dateOfDays
    simp only [← eraDef, ← number, e.yearOfEra_eq, e.day_eq]
    rfl
  · rw [whole, daysBeforeYear_eq]
    obtain ⟨century, cycle, year, day, _, _, _, _, _⟩ := e
    simp only [EraDay.number, EraDay.yearOfEra]
    omega
  · intro last
    have leap := e.leap last
    rw [isLeapYear_iff]
    obtain ⟨century, cycle, year, day, _, _, _, _, _⟩ := e
    simp only [EraDay.yearOfEra]
    dsimp only at leap
    omega

section

variable (year : Int) {dayOfYear : Nat} (within : dayOfYear ≤ 365)

include within

theorem month_dateInYear :
    1 ≤ (dateInYear year dayOfYear).month ∧ (dateInYear year dayOfYear).month ≤ 12 := by
  unfold dateInYear
  dsimp only
  split <;> omega

theorem day_dateInYear (leap : dayOfYear = 365 → isLeapYear (year + 1) = true) :
    1 ≤ (dateInYear year dayOfYear).day ∧ (dateInYear year dayOfYear).day ≤
      monthLength (dateInYear year dayOfYear).year (dateInYear year dayOfYear).month := by
  obtain ⟨shifted, shiftedDef⟩ : ∃ n, n = (5 * dayOfYear + 2) / 153 := ⟨_, rfl⟩
  have bound : shifted ≤ 11 := by omega
  unfold dateInYear
  simp only [← shiftedDef]
  refine ⟨by omega, ?_⟩
  interval_cases shifted
  case «11» =>
    -- The year of February has begun in January.
    change dayOfYear - (153 * 11 + 2) / 5 + 1 ≤ if isLeapYear (year + 1) then 29 else 28
    by_cases last : dayOfYear = 365
    · rw [leap last, if_pos rfl]
      omega
    · split <;> omega
  all_goals
    simp only [monthLength, Nat.reduceLT, Nat.reduceAdd, Nat.reduceSub, reduceIte]
    omega

theorem daysOfDate_dateInYear :
    daysOfDate (dateInYear year dayOfYear).year (dateInYear year dayOfYear).month
      (dateInYear year dayOfYear).day = daysBeforeYear year + dayOfYear - 719468 := by
  obtain ⟨shifted, shiftedDef⟩ : ∃ n, n = (5 * dayOfYear + 2) / 153 := ⟨_, rfl⟩
  have bound : shifted ≤ 11 := by omega
  unfold dateInYear
  simp only [← shiftedDef]
  unfold daysOfDate
  by_cases early : shifted < 10
  · rw [if_pos early, if_neg (by omega), if_neg (by omega)]
    dsimp only
    rw [Nat.add_sub_cancel]
    omega
  · rw [if_neg early, if_pos (by omega), if_pos (by omega)]
    dsimp only
    rw [Nat.sub_add_cancel (by omega), add_sub_cancel_right]
    omega

end

/-! ### Days -/

section

variable (days : Int)

theorem month_dateOfDays : 1 ≤ (dateOfDays days).month ∧ (dateOfDays days).month ≤ 12 := by
  obtain ⟨year, dayOfYear, same, _, within, _⟩ := dateOfDays_eq days
  rw [same]
  exact month_dateInYear year within

theorem day_dateOfDays : 1 ≤ (dateOfDays days).day ∧
    (dateOfDays days).day ≤ monthLength (dateOfDays days).year (dateOfDays days).month := by
  obtain ⟨year, dayOfYear, same, _, within, leap⟩ := dateOfDays_eq days
  rw [same]
  exact day_dateInYear year within leap

theorem daysOfDate_dateOfDays :
    daysOfDate (dateOfDays days).year (dateOfDays days).month (dateOfDays days).day = days := by
  obtain ⟨year, dayOfYear, same, number, within, _⟩ := dateOfDays_eq days
  rw [same, daysOfDate_dateInYear year within]
  omega

end

end AccessPolicy.Timestamp
