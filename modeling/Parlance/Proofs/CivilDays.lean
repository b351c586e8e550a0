import Mathlib.Tactic.IntervalCases
import Parlance.Calendar.Moment

/-!
# Days and dates

Days are counted from 1 March of year 0, and years from March, so that a leap day is the last day of its
year. `YearDay` tells the year, and the day of it, that a number of days leads to. Dates and numbers of
days stand for each other: `Date.ofDayNumber` yields a date of the calendar (`Date.make?_ofDayNumber`),
whose number is the one that it was made of (`Date.dayNumber_ofDayNumber`).
-/

namespace Parlance.Calendar

/-! ## Days of an era -/

/-- A day of four hundred years, by its century, the four years of that, the year of these and the day. -/
structure EraDay (d century span year day : Int) : Prop where
  eq : d = 36524 * century + 1461 * span + 365 * year + day
  century_le : 0 ≤ century ∧ century ≤ 3
  span_le : 0 ≤ span ∧ span ≤ 24
  year_le : 0 ≤ year ∧ year ≤ 3
  day_le : 0 ≤ day ∧ day ≤ 365
  leap : day = 365 → year = 3 ∧ (span = 24 → century = 3)

variable {d century span year day n : Int}

theorem exists_eraDay (hd : 0 ≤ d ∧ d < 146097) : ∃ century span year day,
    EraDay d century span year day := by
  obtain ⟨century, r, hcentury, hr, hd⟩ : ∃ century r : Int, (0 ≤ century ∧ century ≤ 3) ∧
      (0 ≤ r ∧ r ≤ 36524 ∧ (r = 36524 → century = 3)) ∧ d = 36524 * century + r := by
    -- the last day of an era is the only one that makes a century longer
    by_cases hlast : d = 146096
    · exact ⟨3, 36524, by omega, by omega, by omega⟩
    · exact ⟨d / 36524, d % 36524, by omega, by omega, by omega⟩
  obtain ⟨year, day, hyear, hday, hr'⟩ : ∃ year day : Int, (0 ≤ year ∧ year ≤ 3) ∧
      (0 ≤ day ∧ day ≤ 365 ∧ (day = 365 → year = 3)) ∧ r % 1461 = 365 * year + day := by
    by_cases hlast : r % 1461 = 1460
    · exact ⟨3, 365, by omega, by omega, by omega⟩
    · exact ⟨r % 1461 / 365, r % 1461 % 365, by omega, by omega, by omega⟩
  exact ⟨century, r / 1461, year, day, by omega, hcentury, by omega, hyear, by omega, by omega⟩

/-- The year of an era, as it is computed. -/
theorem EraDay.yearOfEra (h : EraDay d century span year day) :
    (d - d / 1460 + d / 36524 - d / 146096) / 365 = 100 * century + 4 * span + year := by
  obtain ⟨heq, hcentury, hspan, hyear, hday, hleap⟩ := h
  have hcenturies : d / 36524 - d / 146096 = century := by
    by_cases hlast : d = 146096
    · omega
    · have hrest : 1461 * span + 365 * year + day < 36524 := by omega
      have hquotient : d / 36524 = century := by omega
      have hera : d / 146096 = 0 := by omega
      omega
  by_cases hextra : 24 * century + span + 365 * year + day < 1460
  · have hspans : d / 1460 = 25 * century + span := by omega
    omega
  · have hspans : d / 1460 = 25 * century + span + 1 := by omega
    omega

/-! ## Years from March -/

/-- The days from 1 March of year 0 to 1 March of a year. -/
def marchOf (year : Int) : Int := 365 * year + year / 4 - year / 100 + year / 400

/-- So many days lead to a day of the year that starts on 1 March of a year. -/
structure YearDay (n year day : Int) : Prop where
  eq : n = marchOf year + day
  day_le : 0 ≤ day ∧ day ≤ 365
  leap : day = 365 → isLeapYear (year + 1) = true

theorem EraDay.yearDay (h : EraDay d century span year day) (era : Int) :
    YearDay (d + era * 146097) (100 * century + 4 * span + year + era * 400) day := by
  obtain ⟨heq, hcentury, hspan, hyear, hday, hleap⟩ := h
  refine ⟨?_, hday, fun hlast => ?_⟩
  · unfold marchOf
    omega
  · obtain ⟨rfl, hlong⟩ := hleap hlast
    simp only [isLeapYear, Bool.and_eq_true, Bool.or_eq_true, beq_iff_eq, bne_iff_ne]
    omega

/-- The number of a month in the calendar, by the months from March on that have passed before it. -/
def civilMonth (month : Nat) : Nat := if month < 10 then month + 3 else month - 9

theorem civilMonth_bounds {month : Nat} (hmonth : month ≤ 11) :
    1 ≤ civilMonth month ∧ civilMonth month ≤ 12 := by
  unfold civilMonth
  split <;> omega

/-- The date of a day of the year that starts on 1 March of a year. -/
def dateOf (year day : Int) : Date :=
  let month := ((5 * day + 2) / 153).toNat
  ⟨if civilMonth month ≤ 2 then year + 1 else year, civilMonth month,
    (day - (153 * month + 2) / 5 + 1).toNat⟩

theorem exists_yearDay (n : Int) : ∃ year day, YearDay n year day ∧ Date.ofDayNumber n = dateOf year day := by
  have hera : Int.fdiv n 146097 = n / 146097 := Int.fdiv_eq_ediv_of_nonneg n (by decide)
  obtain ⟨century, span, year, day, h⟩ := exists_eraDay (d := n - n / 146097 * 146097) (by omega)
  have hyearDay := h.yearDay (n / 146097)
  have hday : n - n / 146097 * 146097 - (365 * (100 * century + 4 * span + year) +
      (100 * century + 4 * span + year) / 4 - (100 * century + 4 * span + year) / 100) = day := by
    obtain ⟨heq, hcentury, hspan, hyear, -, -⟩ := h
    omega
  rw [Int.sub_add_cancel] at hyearDay
  refine ⟨_, day, hyearDay, ?_⟩
  simp only [Date.ofDayNumber, hera, h.yearOfEra, hday]
  rfl

/-! ## Dates -/

/-- The calendar has the date. -/
def Date.Valid (date : Date) : Prop :=
  (1 ≤ date.month ∧ date.month ≤ 12) ∧ 1 ≤ date.day ∧ date.day ≤ daysInMonth date.year date.month

/-- The months from March on that have passed before a day. -/
theorem exists_month (hday : 0 ≤ day ∧ day ≤ 365) :
    ∃ month : Nat, (5 * day + 2) / 153 = month ∧ month ≤ 11 :=
  ⟨((5 * day + 2) / 153).toNat, by omega, by omega⟩

/-- All months but February are as long as the days before a month tell. -/
theorem daysInMonth_civilMonth {month : Nat} (hmonth : month ≤ 10) (year : Int) :
    daysInMonth year (civilMonth month) = (153 * (month + 1) + 2) / 5 - (153 * month + 2) / 5 := by
  interval_cases month <;> rfl

theorem YearDay.valid (h : YearDay n year day) : (dateOf year day).Valid := by
  obtain ⟨-, hday, hleap⟩ := h
  obtain ⟨month, hmonth, hle⟩ := exists_month hday
  simp only [dateOf, hmonth, Int.toNat_natCast]
  refine ⟨civilMonth_bounds hle, by dsimp only; omega, ?_⟩
  rcases Nat.lt_or_eq_of_le hle with hlt | rfl
  · have hstart : (153 * (month : Int) + 2) / 5 = ((153 * month + 2) / 5 : Nat) := by omega
    dsimp only
    rw [daysInMonth_civilMonth (by omega), hstart]
    omega
  · -- a twenty-ninth day of February is the leap day at the end of a year from March
    change _ ≤ if isLeapYear (year + 1) then 29 else 28
    dsimp only
    by_cases hlast : day = 365
    · rw [if_pos (hleap hlast)]
      omega
    · split <;> omega

theorem YearDay.dayNumber (h : YearDay n year day) : (dateOf year day).dayNumber = n := by
  obtain ⟨heq, hday, -⟩ := h
  obtain ⟨month, hmonth, hle⟩ := exists_month hday
  have hfdiv (m : Int) (hm : 0 ≤ m) : Int.fdiv year m = year / m := Int.fdiv_eq_ediv_of_nonneg year hm
  have hcivil : (civilMonth month + 9) % 12 = month := by
    unfold civilMonth
    split <;> omega
  have hyear (civilMonth : Nat) :
      (if civilMonth ≤ 2 then (if civilMonth ≤ 2 then year + 1 else year) - 1
        else if civilMonth ≤ 2 then year + 1 else year) = year := by
    split <;> omega
  simp only [Date.dayNumber, dateOf, hmonth, Int.toNat_natCast, hcivil, hyear]
  rw [hfdiv 4 (by decide), hfdiv 100 (by decide), hfdiv 400 (by decide), heq, marchOf]
  omega

theorem Date.dayNumber_ofDayNumber (n : Int) : (Date.ofDayNumber n).dayNumber = n := by
  obtain ⟨year, day, h, hdate⟩ := exists_yearDay n
  rw [hdate, h.dayNumber]

theorem Date.valid_ofDayNumber (n : Int) : (Date.ofDayNumber n).Valid := by
  obtain ⟨year, day, h, hdate⟩ := exists_yearDay n
  rw [hdate]
  exact h.valid

theorem Date.make?_ofDayNumber (hyear : firstYear ≤ (Date.ofDayNumber n).year)
    (hyear' : (Date.ofDayNumber n).year ≤ lastYear) :
    Date.make? (Date.ofDayNumber n).year (Date.ofDayNumber n).month (Date.ofDayNumber n).day =
      some (Date.ofDayNumber n) := by
  obtain ⟨⟨hmonth, hmonth'⟩, hday, hday'⟩ := Date.valid_ofDayNumber n
  simp [Date.make?, hyear, hyear', hmonth, hmonth', hday, hday']

end Parlance.Calendar
