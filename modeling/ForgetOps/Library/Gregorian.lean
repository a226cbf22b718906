import ForgetOps.Library.IsoTimestamp

/-
  The proleptic Gregorian calendar, counted out: the days of each month and each year, summed up.

  `dayNumber` is the number of a day from 1970-01-01 on. `days_eq_dayNumber`: `CivilDate.days`,
  which divides instead, gives the same number for every date from the year 0 on.
-/

namespace Calendar

open IsoTimestamp (isLeapYear daysInMonth)

/-- The days of the months before this one. -/
def daysBeforeMonth (year month : ℕ) : ℕ :=
  ((List.range' 1 (month - 1)).map (daysInMonth year)).sum

def daysInYear (year : ℕ) : ℕ := daysBeforeMonth year 13

/-- The days of the years from 0 to before this one. -/
def daysBeforeYear (year : ℕ) : ℕ := ((List.range year).map daysInYear).sum

/-- The days from 1970-01-01 to a date. -/
def dayNumber (year month day : ℕ) : ℤ :=
  daysBeforeYear year + daysBeforeMonth year month + day - 1 - daysBeforeYear 1970

theorem daysInYear_eq (year : ℕ) : daysInYear year = if isLeapYear year then 366 else 365 := by
  unfold daysInYear daysBeforeMonth daysInMonth
  cases isLeapYear year <;> rfl

/-- What a year adds to the multiples of four, of a hundred and of four hundred. -/
theorem divisions_succ (year : ℕ) :
    ((year + 1 : ℤ) + 3) / 4 = (year + 3) / 4 + (if year % 4 = 0 then 1 else 0) ∧
      ((year + 1 : ℤ) + 99) / 100 = (year + 99) / 100 + (if year % 100 = 0 then 1 else 0) ∧
      ((year + 1 : ℤ) + 399) / 400 = (year + 399) / 400 + (if year % 400 = 0 then 1 else 0) := by
  refine ⟨?_, ?_, ?_⟩ <;> split_ifs <;> omega

theorem daysInYear_cast (year : ℕ) :
    (daysInYear year : ℤ) = 365 + (if year % 4 = 0 then 1 else 0) -
      (if year % 100 = 0 then 1 else 0) + if year % 400 = 0 then 1 else 0 := by
  rw [daysInYear_eq]
  unfold isLeapYear
  by_cases hfour : year % 4 = 0
  · by_cases hhundred : year % 100 = 0
    · by_cases hera : year % 400 = 0
      · simp [hfour, hhundred, hera]
      · simp [hfour, hhundred, hera]
    · have hera : year % 400 ≠ 0 := by omega
      simp [hfour, hhundred, hera]
  · have hhundred : year % 100 ≠ 0 := by omega
    have hera : year % 400 ≠ 0 := by omega
    simp [hfour, hhundred, hera]

/-- Every fourth year has a leap day, but for three in four hundred years. -/
theorem daysBeforeYear_eq (year : ℕ) :
    (daysBeforeYear year : ℤ) =
      365 * year + ((year : ℤ) + 3) / 4 - ((year : ℤ) + 99) / 100 + ((year : ℤ) + 399) / 400 := by
  induction year with
  | zero => rfl
  | succ year ih =>
    have hstep : daysBeforeYear (year + 1) = daysBeforeYear year + daysInYear year := by
      unfold daysBeforeYear
      rw [List.range_succ, List.map_append, List.sum_append, List.map_singleton, List.sum_singleton]
    obtain ⟨hfour, hhundred, hera⟩ := divisions_succ year
    rw [hstep]
    push_cast
    rw [ih, daysInYear_cast, hfour, hhundred, hera]
    ring

/-- From March on the months follow one another in the same way in every year. -/
theorem daysBeforeMonth_eq {month : ℕ} (hmonth : 1 ≤ month ∧ month ≤ 12) (year : ℕ) :
    (daysBeforeMonth year month : ℤ) =
      if month ≤ 2 then 31 * ((month : ℤ) - 1)
      else (153 * ((month : ℤ) - 3) + 2) / 5 + if isLeapYear year then 60 else 59 := by
  obtain ⟨hlow, hhigh⟩ := hmonth
  unfold daysBeforeMonth daysInMonth
  cases isLeapYear year <;> interval_cases month <;> rfl

theorem days_eq_dayNumber {month : ℕ} (hmonth : 1 ≤ month ∧ month ≤ 12) (year day : ℕ) :
    (⟨year, month, day⟩ : CivilDate).days = dayNumber year month day := by
  unfold dayNumber
  rw [daysBeforeYear_eq, daysBeforeYear_eq, daysBeforeMonth_eq hmonth]
  unfold CivilDate.days isLeapYear
  dsimp only
  by_cases hearly : month ≤ 2
  · have hearly' : (month : ℤ) ≤ 2 := by omega
    rw [if_pos hearly', if_pos hearly', if_pos hearly]
    omega
  · have hearly' : ¬ (month : ℤ) ≤ 2 := by omega
    rw [if_neg hearly', if_neg hearly', if_neg hearly]
    simp only [decide_eq_true_eq]
    split_ifs <;> omega

example : dayNumber 2000 3 1 = 11017 := by
  rw [← days_eq_dayNumber (by decide)]
  rfl

end Calendar
