import ForgetOps.Agent.CanonicalClock
import ForgetOps.Library.Gregorian

/-
  `parse_rfc3339` (`agent/crates/agent-core/src/authorization.rs`) as a clock of the calendar.

  `UtcTime` is a date-time of the years 1 to 9999, and its instant counts the days of the calendar
  out. `parseRfc3339_exact`: the agent reads the text of such a time as its exact number of
  nanoseconds, later times as greater numbers, and what `toISOString` prints as `Date.parse` does.
-/

namespace ForgetOps.Agent

open Calendar IsoTimestamp

/-- A UTC date-time of the calendar, with a fraction of a second if one is written. -/
structure UtcTime where
  year : ℕ
  month : ℕ
  day : ℕ
  hour : ℕ
  minute : ℕ
  second : ℕ
  fraction : Option (List Char)
  years : 1 ≤ year ∧ year ≤ 9999
  months : 1 ≤ month ∧ month ≤ 12
  days : 1 ≤ day ∧ day ≤ daysInMonth year month
  clock : hour ≤ 23 ∧ minute ≤ 59 ∧ second ≤ 59
  digits : ∀ cs ∈ fraction, cs.length ≤ 9 ∧ ∀ c ∈ cs, c.isDigit = true

namespace UtcTime

/-- `YYYY-MM-DDTHH:MM:SS[.fraction]Z`. -/
def text (u : UtcTime) : List Char :=
  Decimal.digits 4 u.year ++ '-' :: (Decimal.digits 2 u.month ++ '-' :: Decimal.digits 2 u.day) ++
    'T' :: (Decimal.digits 2 u.hour ++ ':' :: (Decimal.digits 2 u.minute ++
      ':' :: (Decimal.digits 2 u.second ++ (u.fraction.map ('.' :: ·)).getD []))) ++ ['Z']

/-- Seconds since 1970-01-01T00:00:00Z. -/
def instant (u : UtcTime) : ℚ :=
  (((dayNumber u.year u.month u.day * 24 + u.hour) * 60 + u.minute) * 60 + u.second : ℤ) +
    fractionValue (u.fraction.getD [])

def fields (u : UtcTime) : Fields where
  year := u.year
  month := u.month
  day := u.day
  hour := u.hour
  minute := u.minute
  second := u.second
  fraction := u.fraction.getD []

theorem fields_valid (u : UtcTime) : u.fields.valid = true := by
  unfold fields Fields.valid
  rw [decide_eq_true_eq]
  exact ⟨u.months.1, u.months.2, u.days.1, u.days.2, u.clock.1, u.clock.2.1, u.clock.2.2⟩

theorem instant_eq (u : UtcTime) : u.instant = u.fields.seconds + fractionValue u.fields.fraction := by
  unfold instant Fields.seconds fields
  dsimp only
  rw [days_eq_dayNumber u.months]

/-- The agent reads the exact number of nanoseconds. -/
theorem parseRfc3339_text (u : UtcTime) :
    ∃ n, parseRfc3339 u.text = some n ∧ (n : ℚ) = 1000000000 * u.instant := by
  have hyear : u.year < 10 ^ 4 := Nat.lt_succ_of_le u.years.2
  have hmonth : u.month < 10 ^ 2 := lt_of_le_of_lt u.months.2 (by decide)
  have hhour : u.hour < 10 ^ 2 := lt_of_le_of_lt u.clock.1 (by decide)
  have hminute : u.minute < 10 ^ 2 := lt_of_le_of_lt u.clock.2.1 (by decide)
  have hsecond : u.second < 10 ^ 2 := lt_of_le_of_lt u.clock.2.2 (by decide)
  have hday : u.day < 10 ^ 2 := by
    have hlast := u.days.2
    unfold daysInMonth at hlast
    split_ifs at hlast <;> omega
  have hdigits : ∀ c ∈ u.fraction.getD [], c.isDigit = true := by
    cases hfraction : u.fraction with
    | none => exact nofun
    | some cs => exact (u.digits cs hfraction).2
  have hlength : (u.fraction.getD []).length ≤ 9 := by
    cases hfraction : u.fraction with
    | none => decide
    | some cs => exact (u.digits cs hfraction).1
  have hpoint : (u.fraction.map ('.' :: ·)).getD [] = [] ∧ u.fraction.getD [] = [] ∨
      (u.fraction.map ('.' :: ·)).getD [] = '.' :: u.fraction.getD [] := by
    cases u.fraction with
    | none => exact .inl ⟨rfl, rfl⟩
    | some cs => exact .inr rfl
  obtain ⟨nanos, hsmall, hnanos, hnumbers⟩ := numbersOf_of_fields (f := u.fields)
    (Decimal.value_digits hyear) (Decimal.value_digits hmonth) (Decimal.value_digits hday)
    (Decimal.value_digits hhour) (Decimal.value_digits hminute) (Decimal.value_digits hsecond)
    ⟨rfl, rfl, rfl, rfl, rfl, rfl⟩ hpoint hdigits rfl hlength u.fields_valid
  have hearly : ¬ (u.fields.year = 0 ∧ u.fields.month ≤ 2) :=
    fun h => absurd h.1 (Nat.ne_of_gt u.years.1)
  have htext : numbersOf u.text = some (Numbers.ofFields u.fields nanos) := hnumbers
  refine ⟨_, by rw [parseRfc3339_eq, htext, Option.map_some], ?_⟩
  rw [nanoseconds_of_fields u.fields_valid hyear hsmall, if_neg hearly, add_zero, u.instant_eq]
  push_cast [hnanos]
  ring

end UtcTime

/-! ## What JavaScript prints -/

/-- The milliseconds of the years 1 to 9999. -/
theorem year_bounds {t : ℤ} (hlow : -62135596800000 ≤ t) (hhigh : t < 253402300800000) :
    0 ≤ (CivilDate.ofDays (t / 86400000)).year ∧
      (CivilDate.ofDays (t / 86400000)).year < 10000 := by
  have hdays := CivilDate.days_ofDays (t / 86400000)
  have hmonth := CivilDate.month_bounds (t / 86400000)
  have hday := CivilDate.day_bounds (t / 86400000)
  unfold CivilDate.days at hdays
  dsimp only at hdays
  have hfirst : -719162 ≤ t / 86400000 := by omega
  have hlast : t / 86400000 < 2932897 := by omega
  split_ifs at hdays <;> omega

theorem parseRfc3339_printed {t : ℤ} (hlow : -62135596800000 ≤ t) (hhigh : t < 253402300800000) :
    IsoTimestamp.parse (toISOString t) = some t ∧
      parseRfc3339 (toISOString t).toList = some (1000000 * t) := by
  obtain ⟨hyear, hyear'⟩ := year_bounds hlow hhigh
  obtain ⟨f, hfields⟩ : ∃ f, fields (toISOString t).toList = some f := by
    rw [toISOString, String.toList_ofList]
    exact ⟨_, fields_isoDigits hyear hyear'⟩
  have hmarch : ¬ t < marchOfYearZero := by
    unfold marchOfYearZero
    omega
  constructor
  · obtain ⟨date, hdate⟩ : ∃ date, IsoTimestamp.parse (toISOString t) = some date := by
      rw [IsoTimestamp.parse, hfields]
      exact ⟨_, rfl⟩
    rw [hdate, parse_toISOString hdate]
  · rw [parseRfc3339_toISOString hfields, readBack, if_neg hmarch]

/-! ## The clock -/

/-- On the years 1 to 9999 the agent's clock is exact. -/
theorem parseRfc3339_exact :
    (∀ u : UtcTime, ∃ n, parseRfc3339 u.text = some n ∧ (n : ℚ) = 1000000000 * u.instant) ∧
      (∀ u v : UtcTime, ∀ m n, parseRfc3339 u.text = some m → parseRfc3339 v.text = some n →
        (m < n ↔ u.instant < v.instant)) ∧
      ∀ t : ℤ, -62135596800000 ≤ t → t < 253402300800000 →
        ∃ date, IsoTimestamp.parse (toISOString t) = some date ∧
          parseRfc3339 (toISOString t).toList = some (date * 10 ^ 6) := by
  refine ⟨UtcTime.parseRfc3339_text, ?_, ?_⟩
  · intro u v m n hm hn
    obtain ⟨m', hm', hearlier⟩ := u.parseRfc3339_text
    obtain ⟨n', hn', hlater⟩ := v.parseRfc3339_text
    obtain rfl := Option.some.inj (hm.symm.trans hm')
    obtain rfl := Option.some.inj (hn.symm.trans hn')
    rw [← Int.cast_lt (R := ℚ), hearlier, hlater, mul_lt_mul_iff_right₀ (by norm_num)]
  · intro t hlow hhigh
    obtain ⟨hdate, hread⟩ := parseRfc3339_printed hlow hhigh
    exact ⟨t, hdate, by rw [hread, mul_comm]; rfl⟩

end ForgetOps.Agent
