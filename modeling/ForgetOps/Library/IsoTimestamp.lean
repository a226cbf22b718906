import ForgetOps.Library.Calendar

/-
  Timestamps in UTC: `YYYY-MM-DDTHH:MM`, then optionally `:SS` and `.` with digits, then `Z`.

  `fields` reads the text, `isDatetime` is the pattern that also asks for a date of the calendar
  and a time of the day, `instant` is the exact instant in milliseconds since 1970 and `parse`
  the whole millisecond it lies in. `toISOString` prints a whole millisecond;
  `fields_toISOString` reads it back.
-/

namespace IsoTimestamp

open Calendar

structure Fields where
  year : Nat
  month : Nat
  day : Nat
  hour : Nat
  minute : Nat
  second : Nat
  /-- The digits after the decimal point. -/
  fraction : List Char
  deriving DecidableEq, Repr

/-- The seconds, the fraction and the final `Z`. -/
def secondsOf : List Char → Option (Nat × List Char)
  | ['Z'] => some (0, [])
  | [':', s₁, s₂, 'Z'] => (Decimal.value [s₁, s₂]).map (·, [])
  | ':' :: s₁ :: s₂ :: '.' :: rest => do
    let second ← Decimal.value [s₁, s₂]
    let fraction := rest.dropLast
    if rest.getLast? = some 'Z' ∧ fraction ≠ [] ∧ fraction.all Char.isDigit then
      some (second, fraction)
    else none
  | _ => none

def fields : List Char → Option Fields
  | y₁ :: y₂ :: y₃ :: y₄ :: '-' :: m₁ :: m₂ :: '-' :: d₁ :: d₂ :: 'T' :: h₁ :: h₂ :: ':' ::
      n₁ :: n₂ :: rest => do
    let year ← Decimal.value [y₁, y₂, y₃, y₄]
    let month ← Decimal.value [m₁, m₂]
    let day ← Decimal.value [d₁, d₂]
    let hour ← Decimal.value [h₁, h₂]
    let minute ← Decimal.value [n₁, n₂]
    let (second, fraction) ← secondsOf rest
    some { year, month, day, hour, minute, second, fraction }
  | _ => none

def isLeapYear (year : Nat) : Bool :=
  year % 4 = 0 ∧ (year % 100 ≠ 0 ∨ year % 400 = 0)

def daysInMonth (year month : Nat) : Nat :=
  if month = 2 then if isLeapYear year then 29 else 28
  else if month ∈ [4, 6, 9, 11] then 30
  else 31

/-- The fields name a day of the calendar and a time of the day. -/
def Fields.valid (f : Fields) : Bool :=
  1 ≤ f.month ∧ f.month ≤ 12 ∧ 1 ≤ f.day ∧ f.day ≤ daysInMonth f.year f.month ∧
    f.hour ≤ 23 ∧ f.minute ≤ 59 ∧ f.second ≤ 59

def isDatetime (s : String) : Bool :=
  match fields s.toList with
  | some f => f.valid
  | none => false

/-! ## Instants -/

/-- Whole seconds since 1970-01-01. -/
def Fields.seconds (f : Fields) : Int :=
  (((⟨f.year, f.month, f.day⟩ : CivilDate).days * 24 + f.hour) * 60 + f.minute) * 60 + f.second

/-- The digits after the point as a part of one second. -/
def fractionValue (fraction : List Char) : ℚ :=
  (Decimal.value fraction).getD 0 / 10 ^ fraction.length

/-- The exact instant in milliseconds since 1970-01-01. -/
def Fields.instant (f : Fields) : ℚ := 1000 * (f.seconds + fractionValue f.fraction)

/-- The exact instant a timestamp names, nothing if the text is no timestamp. -/
def instant (s : String) : Option ℚ := (fields s.toList).map Fields.instant

/-- The three first digits after the point: the fraction cut off to milliseconds. -/
def milliseconds (fraction : List Char) : Nat :=
  (Decimal.value ((fraction ++ ['0', '0', '0']).take 3)).getD 0

/-- `Date.parse`: the instant cut off to whole milliseconds, nothing for `NaN`. -/
def parse (s : String) : Option Int :=
  (fields s.toList).map fun f => 1000 * f.seconds + milliseconds f.fraction

/-- The three first digits of a fraction are at most the fraction. -/
theorem milliseconds_le {fraction : List Char} (h : ∀ c ∈ fraction, c.isDigit = true) :
    (milliseconds fraction : ℚ) ≤ 1000 * fractionValue fraction := by
  obtain ⟨n, hn⟩ := Decimal.value_of_digits h
  have hpos : (0 : ℚ) < 10 ^ fraction.length := by positivity
  unfold milliseconds fractionValue
  rw [hn, Option.getD_some, ← mul_div_assoc, le_div_iff₀ hpos]
  norm_cast
  by_cases hlong : 3 ≤ fraction.length
  · have hfirst : ∀ c ∈ fraction.take 3, c.isDigit = true := fun c hc => h c (List.mem_of_mem_take hc)
    have hlast : ∀ c ∈ fraction.drop 3, c.isDigit = true := fun c hc => h c (List.mem_of_mem_drop hc)
    obtain ⟨m, hm⟩ := Decimal.value_of_digits hfirst
    obtain ⟨k, hk⟩ := Decimal.value_of_digits hlast
    have hsplit := Decimal.value_append (fraction.take 3) (fraction.drop 3)
    rw [List.take_append_drop, hn, hm, hk, Option.bind_some, Option.map_some, Option.some.injEq]
      at hsplit
    have hlength : fraction.length = 3 + (fraction.drop 3).length := by
      rw [List.length_drop]
      omega
    rw [List.take_append_of_le_length hlong, hm, Option.getD_some, hsplit, hlength, pow_add]
    calc m * (10 ^ 3 * 10 ^ (fraction.drop 3).length)
        = 1000 * (m * 10 ^ (fraction.drop 3).length) := by ring
      _ ≤ 1000 * (m * 10 ^ (fraction.drop 3).length + k) := by omega
  · have hzeros : ∀ k ≤ 3, (['0', '0', '0'] : List Char).take k = List.replicate k '0' ∧
        Decimal.value (List.replicate k '0') = some 0 := by decide
    obtain ⟨hpad, hvalue⟩ := hzeros (3 - fraction.length) (Nat.sub_le _ _)
    rw [List.take_append, List.take_of_length_le (by omega), hpad, Decimal.value_append, hn,
      hvalue, Option.bind_some, Option.map_some, Option.getD_some, List.length_replicate, add_zero,
      mul_assoc, ← pow_add, Nat.sub_add_cancel (by omega)]
    exact le_of_eq (by ring)

/-! ## Printing -/

/-- Four digits, or a sign and six digits. -/
def yearDigits (year : Int) : List Char :=
  if 0 ≤ year ∧ year < 10000 then Decimal.digits 4 year.toNat
  else (if year < 0 then '-' else '+') :: Decimal.digits 6 year.natAbs

/-- `date.toISOString()` of the instant `t` milliseconds after 1970-01-01. -/
def isoDigits (t : Int) : List Char :=
  let date := CivilDate.ofDays (t / 86400000)
  let time := (t % 86400000).toNat
  yearDigits date.year ++ '-' :: Decimal.digits 2 date.month.toNat ++
    '-' :: Decimal.digits 2 date.day.toNat ++
    'T' :: Decimal.digits 2 (time / 3600000) ++
    ':' :: Decimal.digits 2 (time / 60000 % 60) ++
    ':' :: Decimal.digits 2 (time / 1000 % 60) ++
    '.' :: Decimal.digits 3 (time % 1000) ++ ['Z']

def toISOString (t : Int) : String := String.ofList (isoDigits t)

/-! ## Reading back what was printed -/

theorem digits_two (n : Nat) :
    Decimal.digits 2 n = [Nat.digitChar (n / 10 % 10), Nat.digitChar (n % 10)] := rfl

theorem digits_three (n : Nat) :
    Decimal.digits 3 n =
      [Nat.digitChar (n / 10 / 10 % 10), Nat.digitChar (n / 10 % 10), Nat.digitChar (n % 10)] := rfl

theorem digits_four (n : Nat) :
    Decimal.digits 4 n =
      [Nat.digitChar (n / 10 / 10 / 10 % 10), Nat.digitChar (n / 10 / 10 % 10),
        Nat.digitChar (n / 10 % 10), Nat.digitChar (n % 10)] := rfl

/-- What `isoDigits` prints is read back field by field. -/
theorem fields_isoDigits {t : Int} (h : 0 ≤ (CivilDate.ofDays (t / 86400000)).year)
    (h' : (CivilDate.ofDays (t / 86400000)).year < 10000) :
    fields (isoDigits t) = some
      { year := (CivilDate.ofDays (t / 86400000)).year.toNat
        month := (CivilDate.ofDays (t / 86400000)).month.toNat
        day := (CivilDate.ofDays (t / 86400000)).day.toNat
        hour := (t % 86400000).toNat / 3600000
        minute := (t % 86400000).toNat / 60000 % 60
        second := (t % 86400000).toNat / 1000 % 60
        fraction := Decimal.digits 3 ((t % 86400000).toNat % 1000) } := by
  have hmonth₁ := CivilDate.month_bounds (t / 86400000)
  have hday₁ := CivilDate.day_bounds (t / 86400000)
  have htime : (t % 86400000).toNat < 86400000 := by omega
  have hyears : (CivilDate.ofDays (t / 86400000)).year.toNat < 10 ^ 4 := by omega
  have hmonths : (CivilDate.ofDays (t / 86400000)).month.toNat < 10 ^ 2 := by omega
  have hdays : (CivilDate.ofDays (t / 86400000)).day.toNat < 10 ^ 2 := by omega
  have hhours : (t % 86400000).toNat / 3600000 < 10 ^ 2 := by omega
  have hminutes : (t % 86400000).toNat / 60000 % 60 < 10 ^ 2 := by omega
  have hseconds : (t % 86400000).toNat / 1000 % 60 < 10 ^ 2 := by omega
  unfold isoDigits yearDigits
  dsimp only
  rw [if_pos ⟨h, h'⟩]
  generalize (CivilDate.ofDays (t / 86400000)).year.toNat = year at *
  generalize (CivilDate.ofDays (t / 86400000)).month.toNat = month at *
  generalize (CivilDate.ofDays (t / 86400000)).day.toNat = day at *
  generalize (t % 86400000).toNat / 3600000 = hour at *
  generalize (t % 86400000).toNat / 60000 % 60 = minute at *
  generalize (t % 86400000).toNat / 1000 % 60 = second at *
  generalize (t % 86400000).toNat % 1000 = millisecond at *
  have hsecond : secondsOf (':' :: Decimal.digits 2 second ++
      '.' :: Decimal.digits 3 millisecond ++ ['Z']) =
        some (second, Decimal.digits 3 millisecond) := by
    rw [digits_two]
    simp only [List.cons_append, List.nil_append, secondsOf]
    rw [← digits_two, Decimal.value_digits hseconds]
    simp [digits_three, Nat.mod_lt]
  have hyear := Decimal.value_digits hyears
  have hmonth := Decimal.value_digits hmonths
  have hday := Decimal.value_digits hdays
  have hhour := Decimal.value_digits hhours
  have hminute := Decimal.value_digits hminutes
  rw [digits_four] at hyear ⊢
  rw [digits_two] at hmonth hday hhour hminute
  rw [digits_two month, digits_two day, digits_two hour, digits_two minute]
  simp only [List.cons_append, List.nil_append, List.append_assoc] at hsecond ⊢
  simp only [fields, hyear, hmonth, hday, hhour, hminute, hsecond]
  rfl

theorem value_of_fields {cs : List Char} {f : Fields} (h : fields cs = some f) :
    Decimal.value (cs.take 4) = some f.year := by
  unfold fields at h
  split at h
  · simp only [Option.bind_eq_bind, Option.bind_eq_some_iff] at h
    obtain ⟨year, hyear, _, -, _, -, _, -, _, -, _, -, hf⟩ := h
    cases hf
    exact hyear
  · cases h

theorem value_sign (c : Char) (hc : Decimal.digitValue c = none) (cs : List Char) :
    Decimal.value (c :: cs) = none := by
  rw [Decimal.value, List.foldlM_cons, hc]
  rfl

/-- A printed timestamp that reads as one has a year of four digits. -/
theorem year_of_fields {t : Int} {f : Fields} (h : fields (isoDigits t) = some f) :
    0 ≤ (CivilDate.ofDays (t / 86400000)).year ∧
      (CivilDate.ofDays (t / 86400000)).year < 10000 := by
  by_contra hyear
  have hvalue := value_of_fields h
  unfold isoDigits yearDigits at hvalue
  dsimp only at hvalue
  rw [if_neg hyear] at hvalue
  simp only [List.cons_append, List.take_succ_cons] at hvalue
  rw [value_sign] at hvalue
  · cases hvalue
  · split <;> rfl

/-- A printed timestamp that reads as one names the instant that was printed. -/
theorem seconds_toISOString {t : Int} {f : Fields} (h : fields (toISOString t).toList = some f) :
    f.seconds = t / 1000 ∧ f.fraction = Decimal.digits 3 (t % 1000).toNat := by
  rw [toISOString, String.toList_ofList] at h
  obtain ⟨hyear, hyear'⟩ := year_of_fields h
  rw [fields_isoDigits hyear hyear', Option.some.injEq] at h
  have hmonth := CivilDate.month_bounds (t / 86400000)
  have hday := CivilDate.day_bounds (t / 86400000)
  have hdays := CivilDate.days_ofDays (t / 86400000)
  subst h
  constructor
  · unfold Fields.seconds
    dsimp only
    rw [Int.toNat_of_nonneg hyear, Int.toNat_of_nonneg (by omega), Int.toNat_of_nonneg (by omega),
      hdays]
    omega
  · dsimp only
    congr 1
    omega

theorem parse_toISOString {t s : Int} (h : parse (toISOString t) = some s) : s = t := by
  unfold parse at h
  obtain ⟨f, hf, rfl⟩ := Option.map_eq_some_iff.mp h
  obtain ⟨hseconds, hfraction⟩ := seconds_toISOString hf
  have hms : (t % 1000).toNat < 10 ^ 3 := by omega
  have htake : (Decimal.digits 3 (t % 1000).toNat ++ ['0', '0', '0']).take 3 =
      Decimal.digits 3 (t % 1000).toNat := rfl
  rw [hseconds, hfraction, milliseconds, htake, Decimal.value_digits hms, Option.getD_some]
  omega

theorem instant_toISOString {t : Int} {q : ℚ} (h : instant (toISOString t) = some q) : q = t := by
  unfold instant at h
  obtain ⟨f, hf, rfl⟩ := Option.map_eq_some_iff.mp h
  obtain ⟨hseconds, hfraction⟩ := seconds_toISOString hf
  have hms : (t % 1000).toNat < 10 ^ 3 := by omega
  have hsplit : t = 1000 * (t / 1000) + ((t % 1000).toNat : Int) := by omega
  rw [Fields.instant, fractionValue, hseconds, hfraction, Decimal.value_digits hms,
    Decimal.length_digits, Option.getD_some]
  have hcast : (t : ℚ) = 1000 * ((t / 1000 : Int) : ℚ) + ((t % 1000).toNat : ℚ) := by
    exact_mod_cast hsplit
  rw [hcast]
  ring

end IsoTimestamp
