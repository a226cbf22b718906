import ForgetOps.Agent.LeaseContainment

/-
  The agent's reading of every canonical UTC text, not only of what the signers print.

  `parseRfc3339_canonical` reads such a text as the exact instant it names, in nanoseconds, a day
  later before March of the year 0. The readings keep the order of instants away from that month.
-/

namespace ForgetOps.Agent

open Calendar IsoTimestamp

/-- The canonical UTC form: a timestamp of the contracts with its seconds, and at most nine digits
    after the point. -/
def isCanonicalUtc (s : String) : Bool :=
  isDatetime s ∧ 20 ≤ s.toList.length ∧ s.toList.length ≤ 30

/-- What the agent reads for the instant `q`, in nanoseconds. -/
def reading (q : ℚ) : ℚ := 1000000 * (if q < marchOfYearZero then q + 86400000 else q)

/-! ## The function in two parts -/

/-- The numbers of a text. -/
structure Numbers where
  year : Int
  month : Int
  day : Int
  hour : Int
  minute : Int
  second : Int
  nanos : Int
  deriving DecidableEq, Repr

/-- `parse_rfc3339` up to where it begins to compute. -/
def numbersOf (value : List Char) : Option Numbers := do
  let value ← stripSuffix 'Z' value
  let (date, time) ← splitOnce 'T' value
  match date.splitOn '-', time.splitOn ':' with
  | year :: month :: day :: _, hour :: minute :: seconds :: _ =>
    let year ← parseI128 year
    let month ← parseI128 month
    let day ← parseI128 day
    let hour ← parseI128 hour
    let minute ← parseI128 minute
    let (secondText, fractionText) := (splitOnce '.' seconds).getD (seconds, [])
    let second ← parseI128 secondText
    let nanos ← nanosOf fractionText
    if ¬ (1 ≤ month ∧ month ≤ 12) ∨ ¬ (1 ≤ day ∧ day ≤ 31) ∨ hour > 23 ∨ minute > 59 ∨
        second > 59 then none
    else some { year, month, day, hour, minute, second, nanos }
  | _, _ => none

namespace Numbers

variable (n : Numbers)

def adjustedYear : Int := if n.month ≤ 2 then n.year - 1 else n.year

def adjustedMonth : Int := if n.month ≤ 2 then n.month + 12 else n.month

/-- The values of the sum that is `days`, from left to right. -/
def dayValues : List Int :=
  let years := 365 * n.adjustedYear
  let fours := years + n.adjustedYear.tdiv 4
  let hundreds := fours - n.adjustedYear.tdiv 100
  let eras := hundreds + n.adjustedYear.tdiv 400
  let months := eras + (153 * (n.adjustedMonth - 3) + 2) / 5
  [years, fours, hundreds, eras, n.adjustedMonth - 3, 153 * (n.adjustedMonth - 3),
    153 * (n.adjustedMonth - 3) + 2, months, months + n.day, months + n.day - 1]

def days : Int := daysOf n.year n.month n.day

/-- What is returned. -/
def nanoseconds : Int :=
  wrap ((((n.days * 24 + n.hour) * 60 + n.minute) * 60 + n.second) * 1000000000 + n.nanos)

/-- Everything that is computed in an `i128`. -/
def intermediates : List Int :=
  let hours := n.days * 24 + n.hour
  let minutes := hours * 60 + n.minute
  let seconds := minutes * 60 + n.second
  [n.adjustedYear, n.adjustedMonth] ++ n.dayValues ++
    [n.days, n.days * 24, hours, hours * 60, minutes, minutes * 60, seconds,
      seconds * 1000000000, seconds * 1000000000 + n.nanos]

end Numbers

theorem parseRfc3339_eq (value : List Char) :
    parseRfc3339 value = (numbersOf value).map Numbers.nanoseconds := by
  unfold parseRfc3339 numbersOf
  cases stripSuffix 'Z' value with
  | none => rfl
  | some value =>
    simp only [Option.bind_eq_bind, Option.bind_some]
    cases splitOnce 'T' value with
    | none => rfl
    | some parts =>
      obtain ⟨date, time⟩ := parts
      simp only [Option.bind_some]
      generalize date.splitOn '-' = date
      generalize time.splitOn ':' = time
      rcases date with _ | ⟨year, _ | ⟨month, _ | ⟨day, dateRest⟩⟩⟩
      · rfl
      · rfl
      · rfl
      · rcases time with _ | ⟨hour, _ | ⟨minute, _ | ⟨seconds, timeRest⟩⟩⟩
        · rfl
        · rfl
        · rfl
        · simp only [Option.map_bind, Function.comp_def, apply_ite, Option.map_none, Option.map_some]
          rfl

/-- The numbers of the fields of a timestamp. -/
def Numbers.ofFields (f : Fields) (nanos : ℕ) : Numbers where
  year := f.year
  month := f.month
  day := f.day
  hour := f.hour
  minute := f.minute
  second := f.second
  nanos := nanos

section Digits

theorem parseI128_value {cs : List Char} {n : Nat} (h : Decimal.value cs = some n) (hne : cs ≠ [])
    (hlength : cs.length ≤ 9) : parseI128 cs = some (n : Int) := by
  obtain ⟨hdigit, hlt⟩ := Decimal.value_eq_some h
  have hbound : n < 10 ^ 9 := lt_of_lt_of_le hlt (Nat.pow_le_pow_right (by decide) hlength)
  have hparse : parseDigits cs = some (n : Int) := by
    unfold parseDigits
    rw [if_neg hne, h, Option.map_some]
  have hrange : -2 ^ 127 ≤ (n : Int) ∧ (n : Int) < 2 ^ 127 := by
    constructor <;> omega
  unfold parseI128
  split
  · exact absurd (hdigit '+' List.mem_cons_self) (by decide)
  · exact absurd (hdigit '-' List.mem_cons_self) (by decide)
  · rw [hparse, Option.bind_eq_bind, Option.bind_some]
    exact if_pos hrange

theorem notMem_of_value {cs : List Char} {n : Nat} (h : Decimal.value cs = some n) {c : Char}
    (hc : c.isDigit = false) : c ∉ cs := by
  intro hmem
  rw [(Decimal.value_eq_some h).1 c hmem] at hc
  cases hc

theorem nanosOf_fraction {fraction : List Char} (hlength : fraction.length ≤ 9)
    (hdigits : ∀ c ∈ fraction, c.isDigit = true) :
    ∃ n : Nat, nanosOf fraction = some (n : Int) ∧ n < 1000000000 ∧
      (n : ℚ) = 1000000000 * fractionValue fraction := by
  obtain ⟨m, hm⟩ := Decimal.value_of_digits hdigits
  have hlt : m < 10 ^ fraction.length := (Decimal.value_eq_some hm).2
  have hpow : 10 ^ fraction.length * 10 ^ (9 - fraction.length) = 1000000000 := by
    rw [← pow_add, Nat.add_sub_cancel' hlength]
    norm_num
  have hall : fraction.all Char.isDigit = true := List.all_eq_true.mpr hdigits
  refine ⟨m * 10 ^ (9 - fraction.length), ?_, ?_, ?_⟩
  · unfold nanosOf
    rw [if_neg (by simp [hall, hlength])]
    by_cases hempty : fraction = []
    · subst hempty
      obtain rfl : 0 = m := Option.some.inj hm
      rfl
    · rw [if_neg hempty, parseI128_value hm hempty hlength]
      push_cast
      rfl
  · rw [← hpow]
    exact Nat.mul_lt_mul_of_pos_right hlt (by positivity)
  · have hcast : (10 : ℚ) ^ fraction.length * 10 ^ (9 - fraction.length) = 1000000000 := by
      exact_mod_cast hpow
    have hne : (10 : ℚ) ^ fraction.length ≠ 0 := by positivity
    rw [fractionValue, hm, Option.getD_some]
    push_cast
    rw [← hcast]
    field_simp

end Digits

section Reading

theorem secondsOf_cases {rest : List Char} {second : Nat} {fraction : List Char}
    (h : secondsOf rest = some (second, fraction)) :
    rest = ['Z'] ∨
      ∃ s₁ s₂ point, rest = ':' :: s₁ :: s₂ :: (point ++ ['Z']) ∧
        Decimal.value [s₁, s₂] = some second ∧ (∀ c ∈ fraction, c.isDigit = true) ∧
        (point = [] ∧ fraction = [] ∨ point = '.' :: fraction) := by
  unfold secondsOf at h
  split at h
  · exact .inl rfl
  · next s₁ s₂ =>
    obtain ⟨n, hn, heq⟩ := Option.map_eq_some_iff.mp h
    obtain ⟨rfl, rfl⟩ := Prod.mk.inj heq
    exact .inr ⟨s₁, s₂, [], rfl, hn, nofun, .inl ⟨rfl, rfl⟩⟩
  · next s₁ s₂ digits =>
    simp only [Option.bind_eq_bind, Option.bind_eq_some_iff] at h
    obtain ⟨n, hn, h⟩ := h
    split_ifs at h with hlast
    obtain ⟨rfl, rfl⟩ := Prod.mk.inj (Option.some.inj h)
    have hdigits : digits.dropLast ++ ['Z'] = digits :=
      List.dropLast_append_getLast? 'Z' hlast.1
    refine .inr ⟨s₁, s₂, '.' :: digits.dropLast, ?_, hn, List.all_eq_true.mp hlast.2.2, .inr rfl⟩
    rw [List.cons_append, hdigits]
  · cases h

/-- The days of the agent's calendar, in which the year 0 has no 29 February. -/
theorem daysOf_eq {year month day : Nat} :
    daysOf year month day =
      (⟨year, month, day⟩ : CivilDate).days + if year = 0 ∧ month ≤ 2 then 1 else 0 := by
  unfold daysOf CivilDate.days
  dsimp only
  have hnonneg : ∀ y k : Int, 0 ≤ y → y.tdiv k = y / k := fun y k hy => Int.tdiv_eq_ediv_of_nonneg hy
  by_cases hearly : year = 0 ∧ month ≤ 2
  · have hmonth : (month : Int) ≤ 2 := by omega
    have hyear : (year : Int) = 0 := by omega
    rw [if_pos hmonth, if_pos hmonth, if_pos hearly, hyear]
    have hdivs : (0 - 1 : Int).tdiv 4 = 0 ∧ (0 - 1 : Int).tdiv 100 = 0 ∧
        (0 - 1 : Int).tdiv 400 = 0 := by
      decide
    rw [hdivs.1, hdivs.2.1, hdivs.2.2]
    omega
  · rw [if_neg hearly, add_zero]
    by_cases hmonth : (month : Int) ≤ 2
    · have hpos : (0 : Int) ≤ year - 1 := by omega
      rw [if_pos hmonth, if_pos hmonth, hnonneg _ _ hpos, hnonneg _ _ hpos, hnonneg _ _ hpos]
    · have hpos : (0 : Int) ≤ year := by omega
      rw [if_neg hmonth, if_neg hmonth, hnonneg _ _ hpos, hnonneg _ _ hpos, hnonneg _ _ hpos]

theorem Fields.fraction_digits {cs : List Char} {f : Fields} (h : fields cs = some f) :
    ∀ c ∈ f.fraction, c.isDigit = true := by
  unfold fields at h
  split at h
  · simp only [Option.bind_eq_bind, Option.bind_eq_some_iff] at h
    obtain ⟨_, _, _, _, _, _, _, _, _, _, ⟨second, fraction⟩, hsecond, hf⟩ := h
    cases hf
    rcases secondsOf_cases hsecond with rfl | ⟨_, _, _, _, _, hdigits, _⟩
    · obtain ⟨-, rfl⟩ := Prod.mk.inj (Option.some.inj hsecond)
      intro c hc
      exact absurd hc List.not_mem_nil
    · exact hdigits
  · cases h

/-- `Date.parse` of a timestamp is at most its instant, and not before the year 0. -/
theorem parse_of_isDatetime {s : String} (h : isDatetime s = true) :
    ∃ q n, instant s = some q ∧ parse s = some n ∧ -62167219200000 ≤ n ∧ (n : ℚ) ≤ q := by
  obtain ⟨f, hf, hvalid⟩ := fields_of_isDatetime h
  have hmilliseconds := milliseconds_le (Fields.fraction_digits hf)
  refine ⟨f.instant, _, by rw [instant, hf, Option.map_some], by rw [parse, hf, Option.map_some],
    ?_, ?_⟩
  · have hseconds : -62167219200 ≤ f.seconds := by
      unfold Fields.valid at hvalid
      rw [decide_eq_true_eq] at hvalid
      have hmonth := hvalid.1
      have hday := hvalid.2.2.1
      unfold Fields.seconds CivilDate.days
      dsimp only
      split_ifs <;> omega
    omega
  · unfold Fields.instant
    push_cast
    linarith

theorem Fields.early_iff {f : Fields} (h : f.valid = true) :
    (f.year = 0 ∧ f.month ≤ 2) ↔ f.seconds < -62162035200 := by
  unfold Fields.valid daysInMonth isLeapYear at h
  rw [decide_eq_true_eq] at h
  obtain ⟨hmonth, hmonth', hday, hday', hhour, hminute, hsecond⟩ := h
  have hlast : f.month = 2 → f.year = 0 → f.day ≤ 29 := by
    intro htwo hzero
    rw [if_pos htwo, hzero] at hday'
    exact hday'
  have hthirty : f.day ≤ 31 := by
    split_ifs at hday' <;> omega
  unfold Fields.seconds CivilDate.days
  dsimp only
  constructor
  · rintro ⟨hyear, hearly⟩
    rw [if_pos (by omega), if_pos (by omega), hyear]
    omega
  · intro hlt
    by_contra hno
    split_ifs at hlt <;> omega

theorem Fields.seconds_bounds {f : Fields} (h : f.valid = true) (hyear : f.year < 10000) :
    -100000000000 < f.seconds ∧ f.seconds < 400000000000 := by
  unfold Fields.valid daysInMonth isLeapYear at h
  rw [decide_eq_true_eq] at h
  obtain ⟨hmonth, hmonth', hday, hday', hhour, hminute, hsecond⟩ := h
  have hthirty : f.day ≤ 31 := by
    split_ifs at hday' <;> omega
  unfold Fields.seconds CivilDate.days
  dsimp only
  split_ifs <;> constructor <;> omega

/-- The instants before March of the year 0 begin before the millisecond it begins in. -/
theorem Fields.instant_lt_march {f : Fields} (hfraction : 0 ≤ fractionValue f.fraction)
    (hless : fractionValue f.fraction < 1) :
    f.instant < marchOfYearZero ↔ f.seconds < -62162035200 := by
  unfold Fields.instant marchOfYearZero
  constructor
  · intro hlt
    have hseconds : (f.seconds : ℚ) < -62162035200 := by
      push_cast at hlt
      linarith
    exact_mod_cast hseconds
  · intro hlt
    have hseconds : (f.seconds : ℚ) ≤ -62162035200 - 1 := by
      exact_mod_cast Int.le_sub_one_of_lt hlt
    push_cast
    linarith

/-- The numbers of a text with its seconds. -/
theorem numbersOf_of_fields {year month day hour minute second point : List Char}
    {fraction : List Char} {f : Fields} (hyear : Decimal.value year = some f.year)
    (hmonth : Decimal.value month = some f.month) (hday : Decimal.value day = some f.day)
    (hhour : Decimal.value hour = some f.hour) (hminute : Decimal.value minute = some f.minute)
    (hsecond : Decimal.value second = some f.second)
    (hwidths : year.length = 4 ∧ month.length = 2 ∧ day.length = 2 ∧ hour.length = 2 ∧
      minute.length = 2 ∧ second.length = 2)
    (hpoint : point = [] ∧ fraction = [] ∨ point = '.' :: fraction)
    (hdigits : ∀ c ∈ fraction, c.isDigit = true) (hfraction : fraction = f.fraction)
    (hlength : fraction.length ≤ 9) (hvalid : f.valid = true) :
    ∃ nanos : Nat, nanos < 1000000000 ∧ (nanos : ℚ) = 1000000000 * fractionValue f.fraction ∧
      numbersOf (year ++ '-' :: (month ++ '-' :: day) ++
        'T' :: (hour ++ ':' :: (minute ++ ':' :: (second ++ point))) ++ ['Z']) =
        some (Numbers.ofFields f nanos) := by
  obtain ⟨nanos, hnanos, hsmall, hvalue⟩ := nanosOf_fraction hlength hdigits
  refine ⟨nanos, hsmall, by rw [hvalue, hfraction], ?_⟩
  have hdash : ∀ {cs : List Char} {n}, Decimal.value cs = some n → '-' ∉ cs :=
    fun h => notMem_of_value h rfl
  have hcolon : ∀ {cs : List Char} {n}, Decimal.value cs = some n → ':' ∉ cs :=
    fun h => notMem_of_value h rfl
  have htee : ∀ {cs : List Char} {n}, Decimal.value cs = some n → 'T' ∉ cs :=
    fun h => notMem_of_value h rfl
  have hread : ∀ {cs : List Char} {n : Nat} {width : Nat}, Decimal.value cs = some n →
      cs.length = width + 1 → width ≤ 8 → parseI128 cs = some (n : Int) := by
    intro cs n width h hwidth hle
    exact parseI128_value h (List.ne_nil_of_length_eq_add_one hwidth) (by omega)
  have hcolonPoint : ':' ∉ second ++ point := by
    intro hmem
    rcases List.mem_append.mp hmem with hmem | hmem
    · exact hcolon hsecond hmem
    · rcases hpoint with ⟨rfl, -⟩ | rfl
      · cases hmem
      · rcases List.mem_cons.mp hmem with hmem | hmem
        · cases hmem
        · exact absurd (hdigits ':' hmem) (by decide)
  have hseconds : (splitOnce '.' (second ++ point)).getD (second ++ point, []) =
      (second, fraction) := by
    rcases hpoint with ⟨rfl, rfl⟩ | rfl
    · rw [List.append_nil, splitOnce, if_neg (notMem_of_value hsecond rfl), Option.getD_none]
    · rw [splitOnce_append (notMem_of_value hsecond rfl), Option.getD_some]
  have hdate := splitOn_three (hdash hyear) (hdash hmonth) (hdash hday)
  have hclock := splitOn_three (hcolon hhour) (hcolon hminute) hcolonPoint
  have htime : 'T' ∉ year ++ '-' :: (month ++ '-' :: day) := by
    simp [htee hyear, htee hmonth, htee hday]
  have hranges := hvalid
  unfold Fields.valid at hranges
  rw [decide_eq_true_eq] at hranges
  have hthirty : f.day ≤ 31 := by
    have hday' := hranges.2.2.2.1
    unfold daysInMonth at hday'
    split_ifs at hday' <;> omega
  unfold numbersOf
  rw [stripSuffix_concat]
  simp only [Option.bind_eq_bind, Option.bind_some]
  rw [splitOnce_append htime]
  simp only [Option.bind_some, hdate, hclock, hseconds, hread hyear hwidths.1 (by decide),
    hread hmonth hwidths.2.1 (by decide), hread hday hwidths.2.2.1 (by decide),
    hread hhour hwidths.2.2.2.1 (by decide), hread hminute hwidths.2.2.2.2.1 (by decide),
    hread hsecond hwidths.2.2.2.2.2 (by decide), hnanos]
  rw [if_neg (by simp only [not_or, not_not, not_lt]; omega)]
  rfl

/-- The nanoseconds that are computed from the numbers of a date before the year 10000. -/
theorem nanoseconds_of_fields {f : Fields} (hvalid : f.valid = true) (hyear : f.year < 10000)
    {nanos : ℕ} (hnanos : nanos < 1000000000) :
    (Numbers.ofFields f nanos).nanoseconds =
      (f.seconds + if f.year = 0 ∧ f.month ≤ 2 then 86400 else 0) * 1000000000 + nanos := by
  have hbounds := Fields.seconds_bounds hvalid hyear
  have hsum : (((((⟨f.year, f.month, f.day⟩ : CivilDate).days +
      if f.year = 0 ∧ f.month ≤ 2 then 1 else 0) * 24 + f.hour) * 60 + f.minute) * 60 + f.second) =
      f.seconds + if f.year = 0 ∧ f.month ≤ 2 then 86400 else 0 := by
    unfold Fields.seconds
    split_ifs <;> ring
  unfold Numbers.nanoseconds Numbers.days Numbers.ofFields
  dsimp only
  rw [daysOf_eq, hsum, wrap_of_small (by split_ifs <;> constructor <;> omega)]

/-- The numbers of a canonical text are those of its fields. -/
theorem numbersOf_canonical {s : String} (h : isCanonicalUtc s = true) :
    ∃ (f : Fields) (nanos : ℕ), fields s.toList = some f ∧ f.valid = true ∧ f.year < 10000 ∧
      nanos < 1000000000 ∧ (nanos : ℚ) = 1000000000 * fractionValue f.fraction ∧
      numbersOf s.toList = some (Numbers.ofFields f nanos) := by
  unfold isCanonicalUtc at h
  rw [decide_eq_true_eq] at h
  obtain ⟨hdatetime, hshort, hlong⟩ := h
  obtain ⟨f, hf, hvalid⟩ := fields_of_isDatetime hdatetime
  have hsame := hf
  generalize s.toList = text at hf hsame hshort hlong ⊢
  unfold fields at hf
  split at hf
  · next y₁ y₂ y₃ y₄ m₁ m₂ d₁ d₂ h₁ h₂ n₁ n₂ rest =>
    simp only [Option.bind_eq_bind, Option.bind_eq_some_iff] at hf
    obtain ⟨year, hyear, month, hmonth, day, hday, hour, hhour, minute, hminute,
      ⟨second, fraction⟩, hsecond, hf⟩ := hf
    cases hf
    rcases secondsOf_cases hsecond with rfl | ⟨s₁, s₂, point, rfl, hseconds, hdigits, hpoint⟩
    · simp at hshort
    · have hlength : fraction.length ≤ 9 := by
        rcases hpoint with ⟨rfl, rfl⟩ | rfl
        · decide
        · simp at hlong
          omega
      obtain ⟨nanos, hsmall, hnanos, hnumbers⟩ := numbersOf_of_fields hyear hmonth hday hhour hminute
        hseconds ⟨rfl, rfl, rfl, rfl, rfl, rfl⟩ hpoint hdigits rfl hlength hvalid
      exact ⟨_, nanos, hsame, hvalid, lt_of_lt_of_eq (Decimal.value_eq_some hyear).2 (by norm_num), hsmall, hnanos, hnumbers⟩
  · cases hf

/-- The agent reads every canonical text, as the instant it names. -/
theorem parseRfc3339_canonical {s : String} (h : isCanonicalUtc s = true) :
    ∃ q c, instant s = some q ∧ parseRfc3339 s.toList = some c ∧ (c : ℚ) = reading q := by
  obtain ⟨f, nanos, hf, hvalid, hyear, hsmall, hnanos, hnumbers⟩ := numbersOf_canonical h
  refine ⟨f.instant, _, by rw [instant, hf, Option.map_some],
    by rw [parseRfc3339_eq, hnumbers, Option.map_some], ?_⟩
  have hnonneg : (0 : ℚ) ≤ nanos := by positivity
  have hless : (nanos : ℚ) < 1000000000 := by exact_mod_cast hsmall
  have hearly := (Fields.early_iff hvalid).trans
    (Fields.instant_lt_march (by linarith) (by linarith)).symm
  rw [nanoseconds_of_fields hvalid hyear hsmall]
  unfold reading
  rw [if_congr hearly rfl rfl]
  unfold Fields.instant
  push_cast [hnanos]
  split_ifs <;> ring

end Reading

end ForgetOps.Agent
