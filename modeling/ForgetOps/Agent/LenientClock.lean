import ForgetOps.Agent.CanonicalClock

/-
  The texts `parse_rfc3339` (`agent/crates/agent-core/src/authorization.rs`) reads.

  The comment above the function promises canonical UTC forms. `parseRfc3339_isSome` says what it
  reads: `Lenient` texts, with numbers of any width and sign, days that no month has and more parts
  than a date or a time has. `readAsPromised_iff`: the texts on which it keeps the promise.
-/

namespace ForgetOps.Agent

open Calendar IsoTimestamp

/-! ## Numerals -/

/-- An integer as `str::parse` reads it: digits, with a sign or without. -/
inductive Numeral : List Char → Int → Prop where
  | unsigned {digits n} : digits ≠ [] → Decimal.value digits = some n → Numeral digits n
  | plus {digits n} : digits ≠ [] → Decimal.value digits = some n → Numeral ('+' :: digits) n
  | minus {digits n} : digits ≠ [] → Decimal.value digits = some n → Numeral ('-' :: digits) (-n)

variable {text cs : List Char} {k : Int}

theorem parseDigits_eq_some :
    parseDigits cs = some k ↔ cs ≠ [] ∧ ∃ n : ℕ, Decimal.value cs = some n ∧ (n : Int) = k := by
  unfold parseDigits
  split_ifs with hempty
  · simp [hempty]
  · rw [Option.map_eq_some_iff]
    simp [hempty]

theorem Numeral.mem (h : Numeral cs k) {c : Char} (hc : c ∈ cs) :
    c.isDigit = true ∨ c = '+' ∨ c = '-' := by
  cases h with
  | unsigned _ hvalue => exact .inl ((Decimal.value_eq_some hvalue).1 c hc)
  | plus _ hvalue =>
    rcases List.mem_cons.mp hc with rfl | hc
    · exact .inr (.inl rfl)
    · exact .inl ((Decimal.value_eq_some hvalue).1 c hc)
  | minus _ hvalue =>
    rcases List.mem_cons.mp hc with rfl | hc
    · exact .inr (.inr rfl)
    · exact .inl ((Decimal.value_eq_some hvalue).1 c hc)

theorem Numeral.notMem (h : Numeral cs k) {c : Char} (hc : c.isDigit = false)
    (hplus : c ≠ '+') (hminus : c ≠ '-') : c ∉ cs := by
  intro hmem
  rcases h.mem hmem with hdigit | rfl | rfl
  · rw [hc] at hdigit
    cases hdigit
  · exact hplus rfl
  · exact hminus rfl

theorem parseI128_eq_some :
    parseI128 cs = some k ↔ Numeral cs k ∧ -2 ^ 127 ≤ k ∧ k < 2 ^ 127 := by
  have hdigit : ∀ {ds : List Char} {n : ℕ} {c : Char}, Decimal.value (c :: ds) = some n →
      c.isDigit = true :=
    fun h => (Decimal.value_eq_some h).1 _ List.mem_cons_self
  have hrange : ∀ {read : Option Int}, (read.bind fun n =>
      if -2 ^ 127 ≤ n ∧ n < 2 ^ 127 then some n else none) = some k ↔
        read = some k ∧ -2 ^ 127 ≤ k ∧ k < 2 ^ 127 := by
    intro read
    cases read with
    | none => simp
    | some n =>
      simp only [Option.bind_some, Option.some.injEq, ite_eq_iff, reduceCtorEq, and_false, or_false]
      constructor
      · rintro ⟨hbounds, rfl⟩
        exact ⟨rfl, hbounds⟩
      · rintro ⟨rfl, hbounds⟩
        exact ⟨hbounds, rfl⟩
  unfold parseI128
  split
  · next digits =>
    refine hrange.trans (and_congr_left fun _ => ?_)
    rw [parseDigits_eq_some]
    constructor
    · rintro ⟨hne, n, hvalue, rfl⟩
      exact .plus hne hvalue
    · intro h
      cases h with
      | unsigned _ hvalue => exact absurd (hdigit hvalue) (by decide)
      | plus hne hvalue => exact ⟨hne, _, hvalue, rfl⟩
  · next digits =>
    refine hrange.trans (and_congr_left fun _ => ?_)
    rw [Option.map_eq_some_iff]
    constructor
    · rintro ⟨_, hparse, rfl⟩
      obtain ⟨hne, n, hvalue, rfl⟩ := parseDigits_eq_some.mp hparse
      exact .minus hne hvalue
    · intro h
      cases h with
      | unsigned _ hvalue => exact absurd (hdigit hvalue) (by decide)
      | minus hne hvalue => exact ⟨_, parseDigits_eq_some.mpr ⟨hne, _, hvalue, rfl⟩, rfl⟩
  · next hplus hminus =>
    refine hrange.trans (and_congr_left fun _ => ?_)
    rw [parseDigits_eq_some]
    constructor
    · rintro ⟨hne, n, hvalue, rfl⟩
      exact .unsigned hne hvalue
    · intro h
      cases h with
      | unsigned hne hvalue => exact ⟨hne, _, hvalue, rfl⟩
      | plus => exact absurd rfl (hplus _)
      | minus => exact absurd rfl (hminus _)

/-! ## Splitting -/

theorem stripSuffix_eq_some {c : Char} {before : List Char} :
    stripSuffix c text = some before ↔ text = before ++ [c] := by
  constructor
  · intro h
    unfold stripSuffix at h
    split_ifs at h with hlast
    obtain rfl := Option.some.inj h
    exact (List.dropLast_append_getLast? c hlast).symm
  · rintro rfl
    exact stripSuffix_concat c before

theorem splitOnce_eq_some {c : Char} {before after : List Char} :
    splitOnce c text = some (before, after) ↔ c ∉ before ∧ text = before ++ c :: after := by
  constructor
  · intro h
    have hmem : c ∈ text := by
      by_contra hnot
      rw [splitOnce, if_neg hnot] at h
      cases h
    obtain ⟨front, back, rfl, hfront⟩ := List.eq_append_cons_of_mem hmem
    rw [splitOnce_append hfront] at h
    obtain ⟨rfl, rfl⟩ := Prod.mk.inj (Option.some.inj h)
    exact ⟨hfront, rfl⟩
  · rintro ⟨hbefore, rfl⟩
    exact splitOnce_append hbefore

/-- What follows the last part that is looked at. -/
def Surplus (c : Char) (rest : List Char) : Prop := rest = [] ∨ ∃ more, rest = c :: more

theorem splitOn_eq_cons {c : Char} {part : List Char} {parts : List (List Char)} :
    text.splitOn c = part :: parts ↔ c ∉ part ∧
      (parts = [] ∧ text = part ∨ ∃ rest, text = part ++ c :: rest ∧ rest.splitOn c = parts) := by
  constructor
  · intro h
    cases hsplit : splitOnce c text with
    | none =>
      have hmem : c ∉ text := by
        intro hmem
        rw [splitOnce, if_pos hmem] at hsplit
        cases hsplit
      rw [List.splitOn_eq_singleton hmem] at h
      obtain ⟨rfl, rfl⟩ := List.cons.inj h
      exact ⟨hmem, .inl ⟨rfl, rfl⟩⟩
    | some pieces =>
      obtain ⟨before, rest⟩ := pieces
      obtain ⟨hbefore, rfl⟩ := splitOnce_eq_some.mp hsplit
      rw [List.splitOn_append_cons_self_of_not_mem hbefore] at h
      obtain ⟨rfl, rfl⟩ := List.cons.inj h
      exact ⟨hbefore, .inr ⟨rest, rfl, rfl⟩⟩
  · rintro ⟨hpart, ⟨rfl, rfl⟩ | ⟨rest, rfl, rfl⟩⟩
    · exact List.splitOn_eq_singleton hpart
    · exact List.splitOn_append_cons_self_of_not_mem hpart rest

/-- Three parts, and whatever else. -/
theorem splitOn_three_iff {c : Char} {x y z : List Char} :
    (∃ rest, text.splitOn c = x :: y :: z :: rest) ↔
      c ∉ x ∧ c ∉ y ∧ c ∉ z ∧ ∃ rest, Surplus c rest ∧
        text = x ++ c :: (y ++ c :: (z ++ rest)) := by
  constructor
  · rintro ⟨parts, h⟩
    obtain ⟨hx, ⟨hnil, -⟩ | ⟨text₁, rfl, h₁⟩⟩ := splitOn_eq_cons.mp h
    · cases hnil
    obtain ⟨hy, ⟨hnil, -⟩ | ⟨text₂, rfl, h₂⟩⟩ := splitOn_eq_cons.mp h₁
    · cases hnil
    obtain ⟨hz, ⟨-, rfl⟩ | ⟨more, rfl, -⟩⟩ := splitOn_eq_cons.mp h₂
    · exact ⟨hx, hy, hz, [], .inl rfl, by rw [List.append_nil]⟩
    · exact ⟨hx, hy, hz, c :: more, .inr ⟨more, rfl⟩, rfl⟩
  · rintro ⟨hx, hy, hz, rest, hrest, rfl⟩
    rw [List.splitOn_append_cons_self_of_not_mem hx, List.splitOn_append_cons_self_of_not_mem hy]
    rcases hrest with rfl | ⟨more, rfl⟩
    · rw [List.append_nil, List.splitOn_eq_singleton hz]
      exact ⟨[], rfl⟩
    · rw [List.splitOn_append_cons_self_of_not_mem hz]
      exact ⟨_, rfl⟩

/-! ## What is read -/

/-- A numeral of this range. -/
def NumeralIn (low high : Int) (cs : List Char) : Prop := ∃ k, Numeral cs k ∧ low ≤ k ∧ k ≤ high

/-- The point and the digits after it, where there are any. -/
def Fraction (point : List Char) : Prop :=
  point = [] ∨ ∃ digits, point = '.' :: digits ∧ digits.length ≤ 9 ∧ ∀ c ∈ digits, c.isDigit = true

/-- Three numerals joined by `-`, of which the first has no sign or a plus, and more after one
    more `-`. -/
structure LenientDate (date : List Char) : Prop where
  parts : ∃ year month day rest, date = year ++ '-' :: (month ++ '-' :: (day ++ rest)) ∧
    ('-' ∉ year ∧ '-' ∉ month ∧ '-' ∉ day ∧ Surplus '-' rest) ∧
    NumeralIn 0 (2 ^ 127 - 1) year ∧ NumeralIn 1 12 month ∧ NumeralIn 1 31 day

/-- Three numerals joined by `:`, which may be negative, a fraction, and more after one more
    `:`. -/
structure LenientClock (time : List Char) : Prop where
  parts : ∃ hour minute second point rest,
    time = hour ++ ':' :: (minute ++ ':' :: (second ++ point ++ rest)) ∧
      Surplus ':' rest ∧ NumeralIn (-2 ^ 127) 23 hour ∧ NumeralIn (-2 ^ 127) 59 minute ∧
      NumeralIn (-2 ^ 127) 59 second ∧ Fraction point

/-- A date, the first `T`, a time and a final `Z`. -/
def Lenient (text : List Char) : Prop :=
  ∃ date time, text = date ++ 'T' :: time ++ ['Z'] ∧ 'T' ∉ date ∧ LenientDate date ∧
    LenientClock time

theorem nanosOf_isSome : (∃ k, nanosOf cs = some k) ↔
    cs.length ≤ 9 ∧ ∀ c ∈ cs, c.isDigit = true := by
  constructor
  · rintro ⟨k, h⟩
    unfold nanosOf at h
    split_ifs at h with hbad
    all_goals
      rw [not_or, not_not, not_lt] at hbad
      exact ⟨hbad.1, List.all_eq_true.mp hbad.2⟩
  · rintro ⟨hlength, hdigits⟩
    obtain ⟨n, hn, -⟩ := nanosOf_fraction hlength hdigits
    exact ⟨n, hn⟩

theorem numeralIn_iff {low high : Int} (hlow : -2 ^ 127 ≤ low) (hhigh : high < 2 ^ 127) :
    NumeralIn low high cs ↔ ∃ k, parseI128 cs = some k ∧ low ≤ k ∧ k ≤ high := by
  unfold NumeralIn
  refine exists_congr fun k => ?_
  rw [parseI128_eq_some]
  constructor
  · rintro ⟨h, hk, hk'⟩
    exact ⟨⟨h, by omega, by omega⟩, hk, hk'⟩
  · rintro ⟨⟨h, -⟩, hk, hk'⟩
    exact ⟨h, hk, hk'⟩

/-- A numeral without a minus is not negative. -/
theorem Numeral.nonneg (h : Numeral cs k) (hminus : '-' ∉ cs) : 0 ≤ k := by
  cases h with
  | unsigned => exact Int.natCast_nonneg _
  | plus => exact Int.natCast_nonneg _
  | minus => exact absurd List.mem_cons_self hminus

theorem numeralIn_of_unsigned (hminus : '-' ∉ cs) :
    NumeralIn 0 (2 ^ 127 - 1) cs ↔ ∃ k, parseI128 cs = some k := by
  rw [numeralIn_iff (by norm_num) (by norm_num)]
  refine exists_congr fun k => ?_
  constructor
  · exact fun h => h.1
  · intro h
    obtain ⟨hnumeral, -, hhigh⟩ := parseI128_eq_some.mp h
    exact ⟨h, hnumeral.nonneg hminus, by omega⟩

/-- The seconds, before and after the point. -/
theorem fraction_iff {seconds : List Char} :
    (∃ second point, seconds = second ++ point ∧ NumeralIn (-2 ^ 127) 59 second ∧ Fraction point) ↔
      ∃ k nanos, parseI128 ((splitOnce '.' seconds).getD (seconds, [])).1 = some k ∧ k ≤ 59 ∧
        nanosOf ((splitOnce '.' seconds).getD (seconds, [])).2 = some nanos := by
  constructor
  · rintro ⟨second, point, rfl, ⟨k, hnumeral, hlow, hhigh⟩, hpoint⟩
    have hplain : '.' ∉ second := hnumeral.notMem rfl (by decide) (by decide)
    obtain ⟨k, hk, -, hhigh⟩ :=
      (numeralIn_iff (le_refl _) (by norm_num)).mp ⟨k, hnumeral, hlow, hhigh⟩
    rcases hpoint with rfl | ⟨digits, rfl, hlength, hdigits⟩
    · rw [List.append_nil, splitOnce, if_neg hplain]
      exact ⟨k, 0, hk, hhigh, rfl⟩
    · obtain ⟨nanos, hnanos⟩ := nanosOf_isSome.mpr ⟨hlength, hdigits⟩
      rw [splitOnce_append hplain]
      exact ⟨k, nanos, hk, hhigh, hnanos⟩
  · rintro ⟨k, nanos, hk, hhigh, hnanos⟩
    have hsecond : ∀ {second : List Char}, parseI128 second = some k →
        NumeralIn (-2 ^ 127) 59 second :=
      fun h => (numeralIn_iff (le_refl _) (by norm_num)).mpr
        ⟨k, h, (parseI128_eq_some.mp h).2.1, hhigh⟩
    cases hsplit : splitOnce '.' seconds with
    | none =>
      rw [hsplit] at hk
      exact ⟨seconds, [], (List.append_nil _).symm, hsecond hk, .inl rfl⟩
    | some pieces =>
      obtain ⟨second, digits⟩ := pieces
      rw [hsplit] at hk hnanos
      obtain ⟨-, rfl⟩ := splitOnce_eq_some.mp hsplit
      exact ⟨second, '.' :: digits, rfl, hsecond hk, .inr ⟨digits, rfl, nanosOf_isSome.mp ⟨nanos, hnanos⟩⟩⟩

theorem Fraction.colon_notMem {point : List Char} (h : Fraction point) : ':' ∉ point := by
  rcases h with rfl | ⟨digits, rfl, -, hdigits⟩
  · exact nofun
  · intro hmem
    rcases List.mem_cons.mp hmem with hpoint | hdigit
    · exact absurd hpoint (by decide)
    · exact absurd (hdigits _ hdigit) (by decide)

theorem lenient_of_numbersOf {n : Numbers} (h : numbersOf text = some n) : Lenient text := by
  unfold numbersOf at h
  simp only [Option.bind_eq_bind, Option.bind_eq_some_iff, Prod.exists] at h
  obtain ⟨value, hstrip, date, time, hsplit, h⟩ := h
  obtain rfl := stripSuffix_eq_some.mp hstrip
  obtain ⟨htee, rfl⟩ := splitOnce_eq_some.mp hsplit
  split at h
  · next year month day dateRest hour minute seconds timeRest hdate htime =>
    simp only [Option.bind_eq_some_iff] at h
    obtain ⟨year', hyear, month', hmonth, day', hday, hour', hhour, minute', hminute, second',
      hsecond, nanos', hnanos, h⟩ := h
    split_ifs at h with hrange
    simp only [not_or, not_not, not_lt] at hrange
    obtain ⟨⟨hmonth₁, hmonth₂⟩, ⟨hday₁, hday₂⟩, hhour₁, hminute₁, hsecond₁⟩ := hrange
    obtain ⟨hplain, hplain', hplain'', dateMore, hsurplus, rfl⟩ :=
      splitOn_three_iff.mp ⟨dateRest, hdate⟩
    obtain ⟨-, -, -, timeMore, htimeSurplus, rfl⟩ := splitOn_three_iff.mp ⟨timeRest, htime⟩
    obtain ⟨second, point, rfl, hnumeral, hfraction⟩ :=
      fraction_iff.mpr ⟨second', nanos', hsecond, hsecond₁, hnanos⟩
    have hlow : ∀ {cs : List Char} {k}, parseI128 cs = some k → -2 ^ 127 ≤ k :=
      fun h => (parseI128_eq_some.mp h).2.1
    refine ⟨_, _, rfl, htee, ⟨year, month, day, dateMore, rfl, ⟨hplain, hplain', hplain'', hsurplus⟩,
      (numeralIn_of_unsigned hplain).mpr ⟨year', hyear⟩, ?_, ?_⟩,
      ⟨hour, minute, second, point, timeMore, rfl, htimeSurplus, ?_, ?_, hnumeral, hfraction⟩⟩
    · exact (numeralIn_iff (by norm_num) (by norm_num)).mpr ⟨month', hmonth, hmonth₁, hmonth₂⟩
    · exact (numeralIn_iff (by norm_num) (by norm_num)).mpr ⟨day', hday, hday₁, hday₂⟩
    · exact (numeralIn_iff (le_refl _) (by norm_num)).mpr ⟨hour', hhour, hlow hhour, hhour₁⟩
    · exact (numeralIn_iff (le_refl _) (by norm_num)).mpr ⟨minute', hminute, hlow hminute, hminute₁⟩
  · cases h

theorem numbersOf_of_lenient (h : Lenient text) : ∃ n, numbersOf text = some n := by
  obtain ⟨date, time, rfl, htee, ⟨year, month, day, dateMore, rfl, hplain, hyear, hmonth, hday⟩,
    ⟨hour, minute, second, point, timeMore, rfl, htimeSurplus, hhour, hminute, hsecond, hpoint⟩⟩ := h
  have hcolon : ∀ {low high : Int} {cs : List Char}, NumeralIn low high cs → ':' ∉ cs :=
    fun ⟨_, hnumeral, _⟩ => hnumeral.notMem rfl (by decide) (by decide)
  have hcolons : ':' ∉ second ++ point := by
    rw [List.mem_append]
    exact fun hmem => hmem.elim (hcolon hsecond) hpoint.colon_notMem
  obtain ⟨dateRest, hdate⟩ := splitOn_three_iff.mpr
    ⟨hplain.1, hplain.2.1, hplain.2.2.1, dateMore, hplain.2.2.2, rfl⟩
  obtain ⟨timeRest, htime⟩ := splitOn_three_iff.mpr
    ⟨hcolon hhour, hcolon hminute, hcolons, timeMore, htimeSurplus, rfl⟩
  obtain ⟨second', nanos', hsecond', hsecond₁, hnanos⟩ :=
    fraction_iff.mp ⟨second, point, rfl, hsecond, hpoint⟩
  obtain ⟨year', hyear'⟩ := (numeralIn_of_unsigned hplain.1).mp hyear
  obtain ⟨month', hmonth', hmonth₁, hmonth₂⟩ := (numeralIn_iff (by norm_num) (by norm_num)).mp hmonth
  obtain ⟨day', hday', hday₁, hday₂⟩ := (numeralIn_iff (by norm_num) (by norm_num)).mp hday
  obtain ⟨hour', hhour', -, hhour₁⟩ := (numeralIn_iff (le_refl _) (by norm_num)).mp hhour
  obtain ⟨minute', hminute', -, hminute₁⟩ := (numeralIn_iff (le_refl _) (by norm_num)).mp hminute
  unfold numbersOf
  rw [stripSuffix_concat]
  simp only [Option.bind_eq_bind, Option.bind_some]
  rw [splitOnce_append htee]
  simp only [Option.bind_some, hdate, htime, hyear', hmonth', hday', hhour', hminute', hsecond',
    hnanos]
  rw [if_neg (by simp only [not_or, not_not, not_lt]; omega)]
  exact ⟨_, rfl⟩

/-- What `parse_rfc3339` reads. -/
theorem parseRfc3339_isSome : (parseRfc3339 text).isSome = true ↔ Lenient text := by
  rw [parseRfc3339_eq, Option.isSome_map, Option.isSome_iff_exists]
  exact ⟨fun ⟨_, h⟩ => lenient_of_numbersOf h, numbersOf_of_lenient⟩

/-! ## What the comment promises -/

/-- Exactly the canonical texts are read, and no computation leaves the `i128`. -/
structure ReadAsPromised (s : String) : Prop where
  canonical : (parseRfc3339 s.toList).isSome = true ↔ isCanonicalUtc s = true
  inRange : ∀ n ∈ numbersOf s.toList, ∀ k ∈ n.intermediates, -2 ^ 127 ≤ k ∧ k < 2 ^ 127

theorem tdiv_bounds {year : Int} (h : -1 ≤ year ∧ year < 10000) (d : Int) :
    -10000 ≤ year.tdiv d ∧ year.tdiv d ≤ 10000 := by
  have hsmaller : (year.tdiv d).natAbs ≤ year.natAbs := by
    rw [Int.natAbs_tdiv]
    exact Nat.div_le_self _ _
  omega

/-- The numbers of dates before the year 10000 stay small. -/
theorem intermediates_bounds {f : Fields} (hvalid : f.valid = true) (hyear : f.year < 10000)
    {nanos : ℕ} (hnanos : nanos < 1000000000) :
    ∀ k ∈ (Numbers.ofFields f nanos).intermediates, -2 ^ 127 ≤ k ∧ k < 2 ^ 127 := by
  have hthirty : f.day ≤ 31 := by
    unfold Fields.valid daysInMonth at hvalid
    rw [decide_eq_true_eq] at hvalid
    have hday := hvalid.2.2.2.1
    split_ifs at hday <;> omega
  unfold Fields.valid at hvalid
  rw [decide_eq_true_eq] at hvalid
  obtain ⟨hmonth, hmonth', -, -, hhour, hminute, hsecond⟩ := hvalid
  have hadjusted : -1 ≤ (Numbers.ofFields f nanos).adjustedYear ∧
      (Numbers.ofFields f nanos).adjustedYear < 10000 := by
    unfold Numbers.adjustedYear Numbers.ofFields
    dsimp only
    split_ifs <;> omega
  have hmonths : 3 ≤ (Numbers.ofFields f nanos).adjustedMonth ∧
      (Numbers.ofFields f nanos).adjustedMonth ≤ 14 := by
    unfold Numbers.adjustedMonth Numbers.ofFields
    dsimp only
    split_ifs <;> omega
  have hdays : (Numbers.ofFields f nanos).days =
      365 * (Numbers.ofFields f nanos).adjustedYear +
        (Numbers.ofFields f nanos).adjustedYear.tdiv 4 -
        (Numbers.ofFields f nanos).adjustedYear.tdiv 100 +
        (Numbers.ofFields f nanos).adjustedYear.tdiv 400 +
        (153 * ((Numbers.ofFields f nanos).adjustedMonth - 3) + 2) / 5 +
        (Numbers.ofFields f nanos).day - 1 - 719468 := rfl
  unfold Numbers.intermediates Numbers.dayValues
  rw [hdays]
  generalize (Numbers.ofFields f nanos).adjustedYear = year at *
  generalize (Numbers.ofFields f nanos).adjustedMonth = month at *
  have hfours := tdiv_bounds hadjusted 4
  have hhundreds := tdiv_bounds hadjusted 100
  have heras := tdiv_bounds hadjusted 400
  unfold Numbers.ofFields
  simp only [List.mem_append, List.mem_cons, List.not_mem_nil, or_false]
  intro k hk
  omega

/-- On the canonical texts, and on those that have not even the lenient form, the comment holds. -/
theorem readAsPromised_iff (s : String) :
    ReadAsPromised s ↔ isCanonicalUtc s = true ∨ ¬ Lenient s.toList := by
  rw [or_comm, ← imp_iff_not_or]
  constructor
  · intro h hlenient
    exact h.canonical.mp (parseRfc3339_isSome.mpr hlenient)
  · intro h
    have hcanonical : (parseRfc3339 s.toList).isSome = true ↔ isCanonicalUtc s = true := by
      refine ⟨fun hread => h (parseRfc3339_isSome.mp hread), fun hs => ?_⟩
      obtain ⟨_, c, -, hread, -⟩ := parseRfc3339_canonical hs
      rw [hread, Option.isSome_some]
    refine ⟨hcanonical, fun n hn => ?_⟩
    have hs : isCanonicalUtc s = true := h (lenient_of_numbersOf hn)
    obtain ⟨f, nanos, -, hvalid, hyear, hnanos, -, hnumbers⟩ := numbersOf_canonical hs
    obtain rfl := Option.some.inj (hn.symm.trans hnumbers)
    exact intermediates_bounds hvalid hyear hnanos

theorem reads_impossible_date : ¬ ReadAsPromised "2026-02-31T00:00:00Z" := by
  intro h
  have hread : (parseRfc3339 "2026-02-31T00:00:00Z".toList).isSome = true := by decide +kernel
  have hcanonical := h.canonical.mp hread
  revert hcanonical
  decide +kernel

end ForgetOps.Agent
