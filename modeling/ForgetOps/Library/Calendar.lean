import Mathlib.Tactic

/-
  The proleptic Gregorian calendar and decimal fields of fixed width.

  `CivilDate.days` counts the days from 1970-01-01 to a date. `CivilDate.ofDays` is the way back:
  the year starts in March, so that the leap day is its last day, and 400 years are one era of
  146097 days. `Decimal.digits` prints a number in a fixed number of digits and `Decimal.value`
  reads it.
-/

namespace Calendar

structure CivilDate where
  year : Int
  month : Int
  day : Int
  deriving DecidableEq, Repr

/-! ## Dates and days -/

namespace CivilDate

/-- The year of a date, begun in March. -/
def marchYear (c : CivilDate) : Int := if c.month ≤ 2 then c.year - 1 else c.year

/-- Days from 1970-01-01 to the date. -/
def days (c : CivilDate) : Int :=
  let year := if c.month ≤ 2 then c.year - 1 else c.year
  let month := if c.month ≤ 2 then c.month + 12 else c.month
  365 * year + year / 4 - year / 100 + year / 400 + (153 * (month - 3) + 2) / 5 + c.day - 1 - 719468

/-- The century of its era a day is in; the last one has a leap day more. -/
def century (doe : Int) : Int := min (doe / 36524) 3

/-- The four years of its century a day is in. -/
def quadrennium (doe : Int) : Int := (doe - 36524 * century doe) / 1461

/-- The day of its four years. -/
def dayOfQuadrennium (doe : Int) : Int := doe - 36524 * century doe - 1461 * quadrennium doe

/-- The year of its four years; the last one has the leap day. -/
def yearOfQuadrennium (doe : Int) : Int := min (dayOfQuadrennium doe / 365) 3

def yearOfEra (doe : Int) : Int :=
  100 * century doe + 4 * quadrennium doe + yearOfQuadrennium doe

/-- The day of its year, counted from 1 March as 0. -/
def dayOfYear (doe : Int) : Int := dayOfQuadrennium doe - 365 * yearOfQuadrennium doe

/-- The month of a day of the year, counted from March as 0. -/
def monthOfYear (doy : Int) : Int := (5 * doy + 2) / 153

/-- The date of the day `doe` of an era. -/
def ofDayOfEra (era doe : Int) : CivilDate :=
  let month := monthOfYear (dayOfYear doe)
  let year := yearOfEra doe + 400 * era
  { year := if month < 10 then year else year + 1
    month := if month < 10 then month + 3 else month - 9
    day := dayOfYear doe - (153 * month + 2) / 5 + 1 }

def ofDays (z : Int) : CivilDate :=
  ofDayOfEra ((z + 719468) / 146097) ((z + 719468) % 146097)

section Era

variable {doe : Int}

theorem dayOfYear_bounds : 0 ≤ dayOfYear doe ∧ dayOfYear doe ≤ 365 := by
  unfold dayOfYear yearOfQuadrennium dayOfQuadrennium quadrennium century
  omega

theorem monthOfYear_bounds :
    0 ≤ monthOfYear (dayOfYear doe) ∧ monthOfYear (dayOfYear doe) < 12 := by
  have hday : 0 ≤ dayOfYear doe ∧ dayOfYear doe ≤ 365 := dayOfYear_bounds
  unfold monthOfYear
  omega

theorem month_ofDayOfEra (era : Int) :
    1 ≤ (ofDayOfEra era doe).month ∧ (ofDayOfEra era doe).month ≤ 12 := by
  have hmonth : 0 ≤ monthOfYear (dayOfYear doe) ∧ monthOfYear (dayOfYear doe) < 12 :=
    monthOfYear_bounds
  simp only [ofDayOfEra]
  split_ifs <;> omega

theorem day_ofDayOfEra (era : Int) :
    1 ≤ (ofDayOfEra era doe).day ∧ (ofDayOfEra era doe).day ≤ 31 := by
  have hday : 0 ≤ dayOfYear doe ∧ dayOfYear doe ≤ 365 := dayOfYear_bounds
  simp only [ofDayOfEra, monthOfYear]
  omega

variable (h : 0 ≤ doe) (h' : doe < 146097)
include h h'

theorem parts_bounds :
    (0 ≤ century doe ∧ century doe ≤ 3) ∧ (0 ≤ quadrennium doe ∧ quadrennium doe ≤ 24) ∧
      (0 ≤ yearOfQuadrennium doe ∧ yearOfQuadrennium doe ≤ 3) := by
  unfold yearOfQuadrennium dayOfQuadrennium quadrennium century
  omega

theorem yearOfEra_bounds : 0 ≤ yearOfEra doe ∧ yearOfEra doe < 400 := by
  have hparts := parts_bounds h h'
  unfold yearOfEra
  omega

/-- The years before a day of its era have the days before its own year. -/
theorem dayOfYear_eq :
    doe = 365 * yearOfEra doe + yearOfEra doe / 4 - yearOfEra doe / 100 + dayOfYear doe := by
  have hparts := parts_bounds h h'
  have hquad : yearOfEra doe / 4 = 25 * century doe + quadrennium doe := by
    unfold yearOfEra
    omega
  have hcentury : yearOfEra doe / 100 = century doe := by
    unfold yearOfEra
    omega
  rw [hquad, hcentury]
  unfold yearOfEra dayOfYear dayOfQuadrennium
  omega

theorem days_ofDayOfEra (era : Int) : (ofDayOfEra era doe).days = 146097 * era + doe - 719468 := by
  have hyear := yearOfEra_bounds h h'
  have hmonth : 0 ≤ monthOfYear (dayOfYear doe) ∧ monthOfYear (dayOfYear doe) < 12 :=
    monthOfYear_bounds
  have hday := dayOfYear_eq h h'
  simp only [days, ofDayOfEra]
  split_ifs <;> omega

end Era

theorem dayOfEra_bounds (z : Int) : 0 ≤ (z + 719468) % 146097 ∧ (z + 719468) % 146097 < 146097 := by
  omega

theorem days_ofDays (z : Int) : (ofDays z).days = z := by
  have hdoe := dayOfEra_bounds z
  rw [ofDays, days_ofDayOfEra hdoe.1 hdoe.2]
  omega

/-- Year 0 begins, in March, 719468 days before 1970. -/
theorem marchYear_ofDays_nonneg (z : Int) : 0 ≤ (ofDays z).marchYear ↔ -719468 ≤ z := by
  have hdoe := dayOfEra_bounds z
  have hyear := yearOfEra_bounds hdoe.1 hdoe.2
  have hmonth : 0 ≤ monthOfYear (dayOfYear ((z + 719468) % 146097)) ∧
      monthOfYear (dayOfYear ((z + 719468) % 146097)) < 12 := monthOfYear_bounds
  simp only [marchYear, ofDays, ofDayOfEra]
  split_ifs <;> omega

theorem month_bounds (z : Int) : 1 ≤ (ofDays z).month ∧ (ofDays z).month ≤ 12 :=
  month_ofDayOfEra _

theorem day_bounds (z : Int) : 1 ≤ (ofDays z).day ∧ (ofDays z).day ≤ 31 :=
  day_ofDayOfEra _

end CivilDate

/-! ## Decimal fields -/

namespace Decimal

/-- The number in `width` digits, its high digits cut off. -/
def digits : Nat → Nat → List Char
  | 0, _ => []
  | width + 1, n => digits width (n / 10) ++ [Nat.digitChar (n % 10)]

def digitValue (c : Char) : Option Nat :=
  if c.isDigit then some (c.toNat - '0'.toNat) else none

/-- The number the digits write, nothing if one of them is none. -/
def value (cs : List Char) : Option Nat :=
  cs.foldlM (fun n c => (digitValue c).map (10 * n + ·)) 0

theorem digitValue_digitChar {d : Nat} (h : d < 10) : digitValue (Nat.digitChar d) = some d := by
  interval_cases d <;> rfl

theorem value_concat (cs : List Char) (c : Char) :
    value (cs ++ [c]) = (value cs).bind fun n => (digitValue c).map (10 * n + ·) := by
  unfold value
  rw [List.foldlM_append]
  cases h : cs.foldlM (fun n c => (digitValue c).map (10 * n + ·)) 0 <;> simp

theorem isDigit_of_mem_digits {width n : Nat} {c : Char} (h : c ∈ digits width n) :
    c.isDigit = true := by
  induction width generalizing n with
  | zero => cases h
  | succ width ih =>
    rcases List.mem_append.mp h with h | h
    · exact ih h
    · have hdigit : n % 10 < 10 := Nat.mod_lt _ (by decide)
      rw [List.mem_singleton.mp h]
      interval_cases n % 10 <;> rfl

theorem notMem_digits {width n : Nat} {c : Char} (h : c.isDigit = false) : c ∉ digits width n := by
  intro hmem
  rw [isDigit_of_mem_digits hmem] at h
  cases h

theorem length_digits (width n : Nat) : (digits width n).length = width := by
  induction width generalizing n with
  | zero => rfl
  | succ width ih => simp [digits, ih]

theorem value_digits {width n : Nat} (h : n < 10 ^ width) : value (digits width n) = some n := by
  induction width generalizing n with
  | zero =>
    obtain rfl : n = 0 := by simpa using h
    rfl
  | succ width ih =>
    have hlow : n / 10 < 10 ^ width := by
      rw [Nat.pow_succ] at h
      omega
    have hdigit : n % 10 < 10 := Nat.mod_lt _ (by decide)
    rw [digits, value_concat, ih hlow, Option.bind_some, digitValue_digitChar hdigit,
      Option.map_some]
    congr 1
    omega

theorem digitValue_lt {c : Char} {d : Nat} (h : digitValue c = some d) :
    c.isDigit = true ∧ d < 10 := by
  unfold digitValue at h
  split at h
  · next hdigit =>
    refine ⟨hdigit, ?_⟩
    have hrange : 48 ≤ c.toNat ∧ c.toNat ≤ 57 := by
      simpa [Char.isDigit, UInt32.le_iff_toNat_le] using hdigit
    have hzero : '0'.toNat = 48 := rfl
    rw [Option.some.injEq, hzero] at h
    omega
  · cases h

/-- What reads as a number is digits, and the number fits their width. -/
theorem value_eq_some {cs : List Char} {n : Nat} (h : value cs = some n) :
    (∀ c ∈ cs, c.isDigit = true) ∧ n < 10 ^ cs.length := by
  induction cs using List.reverseRecOn generalizing n with
  | nil =>
    obtain rfl : 0 = n := Option.some.inj h
    exact ⟨nofun, by decide⟩
  | append_singleton cs c ih =>
    rw [value_concat] at h
    obtain ⟨m, hm, h⟩ := Option.bind_eq_some_iff.mp h
    obtain ⟨d, hd, rfl⟩ := Option.map_eq_some_iff.mp h
    obtain ⟨hdigits, hlt⟩ := ih hm
    obtain ⟨hdigit, hten⟩ := digitValue_lt hd
    refine ⟨fun x hx => ?_, ?_⟩
    · rcases List.mem_append.mp hx with hx | hx
      · exact hdigits x hx
      · rw [List.mem_singleton.mp hx]
        exact hdigit
    · rw [List.length_append, List.length_singleton, Nat.pow_succ]
      omega

theorem value_of_digits {cs : List Char} (h : ∀ c ∈ cs, c.isDigit = true) :
    ∃ n, value cs = some n := by
  induction cs using List.reverseRecOn with
  | nil => exact ⟨0, rfl⟩
  | append_singleton cs c ih =>
    obtain ⟨m, hm⟩ := ih fun x hx => h x (List.mem_append_left _ hx)
    have hc : c.isDigit = true := h c (by simp)
    refine ⟨10 * m + (c.toNat - '0'.toNat), ?_⟩
    rw [value_concat, hm, Option.bind_some, digitValue, if_pos hc, Option.map_some]

theorem value_append (cs ds : List Char) :
    value (cs ++ ds) =
      (value cs).bind fun n => (value ds).map fun d => n * 10 ^ ds.length + d := by
  induction ds using List.reverseRecOn with
  | nil =>
    have hnil : value [] = some 0 := rfl
    rw [List.append_nil, hnil]
    cases value cs <;> simp
  | append_singleton ds c ih =>
    rw [← List.append_assoc, value_concat, ih, value_concat]
    cases value cs with
    | none => rfl
    | some n =>
      cases value ds with
      | none => rfl
      | some d =>
        cases digitValue c with
        | none => rfl
        | some x =>
          simp only [Option.bind_some, Option.map_some, List.length_append, List.length_singleton,
            Nat.pow_succ]
          congr 1
          ring

end Decimal

end Calendar
