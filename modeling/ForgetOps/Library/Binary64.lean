import Mathlib.Tactic

/-
  Natural numbers in the floating-point format of 53 significant bits.

  `round` takes a number to the nearest one of the format, of two as near to the even one; it also
  rounds a dyadic fraction, whose numerator it is given. `decimal` is the number whose digits are
  printed for one of the format: the shortest that is read back, of these the nearest.
-/

namespace Binary64

/-- The distance of the numbers of the format around `n`. -/
def unit (n : Nat) : Nat := 2 ^ (n.log2 - 52)

/-- A number of the format. -/
def Representable (n : Nat) : Prop := unit n ∣ n

instance (n : Nat) : Decidable (Representable n) := inferInstanceAs (Decidable (_ ∣ _))

/-- The numbers of which the first is the nearer one to `n`, or the even one of two as near. -/
def around (unit n : Nat) : Nat × Nat :=
  if 2 * (n % unit) < unit ∨ 2 * (n % unit) = unit ∧ n / unit % 2 = 0 then
    (n / unit * unit, (n / unit + 1) * unit)
  else ((n / unit + 1) * unit, n / unit * unit)

def round (n : Nat) : Nat := (around (unit n) n).1

/-- `a + b`. -/
def add (a b : Nat) : Nat := round (a + b)

/-- The multiples of the powers of ten around `x`, those with fewer digits first. -/
def candidates (x : Nat) : List Nat :=
  (List.range 21).reverse.flatMap fun j => [(around (10 ^ j) x).1, (around (10 ^ j) x).2]

/-- The number that is printed for `x`, below `10 ^ 21`. -/
def decimal (x : Nat) : Nat := ((candidates x).find? fun c => round c = x).getD x

/-! ## Rounding -/

variable {n m : Nat}

theorem unit_pos (n : Nat) : 0 < unit n := Nat.two_pow_pos _

theorem unit_dvd_unit (h : n ≤ m) : unit n ∣ unit m := by
  unfold unit
  apply Nat.pow_dvd_pow
  have hlog : n.log2 ≤ m.log2 := by
    rw [Nat.log2_eq_log_two, Nat.log2_eq_log_two]
    exact Nat.log_mono_right h
  omega

theorem representable_mul {k : Nat} (hk : k < 2 ^ 53) (j : Nat) : Representable (k * 2 ^ j) := by
  rcases Nat.eq_zero_or_pos k with rfl | hpos
  · rw [Nat.zero_mul]
    exact Nat.dvd_zero _
  · have hne : k * 2 ^ j ≠ 0 := Nat.mul_ne_zero (by omega) (Nat.two_pow_pos j).ne'
    have hlt : k * 2 ^ j < 2 ^ (53 + j) := by
      rw [Nat.pow_add]
      exact Nat.mul_lt_mul_of_pos_right hk (Nat.two_pow_pos j)
    have hlog : (k * 2 ^ j).log2 < 53 + j := (Nat.log2_lt hne).mpr hlt
    unfold Representable unit
    exact (Nat.pow_dvd_pow 2 (by omega)).trans (Nat.dvd_mul_left _ k)

theorem representable_of_le (h : n ≤ 2 ^ 53) : Representable n := by
  rcases Nat.lt_or_eq_of_le h with hlt | rfl
  · have hone := representable_mul hlt 0
    rwa [Nat.pow_zero, Nat.mul_one] at hone
  · exact representable_mul (k := 1) (by decide) 53

/-- What is rounded is one of its neighbours. -/
theorem round_eq_or (n : Nat) :
    round n = n / unit n * unit n ∨
      n % unit n ≠ 0 ∧ round n = (n / unit n + 1) * unit n := by
  have hpos := unit_pos n
  unfold round around
  split_ifs with h
  · exact .inl rfl
  · refine .inr ⟨?_, rfl⟩
    intro hzero
    exact h (.inl (by omega))

theorem round_of_representable (h : Representable n) : round n = n := by
  rcases round_eq_or n with heq | ⟨hne, -⟩
  · rw [heq, Nat.div_mul_cancel h]
  · exact absurd (Nat.mod_eq_zero_of_dvd h) hne

/-- No number is rounded past one of the format, upwards or downwards. -/
theorem round_le (h : n ≤ m) (hm : Representable m) : round n ≤ m := by
  obtain ⟨k, hk⟩ := (unit_dvd_unit h).trans hm
  have hdiv := Nat.div_add_mod n (unit n)
  rcases round_eq_or n with heq | ⟨hne, heq⟩
  · rw [heq, Nat.mul_comm]
    omega
  · -- the remainder is positive, so that the next multiple is not past `m`
    have hlt : unit n * (n / unit n) < unit n * k := by omega
    have hle : n / unit n + 1 ≤ k := Nat.lt_of_mul_lt_mul_left hlt
    rw [heq, hk, Nat.mul_comm (unit n)]
    exact Nat.mul_le_mul_right _ hle

theorem two_pow_log2_le_round (hn : n ≠ 0) : 2 ^ n.log2 ≤ round n := by
  have hself : 2 ^ n.log2 ≤ n := Nat.log2_self_le hn
  have hfloor : 2 ^ n.log2 ≤ n / unit n * unit n := by
    rcases Nat.lt_or_ge n.log2 52 with hsmall | hlarge
    · have hunit : unit n = 1 := by
        unfold unit
        rw [Nat.sub_eq_zero_of_le hsmall.le, Nat.pow_zero]
      rwa [hunit, Nat.div_one, Nat.mul_one]
    · obtain ⟨k, hk⟩ : unit n ∣ 2 ^ n.log2 := Nat.pow_dvd_pow 2 (Nat.sub_le _ _)
      rw [hk, Nat.mul_comm]
      apply Nat.mul_le_mul_right
      rw [Nat.le_div_iff_mul_le (unit_pos n), Nat.mul_comm, ← hk]
      exact hself
  rcases round_eq_or n with heq | ⟨-, heq⟩
  · rwa [heq]
  · rw [heq]
    exact hfloor.trans (Nat.mul_le_mul_right _ (Nat.le_succ _))

theorem add_le {a b : Nat} (h : a + b ≤ m) (hm : Representable m) : add a b ≤ m := round_le h hm

/-! ## Digits -/

theorem round_decimal {x : Nat} (hx : Representable x) : round (decimal x) = x := by
  unfold decimal
  cases hfind : (candidates x).find? fun c => round c = x with
  | none => exact round_of_representable hx
  | some c =>
    have hround := List.find?_some hfind
    exact of_decide_eq_true hround

/-- Below `2 ^ 53` the digits are those of the number. -/
theorem decimal_of_lt {x : Nat} (hx : x < 2 ^ 53) : decimal x = x := by
  have hround := round_decimal (representable_of_le hx.le)
  rcases Nat.lt_or_ge (decimal x) (2 ^ 53) with hlt | hge
  · rwa [round_of_representable (representable_of_le hlt.le)] at hround
  · have hne : decimal x ≠ 0 := by omega
    have hlog : 53 ≤ (decimal x).log2 := (Nat.le_log2 hne).mpr hge
    have hpow : 2 ^ 53 ≤ 2 ^ (decimal x).log2 := Nat.pow_le_pow_right (by decide) hlog
    have hle := two_pow_log2_le_round hne
    omega

-- two neighbours are as near, and the even one of the format is read back from fewer digits
example : decimal 18014398509481992 = 18014398509481990 := by decide +kernel

end Binary64
