import Mathlib.Tactic

/-
  The places where a text occurs in another one, and replacing it there.

  `matchesFrom` and `replaceFrom` go through the text from left to right; after an occurrence they
  pass over the rest of it. A text with one occurrence is cut in two by it: `replaceAll_of_matches`.
-/

namespace Substrings

variable {α : Type} [DecidableEq α]

/-- How often the pattern occurs, after the first `skip` items. -/
def matchesFrom (pattern : List α) : Nat → List α → Nat
  | _, [] => 0
  | skip + 1, _ :: xs => matchesFrom pattern skip xs
  | 0, x :: xs =>
    if pattern <+: x :: xs then matchesFrom pattern (pattern.length - 1) xs + 1
    else matchesFrom pattern 0 xs

/-- The text after the first `skip` items, with the replacement at each occurrence. -/
def replaceFrom (pattern replacement : List α) : Nat → List α → List α
  | _, [] => []
  | skip + 1, _ :: xs => replaceFrom pattern replacement skip xs
  | 0, x :: xs =>
    if pattern <+: x :: xs then
      replacement ++ replaceFrom pattern replacement (pattern.length - 1) xs
    else x :: replaceFrom pattern replacement 0 xs

def matchCount (pattern xs : List α) : Nat := matchesFrom pattern 0 xs

def replaceAll (pattern replacement xs : List α) : List α := replaceFrom pattern replacement 0 xs

/-- What comes before the first occurrence, and what comes after it. -/
def cut (pattern : List α) : List α → List α × List α
  | [] => ([], [])
  | x :: xs =>
    if pattern <+: x :: xs then ([], (x :: xs).drop pattern.length)
    else (x :: (cut pattern xs).1, (cut pattern xs).2)

/-- What is passed over is not looked at. -/
theorem matchesFrom_drop (pattern : List α) (skip : Nat) (xs : List α) :
    matchesFrom pattern skip xs = matchesFrom pattern 0 (xs.drop skip) := by
  induction xs generalizing skip with
  | nil => cases skip <;> rfl
  | cons x xs ih =>
    cases skip with
    | zero => rfl
    | succ skip => exact ih skip

theorem replaceFrom_drop (pattern replacement : List α) (skip : Nat) (xs : List α) :
    replaceFrom pattern replacement skip xs =
      replaceFrom pattern replacement 0 (xs.drop skip) := by
  induction xs generalizing skip with
  | nil => cases skip <;> rfl
  | cons x xs ih =>
    cases skip with
    | zero => rfl
    | succ skip => exact ih skip

/-- Without an occurrence nothing is replaced. -/
theorem replaceAll_of_matchCount_zero {pattern xs : List α} (h : matchCount pattern xs = 0)
    (replacement : List α) : replaceAll pattern replacement xs = xs := by
  unfold matchCount at h
  unfold replaceAll
  induction xs with
  | nil => rfl
  | cons x xs ih =>
    rw [matchesFrom] at h
    split_ifs at h with hpattern
    rw [replaceFrom, if_neg hpattern, ih h]

/-- One occurrence cuts the text in two parts, between which every replacement is put. -/
theorem replaceAll_of_matchCount {pattern xs : List α} (hne : pattern ≠ [])
    (h : matchCount pattern xs = 1) (replacement : List α) :
    replaceAll pattern replacement xs = (cut pattern xs).1 ++ replacement ++ (cut pattern xs).2 := by
  unfold matchCount at h
  induction xs with
  | nil => cases h
  | cons x xs ih =>
    rw [matchesFrom] at h
    split_ifs at h with hpattern
    · rw [matchesFrom_drop, Nat.add_eq_right] at h
      have hrest := replaceAll_of_matchCount_zero h replacement
      have hdrop : (x :: xs).drop pattern.length = xs.drop (pattern.length - 1) := by
        cases pattern with
        | nil => exact absurd rfl hne
        | cons p pattern => rfl
      unfold replaceAll at hrest ⊢
      rw [replaceFrom, if_pos hpattern, replaceFrom_drop, hrest, cut, if_pos hpattern, hdrop]
      rfl
    · have hrest := ih h
      unfold replaceAll at hrest ⊢
      rw [replaceFrom, if_neg hpattern, hrest, cut, if_neg hpattern]
      rfl

end Substrings
