import Mathlib.Logic.Relation
import Mathlib.Logic.Function.Basic
import Mathlib.Order.Basic

/-
  Pointers from each element to at most one other.

  `Rooted next` says that from everywhere the pointers lead to an element that points nowhere, which
  excludes cycles. A pointer from one such element to another keeps it.
-/

namespace Pointers

variable {α : Type*} {next : α → Option α} {a b r : α}

def Points (next : α → Option α) (a b : α) : Prop := next a = some b

/-- The pointers lead from `a` to `r`, which points nowhere. -/
def Root (next : α → Option α) (a r : α) : Prop :=
  Relation.ReflTransGen (Points next) a r ∧ next r = none

def Rooted (next : α → Option α) : Prop := ∀ a, ∃ r, Root next a r

theorem root_self (h : next a = none) : Root next a a := ⟨.refl, h⟩

theorem Root.cons (h : next a = some b) (hr : Root next b r) : Root next a r := ⟨.head h hr.1, hr.2⟩

theorem rooted_of_none (h : ∀ a, next a = none) : Rooted next := fun a => ⟨a, root_self (h a)⟩

/-- Pointers that lead to a root do not lead back. -/
theorem Root.not_cycle (h : Root next a r) : ¬ Relation.TransGen (Points next) a a := by
  obtain ⟨hpath, hr⟩ := h
  induction hpath using Relation.ReflTransGen.head_induction_on with
  | refl =>
    intro hcycle
    obtain ⟨b, hb, -⟩ := Relation.TransGen.head'_iff.mp hcycle
    rw [Points, hr] at hb
    cases hb
  | @head a b hab _ ih =>
    intro hcycle
    obtain ⟨b', hb', hback⟩ := Relation.TransGen.head'_iff.mp hcycle
    obtain rfl : b = b' := Option.some.inj (hab.symm.trans hb')
    exact ih (Relation.TransGen.tail' hback hab)

/-- What every pointer keeps, the root has. -/
theorem Root.transfer {P : α → Prop} (hP : ∀ a b, Points next a b → P a → P b) (h : Root next a r)
    (ha : P a) : P r := by
  obtain ⟨hpath, -⟩ := h
  induction hpath with
  | refl => exact ha
  | tail _ hstep ih => exact hP _ _ hstep ih

section Update

variable [DecidableEq α]

/-- An element that pointed nowhere now points at another such element. -/
theorem Rooted.update (h : Rooted next) (ha : next a = none) (hb : next b = none) (hne : a ≠ b) :
    Rooted (Function.update next a (some b)) := by
  have hbroot : Root (Function.update next a (some b)) b b :=
    root_self (by rw [Function.update_of_ne hne.symm]; exact hb)
  have haroot : Root (Function.update next a (some b)) a b :=
    hbroot.cons (Function.update_self a (some b) next)
  intro c
  obtain ⟨r, hpath, hr⟩ := h c
  induction hpath using Relation.ReflTransGen.head_induction_on with
  | refl =>
    by_cases hra : r = a
    · exact ⟨b, hra ▸ haroot⟩
    · exact ⟨r, root_self (by rw [Function.update_of_ne hra]; exact hr)⟩
  | @head c d hcd _ ih =>
    obtain ⟨r', hr'⟩ := ih
    have hca : c ≠ a := by
      rintro rfl
      rw [Points, ha] at hcd
      cases hcd
    exact ⟨r', hr'.cons (by rw [Function.update_of_ne hca]; exact hcd)⟩

end Update

end Pointers
