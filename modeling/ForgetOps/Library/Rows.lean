import Mathlib.Tactic

/-
  Deleting, updating and counting the rows at which a predicate holds.

  Both changes leave no such row, where an update takes each of them out of the predicate, and both
  leave the other rows as they were. A second change finds nothing to do.
-/

namespace Rows

variable {ρ : Type} (p : ρ → Bool) (f : ρ → ρ)

def deleteWhere (rows : List ρ) : List ρ := rows.filter fun r => !p r

def updateWhere (rows : List ρ) : List ρ := rows.map fun r => if p r then f r else r

variable {p f}

@[simp] theorem countP_deleteWhere (rows : List ρ) : (deleteWhere p rows).countP p = 0 := by
  rw [List.countP_eq_zero]
  intro r hr
  have hkept := (List.mem_filter.mp hr).2
  simpa using hkept

theorem deleteWhere_of_countP {rows : List ρ} (h : rows.countP p = 0) :
    deleteWhere p rows = rows := by
  unfold deleteWhere
  rw [List.filter_eq_self]
  intro r hr
  have hnot := List.countP_eq_zero.mp h r hr
  simpa using hnot

theorem countP_updateWhere (hf : ∀ r, p r = true → p (f r) = false) (rows : List ρ) :
    (updateWhere p f rows).countP p = 0 := by
  rw [List.countP_eq_zero]
  intro r hr
  obtain ⟨r₀, -, rfl⟩ := List.mem_map.mp hr
  split_ifs with hp
  · rw [hf r₀ hp]
    decide
  · exact hp

theorem updateWhere_of_countP {rows : List ρ} (h : rows.countP p = 0) :
    updateWhere p f rows = rows := by
  calc rows.map (fun r => if p r then f r else r)
      = rows.map id := List.map_congr_left fun r hr => if_neg (List.countP_eq_zero.mp h r hr)
    _ = rows := List.map_id rows

@[simp] theorem length_updateWhere (rows : List ρ) : (updateWhere p f rows).length = rows.length :=
  List.length_map _

theorem getElem?_updateWhere (rows : List ρ) (i : Nat) :
    (updateWhere p f rows)[i]? = rows[i]?.map fun r => if p r then f r else r := by
  unfold updateWhere
  rw [List.getElem?_map]

/-- A change that brings no row into the predicate, and takes one out of it. -/
theorem countP_map_lt {rows : List ρ} (hkeep : ∀ r ∈ rows, p (f r) = true → p r = true)
    (htake : ∃ r ∈ rows, p r = true ∧ p (f r) = false) : (rows.map f).countP p < rows.countP p := by
  obtain ⟨r, hr, hbefore, hafter⟩ := htake
  obtain ⟨front, back, rfl⟩ := List.append_of_mem hr
  have hfront : (front.map f).countP p ≤ front.countP p := by
    rw [List.countP_map]
    exact List.countP_mono_left fun x hx => hkeep x (List.mem_append_left _ hx)
  have hback : (back.map f).countP p ≤ back.countP p := by
    rw [List.countP_map]
    exact List.countP_mono_left fun x hx =>
      hkeep x (List.mem_append_right _ (List.mem_cons_of_mem r hx))
  rw [List.map_append, List.map_cons, List.countP_append, List.countP_append,
    List.countP_cons_of_neg (by rw [hafter]; decide), List.countP_cons_of_pos hbefore]
  omega

end Rows
