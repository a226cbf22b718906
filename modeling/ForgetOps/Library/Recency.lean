import Mathlib.Data.List.DropRight
import Mathlib.Tactic

/-
  The last `n` values of a list, and what is kept where a value that is among them is left out.
-/

namespace Recency

variable {α : Type}

theorem length_rtake (l : List α) (n : Nat) : (l.rtake n).length = min n l.length := by
  rw [List.rtake, List.length_drop]
  omega

/-- One value more pushes the oldest out where there are `n` of them. -/
theorem rtake_concat {n : Nat} (hn : 0 < n) (l : List α) (x : α) :
    (l ++ [x]).rtake n =
      (if (l.rtake n).length = n then (l.rtake n).tail else l.rtake n) ++ [x] := by
  obtain ⟨k, rfl⟩ := Nat.exists_eq_succ_of_ne_zero hn.ne'
  rw [List.rtake_concat_succ]
  congr 1
  rw [length_rtake]
  by_cases hfull : k + 1 ≤ l.length
  · rw [if_pos (by omega), List.rtake, List.rtake, List.tail_drop]
    congr 1
    omega
  · rw [if_neg (by omega), List.rtake, List.rtake]
    congr 1
    omega

variable [DecidableEq α]

/-- The value is kept unless it is among the last `n`. -/
def keep (n : Nat) (kept : List α) (x : α) : List α :=
  if x ∈ kept.rtake n then kept else kept ++ [x]

/-- The last `n` stay different. -/
theorem nodup_keep {n : Nat} {kept : List α} (h : (kept.rtake n).Nodup) (x : α) :
    ((keep n kept x).rtake n).Nodup := by
  unfold keep
  split_ifs with hmem
  · exact h
  · rcases Nat.eq_zero_or_pos n with rfl | hn
    · rw [List.rtake_zero]
      exact List.nodup_nil
    · have hpart : (if (kept.rtake n).length = n then (kept.rtake n).tail else kept.rtake n) <:+
          kept.rtake n := by
        split_ifs
        · exact List.tail_suffix _
        · exact List.suffix_refl _
      rw [rtake_concat hn, List.nodup_append]
      refine ⟨h.sublist hpart.sublist, List.nodup_singleton x, ?_⟩
      intro y hy z hz
      rw [List.mem_singleton.mp hz]
      rintro rfl
      exact hmem (hpart.subset hy)

end Recency
