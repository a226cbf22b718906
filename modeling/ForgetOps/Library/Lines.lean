import Mathlib.Tactic

/-
  Lines that end in a separator, cut out of a text that arrives in pieces.

  `split` gives the ended lines of a text, without their separators, and the part after the last
  one. `split_append` continues from that part when more of the text arrives.
-/

namespace Lines

variable {α : Type}

/-- The text of lines, each with its separator. -/
def join (sep : α) (lines : List (List α)) : List α := lines.flatMap (· ++ [sep])

@[simp] theorem join_nil (sep : α) : join sep [] = [] := rfl

@[simp] theorem join_cons (sep : α) (line : List α) (lines : List (List α)) :
    join sep (line :: lines) = line ++ sep :: join sep lines := by
  simp [join]

variable [DecidableEq α]

/-- The ended lines, and what comes after them. -/
def split (sep : α) : List α → List (List α) × List α
  | [] => ([], [])
  | x :: xs =>
    if x = sep then ([] :: (split sep xs).1, (split sep xs).2)
    else
      match split sep xs with
      | ([], rest) => ([], x :: rest)
      | (line :: lines, rest) => ((x :: line) :: lines, rest)

theorem split_of_notMem {sep : α} {xs : List α} (h : sep ∉ xs) : split sep xs = ([], xs) := by
  induction xs with
  | nil => rfl
  | cons x xs ih =>
    rw [List.mem_cons, not_or] at h
    rw [split, if_neg (Ne.symm h.1), ih h.2]

/-- The first line is cut off at the first separator. -/
theorem split_line {sep : α} {line : List α} (h : sep ∉ line) (xs : List α) :
    split sep (line ++ sep :: xs) = (line :: (split sep xs).1, (split sep xs).2) := by
  induction line with
  | nil => rw [List.nil_append, split, if_pos rfl]
  | cons x line ih =>
    rw [List.mem_cons, not_or] at h
    rw [List.cons_append, split, if_neg (Ne.symm h.1), ih h.2]

theorem join_split (sep : α) (xs : List α) : join sep (split sep xs).1 ++ (split sep xs).2 = xs := by
  induction xs with
  | nil => rfl
  | cons x xs ih =>
    rw [split]
    split_ifs with hx
    · rw [join_cons, List.nil_append, List.cons_append, ih, hx]
    · split
      · next rest heq =>
        rw [heq] at ih
        simpa using ih
      · next line lines rest heq =>
        rw [heq] at ih
        simpa using ih

theorem notMem_split (sep : α) (xs : List α) :
    (∀ line ∈ (split sep xs).1, sep ∉ line) ∧ sep ∉ (split sep xs).2 := by
  induction xs with
  | nil => exact ⟨nofun, nofun⟩
  | cons x xs ih =>
    rw [split]
    split_ifs with hx
    · refine ⟨fun line hline => ?_, ih.2⟩
      rcases List.mem_cons.mp hline with rfl | hline
      · exact List.not_mem_nil
      · exact ih.1 line hline
    · split
      · next rest heq =>
        rw [heq] at ih
        refine ⟨nofun, ?_⟩
        rw [List.mem_cons, not_or]
        exact ⟨Ne.symm hx, ih.2⟩
      · next line lines rest heq =>
        rw [heq] at ih
        refine ⟨fun l hl => ?_, ih.2⟩
        rcases List.mem_cons.mp hl with rfl | hl
        · rw [List.mem_cons, not_or]
          exact ⟨Ne.symm hx, ih.1 line List.mem_cons_self⟩
        · exact ih.1 l (List.mem_cons_of_mem _ hl)

theorem split_join {sep : α} {lines : List (List α)} (h : ∀ line ∈ lines, sep ∉ line) (xs : List α) :
    split sep (join sep lines ++ xs) = (lines ++ (split sep xs).1, (split sep xs).2) := by
  induction lines with
  | nil => rfl
  | cons line lines ih =>
    have hline := h line List.mem_cons_self
    have hlines := ih fun l hl => h l (List.mem_cons_of_mem _ hl)
    rw [join_cons, List.append_assoc, List.cons_append, split_line hline, hlines]
    rfl

/-- The lines of a text, from those of its first piece and what was left of it. -/
theorem split_append (sep : α) (xs ys : List α) :
    split sep (xs ++ ys) =
      ((split sep xs).1 ++ (split sep ((split sep xs).2 ++ ys)).1,
        (split sep ((split sep xs).2 ++ ys)).2) := by
  have hxs := join_split sep xs
  calc split sep (xs ++ ys)
      = split sep (join sep (split sep xs).1 ++ ((split sep xs).2 ++ ys)) := by
        rw [← List.append_assoc, hxs]
    _ = _ := split_join (notMem_split sep xs).1 _

/-- A text is without separators, or it begins with a line. -/
theorem notMem_or_line (sep : α) (xs : List α) :
    sep ∉ xs ∨ ∃ line rest, sep ∉ line ∧ xs = line ++ sep :: rest := by
  have hsplit := join_split sep xs
  have hfree := notMem_split sep xs
  cases hlines : (split sep xs).1 with
  | nil =>
    rw [hlines, join_nil, List.nil_append] at hsplit
    rw [hsplit] at hfree
    exact .inl hfree.2
  | cons line lines =>
    rw [hlines, join_cons, List.append_assoc, List.cons_append] at hsplit
    rw [hlines] at hfree
    exact .inr ⟨line, _, hfree.1 line List.mem_cons_self, hsplit.symm⟩

end Lines
