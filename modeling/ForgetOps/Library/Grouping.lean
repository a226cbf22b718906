import Mathlib.Tactic

/-
  Pieces grouped by their key, the groups in the order in which their keys come first.

  `group_pieces`: pieces that come block by block, each block with a key of its own, are grouped to
  these blocks, without the empty ones.
-/

namespace Grouping

variable {κ β : Type} [DecidableEq κ]

/-- One more piece, in the group of its key or in a new one. -/
def add : List (κ × List β) → κ → β → List (κ × List β)
  | [], key, piece => [(key, [piece])]
  | (k, pieces) :: groups, key, piece =>
    if k = key then (k, pieces ++ [piece]) :: groups else (k, pieces) :: add groups key piece

def group (entries : List (κ × β)) : List (κ × List β) :=
  entries.foldl (fun groups entry => add groups entry.1 entry.2) []

/-- The pieces of blocks, one after the other. -/
def pieces (blocks : List (κ × List β)) : List (κ × β) :=
  blocks.flatMap fun block => block.2.map (block.1, ·)

variable {groups blocks : List (κ × List β)} {key : κ} {piece : β}

theorem add_of_notMem (h : key ∉ groups.map Prod.fst) :
    add groups key piece = groups ++ [(key, [piece])] := by
  induction groups with
  | nil => rfl
  | cons block groups ih =>
    rw [List.map_cons, List.mem_cons, not_or] at h
    rw [add, if_neg (Ne.symm h.1), ih h.2, List.cons_append]

theorem add_concat (h : key ∉ groups.map Prod.fst) (front : List β) :
    add (groups ++ [(key, front)]) key piece = groups ++ [(key, front ++ [piece])] := by
  induction groups with
  | nil => exact if_pos rfl
  | cons block groups ih =>
    rw [List.map_cons, List.mem_cons, not_or] at h
    rw [List.cons_append, add, if_neg (Ne.symm h.1), ih h.2, List.cons_append]

/-- A block that begins a new group becomes that group. -/
theorem foldl_add (h : key ∉ groups.map Prod.fst) (front rest : List β) :
    (rest.map (key, ·)).foldl (fun groups entry => add groups entry.1 entry.2)
      (groups ++ [(key, front)]) = groups ++ [(key, front ++ rest)] := by
  induction rest generalizing front with
  | nil => rw [List.map_nil, List.foldl_nil, List.append_nil]
  | cons piece rest ih =>
    rw [List.map_cons, List.foldl_cons, add_concat h, ih, List.append_assoc, List.singleton_append]

theorem group_pieces (h : (blocks.map Prod.fst).Nodup) :
    group (pieces blocks) = blocks.filter fun block => ¬ block.2.isEmpty := by
  induction blocks using List.reverseRecOn with
  | nil => rfl
  | append_singleton blocks block ih =>
    obtain ⟨key, list⟩ := block
    rw [List.map_append, List.nodup_append] at h
    have hkey : key ∉ (blocks.filter fun block => ¬ block.2.isEmpty).map Prod.fst := by
      intro hmem
      have hbefore := (List.filter_sublist.map Prod.fst).subset hmem
      exact h.2.2 key hbefore key (List.mem_singleton.mpr rfl) rfl
    have ih := ih h.1
    unfold group pieces at ih ⊢
    rw [List.flatMap_append, List.foldl_append, ih, List.filter_append, List.flatMap_singleton]
    cases list with
    | nil => simp
    | cons piece rest =>
      rw [List.map_cons, List.foldl_cons, add_of_notMem hkey, foldl_add hkey]
      simp

/-- No block is lost exactly if none is empty. -/
theorem group_pieces_iff (h : (blocks.map Prod.fst).Nodup) :
    (group (pieces blocks)).length = blocks.length ↔ ∀ block ∈ blocks, block.2 ≠ [] := by
  rw [group_pieces h, List.length_filter_eq_length_iff]
  simp

end Grouping
