import Mathlib.Data.Finset.Card
import Mathlib.Logic.Relation
import Mathlib.Tactic

/-
  Depth-first search for a cycle, and numberings of graphs without one.

  `search` keeps the nodes of the current path and reports a cycle where it comes back to one of
  them; a node is taken off the path again on the way back, so that shared parts of the graph are
  searched more than once. On a closed finite set of nodes every call returns with the path as it
  was (`search_returns`), at a depth that the set bounds. A finite graph has no cycle exactly when
  its nodes can be numbered downwards along the edges (`acyclic_iff_numbered`).
-/

namespace DepthFirst

variable {κ : Type}

/-! ## Graphs -/

/-- No node comes back to itself. -/
def Acyclic (r : κ → κ → Prop) : Prop := ∀ x, ¬ Relation.TransGen r x x

/-- The nodes can be numbered such that every edge leads to a smaller number. -/
def Numbered (r : κ → κ → Prop) : Prop := ∃ number : κ → ℕ, ∀ x y, r x y → number y < number x

theorem Numbered.acyclic {r : κ → κ → Prop} (h : Numbered r) : Acyclic r := by
  obtain ⟨number, hnumber⟩ := h
  have hdown {x y : κ} (hxy : Relation.TransGen r x y) : number y < number x := by
    induction hxy with
    | single hedge => exact hnumber _ _ hedge
    | tail _ hedge ih => exact (hnumber _ _ hedge).trans ih
  exact fun x hx => lt_irrefl _ (hdown hx)

/-- The nodes a node leads to are fewer and fewer along the edges. -/
theorem Acyclic.numbered {r : κ → κ → Prop} {nodes : Finset κ} (hnodes : ∀ x y, r x y → y ∈ nodes)
    (h : Acyclic r) : Numbered r := by
  classical
  refine ⟨fun x => (nodes.filter (Relation.TransGen r x)).card, ?_⟩
  intro x y hxy
  apply Finset.card_lt_card
  rw [Finset.ssubset_iff_of_subset]
  · exact ⟨y, Finset.mem_filter.mpr ⟨hnodes x y hxy, .single hxy⟩,
      fun hy => h y (Finset.mem_filter.mp hy).2⟩
  · intro z hz
    rw [Finset.mem_filter] at hz ⊢
    exact ⟨hz.1, .head hxy hz.2⟩

theorem acyclic_iff_numbered {r : κ → κ → Prop} {nodes : Finset κ}
    (hnodes : ∀ x y, r x y → y ∈ nodes) : Acyclic r ↔ Numbered r :=
  ⟨fun h => h.numbered hnodes, fun h => h.acyclic⟩

/-! ## The search -/

variable [DecidableEq κ]

/-- How a search can go wrong: on a node whose successors are missing, or for want of depth. -/
inductive Fault where
  | missing
  | depth
  deriving DecidableEq, Repr

/-- Whether one of the nodes has a cycle; the path is handed from one search to the next. -/
def anyCycle (search : κ → Finset κ → Except Fault (Bool × Finset κ)) :
    List κ → Finset κ → Except Fault (Bool × Finset κ)
  | [], path => .ok (false, path)
  | x :: xs, path =>
    match search x path with
    | .error fault => .error fault
    | .ok (true, path') => .ok (true, path')
    | .ok (false, path') => anyCycle search xs path'

/-- Whether a walk from `x` comes back to a node of the path or to itself. -/
def search (successors : κ → Option (List κ)) :
    ℕ → κ → Finset κ → Except Fault (Bool × Finset κ)
  | 0, _, _ => .error .depth
  | depth + 1, x, path =>
    if x ∈ path then .ok (true, path)
    else
      match successors x with
      | none => .error .missing
      | some xs =>
        match anyCycle (search successors depth) xs (insert x path) with
        | .error fault => .error fault
        | .ok (cycle, path') => .ok (cycle, path'.erase x)

variable {successors : κ → Option (List κ)} {nodes path : Finset κ} {x : κ}

/-- What a search has returned it returns at each greater depth. -/
theorem search_succ {depth : ℕ} {result : Bool × Finset κ}
    (h : search successors depth x path = .ok result) :
    search successors (depth + 1) x path = .ok result := by
  induction depth generalizing x path result with
  | zero => cases h
  | succ depth ih =>
    have hany : ∀ (xs : List κ) (path : Finset κ) result,
        anyCycle (search successors depth) xs path = .ok result →
          anyCycle (search successors (depth + 1)) xs path = .ok result := by
      intro xs
      induction xs with
      | nil => exact fun _ _ h => h
      | cons y ys ihys =>
        intro path result hrest
        rw [anyCycle] at hrest ⊢
        cases hy : search successors depth y path with
        | error fault => simp [hy] at hrest
        | ok found =>
          rw [ih hy]
          rw [hy] at hrest
          obtain ⟨_ | _, path'⟩ := found
          · exact ihys path' result hrest
          · exact hrest
    rw [search] at h ⊢
    split_ifs at h ⊢ with hpath
    · exact h
    · cases hxs : successors x with
      | none => simp [hxs] at h
      | some xs =>
        simp only [hxs] at h ⊢
        cases hrest : anyCycle (search successors depth) xs (insert x path) with
        | error fault => simp [hrest] at h
        | ok found =>
          rw [hany xs _ found hrest]
          rw [hrest] at h
          exact h

theorem search_mono {depth more : ℕ} (hle : depth ≤ more) {result : Bool × Finset κ}
    (h : search successors depth x path = .ok result) :
    search successors more x path = .ok result := by
  induction hle with
  | refl => exact h
  | step _ ih => exact search_succ ih

def Edge (successors : κ → Option (List κ)) (x y : κ) : Prop :=
  ∃ xs, successors x = some xs ∧ y ∈ xs

/-- Every node has its successors among the nodes. -/
def Closed (successors : κ → Option (List κ)) (nodes : Finset κ) : Prop :=
  ∀ x ∈ nodes, ∃ xs, successors x = some xs ∧ ∀ y ∈ xs, y ∈ nodes

/-- A walk from `x` comes to a node of the path, or to one on a cycle. -/
def ComesBack (successors : κ → Option (List κ)) (path : Finset κ) (x : κ) : Prop :=
  ∃ y, Relation.ReflTransGen (Edge successors) x y ∧
    (y ∈ path ∨ Relation.TransGen (Edge successors) y y)

/-- What comes back from `x` does so through one of its successors. -/
theorem comesBack_iff {xs : List κ} (hx : x ∉ path) (hxs : successors x = some xs) :
    ComesBack successors path x ↔ ∃ y ∈ xs, ComesBack successors (insert x path) y := by
  constructor
  · rintro ⟨z, hreach, hz⟩
    rcases hreach.cases_head with rfl | ⟨y, ⟨ys, hys, hy⟩, hyz⟩
    · -- the cycle through `x` itself
      obtain ⟨y, ⟨ys, hys, hy⟩, hyx⟩ := Relation.TransGen.head'_iff.mp (hz.resolve_left hx)
      obtain rfl := Option.some.inj (hxs.symm.trans hys)
      exact ⟨y, hy, x, hyx, .inl (Finset.mem_insert_self _ _)⟩
    · obtain rfl := Option.some.inj (hxs.symm.trans hys)
      exact ⟨y, hy, z, hyz, hz.imp_left Finset.mem_insert_of_mem⟩
  · rintro ⟨y, hy, z, hyz, hz⟩
    have hedge : Edge successors x y := ⟨xs, hxs, hy⟩
    rcases hz with hz | hz
    · rcases Finset.mem_insert.mp hz with rfl | hz
      · exact ⟨z, .refl, .inr (Relation.TransGen.head' hedge hyz)⟩
      · exact ⟨z, .head hedge hyz, .inl hz⟩
    · exact ⟨z, .head hedge hyz, .inr hz⟩

omit [DecidableEq κ] in
theorem anyCycle_returns {search : κ → Finset κ → Except Fault (Bool × Finset κ)}
    {P : κ → Prop} {xs : List κ}
    (h : ∀ x ∈ xs, ∃ cycle, search x path = .ok (cycle, path) ∧ (cycle = true ↔ P x)) :
    ∃ cycle, anyCycle search xs path = .ok (cycle, path) ∧ (cycle = true ↔ ∃ x ∈ xs, P x) := by
  induction xs with
  | nil => exact ⟨false, rfl, by simp⟩
  | cons x xs ih =>
    obtain ⟨cycle, hsearch, hcycle⟩ := h x List.mem_cons_self
    obtain ⟨cycle', hrest, hcycle'⟩ := ih fun y hy => h y (List.mem_cons_of_mem x hy)
    cases cycle with
    | true =>
      refine ⟨true, by rw [anyCycle, hsearch], iff_of_true rfl ?_⟩
      exact ⟨x, List.mem_cons_self, hcycle.mp rfl⟩
    | false =>
      refine ⟨cycle', by rw [anyCycle, hsearch]; exact hrest, ?_⟩
      rw [hcycle', List.exists_mem_cons_iff, or_iff_right]
      exact fun hx => Bool.noConfusion (hcycle.mpr hx)

/-- On a closed set of nodes the search returns, with the path as it was. The depth it needs is
    bounded by the nodes that are not on the path. -/
theorem search_returns (hnodes : Closed successors nodes) {depth : ℕ} (hx : x ∈ nodes)
    (hdepth : (nodes \ path).card < depth) :
    ∃ cycle, search successors depth x path = .ok (cycle, path) ∧
      (cycle = true ↔ ComesBack successors path x) := by
  induction depth generalizing x path with
  | zero => exact absurd hdepth (Nat.not_lt_zero _)
  | succ depth ih =>
    rw [search]
    by_cases hpath : x ∈ path
    · rw [if_pos hpath]
      exact ⟨true, rfl, iff_of_true rfl ⟨x, .refl, .inl hpath⟩⟩
    · obtain ⟨xs, hxs, hmem⟩ := hnodes x hx
      have hless : (nodes \ insert x path).card < depth := by
        have hsub : nodes \ insert x path ⊂ nodes \ path := by
          rw [Finset.ssubset_iff_of_subset
            (Finset.sdiff_subset_sdiff subset_rfl (Finset.subset_insert x path))]
          exact ⟨x, by simp [hx, hpath], by simp⟩
        have hlt := Finset.card_lt_card hsub
        omega
      obtain ⟨cycle, hany, hcycle⟩ := anyCycle_returns fun y hy => ih (hmem y hy) hless
      refine ⟨cycle, ?_, hcycle.trans (comesBack_iff hpath hxs).symm⟩
      simp only [if_neg hpath, hxs, hany, Finset.erase_insert hpath]

/-- No search ever asks for the successors of a node that has none. -/
theorem search_ne_missing (hnodes : Closed successors nodes) {depth : ℕ} (hx : x ∈ nodes) :
    search successors depth x path ≠ .error .missing := by
  induction depth generalizing x path with
  | zero => exact nofun
  | succ depth ih =>
    rw [search]
    by_cases hpath : x ∈ path
    · rw [if_pos hpath]
      exact nofun
    · obtain ⟨xs, hxs, hmem⟩ := hnodes x hx
      have hany : ∀ (ys : List κ), (∀ y ∈ ys, y ∈ nodes) → ∀ path,
          anyCycle (search successors depth) ys path ≠ .error .missing := by
        intro ys
        induction ys with
        | nil => exact fun _ _ => nofun
        | cons y ys ihys =>
          intro hys path
          rw [anyCycle]
          have hy : search successors depth y path ≠ .error .missing :=
            ih (hys y List.mem_cons_self)
          split
          · next fault hfault => exact fun h => hy (hfault.trans h)
          · exact nofun
          · exact ihys (fun z hz => hys z (List.mem_cons_of_mem y hz)) _
      simp only [if_neg hpath, hxs]
      have h := hany xs hmem (insert x path)
      split
      · next fault hfault => exact fun heq => h (hfault.trans heq)
      · exact nofun

omit [DecidableEq κ] in
/-- Nothing comes back from any node exactly if there is no cycle. -/
theorem acyclic_iff_forall (hedges : ∀ x y, Edge successors x y → x ∈ nodes) :
    Acyclic (Edge successors) ↔ ∀ x ∈ nodes, ¬ ComesBack successors ∅ x := by
  constructor
  · rintro h x - ⟨y, -, hy | hy⟩
    · exact absurd hy (Finset.notMem_empty y)
    · exact h y hy
  · intro h x hx
    obtain ⟨y, hxy, -⟩ := Relation.TransGen.head'_iff.mp hx
    exact h x (hedges x y hxy) ⟨x, .refl, .inr hx⟩

end DepthFirst
