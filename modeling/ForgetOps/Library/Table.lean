import Mathlib.Tactic

/-
  Tables with a primary key.

  The rows are kept in the order in which their keys were first inserted; `set` replaces a row in
  place, appends a new one, or deletes one.
-/

@[ext]
structure Table (κ ρ : Type) where
  entries : List (κ × ρ)
  nodup : (entries.map Prod.fst).Nodup

namespace Table

variable {κ ρ : Type} [DecidableEq κ]

def empty : Table κ ρ := ⟨[], List.nodup_nil⟩

/-- The rows, without their keys. -/
def values (t : Table κ ρ) : List ρ := t.entries.map Prod.snd

def find (t : Table κ ρ) (k : κ) : Option ρ := t.entries.lookup k

def replace (entries : List (κ × ρ)) (k : κ) (v : ρ) : List (κ × ρ) :=
  entries.map fun e => if e.1 = k then (k, v) else e

omit [DecidableEq κ] in
theorem lookup_isSome_iff [BEq κ] [LawfulBEq κ] {entries : List (κ × ρ)} {k : κ} :
    (entries.lookup k).isSome = true ↔ k ∈ entries.map Prod.fst := by
  induction entries with
  | nil => simp
  | cons e entries ih =>
    obtain ⟨k', v⟩ := e
    by_cases h : k = k'
    · simp [h]
    · have hk : (k == k') = false := beq_false_of_ne h
      rw [List.lookup_cons, hk, ih, List.map_cons, List.mem_cons]
      exact ⟨.inr, fun hmem => hmem.resolve_left h⟩

theorem map_fst_replace (entries : List (κ × ρ)) (k : κ) (v : ρ) :
    (replace entries k v).map Prod.fst = entries.map Prod.fst := by
  rw [replace, List.map_map]
  apply List.map_congr_left
  intro e _
  by_cases h : e.1 = k <;> simp [h]

def set (t : Table κ ρ) (k : κ) : Option ρ → Table κ ρ
  | none =>
    ⟨t.entries.filter fun e => e.1 ≠ k,
      t.nodup.sublist (List.filter_sublist.map Prod.fst)⟩
  | some v =>
    if h : (t.find k).isSome = true then
      ⟨replace t.entries k v, by rw [map_fst_replace]; exact t.nodup⟩
    else
      ⟨t.entries ++ [(k, v)], by
        rw [List.map_append, List.nodup_append]
        refine ⟨t.nodup, List.nodup_singleton _, ?_⟩
        intro a ha b hb
        rw [List.mem_singleton.mp hb]
        rintro rfl
        exact h (lookup_isSome_iff.mpr ha)⟩

theorem mem_entries_iff {t : Table κ ρ} {k : κ} {v : ρ} :
    (k, v) ∈ t.entries ↔ t.find k = some v := by
  obtain ⟨entries, hnodup⟩ := t
  simp only [find]
  induction entries with
  | nil => simp
  | cons e entries ih =>
    obtain ⟨k', v'⟩ := e
    rw [List.map_cons, List.nodup_cons] at hnodup
    by_cases h : k = k'
    · subst h
      have hnot : (k, v) ∉ entries := fun hmem => hnodup.1 (List.mem_map.mpr ⟨_, hmem, rfl⟩)
      simp [hnot, eq_comm]
    · have hk : (k == k') = false := beq_false_of_ne h
      rw [List.lookup_cons, hk, ← ih hnodup.2, List.mem_cons, Prod.mk.injEq]
      exact ⟨fun hmem => hmem.resolve_left fun h' => h h'.1, .inr⟩

theorem mem_values_iff {t : Table κ ρ} {v : ρ} : v ∈ t.values ↔ ∃ k, t.find k = some v := by
  simp only [values, List.mem_map, Prod.exists, exists_eq_right, mem_entries_iff]

@[simp] theorem find_empty (k : κ) : (empty : Table κ ρ).find k = none := rfl

theorem entries_set_of_none {t : Table κ ρ} {k : κ} (h : t.find k = none) (v : ρ) :
    (t.set k (some v)).entries = t.entries ++ [(k, v)] := by
  simp [set, h]

theorem entries_set_of_some {t : Table κ ρ} {k : κ} {v' : ρ} (h : t.find k = some v') (v : ρ) :
    (t.set k (some v)).entries = replace t.entries k v := by
  simp [set, h]

theorem values_set_of_none {t : Table κ ρ} {k : κ} (h : t.find k = none) (v : ρ) :
    (t.set k (some v)).values = t.values ++ [v] := by
  rw [values, entries_set_of_none h, List.map_append]
  rfl

theorem mem_entries_set {t : Table κ ρ} {k k' : κ} {v : Option ρ} {v' : ρ} :
    (k', v') ∈ (t.set k v).entries ↔
      if k' = k then v = some v' else (k', v') ∈ t.entries := by
  cases v with
  | none =>
    by_cases h : k' = k <;> simp [set, h]
  | some v =>
    cases hf : t.find k with
    | none =>
      have hk : ∀ v', (k, v') ∉ t.entries := by
        intro v' hmem
        rw [mem_entries_iff, hf] at hmem
        cases hmem
      rw [entries_set_of_none hf]
      by_cases h : k' = k
      · subst h
        simp [hk, eq_comm]
      · simp [h]
    | some w =>
      rw [entries_set_of_some hf, replace, List.mem_map]
      by_cases h : k' = k
      · subst h
        rw [if_pos rfl]
        constructor
        · rintro ⟨⟨k₁, v₁⟩, hmem, heq⟩
          by_cases h₁ : k₁ = k'
          · simp [h₁] at heq
            rw [heq]
          · simp [h₁] at heq
        · intro heq
          cases heq
          exact ⟨(k', w), mem_entries_iff.mpr hf, by simp⟩
      · rw [if_neg h]
        constructor
        · rintro ⟨⟨k₁, v₁⟩, hmem, heq⟩
          by_cases h₁ : k₁ = k
          · simp [h₁] at heq
            exact absurd heq.1.symm h
          · simp [h₁] at heq
            obtain ⟨rfl, rfl⟩ := heq
            exact hmem
        · intro hmem
          exact ⟨(k', v'), hmem, by simp [h]⟩

@[simp] theorem find_set_self (t : Table κ ρ) (k : κ) (v : Option ρ) : (t.set k v).find k = v := by
  ext v'
  rw [← mem_entries_iff, mem_entries_set, if_pos rfl]

@[simp] theorem find_set_of_ne (t : Table κ ρ) {k k' : κ} (v : Option ρ) (h : k' ≠ k) :
    (t.set k v).find k' = t.find k' := by
  ext v'
  rw [← mem_entries_iff, mem_entries_set, if_neg h, mem_entries_iff]

/-- The rows at which a predicate holds. -/
def keep (t : Table κ ρ) (p : ρ → Bool) : Table κ ρ :=
  ⟨t.entries.filter fun e => p e.2, t.nodup.sublist (List.filter_sublist.map Prod.fst)⟩

theorem find_keep (t : Table κ ρ) (p : ρ → Bool) (k : κ) :
    (t.keep p).find k = (t.find k).filter p := by
  ext v
  rw [← mem_entries_iff, keep, List.mem_filter, mem_entries_iff, Option.filter_eq_some_iff]

/-- The rows as `f` shows them. -/
def mapValues {ρ' : Type} (t : Table κ ρ) (f : ρ → ρ') : Table κ ρ' :=
  ⟨t.entries.map fun e => (e.1, f e.2), by rw [List.map_map]; exact t.nodup⟩

theorem find_mapValues {ρ' : Type} (t : Table κ ρ) (f : ρ → ρ') (k : κ) :
    (t.mapValues f).find k = (t.find k).map f := by
  ext v
  rw [← mem_entries_iff, Option.map_eq_some_iff]
  show (k, v) ∈ t.entries.map (fun e => (e.1, f e.2)) ↔ _
  rw [List.mem_map]
  constructor
  · rintro ⟨⟨k', r⟩, hmem, heq⟩
    obtain ⟨rfl, rfl⟩ := Prod.mk.inj heq
    exact ⟨r, mem_entries_iff.mp hmem, rfl⟩
  · rintro ⟨r, hr, rfl⟩
    exact ⟨(k, r), mem_entries_iff.mpr hr, rfl⟩

/-- Writing a row back changes nothing. -/
theorem set_find (t : Table κ ρ) (k : κ) : t.set k (t.find k) = t := by
  apply Table.ext
  cases hf : t.find k with
  | none =>
    have hk : ∀ e ∈ t.entries, e.1 ≠ k := by
      rintro ⟨k', v⟩ hmem rfl
      rw [mem_entries_iff, hf] at hmem
      cases hmem
    simpa [set] using hk
  | some v =>
    rw [entries_set_of_some hf, replace, List.map_congr_left (g := id), List.map_id]
    rintro ⟨k', v'⟩ hmem
    by_cases h : k' = k
    · subst h
      rw [mem_entries_iff, hf] at hmem
      cases hmem
      simp
    · simp [h]

/-! ## Counting rows -/

section Count

variable (p : ρ → Prop) [DecidablePred p]

/-- How many rows have `p`. -/
def count (t : Table κ ρ) : Nat := (t.entries.filter fun e => p e.2).length

theorem length_filter_replace {entries : List (κ × ρ)} (hnodup : (entries.map Prod.fst).Nodup)
    {k : κ} {v' : ρ} (h : entries.lookup k = some v') (v : ρ) :
    ((replace entries k v).filter fun e => p e.2).length + (if p v' then 1 else 0) =
      (entries.filter fun e => p e.2).length + if p v then 1 else 0 := by
  induction entries with
  | nil => cases h
  | cons e entries ih =>
    obtain ⟨k₁, v₁⟩ := e
    rw [List.map_cons, List.nodup_cons] at hnodup
    by_cases hk : k₁ = k
    · subst hk
      rw [List.lookup_cons_self] at h
      cases h
      have hrest : replace entries k₁ v = entries := by
        rw [replace, List.map_congr_left (g := id), List.map_id]
        intro e he
        refine if_neg fun heq => hnodup.1 ?_
        have hmem := List.mem_map_of_mem (f := Prod.fst) he
        rwa [heq] at hmem
      have hcons : replace ((k₁, v') :: entries) k₁ v = (k₁, v) :: entries := by
        rw [replace, List.map_cons, if_pos rfl]
        exact congrArg _ hrest
      rw [hcons, List.filter_cons, List.filter_cons]
      by_cases hv : p v <;> by_cases hv' : p v' <;> simp [hv, hv']
    · have hne : (k == k₁) = false := beq_false_of_ne (Ne.symm hk)
      rw [List.lookup_cons, hne] at h
      have hrest := ih hnodup.2 h
      have hcons : replace ((k₁, v₁) :: entries) k v = (k₁, v₁) :: replace entries k v := by
        rw [replace, List.map_cons, if_neg hk]
        rfl
      rw [hcons, List.filter_cons, List.filter_cons]
      by_cases hv₁ : p v₁
      · simp only [hv₁, decide_true, if_true, List.length_cons]
        omega
      · simp only [hv₁, decide_false, Bool.false_eq_true, if_false]
        exact hrest

/-- A row more, where there was none or one without `p`. -/
theorem count_set (t : Table κ ρ) (k : κ) {v : ρ} (hv : p v) :
    (t.set k (some v)).count p =
      t.count p + if ∃ v', t.find k = some v' ∧ p v' then 0 else 1 := by
  unfold count
  cases hf : t.find k with
  | none =>
    rw [entries_set_of_none hf, List.filter_append, List.length_append, if_neg (by simp)]
    simp [hv]
  | some v' =>
    have hreplace := length_filter_replace p t.nodup (show t.entries.lookup k = some v' from hf) v
    rw [entries_set_of_some hf]
    rw [if_pos hv] at hreplace
    by_cases hv' : p v'
    · rw [if_pos ⟨v', rfl, hv'⟩]
      rw [if_pos hv'] at hreplace
      omega
    · rw [if_neg (by rintro ⟨w, ⟨⟩, hw⟩; exact hv' hw)]
      rw [if_neg hv'] at hreplace
      omega

end Count

end Table
