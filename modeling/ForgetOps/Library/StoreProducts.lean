import ForgetOps.Library.SequentialRuns

/-
  Two stores side by side, and invariants of single rows.

  A script on one of the stores is a script on both that leaves the rows of the other alone
  (`Script.first`, `Script.second`). `Reachable.rows` needs no rely relation: what every write keeps
  of its row, and nothing else touches, holds of every row in every run.
-/

namespace ReadCommitted

open RowStore

section Writes

variable {σ κ : Type} {ρ : κ → Type} {α : Type}

theorem Script.Writes.mono {P P' : (k : κ) → ρ k → ρ k → Prop} {s : Script σ ρ α}
    (h : s.Writes P) (hP : ∀ k r r', P k r r' → P' k r r') : s.Writes P' := by
  induction s with
  | done | fail => trivial
  | select q next ih => exact fun b => ih b (h b)
  | acquire k q next ih => exact ⟨fun r b v hq => hP k r v (h.1 r b v hq), fun b => ih b (h.2 b)⟩

end Writes

section Products

variable {σ τ κ μ : Type} {ρ : κ → Type} {π : μ → Type} {α β : Type}

/-- The rows of two stores. -/
abbrev SideBySide (ρ : κ → Type) (π : μ → Type) : κ ⊕ μ → Type := Sum.elim ρ π

instance [RowStore σ κ ρ] [RowStore τ μ π] : RowStore (σ × τ) (κ ⊕ μ) (SideBySide ρ π) where
  row
    | w, .inl k => row w.1 k
    | w, .inr m => row w.2 m
  write
    | w, .inl k, v => (write w.1 k v, w.2)
    | w, .inr m, v => (w.1, write w.2 m v)
  row_write_self w k v := by
    cases k with
    | inl k => exact row_write_self w.1 k v
    | inr m => exact row_write_self w.2 m v
  row_write_of_ne w k v k' h := by
    cases k with
    | inl k =>
      cases k' with
      | inl k' => exact row_write_of_ne w.1 k v k' fun heq => h (congrArg Sum.inl heq)
      | inr m' => rfl
    | inr m =>
      cases k' with
      | inl k' => rfl
      | inr m' => exact row_write_of_ne w.2 m v m' fun heq => h (congrArg Sum.inr heq)
  write_row w k := by
    cases k with
    | inl k => exact Prod.ext (write_row w.1 k) rfl
    | inr m => exact Prod.ext rfl (write_row w.2 m)

namespace Script

/-- A script on the first of two stores. -/
def first : Script σ ρ α → Script (σ × τ) (SideBySide ρ π) α
  | .done a => .done a
  | .fail code => .fail code
  | .select q next => .select (fun w => q w.1) fun b => (next b).first
  | .acquire k q next => .acquire (ρ := SideBySide ρ π) (.inl k) q fun b => (next b).first

/-- A script on the second of two stores. -/
def second : Script τ π α → Script (σ × τ) (SideBySide ρ π) α
  | .done a => .done a
  | .fail code => .fail code
  | .select q next => .select (fun w => q w.2) fun b => (next b).second
  | .acquire m q next => .acquire (ρ := SideBySide ρ π) (.inr m) q fun b => (next b).second

theorem first_bind (s : Script σ ρ β) (f : β → Script σ ρ α) :
    ((s >>= f).first : Script (σ × τ) (SideBySide ρ π) α) = s.first >>= fun b => (f b).first := by
  show (Script.bind s f).first = Script.bind s.first fun b => (f b).first
  induction s with
  | done | fail => rfl
  | select q next ih =>
    show Script.select _ _ = Script.select _ _
    congr 1
    funext b
    exact ih b
  | acquire k q next ih =>
    show Script.acquire _ _ _ = Script.acquire _ _ _
    congr 1
    funext b
    exact ih b

variable {P : (k : κ ⊕ μ) → SideBySide ρ π k → SideBySide ρ π k → Prop}

theorem writes_first {s : Script σ ρ α} (h : s.Writes fun k r r' => P (.inl k) r r') :
    (s.first (τ := τ)).Writes P := by
  induction s with
  | done | fail => trivial
  | select q next ih => exact fun b => ih b (h b)
  | acquire k q next ih => exact ⟨h.1, fun b => ih b (h.2 b)⟩

theorem writes_second {s : Script τ π α} (h : s.Writes fun m r r' => P (.inr m) r r') :
    (s.second (σ := σ)).Writes P := by
  induction s with
  | done | fail => trivial
  | select q next ih => exact fun b => ih b (h b)
  | acquire m q next ih => exact ⟨h.1, fun b => ih b (h.2 b)⟩

end Script

section Runs

variable [RowStore σ κ ρ] [RowStore τ μ π] {w : σ × τ} {log : Log (SideBySide ρ π)}

theorem run_first_read (q : σ → β) (f : β → Script (σ × τ) (SideBySide ρ π) α) :
    ((Script.read q : Script σ ρ β).first >>= f).run w log [] =
      (f (q (view w log).1)).run w log [] := rfl

theorem run_first_update {k : κ} {q : ρ k → Option (β × ρ k)} {b : β} {v : ρ k}
    (f : Option β → Script (σ × τ) (SideBySide ρ π) α)
    (h : q (row (view w log).1 k) = some (b, v)) :
    ((Script.update k q : Script σ ρ (Option β)).first >>= f).run w log [] =
      (f (some b)).run w (log ++ [⟨.inl k, v⟩]) [] :=
  run_update f h

theorem run_first_update_none {k : κ} {q : ρ k → Option (β × ρ k)}
    (f : Option β → Script (σ × τ) (SideBySide ρ π) α) (h : q (row (view w log).1 k) = none) :
    ((Script.update k q : Script σ ρ (Option β)).first >>= f).run w log [] =
      (f none).run w log [] :=
  run_update_none f h

end Runs

section Leads

variable [RowStore σ κ ρ] [RowStore τ μ π] {R : List (κ ⊕ μ) → σ × τ → σ × τ → Prop} {w : σ × τ}
  {p p' : Point (σ × τ) (SideBySide ρ π)}

/-- Behind writes on the first store the second is what it was. -/
theorem view_of_first {log : Log (SideBySide ρ π)} (h : ∀ k ∈ keys log, k.isLeft = true) :
    (view w log).2 = w.2 := by
  refine view_frame (K := fun k : κ ⊕ μ => k.isLeft = true) Prod.snd (fun w k v hk => ?_) h
  cases k with
  | inl k => rfl
  | inr m => cases hk

theorem view_concat_second (w : σ × τ) (log : Log (SideBySide ρ π)) (m : μ) (v : π m) :
    (view w (log ++ [⟨.inr m, v⟩])).2 = write (view w log).2 m v := by
  rw [view_append]
  rfl

/-- A script on the first store holds rows of the first store. -/
theorem leads_first {s : Script σ ρ α} {a : α} (h : Leads R w s.first p a p') :
    ∃ more, p'.log = p.log ++ more ∧ ∀ k ∈ keys more, k.isLeft = true :=
  h.1.log_eq (Script.writes_first ((Script.touches_all s).mono fun _ _ _ _ => rfl))

theorem leads_second_update {m : μ} {q : π m → Option (α × π m)} {answer : Option α} (hR : Rely R)
    (h : Leads R w (Script.update m q : Script τ π (Option α)).second p answer p') :
    (∃ b v, answer = some b ∧ q (row (view w p.log).2 m) = some (b, v) ∧
        p'.log = p.log ++ [⟨.inr m, v⟩]) ∨
      (answer = none ∧ p'.log = p.log) := by
  have h' : Leads R w (Script.update (σ := σ × τ) (ρ := SideBySide ρ π) (.inr m) q) p answer p' := h
  rcases leads_update hR h' with h' | ⟨hanswer, hlog, -⟩
  · exact .inl h'
  · exact .inr ⟨hanswer, hlog⟩

end Leads

end Products

/-! ## Part of a store -/

section Lenses

variable {σ σ' κ κ' : Type} {ρ : κ → Type} {ρ' : κ' → Type} {α β : Type}

/-- How one store is found in another, and its rows in the rows there. -/
structure StoreLens (σ : Type) {κ : Type} (ρ : κ → Type) (σ' : Type) {κ' : Type}
    (ρ' : κ' → Type) where
  get : σ' → σ
  key : κ → κ'
  getRow : (k : κ) → ρ' (key k) → ρ k
  putRow : (k : κ) → ρ' (key k) → ρ k → ρ' (key k)

/-- A statement on a row, on the row it is found in. -/
def StoreLens.statement (l : StoreLens σ ρ σ' ρ') (k : κ) (q : ρ k → Option (β × ρ k))
    (r : ρ' (l.key k)) : Option (β × ρ' (l.key k)) :=
  (q (l.getRow k r)).map fun answer => (answer.1, l.putRow k r answer.2)

theorem StoreLens.statement_eq_some {l : StoreLens σ ρ σ' ρ'} {k : κ} {q : ρ k → Option (β × ρ k)}
    {r v : ρ' (l.key k)} {b : β} (h : l.statement k q r = some (b, v)) :
    ∃ v', q (l.getRow k r) = some (b, v') ∧ v = l.putRow k r v' := by
  unfold StoreLens.statement at h
  obtain ⟨⟨b', v'⟩, hanswer, heq⟩ := Option.map_eq_some_iff.mp h
  obtain ⟨rfl, rfl⟩ := Prod.mk.inj heq
  exact ⟨v', hanswer, rfl⟩

namespace Script

/-- A script on a part of the store. -/
def along (l : StoreLens σ ρ σ' ρ') : Script σ ρ α → Script σ' ρ' α
  | .done a => .done a
  | .fail code => .fail code
  | .select q next => .select (fun w => q (l.get w)) fun b => (next b).along l
  | .acquire k q next => .acquire (l.key k) (l.statement k q) fun b => (next b).along l

theorem along_bind (l : StoreLens σ ρ σ' ρ') (s : Script σ ρ β) (f : β → Script σ ρ α) :
    (s >>= f).along l = s.along l >>= fun b => (f b).along l := by
  show (Script.bind s f).along l = Script.bind (s.along l) fun b => (f b).along l
  induction s with
  | done | fail => rfl
  | select q next ih =>
    show Script.select _ _ = Script.select _ _
    congr 1
    funext b
    exact ih b
  | acquire k q next ih =>
    show Script.acquire _ _ _ = Script.acquire _ _ _
    congr 1
    funext b
    exact ih b

/-- What the writes of a script keep, they keep in the rows they are found in. -/
theorem writes_along {l : StoreLens σ ρ σ' ρ'} {P : (k : κ') → ρ' k → ρ' k → Prop}
    {s : Script σ ρ α}
    (h : s.Writes fun k r v => ∀ r', l.getRow k r' = r → P (l.key k) r' (l.putRow k r' v)) :
    (s.along l).Writes P := by
  induction s with
  | done | fail => trivial
  | select q next ih => exact fun b => ih b (h b)
  | acquire k q next ih =>
    refine ⟨fun r b v hq => ?_, fun b => ih b (h.2 b)⟩
    obtain ⟨v', htaken, rfl⟩ := StoreLens.statement_eq_some hq
    exact h.1 _ _ _ htaken r rfl

end Script

end Lenses

section Rows

variable {σ κ : Type} {ρ : κ → Type} [RowStore σ κ ρ] {ι α : Type} {S : System σ ρ ι α}

/-- What a transaction holds stays as it is. -/
def HeldRows (held : List κ) (w w' : σ) : Prop := ∀ k ∈ held, row w k = row w' k

theorem rely_heldRows : Rely (HeldRows (σ := σ) (ρ := ρ)) where
  refl _ _ _ _ := rfl
  trans h h' k hk := (h k hk).trans (h' k hk)
  mono hsub h k hk := h k (hsub hk)
  agree h hk := h _ hk

/-- A property of single rows that every write keeps holds of all rows throughout a run, if no row
    is changed otherwise. -/
theorem Reachable.rows {Q : (k : κ) → ρ k → Prop}
    (body : ∀ request, (S.body request).Writes fun k r r' => Q k r → Q k r')
    (settle : ∀ request a w k, row (S.settle request a w) k = row w k)
    (environment : ∀ live w w', S.environment live w w' → ∀ k, row w' k = row w k)
    {w : σ} {c : Conf σ ρ ι α} (hc : Reachable S w c) (start : ∀ k, Q k (row w k)) (k : κ) :
    Q k (row c.world k) := by
  have hG : Guarantee S (fun w => ∀ k, Q k (row w k)) fun _ => HeldRows := by
    refine ⟨fun _ => rely_heldRows, ?_, ?_⟩
    · intro live w w' hw henv
      exact ⟨fun k => environment live w w' henv k ▸ hw k,
        fun _ _ _ k _ => (environment live w w' henv k).symm⟩
    · intro w u request a log hw _ _ _ completes
      refine ⟨fun k => ?_, fun _ held hheld k hk => ?_⟩
      · rw [settle]
        exact completes.writes (P := fun k r r' => Q k r → Q k r') (fun _ _ => id)
          (fun _ _ _ _ h h' => h' ∘ h) (body request) k (hw k)
      · rw [settle, row_view_of_notMem (hheld k hk)]
  exact hc.invariant hG start k

end Rows

end ReadCommitted
