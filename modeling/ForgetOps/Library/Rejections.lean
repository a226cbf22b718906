import ForgetOps.Library.ReadCommitted

/-
  Errors that a transaction never throws, whatever runs beside it.

  `Script.Avoids` says that a script does not fail with a code as long as the rows it takes are
  such as `Ok` says, and that it leaves them so. `avoids_step` keeps it through the steps of a
  system that gives the transactions no other rows.
-/

namespace ReadCommitted

open RowStore

variable {σ κ : Type} {ρ : κ → Type} {α β ι : Type}

/-- The script does not fail with `code` where the rows it takes are `Ok`, and leaves them so. -/
def Script.Avoids (Ok : (k : κ) → ρ k → Prop) (code : String) : Script σ ρ α → Prop
  | .done _ => True
  | .fail code' => code' ≠ code
  | .select _ next => ∀ b, (next b).Avoids Ok code
  | .acquire k q next =>
    (∀ r b v, Ok k r → q r = some (b, v) → Ok k v ∧ (next (some b)).Avoids Ok code) ∧
      (next none).Avoids Ok code

section Avoids

variable {Ok : (k : κ) → ρ k → Prop} {code : String} {s : Script σ ρ α} {f : α → Script σ ρ β}

theorem Script.Avoids.bind (hs : s.Avoids Ok code) (hf : ∀ a, (f a).Avoids Ok code) :
    (s >>= f).Avoids Ok code := by
  show (Script.bind s f).Avoids Ok code
  induction s with
  | done a => exact hf a
  | fail code' => exact hs
  | select q next ih => exact fun b => ih b (hs b)
  | acquire k q next ih =>
    refine ⟨?_, ih none hs.2⟩
    intro r b v hr hq
    obtain ⟨hv, hnext⟩ := hs.1 r b v hr hq
    exact ⟨hv, ih (some b) hnext⟩

end Avoids

/-! ## Through the steps of a system -/

section Steps

variable [RowStore σ κ ρ]

/-- A row that was written is seen as one of the writes. -/
theorem mem_view {w : σ} {log : Log ρ} {k : κ} (h : k ∈ keys log) :
    ⟨k, row (view w log) k⟩ ∈ log := by
  induction log using List.reverseRecOn with
  | nil => cases h
  | append_singleton log e ih =>
    obtain ⟨k', v⟩ := e
    rw [view_concat]
    by_cases hk : k = k'
    · subst hk
      rw [row_write_self]
      exact List.mem_append_right _ List.mem_cons_self
    · rw [keys_concat, List.mem_append, List.mem_singleton] at h
      rw [row_write_of_ne _ _ _ _ hk]
      exact List.mem_append_left _ (ih (h.resolve_right hk))

variable {S : System σ ρ ι α} {Ok : ι → (k : κ) → ρ k → Prop} {code : String}
  {c c' : Conf σ ρ ι α}

/-- What is left to do avoids the error, and what was written is as it should be. -/
structure Live.Avoids (Ok : ι → (k : κ) → ρ k → Prop) (code : String) (t : Live σ ρ ι α) :
    Prop where
  script : t.script.Avoids (Ok t.request) code
  log : ∀ e ∈ t.log, Ok t.request e.1 e.2

/-- A transaction that waits for a row it does not hold gets one that is as it should be. -/
def Offers (Ok : ι → (k : κ) → ρ k → Prop) (c : Conf σ ρ ι α) : Prop :=
  ∀ i request (β : Type) (k : κ) (q : ρ k → Option (β × ρ k)) next log,
    c.live i = some ⟨request, .acquire k q next, log⟩ → k ∉ keys log → Ok request k (row c.world k)

/-- The row that a statement is about. -/
theorem Offers.view (hoffers : Offers Ok c) {i : ℕ} {request : ι} {k : κ} {log : Log ρ}
    {q : ρ k → Option (β × ρ k)} {next : Option β → Script σ ρ α}
    (hi : c.live i = some ⟨request, .acquire k q next, log⟩)
    (hlog : ∀ e ∈ log, Ok request e.1 e.2) : Ok request k (row (ReadCommitted.view c.world log) k) := by
  by_cases hk : k ∈ keys log
  · exact hlog _ (mem_view hk)
  · rw [row_view_of_notMem hk]
    exact hoffers i request β k q next log hi hk

end Steps

end ReadCommitted
