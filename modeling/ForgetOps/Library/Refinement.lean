import ForgetOps.Library.Interference

/-
  One environment in the place of another.

  `Simulates` is a forward simulation between environments, effect by effect. What clients do with
  the one they can do with the other: a single run, any number of runs with crashes, and any number
  of programs side by side.
-/

namespace CrashLogic

open Prog

variable {E : Type} {R : E → Type} {α σ τ : Type}

/-- From related states, whatever the first environment answers, the second may answer too, and
    they are related again. -/
def Simulates (Rel : σ → τ → Prop) (env : Env E R σ) (env' : Env E R τ) : Prop :=
  ∀ s t e r s', Rel s t → env s e r s' → ∃ t', env' t e r t' ∧ Rel s' t'

section Simulation

variable {Rel : σ → τ → Prop} {env : Env E R σ} {env' : Env E R τ} {prog : Prog E R α} {s s' : σ}
  {t : τ}

theorem Simulates.run (h : Simulates Rel env env') {o : Option α} (hrun : Run env prog s o s')
    (hst : Rel s t) : ∃ t', Run env' prog t o t' ∧ Rel s' t' := by
  induction hrun generalizing t with
  | pure => exact ⟨t, .pure, hst⟩
  | lost => exact ⟨t, .lost, hst⟩
  | late hanswer =>
    obtain ⟨t', hanswer', hst'⟩ := h _ _ _ _ _ hst hanswer
    exact ⟨t', .late hanswer', hst'⟩
  | perform hanswer _ ih =>
    obtain ⟨t₁, hanswer', hst₁⟩ := h _ _ _ _ _ hst hanswer
    obtain ⟨t', hrun', hst'⟩ := ih hst₁
    exact ⟨t', .perform hanswer' hrun', hst'⟩

theorem Simulates.calls (h : Simulates Rel env env') (hcalls : Calls env prog s s')
    (hst : Rel s t) : ∃ t', Calls env' prog t t' ∧ Rel s' t' := by
  induction hcalls with
  | refl => exact ⟨t, .refl, hst⟩
  | tail _ hrun ih =>
    obtain ⟨t₁, hcalls', hst₁⟩ := ih
    obtain ⟨o, hrun⟩ := hrun
    obtain ⟨t', hrun', hst'⟩ := h.run hrun hst₁
    exact ⟨t', hcalls'.tail ⟨o, hrun'⟩, hst'⟩

/-- The same programs are as far, have returned the same, and their states are related. -/
structure Pool.Related (Rel : σ → τ → Prop) (p : Pool E R α σ) (q : Pool E R α τ) : Prop where
  state : Rel p.state q.state
  live : p.live = q.live
  returned : p.returned = q.returned

theorem Simulates.poolStep {env : ℕ → Env E R σ} {env' : ℕ → Env E R τ}
    (h : ∀ i, Simulates Rel (env i) (env' i)) {starts : Prog E R α → Prop} {p p' : Pool E R α σ}
    {q : Pool E R α τ} (hstep : PoolStep env starts p p') (hpq : p.Related Rel q) :
    ∃ q', PoolStep env' starts q q' ∧ p'.Related Rel q' := by
  obtain ⟨hstate, hlive, hreturned⟩ := hpq
  cases hstep with
  | @start i prog hfree hprog =>
    rw [hlive] at hfree
    exact ⟨_, .start hfree hprog, hstate, by rw [hlive], hreturned⟩
  | kill => exact ⟨_, .kill, hstate, by rw [hlive], hreturned⟩
  | @finish i a hi =>
    rw [hlive] at hi
    exact ⟨_, .finish hi, hstate, by rw [hlive], by rw [hreturned]⟩
  | @perform i e next r s' hi hanswer =>
    rw [hlive] at hi
    obtain ⟨t', hanswer', hst'⟩ := h i _ _ _ _ _ hstate hanswer
    exact ⟨_, .perform hi hanswer', hst', by rw [hlive], hreturned⟩

/-- **Contextual refinement**: clients side by side see nothing of the first environment that the
    second could not show them. -/
theorem Simulates.pool {env : ℕ → Env E R σ} {env' : ℕ → Env E R τ}
    (h : ∀ i, Simulates Rel (env i) (env' i)) {starts : Prog E R α → Prop} {p p' : Pool E R α σ}
    {q : Pool E R α τ} (hsteps : Relation.ReflTransGen (PoolStep env starts) p p')
    (hpq : p.Related Rel q) :
    ∃ q', Relation.ReflTransGen (PoolStep env' starts) q q' ∧ p'.Related Rel q' := by
  induction hsteps with
  | refl => exact ⟨q, .refl, hpq⟩
  | tail _ hstep ih =>
    obtain ⟨q₁, hsteps', hpq₁⟩ := ih
    obtain ⟨q', hstep', hpq'⟩ := Simulates.poolStep h hstep hpq₁
    exact ⟨q', hsteps'.tail hstep', hpq'⟩

end Simulation

end CrashLogic
