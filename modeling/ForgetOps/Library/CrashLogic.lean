import Mathlib.Tactic

/-
  Programs that perform effects, and that may crash while they do.

  A `Prog` is a tree of effects with their continuations. An environment says which answers an
  effect may get in a state and which state it leaves; a crash during an effect leaves the state
  from before it, or one in which the effect has happened. `Run` is one run, and `wp` the weakest
  precondition of a postcondition on what the program returns and a condition on crashes.
  `wp_sound` connects the two, `calls_induction` is the rule for what holds over any number of
  runs, each of which may have crashed.
-/

namespace CrashLogic

variable {E : Type} {R : E → Type} {α β ε σ : Type}

inductive Prog (E : Type) (R : E → Type) (α : Type) where
  | pure (a : α)
  | perform (e : E) (next : R e → Prog E R α)

namespace Prog

def bind (f : α → Prog E R β) : Prog E R α → Prog E R β
  | pure a => f a
  | perform e next => perform e fun r => bind f (next r)

instance : Monad (Prog E R) where
  pure := Prog.pure
  bind x f := x.bind f

/-- One effect, whose answer is returned. -/
def effect (e : E) : Prog E R (R e) := perform e pure

end Prog

open Prog

/-- `answers s e r s'`: in the state `s` the effect `e` may answer `r` and leave `s'`. -/
abbrev Env (E : Type) (R : E → Type) (σ : Type) := σ → (e : E) → R e → σ → Prop

/-! ## Runs -/

/-- A run from one state to another; it returns a value, or nothing where it crashed. -/
inductive Run (env : Env E R σ) : Prog E R α → σ → Option α → σ → Prop
  | pure {a s} : Run env (.pure a) s (some a) s
  | lost {e next s} : Run env (.perform e next) s none s
  | late {e next s r s'} : env s e r s' → Run env (.perform e next) s none s'
  | perform {e next s r s' o s''} :
      env s e r s' → Run env (next r) s' o s'' → Run env (.perform e next) s o s''

/-- Any number of runs of the program, one after the other. -/
def Calls (env : Env E R σ) (prog : Prog E R α) : σ → σ → Prop :=
  Relation.ReflTransGen fun s s' => ∃ o, Run env prog s o s'

/-! ## Weakest preconditions -/

/-- Whatever the environment answers, the program returns with `Q`, and `C` holds where it
    crashes. -/
def wp (env : Env E R σ) : Prog E R α → (α → σ → Prop) → (σ → Prop) → σ → Prop
  | .pure a, Q, _, s => Q a s
  | .perform e next, Q, C, s =>
    C s ∧ ∀ r s', env s e r s' → C s' ∧ wp env (next r) Q C s'

section Rules

variable {env : Env E R σ} {C : σ → Prop} {s s' : σ}

theorem wp_sound {prog : Prog E R α} {Q : α → σ → Prop} {o : Option α}
    (hrun : Run env prog s o s') (h : wp env prog Q C s) :
    o.elim (C s') (fun a => Q a s') := by
  induction hrun with
  | pure => exact h
  | lost => exact h.1
  | late hanswer => exact (h.2 _ _ hanswer).1
  | perform hanswer _ ih => exact ih (h.2 _ _ hanswer).2

@[simp] theorem wp_pure {a : α} {Q : α → σ → Prop} :
    wp env (Pure.pure a : Prog E R α) Q C s ↔ Q a s := Iff.rfl

theorem wp_bind {x : Prog E R α} {f : α → Prog E R β} {Q : β → σ → Prop} :
    wp env (x >>= f) Q C s ↔ wp env x (fun a s' => wp env (f a) Q C s') C s := by
  show wp env (x.bind f) Q C s ↔ _
  induction x generalizing s with
  | pure a => rfl
  | perform e next ih =>
    unfold Prog.bind wp
    simp only [ih]

theorem wp_mono {x : Prog E R α} {Q Q' : α → σ → Prop} (hQ : ∀ a s, Q a s → Q' a s)
    (h : wp env x Q C s) : wp env x Q' C s := by
  induction x generalizing s with
  | pure a => exact hQ a s h
  | perform e next ih =>
    refine ⟨h.1, fun r s' hanswer => ?_⟩
    have hnext := h.2 r s' hanswer
    exact ⟨hnext.1, ih r hnext.2⟩

/-- The rule for `x.await?`: an error ends the program. -/
theorem wp_try {x : ExceptT ε (Prog E R) α} {f : α → ExceptT ε (Prog E R) β}
    {Q : Except ε β → σ → Prop} :
    wp env (x >>= f).run Q C s ↔
      wp env x.run (fun r s' => match r with
        | .ok a => wp env (f a).run Q C s'
        | .error e => Q (.error e) s') C s := by
  rw [ExceptT.run_bind, wp_bind]
  refine iff_of_eq (congrArg (fun P => wp env x.run P C s) ?_)
  funext r s'
  cases r <;> rfl

/-- What every run keeps, wherever it ends, is kept by any number of runs. -/
theorem calls_induction {prog : Prog E R α} {P : σ → Prop}
    (hkeep : ∀ s, P s → wp env prog (fun _ => P) P s) (hcalls : Calls env prog s s') (h : P s) :
    P s' := by
  induction hcalls with
  | refl => exact h
  | tail _ hrun ih =>
    obtain ⟨o, hrun⟩ := hrun
    have hend := wp_sound hrun (hkeep _ ih)
    cases o with
    | none => exact hend
    | some a => exact hend

end Rules

end CrashLogic
