import ForgetOps.Library.ReadCommitted

/-
  How a transaction that throws has run.

  `Script.caught` turns what a script throws into its answer, so that what is known of a script on
  its way to a commit is known of one on its way to a throw as well.
-/

namespace ReadCommitted

open RowStore

variable {σ κ : Type} {ρ : κ → Type} {α β ι : Type}

/-- The script with what it throws as an answer. -/
def Script.caught : Script σ ρ α → Script σ ρ (Except String α)
  | .done a => .done (.ok a)
  | .fail code => .done (.error code)
  | .select q next => .select q fun b => (next b).caught
  | .acquire k q next => .acquire k q fun b => (next b).caught

@[simp] theorem caught_pure (a : α) : (pure a : Script σ ρ α).caught = pure (.ok a) := rfl

@[simp] theorem caught_fail (code : String) :
    (.fail code : Script σ ρ α).caught = pure (.error code) := rfl

@[simp] theorem caught_read_bind (q : σ → β) (f : β → Script σ ρ α) :
    (Script.read q >>= f).caught = Script.read q >>= fun b => (f b).caught := rfl

variable [RowStore σ κ ρ] {R : List κ → σ → σ → Prop}

theorem Runs.caught {s₀ s : Script σ ρ α} {p₀ p : Point σ ρ} (h : Runs R s₀ p₀ s p) :
    Runs R s₀.caught p₀ s.caught p := by
  induction h with
  | refl => exact .refl
  | wait _ hstep ih => exact ih.wait hstep
  | select _ ih => exact ih.select
  | take _ hq ih => exact ih.take hq
  | skip _ hq ih => exact ih.skip hq

theorem Completes.caught {w : σ} {s : Script σ ρ α} {p p' : Point σ ρ} {a : α}
    (h : Completes R w s p a p') : Completes R w s.caught p (.ok a) p' := by
  induction h with
  | done => exact .done
  | wait hstep _ ih => exact ih.wait hstep
  | select _ ih => exact ih.select
  | take hq _ ih => exact ih.take hq
  | skip hq _ ih => exact ih.skip hq

variable {S : System σ ρ ι α} {Inv : σ → Prop} {R : ι → List κ → σ → σ → Prop} {c : Conf σ ρ ι α}

end ReadCommitted
