import Mathlib.Tactic

/-
  Non-interference of the owners of a machine, by unwinding.

  Every event has an owner. An owner sees the same in a run and in the run of its own events alone if
  there is a relation of states that look the same to it, which the events of the others do not leave
  and which its own events keep.
-/

namespace Unwinding

variable {σ ε δ : Type}

def run (step : σ → ε → σ) (s : σ) (events : List ε) : σ := events.foldl step s

/-- `same` relates what looks the same to `d` in the states with `Inv`, under the events that are
    allowed. -/
structure Unwinds (step : σ → ε → σ) (owner : ε → δ) (allowed : ε → Prop) (d : δ)
    (Inv : σ → Prop) (same : σ → σ → Prop) : Prop where
  keeps : ∀ s e, Inv s → allowed e → Inv (step s e)
  others : ∀ s t e, Inv s → same s t → allowed e → owner e ≠ d → same (step s e) t
  own : ∀ s t e, Inv s → Inv t → same s t → allowed e → owner e = d →
    same (step s e) (step t e)

variable {step : σ → ε → σ} {owner : ε → δ} {allowed : ε → Prop} {d : δ} {Inv : σ → Prop}
  {same : σ → σ → Prop}

/-- The rule for runs. -/
theorem Unwinds.run [DecidableEq δ] (h : Unwinds step owner allowed d Inv same) (events : List ε)
    (hallowed : ∀ e ∈ events, allowed e) {s t : σ} (hs : Inv s) (ht : Inv t) (hsame : same s t) :
    same (run step s events) (run step t (events.filter fun e => owner e = d)) := by
  induction events generalizing s t with
  | nil => exact hsame
  | cons e events ih =>
    have he := hallowed e List.mem_cons_self
    have hrest : ∀ e ∈ events, allowed e := fun e' he' => hallowed e' (List.mem_cons_of_mem _ he')
    have hs' := h.keeps s e hs he
    by_cases howner : owner e = d
    · rw [List.filter_cons_of_pos (by simpa using howner)]
      exact ih hrest hs' (h.keeps t e ht he) (h.own s t e hs ht hsame he howner)
    · rw [List.filter_cons_of_neg (by simpa using howner)]
      exact ih hrest hs' ht (h.others s t e hs hsame he howner)

end Unwinding
