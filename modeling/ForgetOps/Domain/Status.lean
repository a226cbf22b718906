import Mathlib.Tactic

/-
  Request statuses, the transition table and the domain errors
  (`packages/domain/src/privacy-request/{status,errors,privacy-request}.ts`).

  `transitions` is the table every command of the aggregate asserts against. `Edge` is its
  relation, and `Path n` is `n` moves each of which is an edge or a stay: the shape of the status
  change behind `n` domain events.
-/

namespace ForgetOps.Domain

inductive PrivacyRequestStatus where
  | created
  | identityVerificationPending
  | identityVerified
  | planning
  | awaitingApproval
  | executionAuthorized
  | executing
  | needsReview
  | completed
  | partiallyCompleted
  | failed
  | cancelled
  deriving DecidableEq, Repr

open PrivacyRequestStatus

def transitions : PrivacyRequestStatus → List PrivacyRequestStatus
  | created => [identityVerificationPending, identityVerified, cancelled]
  | identityVerificationPending => [identityVerified, failed, cancelled]
  | identityVerified => [planning, cancelled]
  | planning => [awaitingApproval, executionAuthorized, failed, cancelled]
  | awaitingApproval => [executionAuthorized, planning, cancelled]
  | executionAuthorized => [executing, awaitingApproval, cancelled]
  | executing => [completed, partiallyCompleted, failed, needsReview]
  | completed => []
  | partiallyCompleted => [planning, executionAuthorized, needsReview, completed]
  | failed => [planning, executionAuthorized, needsReview, cancelled]
  | needsReview => [planning, executionAuthorized, partiallyCompleted, completed, cancelled]
  | cancelled => []

/-- `next` is listed under `from` in the transition table. -/
def Edge (s next : PrivacyRequestStatus) : Prop := next ∈ transitions s

instance (s next : PrivacyRequestStatus) : Decidable (Edge s next) :=
  inferInstanceAs (Decidable (_ ∈ _))

/-- One edge of the table, or no change of status. -/
def EdgeOrStay (s next : PrivacyRequestStatus) : Prop := next = s ∨ Edge s next

instance (s next : PrivacyRequestStatus) : Decidable (EdgeOrStay s next) :=
  inferInstanceAs (Decidable (_ ∨ _))

/-- `n` moves, each an edge or a stay. -/
inductive Path : Nat → PrivacyRequestStatus → PrivacyRequestStatus → Prop
  | nil (s : PrivacyRequestStatus) : Path 0 s s
  | snoc {n : Nat} {s t u : PrivacyRequestStatus} :
      Path n s t → EdgeOrStay t u → Path (n + 1) s u

theorem eq_of_path_zero {s t : PrivacyRequestStatus} (h : Path 0 s t) : t = s := by
  cases h
  rfl

theorem Path.trans {m n : Nat} {s t u : PrivacyRequestStatus} (h : Path m s t)
    (h' : Path n t u) : Path (m + n) s u := by
  induction h' with
  | nil => exact h
  | snoc _ e ih => exact (ih h).snoc e

/-- The statuses the table has no way out of: `status in ('completed', 'cancelled')`. -/
def finished (s : PrivacyRequestStatus) : Prop := s = completed ∨ s = cancelled

instance : DecidablePred finished := fun _ => inferInstanceAs (Decidable (_ ∨ _))

theorem not_edge_of_finished {s next : PrivacyRequestStatus} (h : finished s) :
    ¬ Edge s next := by
  rcases h with rfl | rfl <;> simp [Edge, transitions]

inductive DomainError where
  /-- `StateConflictError`, code `REQUEST_STATE_CONFLICT`. -/
  | stateConflict (fromState toState : PrivacyRequestStatus)
  /-- `PlanVersionMismatchError`, code `PLAN_VERSION_MISMATCH`. -/
  | planVersionMismatch
  | rangeError (message : String)
  /-- Whatever the injected `now()` throws. -/
  | clock
  deriving DecidableEq, Repr

end ForgetOps.Domain
