import ForgetOps.Domain.CommandSpec

/-
  Commands are atomic.

  Every command checks all it checks before its first assignment, the transition it ends with
  included, so that a throw leaves the aggregate as it was. A command that returns records one
  event and moves as `Moves` says. Both hold in every state, the reachable ones among them.
-/

namespace ForgetOps.Domain

open PrivacyRequestAggregate

/-- How a command that returns moves the status. -/
def Moves (s next : PrivacyRequestStatus) : Command → Prop
  | .approvePlan _ => next = s
  | .attachPlan plan =>
    if plan.requiresApproval then s = .planning ∧ next = .awaitingApproval else next = s
  | _ => Edge s next

/-- The call either throws and changes nothing, or returns with one event and one version more. -/
structure Atomic (a : PrivacyRequestAggregate) (call : Call) : Prop where
  thrown : ∀ e, (invoke a call).1 = .error e → (invoke a call).2 = a
  returned : (invoke a call).1 = .ok () →
    (∃ e, (invoke a call).2.events = a.events ++ [e]) ∧
      (invoke a call).2.version = a.version + 1 ∧
      Moves a.status (invoke a call).2.status call.command

theorem Step.moves {a a' : PrivacyRequestAggregate} {call : Call} (h : Step a call a') :
    Moves a.status a'.status call.command := by
  cases h with
  | beginIdentityVerification _ hs | markIdentityVerified _ hs => exact hs
  | @attachPlan _ plan hs _ =>
    show if plan.requiresApproval then _ else _
    rw [advance_status]
    split
    · exact ⟨hs, rfl⟩
    · exact hs.symm
  | approvePlan hs => exact hs.symm
  | beginPlanning _ hs | rejectForChanges _ hs | rejectForGood _ hs | markExecuting _ hs
  | complete _ hs | invalidateAuthorization _ hs | cancelAuthorized _ hs =>
    show Edge _ _
    rw [hs, advance_status]
    decide
  | authorizeExecution _ hs =>
    show Edge _ _
    rw [advance_status]
    rcases hs with hs | hs <;> rw [hs] <;> decide
  | @leaveRunning _ _ command _ _ _ _ _ hl _ hs =>
    cases command with
    | markPartial | fail | markNeedsReview =>
      obtain ⟨rfl, -⟩ := Prod.mk.inj (Option.some.inj hl)
      show Edge _ _
      rw [hs, advance_status]
      decide
    | _ => cases hl
  | @leaveIdle _ command _ _ _ _ hl _ _ hs =>
    cases command with
    | markPartial | fail | markNeedsReview => exact hs
    | _ => cases hl
  | cancelIdle _ _ hs => exact hs
  | requestReplan _ hs => exact (edge_of_replannable hs).1
  | beginRetry _ hs => exact (edge_of_replannable hs).2
  | acceptRetainedOutcome _ hs =>
    show Edge _ _
    rw [advance_status]
    rcases hs with hs | hs <;> rw [hs] <;> decide

/-- Every command is atomic, in every state and whatever its arguments. -/
theorem command_atomic (a : PrivacyRequestAggregate) (call : Call) : Atomic a call := by
  rcases invoke_cases a call with ⟨hok, hstep⟩ | ⟨⟨err, herr⟩, hsame⟩
  · refine ⟨fun e he => ?_, fun _ => ?_⟩
    · rw [hok] at he
      cases he
    · obtain ⟨e, hevents, hversion, -⟩ := hstep.records
      exact ⟨⟨e, hevents⟩, hversion, hstep.moves⟩
  · refine ⟨fun _ _ => hsame, fun hok => ?_⟩
    rw [herr] at hok
    cases hok

end ForgetOps.Domain
