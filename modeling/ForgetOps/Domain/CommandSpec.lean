import ForgetOps.Domain.PrivacyRequest

/-
  What one call on the aggregate can do.

  `Step a call a'` lists, command by command, the guard under which the call returns and the
  aggregate it leaves. `invoke_ok_step` is the inversion (a call that returns is a `Step`),
  `invoke_error_eq` says that a call that throws changed nothing, and `after_induction` is the
  rule every invariant over whole runs is proved with: the start, and one `Step`.
-/

namespace ForgetOps.Domain

open PrivacyRequestAggregate

/-! ## Running methods -/

section Exec

variable {α β : Type} {a a' : PrivacyRequestAggregate}

theorem exec_bind (x : Method α) (f : α → Method β) (a : PrivacyRequestAggregate) :
    (x >>= f).exec a = match x.exec a with
      | (.ok v, a') => (f v).exec a'
      | (.error e, a') => (.error e, a') := by
  show (ExceptT.bind x f).run.run a = _
  simp only [Method.exec, ExceptT.bind, ExceptT.run, ExceptT.mk, StateT.run, bind, StateT.bind]
  rcases x a with ⟨v | e, a'⟩ <;> rfl

@[simp] theorem exec_bind_ok {x : Method α} {f : α → Method β} {v : β} :
    (x >>= f).exec a = (.ok v, a') ↔
      ∃ u b, x.exec a = (.ok u, b) ∧ (f u).exec b = (.ok v, a') := by
  rw [exec_bind]
  rcases x.exec a with ⟨e | u, b⟩ <;> simp

@[simp] theorem exec_bind_error {x : Method α} {f : α → Method β} {e : DomainError} :
    (x >>= f).exec a = (.error e, a') ↔
      x.exec a = (.error e, a') ∨ ∃ u b, x.exec a = (.ok u, b) ∧ (f u).exec b = (.error e, a') := by
  rw [exec_bind]
  rcases x.exec a with ⟨e | u, b⟩ <;> simp

@[simp] theorem exec_pure (v : α) : (pure v : Method α).exec a = (.ok v, a) := rfl

@[simp] theorem exec_throw (e : DomainError) : (throw e : Method α).exec a = (.error e, a) := rfl

@[simp] theorem exec_get : (get : Method PrivacyRequestAggregate).exec a = (.ok a, a) := rfl

@[simp] theorem exec_get_bind (f : PrivacyRequestAggregate → Method α) :
    (get >>= f : Method α).exec a = (f a).exec a := by
  rw [exec_bind, exec_get]

@[simp] theorem exec_modify (f : PrivacyRequestAggregate → PrivacyRequestAggregate) :
    (modify f : Method PUnit).exec a = (.ok ⟨⟩, f a) := rfl

@[simp] theorem exec_map (f : α → β) (x : Method α) :
    (f <$> x).exec a = (x >>= fun v => pure (f v)).exec a := by
  show (ExceptT.map f x).run.run a = _
  rw [exec_bind]
  simp only [Method.exec, ExceptT.map, ExceptT.run, ExceptT.mk, StateT.run, bind, StateT.bind]
  rcases x a with ⟨v | e, a'⟩ <;> rfl

@[simp] theorem exec_modify_bind (f : PrivacyRequestAggregate → PrivacyRequestAggregate)
    (g : PUnit → Method α) : (modify f >>= g : Method α).exec a = (g ⟨⟩).exec (f a) := by
  rw [exec_bind, exec_modify]

@[simp] theorem exec_throwIf_ok {c : Prop} [Decidable c] {err : DomainError} {u : Unit} :
    (throwIf c err).exec a = (.ok u, a') ↔ ¬ c ∧ a = a' := by
  by_cases h : c <;> simp [throwIf, h]

@[simp] theorem exec_throwIf_error {c : Prop} [Decidable c] {err e : DomainError} :
    (throwIf c err).exec a = (.error e, a') ↔ c ∧ err = e ∧ a = a' := by
  by_cases h : c <;> simp [throwIf, h]

theorem exec_ite {c : Prop} [Decidable c] (x y : Method α) :
    (if c then x else y).exec a = if c then x.exec a else y.exec a := by
  split <;> rfl

end Exec

/-! ## The helpers -/

section Helpers

variable {a a' : PrivacyRequestAggregate} {e : DomainError}

@[simp] theorem assertStatus_ok {s t : PrivacyRequestStatus} {u : Unit} :
    (assertStatus s t).exec a = (.ok u, a') ↔ a.status = s ∧ a = a' := by
  simp [assertStatus]

@[simp] theorem assertStatus_error {s t : PrivacyRequestStatus} :
    (assertStatus s t).exec a = (.error e, a') ↔
      a.status ≠ s ∧ .stateConflict a.status t = e ∧ a = a' := by
  simp [assertStatus]

@[simp] theorem assertCanTransition_ok {s : PrivacyRequestStatus} {u : Unit} :
    (assertCanTransition s).exec a = (.ok u, a') ↔ Edge a.status s ∧ a = a' := by
  simp [assertCanTransition]

@[simp] theorem assertCanTransition_error {s : PrivacyRequestStatus} :
    (assertCanTransition s).exec a = (.error e, a') ↔
      ¬ Edge a.status s ∧ .stateConflict a.status s = e ∧ a = a' := by
  simp [assertCanTransition]

@[simp] theorem readClock_ok {now : Option String} {t : String} :
    (readClock now).exec a = (.ok t, a') ↔ now = some t ∧ a = a' := by
  cases now <;> simp [readClock]

@[simp] theorem readClock_error {now : Option String} :
    (readClock now).exec a = (.error e, a') ↔ now = none ∧ .clock = e ∧ a = a' := by
  cases now <;> simp [readClock]

/-- The plan the request carries is bound to `binding`. -/
def PlanBound (a : PrivacyRequestAggregate) (binding : PlanBinding) : Prop :=
  ∃ plan, a.plan = some plan ∧ plan.toPlanBinding = binding

theorem binding_eq_iff (b b' : PlanBinding) :
    b = b' ↔ ¬ (b.planId ≠ b'.planId ∨ b.planVersion ≠ b'.planVersion ∨
      b.planFingerprint ≠ b'.planFingerprint) := by
  cases b
  cases b'
  simp

@[simp] theorem assertPlanBinding_ok {binding : PlanBinding} {u : Unit} :
    (assertPlanBinding binding).exec a = (.ok u, a') ↔ PlanBound a binding ∧ a = a' := by
  cases hp : a.plan with
  | none => simp [assertPlanBinding, PlanBound, hp]
  | some plan => simp [assertPlanBinding, PlanBound, hp, binding_eq_iff]

@[simp] theorem assertPlanBinding_error {binding : PlanBinding} :
    (assertPlanBinding binding).exec a = (.error e, a') ↔
      ¬ PlanBound a binding ∧ .planVersionMismatch = e ∧ a = a' := by
  cases hp : a.plan with
  | none => simp [assertPlanBinding, PlanBound, hp]
  | some plan =>
    simp only [assertPlanBinding, PlanBound, hp, binding_eq_iff, exec_get_bind,
      exec_throwIf_error, Option.some.injEq, exists_eq_left', not_not]

def StepScope (xs : List String) : Prop :=
  ¬ (xs.length = 0 ∨ xs.any (· = "") ∨ ¬ allDistinct xs)

@[simp] theorem normalizeAllowedStepIds_ok {xs ys : List String} :
    (normalizeAllowedStepIds xs).exec a = (.ok ys, a') ↔ StepScope xs ∧ xs = ys ∧ a = a' := by
  unfold normalizeAllowedStepIds StepScope
  simp only [exec_bind_ok, exec_throwIf_ok]
  simp

@[simp] theorem normalizeAllowedStepIds_error {xs : List String} :
    (normalizeAllowedStepIds xs).exec a = (.error e, a') ↔
      ¬ StepScope xs ∧ .rangeError "EXECUTION_ATTEMPT_STEP_SCOPE_INVALID" = e ∧ a = a' := by
  unfold normalizeAllowedStepIds StepScope
  simp only [exec_bind_error, exec_throwIf_error, not_not]
  simp

@[simp] theorem normalizeAuditReason_ok {reason r : String} :
    (normalizeAuditReason reason).exec a = (.ok r, a') ↔
      auditReasonPattern reason = true ∧ reason = r ∧ a = a' := by
  simp only [normalizeAuditReason, exec_bind_ok, exec_throwIf_ok]
  simp

@[simp] theorem normalizeAuditReason_error {reason : String} :
    (normalizeAuditReason reason).exec a = (.error e, a') ↔
      auditReasonPattern reason = false ∧ .rangeError "AUDIT_REASON_INVALID" = e ∧ a = a' := by
  simp [normalizeAuditReason]

/-- The attempt `buildAttempt` returns. -/
def newAttempt (a : PrivacyRequestAggregate) (t id : String) (kind : AttemptKind)
    (binding : PlanBinding) (steps : List String) (status : ExecutionAttemptStatus) :
    ExecutionAttempt :=
  { binding with
    id, requestId := a.id, attemptNumber := a.attempts.length + 1, kind, allowedStepIds := steps,
    status, createdAt := t, completedAt := none }

def FreshAttemptId (a : PrivacyRequestAggregate) (id : String) : Prop :=
  ¬ (id = "" ∨ a.attempts.any (·.id = id))

@[simp] theorem buildAttempt_ok {now : Option String} {id : String} {kind : AttemptKind}
    {binding : PlanBinding} {steps : List String} {status : ExecutionAttemptStatus}
    {attempt : ExecutionAttempt} :
    (buildAttempt now id kind binding steps status).exec a = (.ok attempt, a') ↔
      FreshAttemptId a id ∧
        ∃ t, (now = some t ∧ a = a') ∧ newAttempt a t id kind binding steps status = attempt := by
  unfold buildAttempt FreshAttemptId newAttempt
  simp only [exec_get_bind, exec_bind_ok, exec_throwIf_ok]
  simp

@[simp] theorem buildAttempt_error {now : Option String} {id : String} {kind : AttemptKind}
    {binding : PlanBinding} {steps : List String} {status : ExecutionAttemptStatus} :
    (buildAttempt now id kind binding steps status).exec a = (.error e, a') ↔
      (¬ FreshAttemptId a id ∧ .rangeError "EXECUTION_ATTEMPT_ID_INVALID" = e ∧ a = a') ∨
        (FreshAttemptId a id ∧ now = none ∧ .clock = e ∧ a = a') := by
  unfold buildAttempt FreshAttemptId
  simp only [exec_get_bind, exec_bind_error, exec_throwIf_ok, exec_throwIf_error, not_not]
  simp

/-- The attempt `currentAttemptId` names. -/
def CurrentAttempt (a : PrivacyRequestAggregate) (attempt : ExecutionAttempt) : Prop :=
  a.attempts.find? (fun x => some x.id = a.currentAttemptId) = some attempt

@[simp] theorem updatedCurrentAttempt_ok {status : ExecutionAttemptStatus} {t : Option String}
    {attempt : ExecutionAttempt} :
    (updatedCurrentAttempt status t).exec a = (.ok attempt, a') ↔
      ∃ current, CurrentAttempt a current ∧
        { current with status, completedAt := t } = attempt ∧ a = a' := by
  unfold CurrentAttempt
  cases hf : a.attempts.find? (fun x => some x.id = a.currentAttemptId) with
  | none => simp [updatedCurrentAttempt, requiredCurrentAttempt, hf]
  | some current => simp [updatedCurrentAttempt, requiredCurrentAttempt, hf]

@[simp] theorem updatedCurrentAttempt_error {status : ExecutionAttemptStatus}
    {t : Option String} :
    (updatedCurrentAttempt status t).exec a = (.error e, a') ↔
      (∀ current, ¬ CurrentAttempt a current) ∧
        .rangeError "EXECUTION_ATTEMPT_NOT_FOUND" = e ∧ a = a' := by
  unfold CurrentAttempt
  cases hf : a.attempts.find? (fun x => some x.id = a.currentAttemptId) with
  | none => simp [updatedCurrentAttempt, requiredCurrentAttempt, hf]
  | some current => simp [updatedCurrentAttempt, requiredCurrentAttempt, hf]

end Helpers

/-! ## One call -/

/-- The aggregate after `transition next e`. -/
@[simps toCreatePrivacyRequest status version currentAttemptId plan approval latestPlanVersion
  attempts events]
def advance (a : PrivacyRequestAggregate) (next : PrivacyRequestStatus) (e : DomainEvent) :
    PrivacyRequestAggregate :=
  { a with status := next, version := a.version + 1, events := a.events ++ [e] }

/-- The aggregate after `applyAttemptUpdate updated`. -/
@[simps toCreatePrivacyRequest status version currentAttemptId plan approval latestPlanVersion
  attempts events]
def withAttempt (a : PrivacyRequestAggregate) (updated : ExecutionAttempt) :
    PrivacyRequestAggregate :=
  { a with attempts := a.attempts.map fun x => if x.id = updated.id then updated else x }

/-- The aggregate after `appendAttempt attempt`. -/
@[simps toCreatePrivacyRequest status version currentAttemptId plan approval latestPlanVersion
  attempts events]
def withNewAttempt (a : PrivacyRequestAggregate) (attempt : ExecutionAttempt) :
    PrivacyRequestAggregate :=
  { a with attempts := a.attempts ++ [attempt], currentAttemptId := some attempt.id }

/-- The three commands that leave `executing` or move a request that is not executing: the
    status they move to, the status they end a running attempt with, and their event's type. -/
def leaving : Command → Option (PrivacyRequestStatus × ExecutionAttemptStatus × String)
  | .markPartial _ _ =>
    some (.partiallyCompleted, .partiallySucceeded, "PrivacyRequestPartiallyCompleted")
  | .fail _ => some (.failed, .failed, "PrivacyRequestFailed")
  | .markNeedsReview _ => some (.needsReview, .needsReview, "PrivacyRequestNeedsReview")
  | _ => none

@[simp] theorem appendAttempt_bind {α : Type} {a : PrivacyRequestAggregate}
    {attempt : ExecutionAttempt} {f : Unit → Method α} :
    (appendAttempt attempt >>= f).exec a = (f ()).exec (withNewAttempt a attempt) := by
  rw [appendAttempt, exec_modify_bind, withNewAttempt]

@[simp] theorem applyAttemptUpdate_bind {α : Type} {a : PrivacyRequestAggregate}
    {updated : ExecutionAttempt} {f : Unit → Method α} :
    (applyAttemptUpdate updated >>= f).exec a = (f ()).exec (withAttempt a updated) := by
  rw [applyAttemptUpdate, exec_modify_bind, withAttempt]

@[simp] theorem transition_ok {a a' : PrivacyRequestAggregate} {next : PrivacyRequestStatus}
    {e : DomainEvent} {u : Unit} :
    (transition next e).exec a = (.ok u, a') ↔ Edge a.status next ∧ advance a next e = a' := by
  simp [transition, record, advance]

@[simp] theorem transition_error {a a' : PrivacyRequestAggregate} {next : PrivacyRequestStatus}
    {e : DomainEvent} {err : DomainError} :
    (transition next e).exec a = (.error err, a') ↔
      ¬ Edge a.status next ∧ .stateConflict a.status next = err ∧ a = a' := by
  simp [transition, record]

/-- `Step a call a'`: the call returns on `a` and leaves `a'`. -/
inductive Step (a : PrivacyRequestAggregate) : Call → PrivacyRequestAggregate → Prop
  | beginIdentityVerification {now actorId e} (he : e.type = "IdentityVerificationRequested")
      (hs : Edge a.status .identityVerificationPending) :
      Step a ⟨now, .beginIdentityVerification actorId⟩
        (advance a .identityVerificationPending e)
  | markIdentityVerified {now actorId e} (he : e.type = "IdentityVerified")
      (hs : Edge a.status .identityVerified) :
      Step a ⟨now, .markIdentityVerified actorId⟩ (advance a .identityVerified e)
  | beginPlanning {now agentId e} (he : e.type = "PlanningRequested")
      (hs : a.status = .identityVerified) :
      Step a ⟨now, .beginPlanning agentId⟩ (advance a .planning e)
  | attachPlan {now plan} (hs : a.status = .planning)
      (hv : a.latestPlanVersion < plan.planVersion) :
      Step a ⟨now, .attachPlan plan⟩
        (advance
          { a with plan := some plan, approval := none, latestPlanVersion := plan.planVersion }
          (if plan.requiresApproval then .awaitingApproval else .planning)
          (executionPlanCreated a.id plan))
  | approvePlan {now approval} (hs : a.status = .awaitingApproval)
      (hb : PlanBound a approval.toPlanBinding) :
      Step a ⟨now, .approvePlan approval⟩
        (advance { a with approval := some approval } .awaitingApproval
          (executionPlanApproved a.id approval))
  | rejectForChanges {now decidedBy e} (he : e.type = "ExecutionPlanRejected")
      (hs : a.status = .awaitingApproval) :
      Step a ⟨now, .rejectPlan decidedBy .changesRequested⟩
        (advance { a with approval := none, plan := none } .planning e)
  | rejectForGood {now decidedBy e} (he : e.type = "ExecutionPlanRejected")
      (hs : a.status = .awaitingApproval) :
      Step a ⟨now, .rejectPlan decidedBy .planRejected⟩
        (advance { a with approval := none } .cancelled e)
  | authorizeExecution {now t auth plan e} (he : e.type = "ExecutionAuthorized")
      (hs : a.status = .planning ∨ a.status = .awaitingApproval)
      (hp : a.plan = some plan) (hb : plan.toPlanBinding = auth.toPlanBinding)
      (hauto : a.status = .planning → plan.requiresApproval = false)
      (happ : a.status = .awaitingApproval → a.approval ≠ none)
      (hsteps : StepScope auth.allowedStepIds) (hid : FreshAttemptId a auth.attemptId)
      (hnow : now = some t) :
      Step a ⟨now, .authorizeExecution auth⟩
        (advance (withNewAttempt a (newAttempt a t auth.attemptId .initial auth.toPlanBinding
          auth.allowedStepIds .authorized)) .executionAuthorized e)
  | markExecuting {now agentId current e} (he : e.type = "ExecutionStarted")
      (hs : a.status = .executionAuthorized) (hc : CurrentAttempt a current) :
      Step a ⟨now, .markExecuting agentId⟩
        (advance (withAttempt a { current with status := .running, completedAt := none })
          .executing e)
  | complete {now t affectedCount current e} (he : e.type = "PrivacyRequestCompleted")
      (hs : a.status = .executing) (hc : CurrentAttempt a current) (hnow : now = some t) :
      Step a ⟨now, .complete affectedCount⟩
        (advance (withAttempt a { current with status := .succeeded, completedAt := some t })
          .completed e)
  | leaveRunning {now t command next ended type current e}
      (hl : leaving command = some (next, ended, type)) (he : e.type = type)
      (hs : a.status = .executing) (hc : CurrentAttempt a current) (hnow : now = some t) :
      Step a ⟨now, command⟩
        (advance (withAttempt a { current with status := ended, completedAt := some t }) next e)
  | leaveIdle {now command next ended type e}
      (hl : leaving command = some (next, ended, type)) (he : e.type = type)
      (hs : a.status ≠ .executing) (hedge : Edge a.status next) :
      Step a ⟨now, command⟩ (advance a next e)
  | requestReplan {now actorId reason e} (he : e.type = "ReplanRequested")
      (hs : replannable a.status = true) (hr : auditReasonPattern reason = true) :
      Step a ⟨now, .requestReplan actorId reason⟩
        (advance { a with plan := none, approval := none } .planning e)
  | beginRetry {now t attemptId steps plan e} {expectedVersion : Int}
      (he : e.type = "ExecutionAuthorized") (hs : replannable a.status = true)
      (hv : expectedVersion = a.version) (hp : a.plan = some plan) (hsteps : StepScope steps)
      (hid : FreshAttemptId a attemptId) (hnow : now = some t) :
      Step a ⟨now, .beginRetry attemptId steps expectedVersion⟩
        (advance (withNewAttempt a (newAttempt a t attemptId .retry plan.toPlanBinding steps
          .authorized)) .executionAuthorized e)
  | invalidateAuthorization {now t actorId reason current e}
      (he : e.type = "ExecutionAuthorizationInvalidated") (hs : a.status = .executionAuthorized)
      (hr : auditReasonPattern reason = true) (hc : CurrentAttempt a current)
      (hnow : now = some t) :
      Step a ⟨now, .invalidateAuthorization actorId reason⟩
        (advance { withAttempt a { current with status := .cancelled, completedAt := some t } with
          approval := none } .awaitingApproval e)
  | acceptRetainedOutcome {now actorId reason e} (he : e.type = "RetainedOutcomeAccepted")
      (hs : a.status = .partiallyCompleted ∨ a.status = .needsReview)
      (hr : auditReasonPattern reason = true) :
      Step a ⟨now, .acceptRetainedOutcome actorId reason⟩ (advance a .completed e)
  | cancelAuthorized {now t actorId reason current e} (he : e.type = "PrivacyRequestCancelled")
      (hs : a.status = .executionAuthorized) (hr : auditReasonPattern reason = true)
      (hc : CurrentAttempt a current) (hnow : now = some t) :
      Step a ⟨now, .cancel actorId reason⟩
        (advance (withAttempt a { current with status := .cancelled, completedAt := some t })
          .cancelled e)
  | cancelIdle {now actorId reason e} (he : e.type = "PrivacyRequestCancelled")
      (hs : a.status ≠ .executionAuthorized) (hedge : Edge a.status .cancelled)
      (hr : auditReasonPattern reason = true) :
      Step a ⟨now, .cancel actorId reason⟩ (advance a .cancelled e)

section Invoke

variable {a a' : PrivacyRequestAggregate} {now : Option String}

theorem attachPlan_step {plan : AttachedPlan}
    (h : (attachPlan plan).exec a = (.ok (), a')) : Step a ⟨now, .attachPlan plan⟩ a' := by
  simp only [attachPlan, record, exec_bind_ok, assertStatus_ok] at h
  simp [exec_ite] at h
  obtain ⟨hs, hv, h⟩ := h
  have hstep : Step a ⟨now, .attachPlan plan⟩ _ := .attachPlan hs hv
  split at h <;> simp_all [advance]

theorem approvePlan_step {approval : PlanApproval}
    (h : (approvePlan approval).exec a = (.ok (), a')) :
    Step a ⟨now, .approvePlan approval⟩ a' := by
  simp [approvePlan, record] at h
  obtain ⟨hs, hb, h⟩ := h
  have hstep : Step a ⟨now, .approvePlan approval⟩ _ := .approvePlan hs hb
  simp_all [advance]

theorem rejectPlan_step {decidedBy : String} {disposition : Disposition}
    (h : (rejectPlan decidedBy disposition).exec a = (.ok (), a')) :
    Step a ⟨now, .rejectPlan decidedBy disposition⟩ a' := by
  cases disposition with
  | changesRequested =>
    simp [rejectPlan] at h
    obtain ⟨hs, _, rfl⟩ := h
    exact .rejectForChanges rfl hs
  | planRejected =>
    simp [rejectPlan] at h
    obtain ⟨hs, _, rfl⟩ := h
    exact .rejectForGood rfl hs

theorem authorizeExecution_step {auth : ExecutionAuthorization}
    (h : (authorizeExecution now auth).exec a = (.ok (), a')) :
    Step a ⟨now, .authorizeExecution auth⟩ a' := by
  cases hp : a.plan with
  | none => simp [authorizeExecution, hp] at h
  | some plan =>
    simp [authorizeExecution, hp] at h
    obtain ⟨_, hs, hsteps, ⟨plan', hp', hb⟩, ⟨hauto, happ⟩, t, ⟨hid, hnow⟩, _, rfl⟩ := h
    obtain rfl : plan' = plan := by simpa [hp] using hp'.symm
    exact .authorizeExecution rfl (by tauto) hp hb hauto happ hsteps hid hnow

theorem markExecuting_step {agentId : String}
    (h : (markExecuting agentId).exec a = (.ok (), a')) :
    Step a ⟨now, .markExecuting agentId⟩ a' := by
  simp [markExecuting] at h
  obtain ⟨hs, current, hc, _, rfl⟩ := h
  exact .markExecuting rfl hs hc

theorem complete_step {affectedCount : Int}
    (h : (complete now affectedCount).exec a = (.ok (), a')) :
    Step a ⟨now, .complete affectedCount⟩ a' := by
  simp [complete, endedCurrentAttempt] at h
  obtain ⟨hs, t, hnow, current, hc, _, rfl⟩ := h
  exact .complete rfl hs hc hnow

theorem leaveFor_step {command : Command} {next : PrivacyRequestStatus}
    {ended : ExecutionAttemptStatus} {type : String}
    {domainEvent : PrivacyRequestAggregate → DomainEvent}
    (hl : leaving command = some (next, ended, type)) (he : (domainEvent a).type = type)
    (h : (leaveFor next ended now domainEvent).exec a = (.ok (), a')) :
    Step a ⟨now, command⟩ a' := by
  by_cases hs : a.status = .executing
  · simp [leaveFor, hs, endedCurrentAttempt] at h
    obtain ⟨_, t, hnow, current, hc, _, rfl⟩ := h
    exact .leaveRunning hl he hs hc hnow
  · simp [leaveFor, hs] at h
    obtain ⟨hedge, rfl⟩ := h
    exact .leaveIdle hl he hs hedge

theorem requestReplan_step {actorId reason : String}
    (h : (requestReplan actorId reason).exec a = (.ok (), a')) :
    Step a ⟨now, .requestReplan actorId reason⟩ a' := by
  simp [requestReplan] at h
  obtain ⟨_, hs, hr, _, rfl⟩ := h
  exact .requestReplan rfl hs hr

theorem beginRetry_step {attemptId : String} {steps : List String} {expectedVersion : Int}
    (h : (beginRetry now attemptId steps expectedVersion).exec a = (.ok (), a')) :
    Step a ⟨now, .beginRetry attemptId steps expectedVersion⟩ a' := by
  cases hp : a.plan with
  | none => simp [beginRetry, hp] at h
  | some plan =>
    simp [beginRetry, hp] at h
    obtain ⟨_, hs, hv, hsteps, t, ⟨hid, hnow⟩, _, rfl⟩ := h
    exact .beginRetry rfl hs hv hp hsteps hid hnow

theorem invalidateAuthorization_step {actorId reason : String}
    (h : (invalidateAuthorization now actorId reason).exec a = (.ok (), a')) :
    Step a ⟨now, .invalidateAuthorization actorId reason⟩ a' := by
  simp [invalidateAuthorization, endedCurrentAttempt] at h
  obtain ⟨hs, hr, t, hnow, current, hc, _, rfl⟩ := h
  exact .invalidateAuthorization rfl hs hr hc hnow

theorem acceptRetainedOutcome_step {actorId reason : String}
    (h : (acceptRetainedOutcome actorId reason).exec a = (.ok (), a')) :
    Step a ⟨now, .acceptRetainedOutcome actorId reason⟩ a' := by
  simp [acceptRetainedOutcome] at h
  obtain ⟨hs, hr, _, rfl⟩ := h
  exact .acceptRetainedOutcome rfl (by tauto) hr

theorem cancel_step {actorId reason : String}
    (h : (cancel now actorId reason).exec a = (.ok (), a')) :
    Step a ⟨now, .cancel actorId reason⟩ a' := by
  by_cases hs : a.status = .executionAuthorized
  · simp [cancel, hs, endedCurrentAttempt] at h
    obtain ⟨_, hr, t, hnow, current, hc, _, rfl⟩ := h
    exact .cancelAuthorized rfl hs hr hc hnow
  · simp [cancel, hs] at h
    obtain ⟨_, hr, hedge, rfl⟩ := h
    exact .cancelIdle rfl hs hedge hr

/-- A call that returns is a `Step`. -/
theorem invoke_ok_step {call : Call} (h : invoke a call = (.ok (), a')) : Step a call a' := by
  obtain ⟨now, command⟩ := call
  cases command with
  | beginIdentityVerification actorId =>
    simp [invoke, Command.method, beginIdentityVerification] at h
    obtain ⟨hedge, rfl⟩ := h
    exact .beginIdentityVerification rfl hedge
  | markIdentityVerified actorId =>
    simp [invoke, Command.method, markIdentityVerified] at h
    obtain ⟨hedge, rfl⟩ := h
    exact .markIdentityVerified rfl hedge
  | beginPlanning agentId =>
    simp [invoke, Command.method, beginPlanning] at h
    obtain ⟨hs, _, rfl⟩ := h
    exact .beginPlanning rfl hs
  | attachPlan plan => exact attachPlan_step h
  | approvePlan approval => exact approvePlan_step h
  | rejectPlan decidedBy disposition => exact rejectPlan_step h
  | authorizeExecution auth => exact authorizeExecution_step h
  | markExecuting agentId => exact markExecuting_step h
  | complete affectedCount => exact complete_step h
  | markPartial affectedCount failedCount => exact leaveFor_step rfl rfl h
  | fail category => exact leaveFor_step rfl rfl h
  | markNeedsReview category => exact leaveFor_step rfl rfl h
  | requestReplan actorId reason => exact requestReplan_step h
  | beginRetry attemptId steps expectedVersion => exact beginRetry_step h
  | invalidateAuthorization actorId reason => exact invalidateAuthorization_step h
  | acceptRetainedOutcome actorId reason => exact acceptRetainedOutcome_step h
  | cancel actorId reason => exact cancel_step h

theorem leaveFor_error {next : PrivacyRequestStatus} {ended : ExecutionAttemptStatus}
    {domainEvent : PrivacyRequestAggregate → DomainEvent} {err : DomainError}
    (h : (leaveFor next ended now domainEvent).exec a = (.error err, a')) : a = a' := by
  by_cases hs : a.status = .executing
  · simp [leaveFor, hs, endedCurrentAttempt] at h
    grind
  · simp [leaveFor, hs] at h
    grind

/-- A call that throws changed nothing. -/
theorem invoke_error_eq {call : Call} {err : DomainError}
    (h : invoke a call = (.error err, a')) : a = a' := by
  obtain ⟨now, command⟩ := call
  cases command with
  | beginIdentityVerification actorId =>
    simp [invoke, Command.method, beginIdentityVerification] at h
    grind
  | markIdentityVerified actorId =>
    simp [invoke, Command.method, markIdentityVerified] at h
    grind
  | beginPlanning agentId =>
    simp [invoke, Command.method, beginPlanning] at h
    grind
  | attachPlan plan =>
    by_cases hr : plan.requiresApproval <;>
      simp [invoke, Command.method, attachPlan, record, hr] at h <;> grind
  | approvePlan approval =>
    simp [invoke, Command.method, approvePlan, record] at h
    grind
  | rejectPlan decidedBy disposition =>
    -- the only commands that assign before a transition: its edge was asserted already
    have hedge : Edge .awaitingApproval .planning ∧ Edge .awaitingApproval .cancelled := by decide
    cases disposition <;> simp [invoke, Command.method, rejectPlan] at h <;> grind
  | authorizeExecution auth =>
    cases hp : a.plan <;>
      simp [invoke, Command.method, authorizeExecution, hp] at h <;> grind
  | markExecuting agentId =>
    have hedge : Edge .executionAuthorized .executing := by decide
    simp [invoke, Command.method, markExecuting] at h
    grind
  | complete affectedCount =>
    have hedge : Edge .executing .completed := by decide
    simp [invoke, Command.method, complete, endedCurrentAttempt] at h
    grind
  | markPartial affectedCount failedCount => exact leaveFor_error h
  | fail category => exact leaveFor_error h
  | markNeedsReview category => exact leaveFor_error h
  | requestReplan actorId reason =>
    simp [invoke, Command.method, requestReplan] at h
    grind
  | beginRetry attemptId steps expectedVersion =>
    cases hp : a.plan <;> simp [invoke, Command.method, beginRetry, hp] at h <;> grind
  | invalidateAuthorization actorId reason =>
    have hedge : Edge .executionAuthorized .awaitingApproval := by decide
    simp [invoke, Command.method, invalidateAuthorization, endedCurrentAttempt] at h
    grind
  | acceptRetainedOutcome actorId reason =>
    simp [invoke, Command.method, acceptRetainedOutcome] at h
    grind
  | cancel actorId reason =>
    by_cases hs : a.status = .executionAuthorized <;>
      simp [invoke, Command.method, cancel, hs, endedCurrentAttempt] at h <;> grind

theorem invoke_cases (a : PrivacyRequestAggregate) (call : Call) :
    ((invoke a call).1 = .ok () ∧ Step a call (invoke a call).2) ∨
      ((∃ err, (invoke a call).1 = .error err) ∧ (invoke a call).2 = a) := by
  rcases h : invoke a call with ⟨err | u, b⟩
  · right
    exact ⟨⟨err, rfl⟩, (invoke_error_eq h).symm⟩
  · left
    exact ⟨rfl, invoke_ok_step h⟩

/-- Every accepted call records exactly one event and bumps the version by one. -/
theorem Step.records {call : Call} (h : Step a call a') :
    ∃ e, a'.events = a.events ++ [e] ∧ a'.version = a.version + 1 ∧
      a'.toCreatePrivacyRequest = a.toCreatePrivacyRequest := by
  cases h <;> exact ⟨_, rfl, rfl, rfl⟩

theorem edge_of_replannable {s : PrivacyRequestStatus} (h : replannable s = true) :
    Edge s .planning ∧ Edge s .executionAuthorized := by
  cases s <;> revert h <;> decide

/-- Every accepted call moves the status along one edge of the table, or not at all. -/
theorem Step.edgeOrStay {call : Call} (h : Step a call a') : EdgeOrStay a.status a'.status := by
  cases h with
  | beginIdentityVerification _ hs | markIdentityVerified _ hs => exact .inr hs
  | beginPlanning _ hs | rejectForChanges _ hs | rejectForGood _ hs | markExecuting _ hs
  | complete _ hs | invalidateAuthorization _ hs | cancelAuthorized _ hs =>
    rw [hs, advance_status]
    decide
  | @attachPlan _ plan hs hv =>
    rw [hs, advance_status]
    cases plan.requiresApproval <;> decide
  | approvePlan hs => exact .inl hs.symm
  | authorizeExecution _ hs =>
    rw [advance_status]
    rcases hs with hs | hs <;> rw [hs] <;> decide
  | @leaveRunning _ _ command _ _ _ _ _ hl _ hs =>
    rw [hs, advance_status]
    cases command <;> simp_all [leaving] <;> obtain ⟨rfl, _⟩ := hl <;> decide
  | leaveIdle _ _ _ hedge | cancelIdle _ _ hedge => exact .inr hedge
  | requestReplan _ hs => exact .inr (edge_of_replannable hs).1
  | beginRetry _ hs => exact .inr (edge_of_replannable hs).2
  | acceptRetainedOutcome _ hs =>
    rw [advance_status]
    rcases hs with hs | hs <;> rw [hs] <;> decide

end Invoke

/-! ## Whole runs -/

theorem after_cons (a : PrivacyRequestAggregate) (call : Call) (calls : List Call) :
    after a (call :: calls) = after (invoke a call).2 calls := rfl

theorem after_append (a : PrivacyRequestAggregate) (calls calls' : List Call) :
    after a (calls ++ calls') = after (after a calls) calls' :=
  List.foldl_append

theorem after_snoc (a : PrivacyRequestAggregate) (calls : List Call) (call : Call) :
    after a (calls ++ [call]) = (invoke (after a calls) call).2 := by
  rw [after_append]
  rfl

/-- What holds at the start and is kept by every accepted call holds after every run. -/
theorem after_induction {P : PrivacyRequestAggregate → Prop} {a : PrivacyRequestAggregate}
    (h0 : P a) (hstep : ∀ b call b', P b → Step b call b' → P b') (calls : List Call) :
    P (after a calls) := by
  induction calls generalizing a with
  | nil => exact h0
  | cons call calls ih =>
    rw [after_cons]
    apply ih
    rcases invoke_cases a call with ⟨_, h⟩ | ⟨_, h⟩
    · exact hstep _ _ _ h0 h
    · rw [h]
      exact h0

/-- `ok` holds of every call of the run, in the state the call finds. -/
def Along (ok : PrivacyRequestAggregate → Call → Prop) :
    PrivacyRequestAggregate → List Call → Prop
  | _, [] => True
  | a, call :: calls => ok a call ∧ Along ok (invoke a call).2 calls

/-- `P` holds at the start of the run and after each of its calls. -/
def Always (P : PrivacyRequestAggregate → Prop) : PrivacyRequestAggregate → List Call → Prop
  | a, [] => P a
  | a, call :: calls => P a ∧ Always P (invoke a call).2 calls

instance decidableAlong (ok : PrivacyRequestAggregate → Call → Prop)
    [∀ a call, Decidable (ok a call)] : ∀ a calls, Decidable (Along ok a calls)
  | _, [] => inferInstanceAs (Decidable True)
  | a, call :: calls =>
    have := decidableAlong ok (invoke a call).2 calls
    inferInstanceAs (Decidable (ok a call ∧ Along ok (invoke a call).2 calls))

instance decidableAlways (P : PrivacyRequestAggregate → Prop) [DecidablePred P] :
    ∀ a calls, Decidable (Always P a calls)
  | a, [] => inferInstanceAs (Decidable (P a))
  | a, call :: calls =>
    have := decidableAlways P (invoke a call).2 calls
    inferInstanceAs (Decidable (P a ∧ Always P (invoke a call).2 calls))

section Runs

variable {ok : PrivacyRequestAggregate → Call → Prop} {P : PrivacyRequestAggregate → Prop}

theorem along_append {a : PrivacyRequestAggregate} {calls calls' : List Call} :
    Along ok a (calls ++ calls') ↔ Along ok a calls ∧ Along ok (after a calls) calls' := by
  induction calls generalizing a with
  | nil => simp [Along, after]
  | cons call calls ih => simp [Along, after_cons, ih, and_assoc]

theorem Always.append {a : PrivacyRequestAggregate} {calls calls' : List Call}
    (h : Always P a (calls ++ calls')) : Always P (after a calls) calls' := by
  induction calls generalizing a with
  | nil => exact h
  | cons call calls ih => exact ih h.2

theorem Always.last {a : PrivacyRequestAggregate} {calls : List Call} (h : Always P a calls) :
    P (after a calls) := by
  rw [← List.append_nil calls] at h
  exact h.append

/-- What holds at the start and is kept by every accepted call of a run whose calls are all
    `ok` holds all along that run. -/
theorem always_of_step (hstep : ∀ b call b', P b → ok b call → Step b call b' → P b')
    {a : PrivacyRequestAggregate} {calls : List Call} (h0 : P a) (hok : Along ok a calls) :
    Always P a calls := by
  induction calls generalizing a with
  | nil => exact h0
  | cons call calls ih =>
    refine ⟨h0, ih ?_ hok.2⟩
    rcases invoke_cases a call with ⟨_, h⟩ | ⟨_, h⟩
    · exact hstep _ _ _ h0 hok.1 h
    · rw [h]
      exact h0

end Runs

/-! ## A run to read the theorems on -/

/-- `command`, issued at a fixed time. -/
def atNoon (command : Command) : Call := ⟨some "2026-07-21T12:00:00.000Z", command⟩

def requestOne : CreatePrivacyRequest where
  id := "request-1"
  environmentId := "environment-1"
  type := .delete
  source := .admin
  policyVersion := 1
  createdByActorId := "actor-1"
  deadlineAt := "2026-08-20T12:00:00.000Z"

def planOne : AttachedPlan where
  planId := "plan-1"
  planVersion := 1
  planFingerprint := "fingerprint-1"
  requiresApproval := true

def authorizeOne : ExecutionAuthorization where
  toPlanBinding := planOne.toPlanBinding
  agentId := "agent-1"
  attemptId := "attempt-1"
  allowedStepIds := ["step-1"]

/-- Verified, planned, approved, executed, failed: ready to be retried. -/
def failedRun : List Call :=
  [.markIdentityVerified "actor-1", .beginPlanning "agent-1", .attachPlan planOne,
    .approvePlan { toPlanBinding := planOne.toPlanBinding, decidedBy := "actor-2" },
    .authorizeExecution authorizeOne, .markExecuting "agent-1", .fail "adapter"].map atNoon

end ForgetOps.Domain
