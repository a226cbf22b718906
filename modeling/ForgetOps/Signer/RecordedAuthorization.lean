import ForgetOps.Signer.AuthorizationSigner
import ForgetOps.Domain.CommandSpec

/-
  The signer's policy and the aggregate's commands are two guards over one state. `recordCommand`
  is the command that records a signed authorization, `Mirrors` says that a policy state shows an
  aggregate, and `recorded_iff` when a request the policy accepts is one the aggregate records.

  `autoPlanned_after` is the invariant behind it: a request whose plan has to be approved is never
  in `planning`.
-/

namespace ForgetOps.Domain

open PrivacyRequestAggregate

def PrivacyRequestStatus.text : PrivacyRequestStatus → String
  | created => "created"
  | identityVerificationPending => "identity_verification_pending"
  | identityVerified => "identity_verified"
  | planning => "planning"
  | awaitingApproval => "awaiting_approval"
  | executionAuthorized => "execution_authorized"
  | executing => "executing"
  | needsReview => "needs_review"
  | completed => "completed"
  | partiallyCompleted => "partially_completed"
  | failed => "failed"
  | cancelled => "cancelled"

/-- The statuses in which no plan has been made yet. -/
def PrivacyRequestStatus.beforePlanning (s : PrivacyRequestStatus) : Bool :=
  s = .created ∨ s = .identityVerificationPending ∨ s = .identityVerified

/-- Before planning the request carries no plan, and in `planning` none that has to be approved. -/
structure AutoPlanned (a : PrivacyRequestAggregate) : Prop where
  unplanned : a.status.beforePlanning = true → a.plan = none
  automatic : a.status = .planning → ∀ plan, a.plan = some plan → plan.requiresApproval = false

theorem beforePlanning_of_edge {s next : PrivacyRequestStatus} (h : Edge s next)
    (hnext : next.beforePlanning = true) : s.beforePlanning = true := by
  revert h hnext
  cases next <;> cases s <;> decide

theorem leaving_planned {command : Command} {next : PrivacyRequestStatus}
    {ended : ExecutionAttemptStatus} {type : String}
    (h : leaving command = some (next, ended, type)) :
    next ≠ .planning ∧ next.beforePlanning = false := by
  cases command <;> simp_all [leaving] <;> obtain ⟨rfl, -⟩ := h <;> decide

/-- A move to a status behind planning leaves nothing to show. -/
theorem autoPlanned_of_planned {a : PrivacyRequestAggregate}
    (h : a.status ≠ .planning ∧ a.status.beforePlanning = false) : AutoPlanned a where
  unplanned hbefore := by
    rw [h.2] at hbefore
    cases hbefore
  automatic hplanning := absurd hplanning h.1

theorem autoPlanned_of_noPlan {a : PrivacyRequestAggregate} (h : a.plan = none) :
    AutoPlanned a where
  unplanned _ := h
  automatic _ plan hplan := by
    rw [h] at hplan
    cases hplan

theorem Step.autoPlanned {a a' : PrivacyRequestAggregate} {call : Call} (hstep : Step a call a')
    (h : AutoPlanned a) : AutoPlanned a' := by
  cases hstep with
  | beginIdentityVerification _ hedge | markIdentityVerified _ hedge =>
    have hbefore : a.status.beforePlanning = true := beforePlanning_of_edge hedge (by decide)
    exact autoPlanned_of_noPlan (h.unplanned hbefore)
  | beginPlanning _ hs =>
    have hbefore : a.status.beforePlanning = true := by rw [hs]; decide
    exact autoPlanned_of_noPlan (h.unplanned hbefore)
  | @attachPlan _ plan =>
    -- a plan that has to be approved moves the request on to `awaiting_approval`
    cases hrequires : plan.requiresApproval with
    | true => exact autoPlanned_of_planned (by rw [advance_status, if_pos rfl]; decide)
    | false =>
      refine ⟨fun hbefore => ?_, fun _ plan' hplan => ?_⟩
      · rw [advance_status, if_neg (by decide)] at hbefore
        cases hbefore
      · obtain rfl : plan = plan' := by simpa using hplan
        exact hrequires
  | rejectForChanges | requestReplan => exact autoPlanned_of_noPlan rfl
  | leaveRunning hl | leaveIdle hl => exact autoPlanned_of_planned (leaving_planned hl)
  | _ => exact autoPlanned_of_planned (by rw [advance_status]; decide)

theorem autoPlanned_after (input : CreatePrivacyRequest) (calls : List Call) :
    AutoPlanned (after (create input) calls) :=
  after_induction (autoPlanned_of_noPlan rfl) (fun _ _ _ h hstep => hstep.autoPlanned h) calls

end ForgetOps.Domain

namespace ForgetOps.Signer

open Domain Domain.PrivacyRequestAggregate

/-! ## Recording a signed authorization -/

/-- The command of the domain that records the authorization. -/
def recordCommand (claims : ExecutionAuthorizationClaims) (expectedVersion : Int) : Command :=
  match claims.authorizationKind with
  | .initial =>
    .authorizeExecution
      { planId := claims.planId, planVersion := claims.planVersion,
        planFingerprint := claims.planFingerprint, agentId := claims.agentId,
        attemptId := claims.attemptId, allowedStepIds := claims.allowedStepIds }
  | .retry => .beginRetry claims.attemptId claims.allowedStepIds expectedVersion

/-- The command returns and appends the attempt that the claims name. -/
def Recorded (a : PrivacyRequestAggregate) (now : String) (expectedVersion : Int)
    (claims : ExecutionAuthorizationClaims) : Prop :=
  ∃ a' attempt, invoke a ⟨some now, recordCommand claims expectedVersion⟩ = (.ok (), a') ∧
    a'.attempts = a.attempts ++ [attempt] ∧ attempt.id = claims.attemptId ∧
    attempt.kind = claims.authorizationKind ∧
    attempt.toPlanBinding = ⟨claims.planId, claims.planVersion, claims.planFingerprint⟩ ∧
    attempt.allowedStepIds = claims.allowedStepIds

/-- The policy state shows the aggregate. -/
structure Mirrors (a : PrivacyRequestAggregate) (state : AuthorizationPolicyState) : Prop where
  status : state.request.status = a.status.text
  version : state.request.version = a.version
  plan : a.plan = some
    { planId := state.plan.id, planVersion := state.plan.version,
      planFingerprint := state.plan.fingerprint,
      requiresApproval := state.plan.requiresApproval }
  approval : state.approval.map (fun x => (x.planVersion, x.planFingerprint, x.decidedBy)) =
    a.approval.map fun x => (x.planVersion, x.planFingerprint, x.decidedBy)
  steps : state.plan.stepIds.Nodup ∧ ∀ stepId ∈ state.plan.stepIds, stepId ≠ ""

/-- An accepted request of the signer is one the aggregate records. -/
def SignerAgrees (a : PrivacyRequestAggregate) (now keyId : String)
    (input : AuthorizationPolicyInput) (attemptId nonce issuedAt expiresAt : String) : Prop :=
  assertAuthorizationPolicy input = .ok () →
    Recorded a now input.expectedRequestVersion
      (authorizationClaims keyId input attemptId nonce issuedAt expiresAt)

/-- Requests that pass the policy and that no command of the aggregate takes: an initial
    authorization after an execution, or of a plan whose automatic authorization was invalidated,
    and a retry where nothing has been executed yet. -/
structure Unrecordable (a : PrivacyRequestAggregate) (input : AuthorizationPolicyInput) :
    Prop where
  admissible : Admissible input
  evidence : needsEvidence input → 0 < input.state.plan.version ∧ ApprovalHonoured input
  untaken : match input.authorizationKind with
    | .initial => replannable a.status = true ∨
        (a.status = .awaitingApproval ∧ input.state.plan.requiresApproval = false ∧
          input.state.approval = none)
    | .retry => replannable a.status = false

section Agreement

variable {a a' : PrivacyRequestAggregate} {now keyId : String} {state : AuthorizationPolicyState}
  {input : AuthorizationPolicyInput} {attemptId nonce issuedAt expiresAt : String}

theorem status_of_authorizable (hm : Mirrors a state)
    (h : state.request.status ∈ authorizableStatuses) :
    a.status = .planning ∨ a.status = .awaitingApproval ∨ replannable a.status = true := by
  rw [hm.status] at h
  revert h
  cases a.status <;> decide

theorem stepScope_of_within (hm : Mirrors a state) {requested : List String}
    (h : StepsWithin state.plan.stepIds requested) : StepScope requested := by
  unfold StepScope
  rintro (hlen | hempty | hdup)
  · exact h.nonempty (List.length_eq_zero_iff.mp hlen)
  · obtain ⟨stepId, hmem, hstep⟩ := List.any_eq_true.mp hempty
    exact hm.steps.2 stepId (h.subset stepId hmem) (of_decide_eq_true hstep)
  · exact hdup h.distinct

/-- A recording command that returns has appended what the claims name. -/
theorem recorded_iff_returns (hm : Mirrors a input.state) :
    Recorded a now input.expectedRequestVersion
        (authorizationClaims keyId input attemptId nonce issuedAt expiresAt) ↔
      ∃ a', invoke a ⟨some now, recordCommand
        (authorizationClaims keyId input attemptId nonce issuedAt expiresAt)
        input.expectedRequestVersion⟩ = (.ok (), a') := by
  constructor
  · rintro ⟨a', attempt, hinvoke, -⟩
    exact ⟨a', hinvoke⟩
  · rintro ⟨a', hinvoke⟩
    have hstep := invoke_ok_step hinvoke
    unfold recordCommand at hstep
    unfold Recorded
    rw [hinvoke]
    cases hkind : input.authorizationKind with
    | initial =>
      simp only [authorizationClaims, hkind] at hstep ⊢
      cases hstep with
      | authorizeExecution => exact ⟨_, _, rfl, rfl, rfl, rfl, rfl, rfl⟩
      | leaveRunning hl | leaveIdle hl => cases hl
    | retry =>
      simp only [authorizationClaims, hkind] at hstep ⊢
      cases hstep with
      | @beginRetry _ _ _ _ plan _ _ _ _ _ hplan =>
        rw [hm.plan, Option.some.injEq] at hplan
        subst hplan
        exact ⟨_, _, rfl, rfl, rfl, rfl, rfl, rfl⟩
      | leaveRunning hl | leaveIdle hl => cases hl

/-- When the command for an initial authorization returns. -/
theorem initial_returns_iff (hm : Mirrors a input.state) (hauto : AutoPlanned a)
    (hkind : input.authorizationKind = .initial) (hadmissible : Admissible input)
    (hfresh : FreshAttemptId a attemptId) :
    (∃ a', invoke a ⟨some now, recordCommand
        (authorizationClaims keyId input attemptId nonce issuedAt expiresAt)
        input.expectedRequestVersion⟩ = (.ok (), a')) ↔
      a.status = .planning ∨ (a.status = .awaitingApproval ∧ a.approval ≠ none) := by
  unfold recordCommand
  simp only [authorizationClaims, hkind]
  constructor
  · rintro ⟨a', hinvoke⟩
    cases invoke_ok_step hinvoke with
    | authorizeExecution _ hs _ _ _ happroval =>
      exact hs.imp_right fun hwaiting => ⟨hwaiting, happroval hwaiting⟩
    | leaveRunning hl | leaveIdle hl => cases hl
  · intro hs
    have hscope := stepScope_of_within hm hadmissible.steps
    have hbound : PlanBound a ⟨input.state.plan.id, input.state.plan.version,
        input.state.plan.fingerprint⟩ := ⟨_, hm.plan, rfl⟩
    rcases hs with hplanning | ⟨hwaiting, happroval⟩
    · have hrequires : input.state.plan.requiresApproval = false :=
        hauto.automatic hplanning _ hm.plan
      have hedge : Edge .planning .executionAuthorized := by decide
      simp [invoke, Command.method, authorizeExecution, hplanning, hm.plan, hrequires, hedge,
        hscope, hbound, hfresh]
    · have hedge : Edge .awaitingApproval .executionAuthorized := by decide
      simp [invoke, Command.method, authorizeExecution, hwaiting, hm.plan, hedge,
        hscope, hbound, hfresh, happroval]

/-- When the command for a retry returns. -/
theorem retry_returns_iff (hm : Mirrors a input.state)
    (hkind : input.authorizationKind = .retry) (hadmissible : Admissible input)
    (hfresh : FreshAttemptId a attemptId) :
    (∃ a', invoke a ⟨some now, recordCommand
        (authorizationClaims keyId input attemptId nonce issuedAt expiresAt)
        input.expectedRequestVersion⟩ = (.ok (), a')) ↔ replannable a.status = true := by
  unfold recordCommand
  simp only [authorizationClaims, hkind]
  constructor
  · rintro ⟨a', hinvoke⟩
    cases invoke_ok_step hinvoke with
    | beginRetry _ hs => exact hs
    | leaveRunning hl | leaveIdle hl => cases hl
  · intro hs
    have hscope := stepScope_of_within hm hadmissible.steps
    have hedge := (edge_of_replannable hs).2
    have hversion : input.expectedRequestVersion = a.version :=
      hadmissible.version.symm.trans hm.version
    simp [invoke, Command.method, beginRetry, hs, hm.plan, hedge, hscope, hversion, hfresh]

/-- The signer and the aggregate agree on every request but the unrecordable ones. -/
theorem signerAgrees_iff (request : CreatePrivacyRequest) (calls : List Call)
    (hm : Mirrors (after (create request) calls) input.state)
    (hfresh : FreshAttemptId (after (create request) calls) attemptId) :
    SignerAgrees (after (create request) calls) now keyId input attemptId
        nonce issuedAt expiresAt ↔
      ¬ Unrecordable (after (create request) calls) input := by
  have hauto := autoPlanned_after request calls
  generalize after (create request) calls = a at *
  have happroval : input.state.approval = none ↔ a.approval = none := by
    have h := congrArg Option.isNone hm.approval
    rw [Option.isNone_map, Option.isNone_map] at h
    rw [← Option.isNone_iff_eq_none, ← Option.isNone_iff_eq_none, h]
  unfold SignerAgrees
  rw [assertAuthorizationPolicy_ok, recorded_iff_returns hm]
  constructor
  · intro hagrees hbad
    have hreturns := hagrees ⟨hbad.admissible, hbad.evidence⟩
    have huntaken := hbad.untaken
    cases hkind : input.authorizationKind with
    | initial =>
      rw [initial_returns_iff hm hauto hkind hbad.admissible hfresh] at hreturns
      rw [hkind] at huntaken
      rcases huntaken with hreplannable | ⟨hwaiting, -, hnone⟩
      · rcases hreturns with hs | ⟨hs, -⟩ <;> rw [hs] at hreplannable <;> cases hreplannable
      · rcases hreturns with hs | ⟨-, hsome⟩
        · rw [hs] at hwaiting
          cases hwaiting
        · exact hsome (happroval.mp hnone)
    | retry =>
      rw [retry_returns_iff hm hkind hbad.admissible hfresh] at hreturns
      rw [hkind, hreturns] at huntaken
      cases huntaken
  · rintro hno ⟨hadmissible, hevidence⟩
    have hstatus := status_of_authorizable hm hadmissible.status
    cases hkind : input.authorizationKind with
    | initial =>
      rw [initial_returns_iff hm hauto hkind hadmissible hfresh]
      by_contra hnot
      rw [not_or, not_and, not_not] at hnot
      refine hno ⟨hadmissible, hevidence, ?_⟩
      rw [hkind]
      rcases hstatus with hs | hs | hs
      · exact absurd hs hnot.1
      · have hnone := happroval.mpr (hnot.2 hs)
        refine .inr ⟨hs, ?_, hnone⟩
        -- where evidence is needed the policy has seen an approval
        by_contra hrequires
        have hneeds : needsEvidence input := ⟨by simpa using hrequires, hkind⟩
        obtain ⟨-, approval, hsome, -⟩ := hevidence hneeds
        rw [hnone] at hsome
        cases hsome
      · exact .inl hs
    | retry =>
      rw [retry_returns_iff hm hkind hadmissible hfresh]
      by_contra hnot
      refine hno ⟨hadmissible, hevidence, ?_⟩
      rw [hkind]
      exact eq_false_of_ne_true hnot

end Agreement

/-- Approved by `actor-2`, executed, failed. -/
def approvedAndFailedRun : List Call :=
  let binding : PlanBinding := ⟨"plan-1", 1, "sha256:plan-1"⟩
  [.markIdentityVerified "actor-1", .beginPlanning "agent-1",
    .attachPlan { toPlanBinding := binding, requiresApproval := true },
    .approvePlan { toPlanBinding := binding, decidedBy := "actor-2" },
    .authorizeExecution
      { toPlanBinding := binding, agentId := "agent-1", attemptId := "attempt-1",
        allowedStepIds := ["step-1"] },
    .markExecuting "agent-1", .fail "adapter"].map atNoon

/-- The policy state of that request. -/
def failedInput (kind : AttemptKind) : AuthorizationPolicyInput where
  state :=
    { waitingState with
      request := { waitingState.request with version := 8, status := "failed" }
      approval := some
        { evidenceHash := "sha256:evidence-1", decidedBy := "actor-2",
          decidedAt := "2026-07-21T12:00:00.000Z", requestVersion := 4, planVersion := 1,
          planFingerprint := "sha256:plan-1" } }
  actorId := "actor-1"
  expectedRequestVersion := 8
  requestedStepIds := ["step-1"]
  authorizationKind := kind

theorem failedInput_mirrors (kind : AttemptKind) :
    Mirrors (after (create requestOne) approvedAndFailedRun) (failedInput kind).state where
  status := rfl
  version := rfl
  plan := rfl
  approval := rfl
  steps := by simp [failedInput, waitingState]

theorem signerAgrees_on_retry :
    SignerAgrees (after (create requestOne) approvedAndFailedRun) "2026-07-21T13:00:00.000Z"
      "key-1" (failedInput .retry) "attempt-2" "nonce" "issued" "expires" := by
  have hfresh : FreshAttemptId (after (create requestOne) approvedAndFailedRun) "attempt-2" := by
    unfold FreshAttemptId
    decide
  refine (signerAgrees_iff requestOne approvedAndFailedRun (failedInput_mirrors .retry)
    hfresh).mpr fun hbad => ?_
  have huntaken : replannable (after (create requestOne) approvedAndFailedRun).status = false :=
    hbad.untaken
  exact absurd huntaken (by decide)

theorem signerAgrees_fails_on_initial :
    Mirrors (after (create requestOne) approvedAndFailedRun) (failedInput .initial).state ∧
      FreshAttemptId (after (create requestOne) approvedAndFailedRun) "attempt-2" ∧
      assertAuthorizationPolicy (failedInput .initial) = .ok () ∧
      ¬ SignerAgrees (after (create requestOne) approvedAndFailedRun)
        "2026-07-21T13:00:00.000Z" "key-1" (failedInput .initial) "attempt-2" "nonce" "issued"
        "expires" := by
  refine ⟨failedInput_mirrors .initial, by unfold FreshAttemptId; decide, by decide, ?_⟩
  intro hagrees
  obtain ⟨a', attempt, hinvoke, -⟩ := hagrees (by decide)
  have hthrows : (invoke (after (create requestOne) approvedAndFailedRun)
      ⟨some "2026-07-21T13:00:00.000Z", recordCommand (authorizationClaims "key-1"
        (failedInput .initial) "attempt-2" "nonce" "issued" "expires") 8⟩).1 ≠ .ok () := by
    decide
  exact hthrows (congrArg Prod.fst hinvoke)

end ForgetOps.Signer
