import ForgetOps.Domain.PrivacyRequest
import ForgetOps.Library.Guards

/-
  The authorization policy of the signer (`apps/signer/src/authorization-policy.ts`).

  Numbers of the policy state are integers, and an optional `cancelled` that is left out is
  `false`. The order of the checks is the order of the source.

  `assertAuthorizationPolicy_ok` says what an accepted input satisfies. Safety of approvals,
  `approvalSafe_iff`, holds of every input but a retry that is asked for where the approval is
  still missing.
-/

namespace ForgetOps.Signer

open Domain Guards

/-! ## The policy state -/

inductive AgentStatus where
  | online
  | outdated
  | draining
  | revoked
  deriving DecidableEq, Repr

structure RequestState where
  id : String
  environmentId : String
  version : Int
  policyVersion : Int
  status : String
  cancelled : Bool
  deriving DecidableEq, Repr

structure PlanState where
  id : String
  version : Int
  fingerprint : String
  connectorConfigurationFingerprint : String
  stepIds : List String
  requiresApproval : Bool
  deriving DecidableEq, Repr

structure ApprovalState where
  evidenceHash : String
  decidedBy : String
  decidedAt : String
  requestVersion : Int
  planVersion : Int
  planFingerprint : String
  deriving DecidableEq, Repr

structure AgentState where
  id : String
  environmentId : String
  status : AgentStatus
  deriving DecidableEq, Repr

structure AuthorizationPolicyState where
  request : RequestState
  plan : PlanState
  approval : Option ApprovalState
  agent : AgentState
  executionPaused : Bool
  deriving DecidableEq, Repr

structure AuthorizationPolicyInput where
  state : AuthorizationPolicyState
  actorId : String
  expectedRequestVersion : Int
  requestedStepIds : List String
  authorizationKind : AttemptKind
  deriving DecidableEq, Repr

inductive AuthorizationPolicyError where
  | executionGloballyPaused
  | requestVersionMismatch
  | planVersionMismatch
  | approvalEvidenceInvalid
  | separationOfDutyViolation
  | agentNotEligible
  | requestNotAuthorizable
  | stepScopeInvalid
  deriving DecidableEq, Repr

/-! ## The policy -/

/-- The statuses a request can be authorized in. -/
def authorizableStatuses : List String :=
  ["planning", "awaiting_approval", "partially_completed", "failed", "needs_review"]

/-- The check of a step selection that both policies make. -/
def assertStepScope (allowed requested : List String) : Except AuthorizationPolicyError Unit :=
  refuse (requested.length = 0 ∨ (∃ stepId ∈ requested, stepId ∉ allowed) ∨
    ¬ allDistinct requested) .stepScopeInvalid

def assertApproval (input : AuthorizationPolicyInput) : Except AuthorizationPolicyError Unit :=
  match input.state.approval with
  | none => throw .approvalEvidenceInvalid
  | some approval => do
    refuse (approval.planVersion ≠ input.state.plan.version ∨
      approval.planFingerprint ≠ input.state.plan.fingerprint ∨
      approval.requestVersion > input.state.request.version) .approvalEvidenceInvalid
    refuse (approval.decidedBy = input.actorId) .separationOfDutyViolation

/-- The approval is looked at for an initial authorization only. -/
def needsEvidence (input : AuthorizationPolicyInput) : Prop :=
  input.state.plan.requiresApproval = true ∧ input.authorizationKind = .initial

instance (input : AuthorizationPolicyInput) : Decidable (needsEvidence input) :=
  inferInstanceAs (Decidable (_ ∧ _))

def assertAuthorizationPolicy (input : AuthorizationPolicyInput) :
    Except AuthorizationPolicyError Unit := do
  let state := input.state
  refuse (state.executionPaused = true) .executionGloballyPaused
  refuse (state.request.cancelled = true ∨ state.request.status = "cancelled")
    .requestNotAuthorizable
  refuse (state.request.version ≠ input.expectedRequestVersion) .requestVersionMismatch
  refuse (state.request.status ∉ authorizableStatuses) .requestNotAuthorizable
  refuse (state.agent.status = .revoked ∨
    state.agent.environmentId ≠ state.request.environmentId) .agentNotEligible
  -- a plan version that is not positive is let through where no evidence is needed
  refuse ((state.plan.version ≤ 0 ∨ (some state.plan.version ≠ state.approval.map (·.planVersion) ∧
    needsEvidence input)) ∧ needsEvidence input) .approvalEvidenceInvalid
  if needsEvidence input then
    assertApproval input
  assertStepScope state.plan.stepIds input.requestedStepIds

/-! ## What the policy accepts -/

/-- A step selection that is not empty, is allowed and names no step twice. -/
structure StepsWithin (allowed requested : List String) : Prop where
  nonempty : requested ≠ []
  subset : ∀ stepId ∈ requested, stepId ∈ allowed
  distinct : allDistinct requested = true

theorem length_eraseDups_le (xs : List String) : xs.eraseDups.length ≤ xs.length := by
  induction hn : xs.length using Nat.strong_induction_on generalizing xs with
  | _ n ih =>
    cases xs with
    | nil => simp
    | cons x xs =>
      have hfilter : (xs.filter fun y => !y == x).length ≤ xs.length := List.length_filter_le _ _
      have hlt : (xs.filter fun y => !y == x).length < n := by
        rw [← hn, List.length_cons]
        omega
      have hle := ih _ hlt _ rfl
      rw [List.eraseDups_cons, List.length_cons]
      omega

/-- The two ways to say that no step is named twice. -/
theorem nodup_of_allDistinct {xs : List String} (h : allDistinct xs = true) : xs.Nodup := by
  unfold allDistinct at h
  rw [decide_eq_true_eq] at h
  induction xs with
  | nil => exact List.nodup_nil
  | cons x xs ih =>
    rw [List.eraseDups_cons, List.length_cons, List.length_cons] at h
    have hle := length_eraseDups_le (xs.filter fun y => !y == x)
    have hfilter : (xs.filter fun y => !y == x).length ≤ xs.length := List.length_filter_le _ _
    have hall : xs.filter (fun y => !y == x) = xs :=
      List.filter_sublist.eq_of_length (by omega)
    rw [hall] at h
    refine List.nodup_cons.mpr ⟨fun hmem => ?_, ih (by omega)⟩
    have hx := List.filter_eq_self.mp hall x hmem
    simp at hx

theorem assertStepScope_ok {allowed requested : List String} :
    assertStepScope allowed requested = .ok () ↔ StepsWithin allowed requested := by
  unfold assertStepScope
  rw [refuse_ok]
  constructor
  · intro h
    simp only [not_or, not_exists, not_and, not_not] at h
    exact ⟨fun hnil => h.1 (by rw [hnil]; rfl), h.2.1, h.2.2⟩
  · rintro ⟨hne, hsub, hdistinct⟩ (hlen | ⟨stepId, hmem, hnot⟩ | hdup)
    · exact hne (List.length_eq_zero_iff.mp hlen)
    · exact hnot (hsub stepId hmem)
    · exact hdup hdistinct

/-- The approval is one of the plan, by somebody else, and not newer than the request. -/
def ApprovalHonoured (input : AuthorizationPolicyInput) : Prop :=
  ∃ approval, input.state.approval = some approval ∧
    approval.planVersion = input.state.plan.version ∧
    approval.planFingerprint = input.state.plan.fingerprint ∧
    approval.requestVersion ≤ input.state.request.version ∧ approval.decidedBy ≠ input.actorId

theorem assertApproval_ok {input : AuthorizationPolicyInput} :
    assertApproval input = .ok () ↔ ApprovalHonoured input := by
  unfold assertApproval ApprovalHonoured
  cases input.state.approval with
  | none => simp
  | some approval => simp [and_assoc]

/-- The checks that look neither at the approval nor at the kind. -/
structure Admissible (input : AuthorizationPolicyInput) : Prop where
  notPaused : input.state.executionPaused = false
  notCancelled : input.state.request.cancelled = false ∧ input.state.request.status ≠ "cancelled"
  version : input.state.request.version = input.expectedRequestVersion
  status : input.state.request.status ∈ authorizableStatuses
  agent : input.state.agent.status ≠ .revoked ∧
    input.state.agent.environmentId = input.state.request.environmentId
  steps : StepsWithin input.state.plan.stepIds input.requestedStepIds

theorem assertAuthorizationPolicy_ok {input : AuthorizationPolicyInput} :
    assertAuthorizationPolicy input = .ok () ↔
      Admissible input ∧
        (needsEvidence input → 0 < input.state.plan.version ∧ ApprovalHonoured input) := by
  unfold assertAuthorizationPolicy
  dsimp only
  simp only [refuse_bind_ok]
  constructor
  · rintro ⟨hpaused, hcancelled, hversion, hstatus, hagent, hplan, h⟩
    rw [not_or] at hcancelled hagent
    have hrest : (needsEvidence input → ApprovalHonoured input) ∧
        StepsWithin input.state.plan.stepIds input.requestedStepIds := by
      split at h
      · cases happroval : assertApproval input with
        | error e => rw [happroval] at h; cases h
        | ok u =>
          rw [happroval] at h
          exact ⟨fun _ => assertApproval_ok.mp happroval, assertStepScope_ok.mp h⟩
      · next hno => exact ⟨fun hyes => absurd hyes hno, assertStepScope_ok.mp h⟩
    refine ⟨⟨by simpa using hpaused, ⟨by simpa using hcancelled.1, hcancelled.2⟩,
      not_not.mp hversion, not_not.mp hstatus, ⟨hagent.1, not_not.mp hagent.2⟩, hrest.2⟩, ?_⟩
    intro hneeds
    refine ⟨?_, hrest.1 hneeds⟩
    by_contra hpos
    exact hplan ⟨.inl (not_lt.mp hpos), hneeds⟩
  · rintro ⟨hadmissible, hevidence⟩
    refine ⟨by simp [hadmissible.notPaused], by simp [hadmissible.notCancelled],
      not_not.mpr hadmissible.version, not_not.mpr hadmissible.status,
      by simp [hadmissible.agent], ?_, ?_⟩
    · rintro ⟨hbad, hneeds⟩
      obtain ⟨hpos, approval, happroval, hversion, -⟩ := hevidence hneeds
      rcases hbad with hle | ⟨hne, -⟩
      · omega
      · exact hne (by rw [happroval, Option.map_some, hversion])
    · split
      · next hneeds =>
        rw [assertApproval_ok.mpr (hevidence hneeds).2]
        exact assertStepScope_ok.mpr hadmissible.steps
      · exact assertStepScope_ok.mpr hadmissible.steps

/-! ## Safety of approvals -/

/-- An accepted authorization of a plan that has to be approved, for a request that has not been
    executed yet, honours an approval. -/
def ApprovalSafe (input : AuthorizationPolicyInput) : Prop :=
  assertAuthorizationPolicy input = .ok () → input.state.plan.requiresApproval = true →
    input.state.request.status = "planning" ∨ input.state.request.status = "awaiting_approval" →
    ApprovalHonoured input

/-- A retry, asked for where the plan still waits for its approval. -/
structure RetryWithoutApproval (input : AuthorizationPolicyInput) : Prop where
  kind : input.authorizationKind = .retry
  requiresApproval : input.state.plan.requiresApproval = true
  status : input.state.request.status = "planning" ∨
    input.state.request.status = "awaiting_approval"
  unapproved : ¬ ApprovalHonoured input
  admissible : Admissible input

theorem approvalSafe_iff (input : AuthorizationPolicyInput) :
    ApprovalSafe input ↔ ¬ RetryWithoutApproval input := by
  unfold ApprovalSafe
  rw [assertAuthorizationPolicy_ok]
  constructor
  · intro hsafe hretry
    have hno : ¬ needsEvidence input := by
      unfold needsEvidence
      rw [hretry.kind]
      simp
    exact hretry.unapproved (hsafe ⟨hretry.admissible, fun hneeds => absurd hneeds hno⟩
      hretry.requiresApproval hretry.status)
  · intro hno haccepted hrequires hstatus
    have hadmissible := haccepted.1
    have hevidence := haccepted.2
    cases hkind : input.authorizationKind with
    | initial => exact (hevidence ⟨hrequires, hkind⟩).2
    | retry =>
      by_contra hunapproved
      exact hno ⟨hkind, hrequires, hstatus, hunapproved, hadmissible⟩

/-- A request that waits for the approval of its plan. -/
def waitingState : AuthorizationPolicyState where
  request :=
    { id := "request-1", environmentId := "environment-1", version := 5, policyVersion := 1,
      status := "awaiting_approval", cancelled := false }
  plan :=
    { id := "plan-1", version := 1, fingerprint := "sha256:plan-1",
      connectorConfigurationFingerprint := "sha256:connectors-1", stepIds := ["step-1"],
      requiresApproval := true }
  approval := none
  agent := { id := "agent-1", environmentId := "environment-1", status := .online }
  executionPaused := false

/-- What `actor-1` asks for, of the kind `kind`. -/
def waitingInput (kind : AttemptKind) : AuthorizationPolicyInput where
  state := waitingState
  actorId := "actor-1"
  expectedRequestVersion := 5
  requestedStepIds := ["step-1"]
  authorizationKind := kind

theorem approvalSafe_fails_for_retry :
    assertAuthorizationPolicy (waitingInput .retry) = .ok () ∧
      (waitingInput .retry).state.plan.requiresApproval = true ∧
      (waitingInput .retry).state.request.status = "awaiting_approval" ∧
      (waitingInput .retry).state.approval = none ∧ ¬ ApprovalSafe (waitingInput .retry) := by
  refine ⟨by decide, rfl, rfl, rfl, ?_⟩
  intro hsafe
  obtain ⟨approval, happroval, -⟩ := hsafe (by decide) rfl (.inr rfl)
  cases happroval

end ForgetOps.Signer
