import ForgetOps.Domain.Status

/-
  `PrivacyRequestAggregate` (`packages/domain/src/privacy-request/privacy-request.ts`).

  A command is a `Method`: it runs on the aggregate and either returns or throws, and a throw
  keeps whatever the command had already assigned, as in the source. `this.now()` is the argument
  `now` of the commands that read the clock (each at most once); `none` is a clock that throws.
  Command inputs are plain data: property getters that run code are not modelled. `planVersion`
  and the counts are integers. The order of the checks is the order of the source, so that the
  error a command throws is the one the source throws.
-/

namespace ForgetOps.Domain

inductive PrivacyRequestType where
  | delete
  | export
  deriving DecidableEq, Repr

inductive PrivacyRequestSource where
  | admin
  | privacyPortal
  | api
  deriving DecidableEq, Repr

def PrivacyRequestType.text : PrivacyRequestType → String
  | delete => "delete"
  | «export» => "export"

def PrivacyRequestSource.text : PrivacyRequestSource → String
  | admin => "admin"
  | privacyPortal => "privacy_portal"
  | api => "api"

/-! ## Events, plans and attempts -/

inductive EventValue where
  | string (s : String)
  | number (n : Int)
  | boolean (b : Bool)
  | null
  | strings (xs : List String)
  deriving DecidableEq, Repr

structure DomainEvent where
  type : String
  payload : List (String × EventValue)
  deriving DecidableEq, Repr

structure PlanBinding where
  planId : String
  planVersion : Int
  planFingerprint : String
  deriving DecidableEq, Repr

structure AttachedPlan extends PlanBinding where
  requiresApproval : Bool
  deriving DecidableEq, Repr

structure PlanApproval extends PlanBinding where
  decidedBy : String
  deriving DecidableEq, Repr

structure ExecutionAuthorization extends PlanBinding where
  agentId : String
  attemptId : String
  allowedStepIds : List String
  deriving DecidableEq, Repr

inductive ExecutionAttemptStatus where
  | planned
  | awaitingApproval
  | authorized
  | running
  | succeeded
  | partiallySucceeded
  | failed
  | needsReview
  | cancelled
  deriving DecidableEq, Repr

inductive AttemptKind where
  | initial
  | retry
  deriving DecidableEq, Repr

structure ExecutionAttempt extends PlanBinding where
  id : String
  requestId : String
  attemptNumber : Nat
  kind : AttemptKind
  allowedStepIds : List String
  status : ExecutionAttemptStatus
  createdAt : String
  completedAt : Option String
  deriving DecidableEq, Repr

structure CreatePrivacyRequest where
  id : String
  environmentId : String
  type : PrivacyRequestType
  source : PrivacyRequestSource
  policyVersion : Int
  createdByActorId : String
  deadlineAt : String
  deriving DecidableEq, Repr

structure PrivacyRequestAggregate extends CreatePrivacyRequest where
  status : PrivacyRequestStatus
  version : Nat
  currentAttemptId : Option String
  plan : Option AttachedPlan
  approval : Option PlanApproval
  latestPlanVersion : Int
  attempts : List ExecutionAttempt
  events : List DomainEvent
  deriving DecidableEq, Repr

structure PrivacyRequestSnapshot extends CreatePrivacyRequest where
  status : PrivacyRequestStatus
  version : Nat
  currentAttemptId : Option String
  plan : Option AttachedPlan
  approval : Option PlanApproval
  deriving DecidableEq, Repr

/-- A method of the aggregate. A throw keeps the assignments made before it. -/
abbrev Method (α : Type) := ExceptT DomainError (StateM PrivacyRequestAggregate) α

/-- What the method returns or throws, and the aggregate it leaves. -/
def Method.exec {α : Type} (x : Method α) (this : PrivacyRequestAggregate) :
    Except DomainError α × PrivacyRequestAggregate :=
  x.run.run this

/-- `if (c) throw e;`. -/
def throwIf (c : Prop) [Decidable c] (e : DomainError) : Method Unit :=
  if c then throw e else pure ()

def event (type : String) (payload : List (String × EventValue)) : DomainEvent :=
  { type, payload }

/-- `new Set(xs).size === xs.length`. -/
def allDistinct (xs : List String) : Bool := xs.eraseDups.length = xs.length

def normalizeAllowedStepIds (allowedStepIds : List String) : Method (List String) := do
  throwIf (allowedStepIds.length = 0 ∨ allowedStepIds.any (· = "") ∨ ¬ allDistinct allowedStepIds)
    (.rangeError "EXECUTION_ATTEMPT_STEP_SCOPE_INVALID")
  return allowedStepIds

def isReasonHead (c : Char) : Bool := c.isLower ∨ c.isDigit

def isReasonTail (c : Char) : Bool := isReasonHead c ∨ c = '_' ∨ c = ':' ∨ c = '-'

/-- `/^[a-z0-9][a-z0-9_:-]{0,63}$/`. -/
def auditReasonPattern (reason : String) : Bool :=
  match reason.toList with
  | [] => false
  | c :: cs => isReasonHead c ∧ cs.all isReasonTail ∧ cs.length ≤ 63

def normalizeAuditReason (reason : String) : Method String := do
  throwIf (¬ auditReasonPattern reason) (.rangeError "AUDIT_REASON_INVALID")
  return reason

namespace PrivacyRequestAggregate

def create (input : CreatePrivacyRequest) : PrivacyRequestAggregate :=
  { input with
    status := .created
    version := 1
    currentAttemptId := none
    plan := none
    approval := none
    latestPlanVersion := 0
    attempts := []
    events := [event "PrivacyRequestCreated" [
      ("requestId", .string input.id), ("environmentId", .string input.environmentId),
      ("type", .string input.type.text), ("source", .string input.source.text),
      ("policyVersion", .number input.policyVersion)]] }

/-! ## Private helpers -/

/-- `this.now()`. -/
def readClock (now : Option String) : Method String :=
  match now with
  | some t => return t
  | none => throw .clock

def assertStatus (expected target : PrivacyRequestStatus) : Method Unit := do
  let this ← get
  throwIf (this.status ≠ expected) (.stateConflict this.status target)

def assertCanTransition (next : PrivacyRequestStatus) : Method Unit := do
  let this ← get
  throwIf (¬ Edge this.status next) (.stateConflict this.status next)

def assertPlanBinding (binding : PlanBinding) : Method Unit := do
  let this ← get
  match this.plan with
  | none => throw .planVersionMismatch
  | some plan =>
    throwIf (plan.planId ≠ binding.planId ∨ plan.planVersion ≠ binding.planVersion ∨
      plan.planFingerprint ≠ binding.planFingerprint) .planVersionMismatch

def buildAttempt (now : Option String) (id : String) (kind : AttemptKind) (binding : PlanBinding)
    (allowedStepIds : List String) (status : ExecutionAttemptStatus) :
    Method ExecutionAttempt := do
  let this ← get
  throwIf (id = "" ∨ this.attempts.any (·.id = id)) (.rangeError "EXECUTION_ATTEMPT_ID_INVALID")
  let createdAt ← readClock now
  return { binding with
    id, requestId := this.id, attemptNumber := this.attempts.length + 1, kind, allowedStepIds,
    status, createdAt, completedAt := none }

def appendAttempt (attempt : ExecutionAttempt) : Method Unit :=
  modify fun this =>
    { this with attempts := this.attempts ++ [attempt], currentAttemptId := some attempt.id }

def requiredCurrentAttempt : Method ExecutionAttempt := do
  let this ← get
  match this.attempts.find? (fun attempt => some attempt.id = this.currentAttemptId) with
  | some attempt => return attempt
  | none => throw (.rangeError "EXECUTION_ATTEMPT_NOT_FOUND")

def updatedCurrentAttempt (status : ExecutionAttemptStatus) (completedAt : Option String) :
    Method ExecutionAttempt := do
  let attempt ← requiredCurrentAttempt
  return { attempt with status, completedAt }

/-- `updatedCurrentAttempt(status, this.now())`: the clock is read before the attempt is found. -/
def endedCurrentAttempt (now : Option String) (status : ExecutionAttemptStatus) :
    Method ExecutionAttempt := do
  let completedAt ← readClock now
  updatedCurrentAttempt status (some completedAt)

def applyAttemptUpdate (updated : ExecutionAttempt) : Method Unit :=
  modify fun this =>
    { this with
      attempts := this.attempts.map fun attempt =>
        if attempt.id = updated.id then updated else attempt }

def record (domainEvent : DomainEvent) : Method Unit :=
  modify fun this =>
    { this with version := this.version + 1, events := this.events ++ [domainEvent] }

def transition (next : PrivacyRequestStatus) (domainEvent : DomainEvent) : Method Unit := do
  assertCanTransition next
  modify fun this => { this with status := next }
  record domainEvent

/-- `string | null` as an event value. -/
def nullable : Option String → EventValue
  | some s => .string s
  | none => .null

/-! ## Commands -/

def beginIdentityVerification (actorId : String) : Method Unit := do
  let this ← get
  transition .identityVerificationPending (event "IdentityVerificationRequested" [
    ("requestId", .string this.id), ("actorId", .string actorId)])

def markIdentityVerified (actorId : String) : Method Unit := do
  let this ← get
  transition .identityVerified (event "IdentityVerified" [
    ("requestId", .string this.id), ("actorId", .string actorId)])

def beginPlanning (agentId : String) : Method Unit := do
  assertStatus .identityVerified .planning
  let this ← get
  transition .planning (event "PlanningRequested" [
    ("requestId", .string this.id), ("agentId", .string agentId)])

def executionPlanCreated (requestId : String) (plan : AttachedPlan) : DomainEvent :=
  event "ExecutionPlanCreated" [
    ("requestId", .string requestId), ("planId", .string plan.planId),
    ("planVersion", .number plan.planVersion), ("planFingerprint", .string plan.planFingerprint),
    ("requiresApproval", .boolean plan.requiresApproval)]

def attachPlan (input : AttachedPlan) : Method Unit := do
  assertStatus .planning .awaitingApproval
  let this ← get
  throwIf (input.planVersion ≤ this.latestPlanVersion) .planVersionMismatch
  let planCreated := executionPlanCreated this.id input
  modify fun this =>
    { this with plan := some input, approval := none, latestPlanVersion := input.planVersion }
  if input.requiresApproval then
    modify fun this => { this with status := .awaitingApproval }
    record planCreated
  else
    record planCreated

def executionPlanApproved (requestId : String) (approval : PlanApproval) : DomainEvent :=
  event "ExecutionPlanApproved" [
    ("requestId", .string requestId), ("planId", .string approval.planId),
    ("planVersion", .number approval.planVersion),
    ("planFingerprint", .string approval.planFingerprint),
    ("decidedBy", .string approval.decidedBy)]

def approvePlan (approval : PlanApproval) : Method Unit := do
  assertStatus .awaitingApproval .awaitingApproval
  assertPlanBinding approval.toPlanBinding
  let this ← get
  let planApproved := executionPlanApproved this.id approval
  modify fun this => { this with approval := some approval }
  record planApproved

inductive Disposition where
  | changesRequested
  | planRejected
  deriving DecidableEq, Repr

def Disposition.text : Disposition → String
  | changesRequested => "changes_requested"
  | planRejected => "plan_rejected"

def rejectPlan (decidedBy : String) (disposition : Disposition) : Method Unit := do
  assertStatus .awaitingApproval
    (if disposition = .changesRequested then .planning else .cancelled)
  let this ← get
  let planRejected := event "ExecutionPlanRejected" [
    ("requestId", .string this.id), ("decidedBy", .string decidedBy),
    ("disposition", .string disposition.text)]
  modify fun this => { this with approval := none }
  if disposition = .changesRequested then
    modify fun this => { this with plan := none }
    transition .planning planRejected
  else
    transition .cancelled planRejected

def authorizeExecution (now : Option String) (input : ExecutionAuthorization) :
    Method Unit := do
  assertCanTransition .executionAuthorized
  let this ← get
  throwIf (this.status ≠ .planning ∧ this.status ≠ .awaitingApproval)
    (.stateConflict this.status .executionAuthorized)
  match this.plan with
  | none => throw (.stateConflict this.status .executionAuthorized)
  | some plan =>
    let allowedStepIds ← normalizeAllowedStepIds input.allowedStepIds
    assertPlanBinding input.toPlanBinding
    throwIf ((this.status = .planning ∧ plan.requiresApproval = true) ∨
        (this.status = .awaitingApproval ∧ this.approval.isNone))
      (.stateConflict this.status .executionAuthorized)
    let executionAuthorized := event "ExecutionAuthorized" [
      ("requestId", .string this.id), ("planId", .string input.planId),
      ("planVersion", .number input.planVersion),
      ("planFingerprint", .string input.planFingerprint), ("agentId", .string input.agentId),
      ("attemptId", .string input.attemptId), ("authorizationKind", .string "initial"),
      ("allowedStepIds", .strings allowedStepIds)]
    let attempt ← buildAttempt now input.attemptId .initial input.toPlanBinding allowedStepIds
      .authorized
    appendAttempt attempt
    transition .executionAuthorized executionAuthorized

def markExecuting (agentId : String) : Method Unit := do
  assertStatus .executionAuthorized .executing
  let attemptUpdate ← updatedCurrentAttempt .running none
  let this ← get
  let executionStarted := event "ExecutionStarted" [
    ("requestId", .string this.id), ("agentId", .string agentId),
    ("attemptId", .string attemptUpdate.id)]
  applyAttemptUpdate attemptUpdate
  transition .executing executionStarted

def complete (now : Option String) (affectedCount : Int) : Method Unit := do
  assertStatus .executing .completed
  let attemptUpdate ← endedCurrentAttempt now .succeeded
  let this ← get
  let completed := event "PrivacyRequestCompleted" [
    ("requestId", .string this.id), ("affectedCount", .number affectedCount),
    ("attemptId", .string attemptUpdate.id)]
  applyAttemptUpdate attemptUpdate
  transition .completed completed

/-- The body `markPartial`, `fail` and `markNeedsReview` share: a running attempt ends with
    `ended`, in every other status the ledger is left alone. -/
def leaveFor (next : PrivacyRequestStatus) (ended : ExecutionAttemptStatus)
    (now : Option String) (domainEvent : PrivacyRequestAggregate → DomainEvent) :
    Method Unit := do
  assertCanTransition next
  let this ← get
  if this.status = .executing then
    let attemptUpdate ← endedCurrentAttempt now ended
    applyAttemptUpdate attemptUpdate
    transition next (domainEvent this)
  else
    transition next (domainEvent this)

def markPartial (now : Option String) (affectedCount failedCount : Int) : Method Unit :=
  leaveFor .partiallyCompleted .partiallySucceeded now fun this =>
    event "PrivacyRequestPartiallyCompleted" [
      ("requestId", .string this.id), ("affectedCount", .number affectedCount),
      ("failedCount", .number failedCount), ("attemptId", nullable this.currentAttemptId)]

/-- The `category` argument is not read. -/
def fail (now : Option String) (_category : String) : Method Unit :=
  leaveFor .failed .failed now fun this =>
    event "PrivacyRequestFailed" [
      ("requestId", .string this.id), ("attemptId", nullable this.currentAttemptId)]

/-- The `category` argument is not read. -/
def markNeedsReview (now : Option String) (_category : String) : Method Unit :=
  leaveFor .needsReview .needsReview now fun this =>
    event "PrivacyRequestNeedsReview" [
      ("requestId", .string this.id), ("attemptId", nullable this.currentAttemptId)]

/-- The statuses `requestReplan` and `beginRetry` accept. -/
def replannable (s : PrivacyRequestStatus) : Bool :=
  s = .partiallyCompleted ∨ s = .failed ∨ s = .needsReview

def requestReplan (actorId reason : String) : Method Unit := do
  assertCanTransition .planning
  let this ← get
  throwIf (¬ replannable this.status) (.stateConflict this.status .planning)
  let reason ← normalizeAuditReason reason
  let replanRequested := event "ReplanRequested" [
    ("requestId", .string this.id), ("actorId", .string actorId), ("reason", .string reason)]
  modify fun this => { this with plan := none, approval := none }
  transition .planning replanRequested

def beginRetry (now : Option String) (attemptId : String) (allowedStepIds : List String)
    (expectedVersion : Int) : Method Unit := do
  assertCanTransition .executionAuthorized
  let this ← get
  throwIf (¬ replannable this.status) (.stateConflict this.status .executionAuthorized)
  throwIf (expectedVersion ≠ this.version) (.rangeError "REQUEST_VERSION_MISMATCH")
  match this.plan with
  | none => throw (.stateConflict this.status .executionAuthorized)
  | some plan =>
    let allowedStepIds ← normalizeAllowedStepIds allowedStepIds
    let attempt ← buildAttempt now attemptId .retry plan.toPlanBinding allowedStepIds .authorized
    let retryAuthorized := event "ExecutionAuthorized" [
      ("requestId", .string this.id), ("planId", .string attempt.planId),
      ("planVersion", .number attempt.planVersion),
      ("planFingerprint", .string attempt.planFingerprint), ("attemptId", .string attempt.id),
      ("authorizationKind", .string "retry"), ("allowedStepIds", .strings attempt.allowedStepIds)]
    appendAttempt attempt
    transition .executionAuthorized retryAuthorized

def invalidateAuthorization (now : Option String) (actorId reason : String) : Method Unit := do
  assertStatus .executionAuthorized .awaitingApproval
  let reason ← normalizeAuditReason reason
  let attemptUpdate ← endedCurrentAttempt now .cancelled
  let this ← get
  let authorizationInvalidated := event "ExecutionAuthorizationInvalidated" [
    ("requestId", .string this.id), ("actorId", .string actorId), ("reason", .string reason),
    ("attemptId", nullable this.currentAttemptId)]
  applyAttemptUpdate attemptUpdate
  modify fun this => { this with approval := none }
  transition .awaitingApproval authorizationInvalidated

def acceptRetainedOutcome (actorId reason : String) : Method Unit := do
  let this ← get
  throwIf (this.status ≠ .partiallyCompleted ∧ this.status ≠ .needsReview)
    (.stateConflict this.status .completed)
  let reason ← normalizeAuditReason reason
  transition .completed (event "RetainedOutcomeAccepted" [
    ("requestId", .string this.id), ("actorId", .string actorId), ("reason", .string reason),
    ("attemptId", nullable this.currentAttemptId)])

def cancel (now : Option String) (actorId reason : String) : Method Unit := do
  assertCanTransition .cancelled
  let reason ← normalizeAuditReason reason
  let this ← get
  let cancelled := event "PrivacyRequestCancelled" [
    ("requestId", .string this.id), ("actorId", .string actorId), ("reason", .string reason),
    ("attemptId", nullable this.currentAttemptId)]
  if this.status = .executionAuthorized then
    let attemptUpdate ← endedCurrentAttempt now .cancelled
    applyAttemptUpdate attemptUpdate
    transition .cancelled cancelled
  else
    transition .cancelled cancelled

/-! ## Reads and the event queue -/

def snapshot (this : PrivacyRequestAggregate) : PrivacyRequestSnapshot := { this with }

def executionAttempts (this : PrivacyRequestAggregate) : List ExecutionAttempt := this.attempts

def pendingEvents (this : PrivacyRequestAggregate) : List DomainEvent := this.events

def markEventsCommitted (count : Nat) : Method Unit := do
  let this ← get
  throwIf (count > this.events.length) (.rangeError "INVALID_COMMITTED_EVENT_COUNT")
  modify fun this => { this with events := this.events.drop count }

end PrivacyRequestAggregate

/-! ## Calls and runs -/

inductive Command where
  | beginIdentityVerification (actorId : String)
  | markIdentityVerified (actorId : String)
  | beginPlanning (agentId : String)
  | attachPlan (input : AttachedPlan)
  | approvePlan (input : PlanApproval)
  | rejectPlan (decidedBy : String) (disposition : PrivacyRequestAggregate.Disposition)
  | authorizeExecution (input : ExecutionAuthorization)
  | markExecuting (agentId : String)
  | complete (affectedCount : Int)
  | markPartial (affectedCount failedCount : Int)
  | fail (category : String)
  | markNeedsReview (category : String)
  | requestReplan (actorId reason : String)
  | beginRetry (attemptId : String) (allowedStepIds : List String) (expectedVersion : Int)
  | invalidateAuthorization (actorId reason : String)
  | acceptRetainedOutcome (actorId reason : String)
  | cancel (actorId reason : String)
  deriving DecidableEq, Repr

open PrivacyRequestAggregate in
def Command.method (now : Option String) : Command → Method Unit
  | .beginIdentityVerification actorId => PrivacyRequestAggregate.beginIdentityVerification actorId
  | .markIdentityVerified actorId => PrivacyRequestAggregate.markIdentityVerified actorId
  | .beginPlanning agentId => PrivacyRequestAggregate.beginPlanning agentId
  | .attachPlan input => PrivacyRequestAggregate.attachPlan input
  | .approvePlan input => PrivacyRequestAggregate.approvePlan input
  | .rejectPlan decidedBy disposition => PrivacyRequestAggregate.rejectPlan decidedBy disposition
  | .authorizeExecution input => PrivacyRequestAggregate.authorizeExecution now input
  | .markExecuting agentId => PrivacyRequestAggregate.markExecuting agentId
  | .complete affectedCount => PrivacyRequestAggregate.complete now affectedCount
  | .markPartial affectedCount failedCount =>
    PrivacyRequestAggregate.markPartial now affectedCount failedCount
  | .fail category => PrivacyRequestAggregate.fail now category
  | .markNeedsReview category => PrivacyRequestAggregate.markNeedsReview now category
  | .requestReplan actorId reason => PrivacyRequestAggregate.requestReplan actorId reason
  | .beginRetry attemptId allowedStepIds expectedVersion =>
    PrivacyRequestAggregate.beginRetry now attemptId allowedStepIds expectedVersion
  | .invalidateAuthorization actorId reason =>
    PrivacyRequestAggregate.invalidateAuthorization now actorId reason
  | .acceptRetainedOutcome actorId reason =>
    PrivacyRequestAggregate.acceptRetainedOutcome actorId reason
  | .cancel actorId reason => PrivacyRequestAggregate.cancel now actorId reason

/-- A command together with what `this.now()` answers during it. -/
structure Call where
  now : Option String
  command : Command
  deriving DecidableEq, Repr

/-- One call on the aggregate: what it returns or throws, and the aggregate after it. -/
def invoke (a : PrivacyRequestAggregate) (call : Call) :
    Except DomainError Unit × PrivacyRequestAggregate :=
  (call.command.method call.now).exec a

/-- The aggregate after a sequence of calls, each of which may have thrown. -/
def after (a : PrivacyRequestAggregate) (calls : List Call) : PrivacyRequestAggregate :=
  calls.foldl (fun a call => (invoke a call).2) a

end ForgetOps.Domain
