import ForgetOps.Database.World

/-
  `PostgresSubjectEnvelopeRepository.bindSubject`
  (`apps/api/src/modules/privacy-requests/subject-envelope-service.ts`).
-/

namespace ForgetOps.Api

open Domain Database
open ReadCommitted (Script)

structure SubjectAliasBinding where
  identifierKind : String
  subjectHash : String
  subjectHashKeyVersion : Int
  canonicalizationVersion : Int
  deriving DecidableEq, Repr

structure DuplicateOverride where
  ownerActorId : String
  reason : String
  deriving DecidableEq, Repr

/-- `eventIds` are the answers of `randomUUID()`. -/
structure BindSubjectRequest where
  tenantId : String
  environmentId : String
  requestId : String
  agentId : String
  subjectHash : String
  subjectHashKeyVersion : Int
  canonicalizationVersion : Int
  expectedVersion : Int
  aliases : List SubjectAliasBinding
  duplicateOverride : Option DuplicateOverride
  now : Timestamp
  duplicateEventId : String
  eventId : String
  deriving DecidableEq, Repr

inductive BindingOutcome where
  | bound
  | duplicateCancelled
  | duplicateOverride
  deriving DecidableEq, Repr

structure SubjectBindingResult where
  requestId : String
  environmentId : String
  subjectHash : String
  subjectHashKeyVersion : Int
  canonicalizationVersion : Int
  duplicateOfRequestId : Option String
  outcome : BindingOutcome
  deriving DecidableEq, Repr

namespace SubjectBinding

def activeAgentStatus (s : AgentStatus) : Bool := s ≠ .revoked

/-- `CANCELLABLE_DUPLICATE_STATUSES`. -/
def cancellableDuplicateStatus : PrivacyRequestStatus → Bool
  | .created | .identityVerificationPending | .identityVerified | .planning
  | .awaitingApproval => true
  | _ => false

/-- A row of `privacy_requests` joined with its environment. -/
structure RequestAndEnvironment where
  request : RequestRow
  environment : EnvironmentRow

def inScope (tenantId environmentId : String) (row : RequestRow) : Prop :=
  row.tenantId = tenantId ∧ row.environmentId = environmentId

instance (tenantId environmentId : String) : DecidablePred (inScope tenantId environmentId) :=
  fun _ => inferInstanceAs (Decidable (_ ∧ _))

def findRequest (tenantId environmentId requestId : String) :
    Transaction (Option RequestAndEnvironment) :=
  Script.read fun (w : World) =>
    match w.requests.find requestId, w.environments.find environmentId with
    | some request, some environment =>
      if inScope tenantId environmentId request ∧ environment.tenantId = tenantId then
        some ⟨request, environment⟩
      else none
    | _, _ => none

/-- `findRequest` with `for update of r, e`. -/
def findRequestForUpdate (tenantId environmentId requestId : String) :
    Transaction (Option RequestAndEnvironment) := do
  let request ← Script.update (.request requestId) (lockRow (inScope tenantId environmentId))
  match request with
  | none => return none
  | some request => do
    let environment ← Script.update (.environment environmentId)
      (lockRow fun (row : EnvironmentRow) => row.tenantId = tenantId)
    return environment.map fun environment => ⟨request, environment⟩

def existingOutcome (row : RequestRow) : BindingOutcome :=
  if row.duplicateOfRequestId ≠ none ∧ row.duplicateOfRequestId ≠ some "" then .duplicateCancelled
  else if row.duplicateOverride then .duplicateOverride
  else .bound

def toBindingResult (requestId : String) (row : RequestRow) :
    Except String SubjectBindingResult :=
  match row.subjectHash, row.subjectHashKeyVersion, row.subjectCanonicalizationVersion with
  | some subjectHash, some subjectHashKeyVersion, some canonicalizationVersion =>
    if subjectHash = "" then .error "SUBJECT_BINDING_STATE_INVALID"
    else
      .ok {
        requestId
        environmentId := row.environmentId
        subjectHash
        subjectHashKeyVersion
        canonicalizationVersion
        duplicateOfRequestId := row.duplicateOfRequestId
        outcome := existingOutcome row }
  | _, _, _ => .error "SUBJECT_BINDING_STATE_INVALID"

/-- The subject of the row is the one of the input. -/
def sameSubject (input : BindSubjectRequest) (row : RequestRow) : Prop :=
  row.subjectHash = some input.subjectHash ∧
    row.subjectHashKeyVersion = some input.subjectHashKeyVersion ∧
    row.subjectCanonicalizationVersion = some input.canonicalizationVersion

instance (input : BindSubjectRequest) : DecidablePred (sameSubject input) :=
  fun _ => inferInstanceAs (Decidable (_ ∧ _))

def deleteEnvelope (input : BindSubjectRequest) : Transaction Unit := do
  let _ ← Script.update (.envelope input.requestId)
    (deleteRow fun (row : EnvelopeRow) => row.tenantId = input.tenantId)
  return ()

/-- The `where` of the duplicate candidates, but for `id <> requestId`. -/
def isCandidate (input : BindSubjectRequest) (type : PrivacyRequestType) (row : RequestRow) :
    Prop :=
  inScope input.tenantId input.environmentId row ∧ row.subjectHash = some input.subjectHash ∧
    row.type = type ∧ row.duplicateOverride = false ∧ ¬ finished row.status

instance (input : BindSubjectRequest) (type : PrivacyRequestType) :
    DecidablePred (isCandidate input type) :=
  fun _ => inferInstanceAs (Decidable (_ ∧ _))

/-- `order by created_at, id`. -/
def candidateOrder (a b : String × RequestRow) : Bool :=
  a.2.createdAt < b.2.createdAt ∨ (a.2.createdAt = b.2.createdAt ∧ a.1 ≤ b.1)

def candidateIds (input : BindSubjectRequest) (type : PrivacyRequestType) (w : World) :
    List String :=
  ((w.requests.entries.filter fun entry =>
    isCandidate input type entry.2 ∧ entry.1 ≠ input.requestId).mergeSort candidateOrder).map (·.1)

def duplicateCandidates (input : BindSubjectRequest) (type : PrivacyRequestType) :
    Transaction (List (String × RequestRow)) := do
  if input.duplicateOverride.isSome then return []
  else do
    let ids ← Script.read (candidateIds input type)
    onRows (fun id => Script.update (.request id) (lockRow (isCandidate input type))) ids

/-- `compareCreatedAt(…) > 0`. -/
def isNewer (rt : Runtime) (request : RequestRow) (candidate : RequestRow)
    (requestId candidateId : String) : Prop :=
  candidate.createdAt < request.createdAt ∨
    (candidate.createdAt = request.createdAt ∧ rt.localeCompare requestId candidateId = .gt)

instance (rt : Runtime) (request candidate : RequestRow) (requestId candidateId : String) :
    Decidable (isNewer rt request candidate requestId candidateId) :=
  inferInstanceAs (Decidable (_ ∨ _))

def cancelDuplicate (input : BindSubjectRequest) (requestId duplicateOfRequestId : String) :
    Transaction Unit := do
  let _ ← Script.update (.request requestId)
    (whenRow (fun (row : RequestRow) => row.tenantId = input.tenantId ∧ ¬ finished row.status)
      fun row =>
        { row with
          status := .cancelled
          duplicateOfRequestId := some duplicateOfRequestId
          completedAt := some input.now
          version := row.version + 1 })
  return ()

def insertAliases (input : BindSubjectRequest) : List SubjectAliasBinding → Transaction Unit
  | [] => .done ()
  | a :: aliases => do
    let _ ← Script.update (.alias ⟨input.requestId, a.identifierKind, a.subjectHash⟩)
      (whenAbsent
        { tenantId := input.tenantId, environmentId := input.environmentId,
          subjectHashKeyVersion := a.subjectHashKeyVersion,
          canonicalizationVersion := a.canonicalizationVersion : AliasRow })
    insertAliases input aliases

structure AuditInput where
  id : String
  tenantId : String
  environmentId : String
  requestId : String
  actorType : ActorType
  actorId : String
  action : String
  metadata : Payload
  occurredAt : Timestamp

def eventHash : Runtime → Option String → AuditEventWithoutHashes Payload → Except String String :=
  chainHash "AUDIT_EVENT_NOT_CANONICAL" "AUDIT_CHAIN_HEAD_INVALID"

def appendAuditEvent (rt : Runtime) (input : AuditInput) : Transaction Unit := do
  let head ← lockChainHead input.tenantId input.environmentId "AUDIT_CHAIN_HEAD_MISSING"
  let event : AuditEventWithoutHashes Payload :=
    { id := input.id
      tenantId := input.tenantId
      environmentId := input.environmentId
      sequence := toString (head.sequence + 1)
      requestId := some input.requestId
      actorType := input.actorType
      actorId := input.actorId
      action := input.action
      metadata := input.metadata
      createdAt := input.occurredAt }
  let hash ← orFail (eventHash rt head.eventHash event)
  recordEvent event (head.sequence + 1) input.requestId head.eventHash hash

/-- What the binding does to the request, and to the duplicate found. -/
inductive Decision where
  | bind
  /-- The request is cancelled as a duplicate of `candidate`. -/
  | cancelRequest (candidate : String)
  /-- The request is bound, and `candidate` cancelled as its duplicate. -/
  | cancelCandidate (candidate : String)
  deriving DecidableEq, Repr

def decideBinding (rt : Runtime) (input : BindSubjectRequest) (request : RequestRow)
    (candidate : Option (String × RequestRow)) : Decision :=
  match candidate with
  | none => .bind
  | some (id, candidate) =>
    if isNewer rt request candidate input.requestId id ∨
        ¬ cancellableDuplicateStatus candidate.status then
      .cancelRequest id
    else .cancelCandidate id

def Decision.duplicateOfRequestId : Decision → Option String
  | .cancelRequest id => some id
  | _ => none

def Decision.outcome (input : BindSubjectRequest) : Decision → BindingOutcome
  | .cancelRequest _ => .duplicateCancelled
  | _ => if input.duplicateOverride.isSome then .duplicateOverride else .bound

def Decision.currentStatus : Decision → PrivacyRequestStatus
  | .cancelRequest _ => .cancelled
  | _ => .identityVerified

/-- The row of the bound request. -/
def boundRow (input : BindSubjectRequest) (decision : Decision) (row : RequestRow) : RequestRow :=
  { row with
    subjectHash := some input.subjectHash
    subjectHashKeyVersion := some input.subjectHashKeyVersion
    subjectCanonicalizationVersion := some input.canonicalizationVersion
    duplicateOverride := decision.outcome input = .duplicateOverride
    duplicateOfRequestId := decision.duplicateOfRequestId
    status := decision.currentStatus
    completedAt := if decision.currentStatus = .cancelled then some input.now else none
    version := row.version + 1 }

def bindingAction (input : BindSubjectRequest) (decision : Decision) : String :=
  if input.duplicateOverride.isSome then "SubjectDuplicateOverrideApplied"
  else if decision.outcome input = .duplicateCancelled then "PrivacyRequestDuplicateCancelled"
  else "SubjectIdentityBound"

def bindingMetadata (input : BindSubjectRequest) (decision : Decision) : Payload :=
  [("duplicateOfRequestId", PrivacyRequestAggregate.nullable decision.duplicateOfRequestId),
    ("subjectHashKeyVersion", .number input.subjectHashKeyVersion),
    ("canonicalizationVersion", .number input.canonicalizationVersion)] ++
  match input.duplicateOverride with
  | some override => [("reason", .string override.reason)]
  | none => []

def requestEvent (input : BindSubjectRequest) (decision : Decision) : AuditInput where
  id := input.eventId
  tenantId := input.tenantId
  environmentId := input.environmentId
  requestId := input.requestId
  actorType := if input.duplicateOverride.isSome then .user else .agent
  actorId := (input.duplicateOverride.map (·.ownerActorId)).getD input.agentId
  action := bindingAction input decision
  metadata := bindingMetadata input decision
  occurredAt := input.now

def candidateEvent (input : BindSubjectRequest) (candidateId : String) : AuditInput where
  id := input.duplicateEventId
  tenantId := input.tenantId
  environmentId := input.environmentId
  requestId := candidateId
  actorType := .agent
  actorId := input.agentId
  action := "PrivacyRequestDuplicateCancelled"
  metadata := [("duplicateOfRequestId", .string input.requestId)]
  occurredAt := input.now

/-- `if (candidate && …) await cancelDuplicate(…)`. -/
def cancelCandidate (input : BindSubjectRequest) : Decision → Transaction Unit
  | .cancelCandidate candidateId => cancelDuplicate input candidateId input.requestId
  | _ => .done ()

/-- `if (candidate && !duplicateOfRequestId) await appendAuditEvent(…)`. -/
def recordCandidate (rt : Runtime) (input : BindSubjectRequest) : Decision → Transaction Unit
  | .cancelCandidate candidateId => appendAuditEvent rt (candidateEvent input candidateId)
  | _ => .done ()

/-- From the decision on: the writes, and the events that record them. -/
def applyDecision (rt : Runtime) (input : BindSubjectRequest) (decision : Decision) :
    Transaction SubjectBindingResult := do
  cancelCandidate input decision
  let _ ← Script.update (.request input.requestId)
    (whenRow
      (fun (row : RequestRow) =>
        row.tenantId = input.tenantId ∧ row.version = input.expectedVersion)
      (boundRow input decision))
  insertAliases input input.aliases
  deleteEnvelope input
  recordCandidate rt input decision
  appendAuditEvent rt (requestEvent input decision)
  return {
    requestId := input.requestId
    environmentId := input.environmentId
    subjectHash := input.subjectHash
    subjectHashKeyVersion := input.subjectHashKeyVersion
    canonicalizationVersion := input.canonicalizationVersion
    duplicateOfRequestId := decision.duplicateOfRequestId
    outcome := decision.outcome input }

/-- The checks between the lock on the request and the search for duplicates. -/
def checkBinding (input : BindSubjectRequest) (row : RequestAndEnvironment) :
    Transaction Unit := do
  Script.failIf (row.request.version ≠ input.expectedVersion) "REQUEST_VERSION_CONFLICT"
  Script.failIf (¬ cancellableDuplicateStatus row.request.status) "SUBJECT_BINDING_STATE_INVALID"
  Script.failIf (row.request.subjectHashKeyVersion ≠ none ∨
    row.request.subjectCanonicalizationVersion ≠ none) "SUBJECT_BINDING_STATE_INVALID"
  Script.failIf (row.environment.subjectHashKeyVersion ≠ input.subjectHashKeyVersion ∨
    row.environment.subjectCanonicalizationVersion ≠ input.canonicalizationVersion)
    "SUBJECT_KEY_VERSION_MISMATCH"
  let agent ← Script.update (.agent input.agentId) (lockRow fun (row : AgentRow) =>
    row.environmentId = input.environmentId ∧ activeAgentStatus row.status = true)
  match agent with
  | none => .fail "SUBJECT_AGENT_NOT_ACTIVE"
  | some agent => do
    let envelope ← Script.update (.envelope input.requestId) (lockRow fun (row : EnvelopeRow) =>
      row.tenantId = input.tenantId ∧ row.environmentId = input.environmentId)
    match envelope with
    | none => .fail "SUBJECT_ENVELOPE_NOT_FOUND"
    | some envelope => do
      -- the expired envelope is deleted before the throw, which rolls the deletion back
      Script.failIf (envelope.expiresAt ≤ input.now) "SUBJECT_ENVELOPE_EXPIRED"
      Script.failIf (agent.encryptionKeyId = none ∨ agent.encryptionKeyId = some "" ∨
        agent.encryptionKeyId ≠ some envelope.encryptionKeyId) "SUBJECT_ENVELOPE_KEY_MISMATCH"

/-- Behind the advisory lock. -/
def bindLocked (rt : Runtime) (input : BindSubjectRequest) : Transaction SubjectBindingResult := do
  let found ← findRequestForUpdate input.tenantId input.environmentId input.requestId
  match found with
  | none => .fail "SUBJECT_REQUEST_NOT_FOUND"
  | some row =>
    if row.request.subjectHash ≠ none ∨ row.request.subjectHashKeyVersion ≠ none ∨
        row.request.subjectCanonicalizationVersion ≠ none then
      if sameSubject input row.request then do
        deleteEnvelope input
        orFail (toBindingResult input.requestId row.request)
      else .fail "SUBJECT_ALREADY_BOUND"
    else do
      checkBinding input row
      let candidates ← duplicateCandidates input row.request.type
      applyDecision rt input (decideBinding rt input row.request candidates.head?)

def bindSubjectInTransaction (rt : Runtime) (input : BindSubjectRequest) :
    Transaction SubjectBindingResult := do
  let initial ← findRequest input.tenantId input.environmentId input.requestId
  match initial with
  | none => .fail "SUBJECT_REQUEST_NOT_FOUND"
  | some initial =>
    if sameSubject input initial.request then do
      deleteEnvelope input
      orFail (toBindingResult input.requestId initial.request)
    else do
      let _ ← Script.update
        (.advisory ⟨input.environmentId, input.subjectHash, initial.request.type⟩)
        fun row => some ((), row)
      bindLocked rt input

end SubjectBinding

end ForgetOps.Api
