import ForgetOps.Database.World

/-
  `PrivacyRequestRepository.save`
  (`packages/database/src/repositories/privacy-request-repository.ts`).

  The snapshot and the pending events are taken from the aggregate when `save` is called, its
  attempts only inside the transaction. The acknowledgement, `markEventsCommitted`, follows the
  commit as a step of its own.
-/

namespace ForgetOps.Database

open Domain
open ReadCommitted (Script)

/-- What `newEventId()` and `now()` answer for one event. -/
structure Stamp where
  id : String
  occurredAt : Timestamp
  deriving DecidableEq, Repr

/-- A call of `save` on the aggregate at the index `aggregate`. -/
structure SaveRequest where
  aggregate : Nat
  tenantId : String
  snapshot : PrivacyRequestSnapshot
  pendingEvents : List DomainEvent
  expectedVersion : Int
  persistedAt : Timestamp
  stamps : Nat → Stamp

namespace PrivacyRequestRepository

def terminalStatuses : List PrivacyRequestStatus := [.completed, .cancelled]

def assertEnvironmentOwnership (tenantId environmentId : String) : Transaction Unit := do
  let row ← Script.read fun (w : World) => w.environments.find environmentId
  Script.failIf (row.map (·.tenantId) ≠ some tenantId) "TENANT_SCOPE_VIOLATION"

def completedAtOf (snapshot : PrivacyRequestSnapshot) (persistedAt : Timestamp) :
    Option Timestamp :=
  if snapshot.status ∈ terminalStatuses then some persistedAt else none

def insertedRow (tenantId : String) (snapshot : PrivacyRequestSnapshot)
    (persistedAt : Timestamp) : RequestRow :=
  { snapshot with
    tenantId
    subjectHash := none
    subjectHashKeyVersion := none
    subjectCanonicalizationVersion := none
    duplicateOverride := false
    duplicateOfRequestId := none
    createdAt := persistedAt
    completedAt := completedAtOf snapshot persistedAt }

def updatedRow (snapshot : PrivacyRequestSnapshot) (persistedAt : Timestamp) (row : RequestRow) :
    RequestRow :=
  { row with
    status := snapshot.status
    policyVersion := snapshot.policyVersion
    deadlineAt := snapshot.deadlineAt
    completedAt := completedAtOf snapshot persistedAt
    currentAttemptId := snapshot.currentAttemptId
    version := snapshot.version }

def persistSnapshot (tenantId : String) (snapshot : PrivacyRequestSnapshot)
    (expectedVersion : Int) (persistedAt : Timestamp) : Transaction Unit :=
  if expectedVersion = 0 then do
    let rows ← Script.update (.request snapshot.id)
      (whenAbsent (insertedRow tenantId snapshot persistedAt))
    Script.failIf (rows = none) "REQUEST_CONCURRENCY_CONFLICT"
  else do
    let rows ← Script.update (.request snapshot.id)
      (whenRow
        (fun (row : RequestRow) => row.tenantId = tenantId ∧
          row.environmentId = snapshot.environmentId ∧ row.version = expectedVersion)
        (updatedRow snapshot persistedAt))
    Script.failIf (rows = none) "REQUEST_CONCURRENCY_CONFLICT"

def attemptRow (tenantId : String) (snapshot : PrivacyRequestSnapshot)
    (attempt : ExecutionAttempt) : AttemptRow :=
  { attempt with tenantId, environmentId := snapshot.environmentId, requestId := snapshot.id }

/-- `insert … on conflict (id) do update … where completed_at is null`. Row security turns a
    conflict with a row of another tenant into an error, here the answer `false`. -/
def upsertAttempt (tenantId : String) (snapshot : PrivacyRequestSnapshot)
    (attempt : ExecutionAttempt) : Option AttemptRow → Option (Bool × Option AttemptRow)
  | none => some (true, some (attemptRow tenantId snapshot attempt))
  | some row =>
    if row.tenantId ≠ tenantId then some (false, some row)
    else if row.completedAt = none then
      some (true, some { row with status := attempt.status, completedAt := attempt.completedAt })
    else none

def persistAttempts (tenantId : String) (snapshot : PrivacyRequestSnapshot) :
    List ExecutionAttempt → Transaction Unit
  | [] => .done ()
  | attempt :: attempts => do
    let answer ← Script.update (.attempt attempt.id) (upsertAttempt tenantId snapshot attempt)
    Script.failIf (answer = some false) "row_level_security"
    persistAttempts tenantId snapshot attempts

structure Actor where
  type : ActorType
  id : String
  deriving DecidableEq, Repr

def eventActor (event : DomainEvent) : Actor :=
  match event.payload.lookup "agentId", event.payload.lookup "actorId",
      event.payload.lookup "decidedBy" with
  | some (.string agentId), _, _ => ⟨.agent, agentId⟩
  | _, some (.string actorId), _ => ⟨.user, actorId⟩
  | _, _, some (.string decidedBy) => ⟨.user, decidedBy⟩
  | _, _, _ => ⟨.system, "forgetops-domain"⟩

def eventHash : Runtime → Option String → AuditEventWithoutHashes Payload → Except String String :=
  chainHash "Audit event must be canonical JSON" "Audit chain head hash is invalid"

def eventWithoutHashes (tenantId : String) (snapshot : PrivacyRequestSnapshot) (stamp : Stamp)
    (sequence : Nat) (domainEvent : DomainEvent) : AuditEventWithoutHashes Payload where
  id := stamp.id
  tenantId := tenantId
  environmentId := snapshot.environmentId
  sequence := toString sequence
  requestId := some snapshot.id
  actorType := (eventActor domainEvent).type
  actorId := (eventActor domainEvent).id
  action := domainEvent.type
  metadata := domainEvent.payload
  createdAt := stamp.occurredAt

/-- The loop of `persistEvents` behind `sequence` and `previousHash`; `i` counts its rounds. -/
def persistEventsFrom (rt : Runtime) (tenantId : String) (snapshot : PrivacyRequestSnapshot)
    (stamps : Nat → Stamp) (i sequence : Nat) (previousHash : Option String) :
    List DomainEvent → Transaction Unit
  | [] => .done ()
  | domainEvent :: events => do
    let event := eventWithoutHashes tenantId snapshot (stamps i) (sequence + 1) domainEvent
    let hash ← orFail (eventHash rt previousHash event)
    recordEvent event (sequence + 1) snapshot.id previousHash hash
    persistEventsFrom rt tenantId snapshot stamps (i + 1) (sequence + 1) (some hash) events

def persistEvents (rt : Runtime) (tenantId : String) (snapshot : PrivacyRequestSnapshot)
    (stamps : Nat → Stamp) (events : List DomainEvent) : Transaction Unit := do
  let head ← lockChainHead tenantId snapshot.environmentId "TENANT_SCOPE_VIOLATION"
  persistEventsFrom rt tenantId snapshot stamps 0 head.sequence head.eventHash events

/-- `aggregate.executionAttempts()`. -/
def readAttempts (aggregate : Nat) : Transaction (List ExecutionAttempt) :=
  Script.read fun (w : World) =>
    (w.aggregates[aggregate]?.map PrivacyRequestAggregate.executionAttempts).getD []

/-- The body of `save` behind the two reads of the aggregate it starts with. -/
def save (rt : Runtime) (input : SaveRequest) : Transaction Unit := do
  Script.failIf (input.expectedVersion < 0 ∨ input.pendingEvents.length = 0 ∨
    input.snapshot.version ≠ input.expectedVersion + input.pendingEvents.length)
    "REQUEST_CONCURRENCY_CONFLICT"
  assertEnvironmentOwnership input.tenantId input.snapshot.environmentId
  persistSnapshot input.tenantId input.snapshot input.expectedVersion input.persistedAt
  let attempts ← readAttempts input.aggregate
  persistAttempts input.tenantId input.snapshot attempts
  persistEvents rt input.tenantId input.snapshot input.stamps input.pendingEvents

end PrivacyRequestRepository

end ForgetOps.Database
