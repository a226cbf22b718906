import ForgetOps.Domain.PrivacyRequest
import ForgetOps.Domain.Audit
import ForgetOps.Library.ReadCommitted
import ForgetOps.Library.Table

/-
  What the transactions work on: the tables of the migrations (`packages/database/migrations`) and
  the aggregates in the memory of the process.

  A row lists the columns the modelled statements read or write; its primary key is its key in
  the table. Timestamps are written as `toISOString` writes them, so that the order of the strings
  is the order in time. An environment carries the tenant of its project. Foreign keys, checks,
  unique indexes and triggers only ever abort a transaction, which the interleavings allow at any
  time.
-/

namespace ForgetOps.Database

open Domain

abbrev Timestamp := String

/-- A JSON object column: the payload of a domain event, or the metadata of an audit event. -/
abbrev Payload := List (String × EventValue)

structure RequestRow where
  tenantId : String
  environmentId : String
  type : PrivacyRequestType
  source : PrivacyRequestSource
  subjectHash : Option String
  subjectHashKeyVersion : Option Int
  subjectCanonicalizationVersion : Option Int
  duplicateOverride : Bool
  duplicateOfRequestId : Option String
  currentAttemptId : Option String
  status : PrivacyRequestStatus
  policyVersion : Int
  deadlineAt : Timestamp
  createdByActorId : String
  createdAt : Timestamp
  completedAt : Option Timestamp
  version : Nat
  deriving DecidableEq, Repr

structure AttemptRow extends PlanBinding where
  tenantId : String
  environmentId : String
  requestId : String
  attemptNumber : Nat
  kind : AttemptKind
  allowedStepIds : List String
  status : ExecutionAttemptStatus
  createdAt : Timestamp
  completedAt : Option Timestamp
  deriving DecidableEq, Repr

structure AuditRow where
  tenantId : String
  environmentId : String
  sequence : Nat
  requestId : Option String
  actorType : ActorType
  actorId : String
  action : String
  metadata : Payload
  previousEventHash : Option String
  eventHash : String
  createdAt : Timestamp
  deriving DecidableEq, Repr

structure OutboxRow where
  tenantId : String
  environmentId : String
  aggregateId : String
  type : String
  payload : Payload
  occurredAt : Timestamp
  deriving DecidableEq, Repr

structure HeadRow where
  tenantId : String
  sequence : Nat
  eventHash : Option String
  deriving DecidableEq, Repr

structure EnvironmentRow where
  tenantId : String
  subjectHashKeyVersion : Int
  subjectCanonicalizationVersion : Int
  deriving DecidableEq, Repr

inductive AgentStatus where
  | pairing
  | online
  | offline
  | outdated
  | revoked
  deriving DecidableEq, Repr

structure AgentRow where
  environmentId : String
  publicSigningKey : String
  publicEncryptionKey : String
  signingKeyId : Option String
  encryptionKeyId : Option String
  version : String
  protocolVersion : String
  instanceFingerprint : String
  status : AgentStatus
  lastSequence : String
  deriving DecidableEq, Repr

structure EnvelopeRow where
  tenantId : String
  environmentId : String
  ciphertext : String
  encryptionKeyId : String
  expiresAt : Timestamp
  consumedAt : Option Timestamp
  deriving DecidableEq, Repr

structure JobRow where
  tenantId : String
  environmentId : String
  payloadCiphertext : Option String
  payloadEncryptionKeyId : Option String
  authorizationPayload : Option String
  leasedByAgentId : Option String
  leaseExpiresAt : Option Timestamp
  completedAt : Option Timestamp
  deriving DecidableEq, Repr

inductive ReplacementMode where
  | none
  | drain
  | force
  deriving DecidableEq, Repr

structure TokenRow where
  tenantId : String
  environmentId : String
  tokenHash : String
  replacementMode : ReplacementMode
  expiresAt : Timestamp
  consumedAt : Option Timestamp
  deriving DecidableEq, Repr

structure AliasRow where
  tenantId : String
  environmentId : String
  subjectHashKeyVersion : Int
  canonicalizationVersion : Int
  deriving DecidableEq, Repr

/-- The primary key of `subject_identity_aliases`: request, kind of identifier, subject hash. -/
structure AliasKey where
  requestId : String
  identifierKind : String
  subjectHash : String
  deriving DecidableEq, Repr

/-- `[environmentId, subjectHash, type]`, whose hash is the key of the advisory lock. -/
structure BindingLock where
  environmentId : String
  subjectHash : String
  type : PrivacyRequestType
  deriving DecidableEq, Repr

inductive Key where
  | request (id : String)
  | attempt (id : String)
  | auditEvent (id : String)
  | outboxEvent (id : String)
  | chainHead (environmentId : String)
  | environment (id : String)
  | agent (id : String)
  | envelope (requestId : String)
  | job (id : String)
  | token (id : String)
  | «alias» (key : AliasKey)
  | advisory (lock : BindingLock)
  deriving DecidableEq, Repr

/-- What stands under a key: a row or none. An advisory lock has no row. -/
abbrev Row : Key → Type
  | .request _ => Option RequestRow
  | .attempt _ => Option AttemptRow
  | .auditEvent _ => Option AuditRow
  | .outboxEvent _ => Option OutboxRow
  | .chainHead _ => Option HeadRow
  | .environment _ => Option EnvironmentRow
  | .agent _ => Option AgentRow
  | .envelope _ => Option EnvelopeRow
  | .job _ => Option JobRow
  | .token _ => Option TokenRow
  | .alias _ => Option AliasRow
  | .advisory _ => Unit

/-- A save that has been committed but not yet acknowledged to the aggregate. -/
structure Acknowledgement where
  aggregate : Nat
  count : Nat
  deriving DecidableEq, Repr

structure World where
  requests : Table String RequestRow
  attempts : Table String AttemptRow
  auditEvents : Table String AuditRow
  outboxEvents : Table String OutboxRow
  chainHeads : Table String HeadRow
  environments : Table String EnvironmentRow
  agents : Table String AgentRow
  envelopes : Table String EnvelopeRow
  jobs : Table String JobRow
  tokens : Table String TokenRow
  aliases : Table AliasKey AliasRow
  aggregates : List PrivacyRequestAggregate
  acknowledgements : List Acknowledgement

namespace World

def row (w : World) : (k : Key) → Row k
  | .request id => w.requests.find id
  | .attempt id => w.attempts.find id
  | .auditEvent id => w.auditEvents.find id
  | .outboxEvent id => w.outboxEvents.find id
  | .chainHead id => w.chainHeads.find id
  | .environment id => w.environments.find id
  | .agent id => w.agents.find id
  | .envelope id => w.envelopes.find id
  | .job id => w.jobs.find id
  | .token id => w.tokens.find id
  | .alias key => w.aliases.find key
  | .advisory _ => ()

def write (w : World) : (k : Key) → Row k → World
  | .request id, v => { w with requests := w.requests.set id v }
  | .attempt id, v => { w with attempts := w.attempts.set id v }
  | .auditEvent id, v => { w with auditEvents := w.auditEvents.set id v }
  | .outboxEvent id, v => { w with outboxEvents := w.outboxEvents.set id v }
  | .chainHead id, v => { w with chainHeads := w.chainHeads.set id v }
  | .environment id, v => { w with environments := w.environments.set id v }
  | .agent id, v => { w with agents := w.agents.set id v }
  | .envelope id, v => { w with envelopes := w.envelopes.set id v }
  | .job id, v => { w with jobs := w.jobs.set id v }
  | .token id, v => { w with tokens := w.tokens.set id v }
  | .alias key, v => { w with aliases := w.aliases.set key v }
  | .advisory _, _ => w

theorem row_write_self (w : World) (k : Key) (v : Row k) : (w.write k v).row k = v := by
  cases k <;> first | exact Table.find_set_self _ _ _ | rfl

theorem row_write_of_ne (w : World) (k : Key) (v : Row k) (k' : Key) (h : k' ≠ k) :
    (w.write k v).row k' = w.row k' := by
  cases k <;> cases k' <;> first
    | rfl
    | exact Table.find_set_of_ne _ _ fun heq => h (by rw [heq])

theorem write_row (w : World) (k : Key) : w.write k (w.row k) = w := by
  cases k <;> simp only [write, row, Table.set_find]

instance : ReadCommitted.RowStore World Key Row where
  row := row
  write := write
  write_row := write_row
  row_write_self := row_write_self
  row_write_of_ne := row_write_of_ne

end World

/-- A transaction of the process that returns an `α`. -/
abbrev Transaction (α : Type) := ReadCommitted.Script World Row α

/-! ## Statements on one row -/

section Statements

variable {ρ : Type}

/-- `insert … on conflict do nothing`. -/
def whenAbsent (v : ρ) : Option ρ → Option (Unit × Option ρ)
  | none => some ((), some v)
  | some _ => none

/-- `update … set f where p`; answers the row as it was. -/
def whenRow (p : ρ → Prop) [DecidablePred p] (f : ρ → ρ) : Option ρ → Option (ρ × Option ρ)
  | some r => if p r then some (r, some (f r)) else none
  | none => none

/-- `select … where p for update`. -/
def lockRow (p : ρ → Prop) [DecidablePred p] : Option ρ → Option (ρ × Option ρ) := whenRow p id

/-- `delete … where p`. -/
def deleteRow (p : ρ → Prop) [DecidablePred p] : Option ρ → Option (Unit × Option ρ)
  | some r => if p r then some ((), none) else none
  | none => none

open ReadCommitted (Script)

/-- A statement on several rows: it runs on the rows `ids` in turn, and answers for the rows it
    did not leave alone. -/
def onRows {α : Type} (statement : String → Transaction (Option α)) :
    List String → Transaction (List (String × α))
  | [] => .done []
  | id :: ids => do
    let answer ← statement id
    let answers ← onRows statement ids
    match answer with
    | none => return answers
    | some a => return (id, a) :: answers

end Statements

/-! ## Audit events -/

/-- What the runtime and the packages supply. -/
structure Runtime where
  sha256 : List UInt8 → Digest
  canonicalize : AuditEventWithoutHashes Payload → Option String
  localeCompare : String → String → Ordering

/-- The hash computation the two transaction scripts have in common, each with its own errors. -/
def chainHash (notCanonical headInvalid : String) (rt : Runtime) (previousHash : Option String)
    (event : AuditEventWithoutHashes Payload) : Except String String :=
  match rt.canonicalize event with
  | none => .error notCanonical
  | some canonicalEvent =>
    let truthy := previousHash ≠ none ∧ previousHash ≠ some ""
    let previousHashBytes := if truthy then fromHex (previousHash.getD "") else []
    if previousHashBytes.length ≠ (if truthy then 32 else 0) then .error headInvalid
    else
      .ok (toHex (rt.sha256 (utf8 "forgetops.audit-event.v1" ++ [0] ++ previousHashBytes ++
        utf8 canonicalEvent)).val)

/-- The result of a computation that may throw. -/
def orFail {α : Type} : Except String α → Transaction α
  | .ok a => .done a
  | .error code => .fail code

open ReadCommitted (Script)

/-- `insert into audit_chain_heads … (0, null) on conflict do nothing`, then
    `select … for update`, where row security hides the head of another tenant. -/
def lockChainHead (tenantId environmentId missing : String) : Transaction HeadRow := do
  let _ ← Script.update (.chainHead environmentId)
    (whenAbsent { tenantId, sequence := 0, eventHash := none : HeadRow })
  let head ← Script.update (.chainHead environmentId)
    (lockRow fun (head : HeadRow) => head.tenantId = tenantId)
  match head with
  | none => .fail missing
  | some head => .done head

/-- The three statements that record one event: the audit row, the new head, the outbox row. -/
def recordEvent (event : AuditEventWithoutHashes Payload) (sequence : Nat) (requestId : String)
    (previousHash : Option String) (eventHash : String) : Transaction Unit := do
  let inserted ← Script.update (.auditEvent event.id) (whenAbsent
    { event with sequence, previousEventHash := previousHash, eventHash : AuditRow })
  Script.failIf (inserted = none) "unique_violation"
  let _ ← Script.update (.chainHead event.environmentId)
    (whenRow (fun _ => True) fun (head : HeadRow) =>
      { head with sequence, eventHash := some eventHash })
  let inserted ← Script.update (.outboxEvent event.id) (whenAbsent
    { tenantId := event.tenantId, environmentId := event.environmentId, aggregateId := requestId,
      type := event.action, payload := event.metadata, occurredAt := event.createdAt : OutboxRow })
  Script.failIf (inserted = none) "unique_violation"

/-- An audit row as the domain reads it back. -/
def AuditRow.readBack (id : String) (row : AuditRow) : CanonicalAuditEvent Payload :=
  { row with id, sequence := toString row.sequence }

end ForgetOps.Database
