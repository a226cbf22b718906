import ForgetOps.Api.AgentSessions
import ForgetOps.Api.PairingSystem
import ForgetOps.Database.PrivacyRequestRepository

/-
  What belongs to a tenant: `createProjectWithinLimit` and `createEnvironment`
  (`packages/database/src/repositories/hierarchy-store.ts`), and the system of the transactions that
  write rows with a tenant, an environment or a request.

  Beside `World` stand the tenants and projects, the project of each environment, and the tables of
  the agent gateway. An environment has the tenant of its project in its row, where
  `createEnvironment` puts it. The table of jobs is the gateway's, which has all the columns; the
  one of `World` is not used. Scripts of the gateway run on their part of the store (`gatewayPart`).
-/

namespace ForgetOps.Api.Tenants

open Database ReadCommitted Gateway
open Pairing (PersistPairingTokenInput)
open ReadCommitted (Script)
open SubjectEnvelopes (StoreSubjectEnvelopeInput)

structure ProjectRow where
  tenantId : String
  name : String
  slug : String
  deriving DecidableEq, Repr

inductive EnvironmentKind where
  | staging
  | production
  deriving DecidableEq, Repr

inductive EnvironmentStatus where
  | active
  | disabled
  deriving DecidableEq, Repr

/-- The columns of an environment that its row in `World` leaves out. -/
structure EnvironmentProjectRow where
  projectId : String
  kind : EnvironmentKind
  status : EnvironmentStatus
  deriving DecidableEq, Repr

inductive TenancyKey where
  | tenant (id : String)
  | project (id : String)
  | environmentProject (environmentId : String)
  | receipt (key : ReceiptKey)
  | job (id : String)
  | session (agentId : String)
  | controlSequence (agentId : String)
  deriving DecidableEq, Repr

/-- Of a tenant no column but the identifier is read. -/
abbrev TenancyRow : TenancyKey → Type
  | .tenant _ => Option Unit
  | .project _ => Option ProjectRow
  | .environmentProject _ => Option EnvironmentProjectRow
  | .receipt _ => Option ReceiptRow
  | .job _ => Option AgentJobRow
  | .session _ => Option TransportRow
  | .controlSequence _ => Option Nat

structure Tenancy where
  tenants : Table String Unit
  projects : Table String ProjectRow
  environmentProjects : Table String EnvironmentProjectRow
  receipts : Table ReceiptKey ReceiptRow
  jobs : Table String AgentJobRow
  sessions : Table String TransportRow
  controlSequences : Table String Nat

namespace Tenancy

def row (w : Tenancy) : (k : TenancyKey) → TenancyRow k
  | .tenant id => w.tenants.find id
  | .project id => w.projects.find id
  | .environmentProject id => w.environmentProjects.find id
  | .receipt key => w.receipts.find key
  | .job id => w.jobs.find id
  | .session id => w.sessions.find id
  | .controlSequence id => w.controlSequences.find id

def write (w : Tenancy) : (k : TenancyKey) → TenancyRow k → Tenancy
  | .tenant id, v => { w with tenants := w.tenants.set id v }
  | .project id, v => { w with projects := w.projects.set id v }
  | .environmentProject id, v => { w with environmentProjects := w.environmentProjects.set id v }
  | .receipt key, v => { w with receipts := w.receipts.set key v }
  | .job id, v => { w with jobs := w.jobs.set id v }
  | .session id, v => { w with sessions := w.sessions.set id v }
  | .controlSequence id, v => { w with controlSequences := w.controlSequences.set id v }

theorem row_write_self (w : Tenancy) (k : TenancyKey) (v : TenancyRow k) :
    (w.write k v).row k = v := by
  cases k <;> exact Table.find_set_self _ _ _

theorem row_write_of_ne (w : Tenancy) (k : TenancyKey) (v : TenancyRow k) (k' : TenancyKey)
    (h : k' ≠ k) : (w.write k v).row k' = w.row k' := by
  cases k <;> cases k' <;> first
    | rfl
    | exact Table.find_set_of_ne _ _ fun heq => h (by rw [heq])

theorem write_row (w : Tenancy) (k : TenancyKey) : w.write k (w.row k) = w := by
  cases k <;> simp only [write, row, Table.set_find]

instance : RowStore Tenancy TenancyKey TenancyRow where
  row := row
  write := write
  write_row := write_row
  row_write_self := row_write_self
  row_write_of_ne := row_write_of_ne

def empty : Tenancy where
  tenants := .empty
  projects := .empty
  environmentProjects := .empty
  receipts := .empty
  jobs := .empty
  sessions := .empty
  controlSequences := .empty

end Tenancy

abbrev TenantWorld := World × Tenancy

abbrev TenantWorldRow := SideBySide Row TenancyRow

/-- A transaction on both. -/
abbrev TenantTransaction (α : Type) := Script TenantWorld TenantWorldRow α

/-! ## The part of the gateway -/

def scopeOf (row : RequestRow) : RequestScope where
  tenantId := row.tenantId
  environmentId := row.environmentId

def gatewayStore (w : TenantWorld) : GatewayWorld :=
  ({ environments := w.1.environments
     agents := w.1.agents
     receipts := w.2.receipts
     requests := w.1.requests.mapValues scopeOf
     jobs := w.2.jobs
     messages := []
     answers := []
     clock := 0 },
   { sessions := w.2.sessions
     controlSequences := w.2.controlSequences
     tokens := w.1.tokens
     threads := []
     events := []
     handovers := [] })

def gatewayKey : GatewayKey ⊕ ChannelKey → Key ⊕ TenancyKey
  | .inl (.environment id) => .inl (.environment id)
  | .inl (.agent id) => .inl (.agent id)
  | .inl (.receipt key) => .inr (.receipt key)
  | .inl (.request id) => .inl (.request id)
  | .inl (.job id) => .inr (.job id)
  | .inr (.session id) => .inr (.session id)
  | .inr (.controlSequence id) => .inr (.controlSequence id)
  | .inr (.token id) => .inl (.token id)

/-- Of a request the gateway sees the scope. -/
def getGatewayRow :
    (k : GatewayKey ⊕ ChannelKey) → TenantWorldRow (gatewayKey k) → GatewayWorldRow k
  | .inl (.environment _), r => r
  | .inl (.agent _), r => r
  | .inl (.receipt _), r => r
  | .inl (.request _), r => Option.map scopeOf r
  | .inl (.job _), r => r
  | .inr (.session _), r => r
  | .inr (.controlSequence _), r => r
  | .inr (.token _), r => r

/-- No statement of the gateway writes a request. -/
def putGatewayRow : (k : GatewayKey ⊕ ChannelKey) → TenantWorldRow (gatewayKey k) →
    GatewayWorldRow k → TenantWorldRow (gatewayKey k)
  | .inl (.environment _), _, v => v
  | .inl (.agent _), _, v => v
  | .inl (.receipt _), _, v => v
  | .inl (.request _), r, _ => r
  | .inl (.job _), _, v => v
  | .inr (.session _), _, v => v
  | .inr (.controlSequence _), _, v => v
  | .inr (.token _), _, v => v

def gatewayPart : StoreLens GatewayWorld GatewayWorldRow TenantWorld TenantWorldRow where
  get := gatewayStore
  key := gatewayKey
  getRow := getGatewayRow
  putRow := putGatewayRow

/-- A transaction of the gateway on its tables. -/
def ofGateway {α : Type} (s : GatewayTransaction α) : TenantTransaction α :=
  (s.first (τ := Channels) (π := ChannelRow)).along gatewayPart

/-! ## Projects and environments -/

structure CreateProjectInput where
  name : String
  slug : String
  deriving DecidableEq, Repr

/-- `projectId` is `prj_` followed by what `randomUUID()` answers. -/
def createProjectWithinLimit (tenantId : String) (input : CreateProjectInput) (maxProjects : Nat)
    (projectId : String) : TenantTransaction ProjectRow := do
  let tenant ← Script.second (Script.update (.tenant tenantId) (lockRow fun (_ : Unit) => True))
  Script.failIf (tenant = none) "Tenant not found"
  let count ← Script.second (Script.read fun (w : Tenancy) =>
    (w.projects.entries.filter fun entry => entry.2.tenantId = tenantId).length)
  Script.failIf (count ≥ maxProjects) "The tenant project limit has been reached"
  let project : ProjectRow := { tenantId, name := input.name, slug := input.slug }
  let inserted ← Script.second (Script.update (.project projectId) (whenAbsent project))
  Script.failIf (inserted = none) "unique_violation"
  return project

/-- `environmentId` is `env_` followed by what `randomUUID()` answers. -/
def createEnvironment (tenantId projectId : String) (kind : EnvironmentKind)
    (environmentId : String) : TenantTransaction Unit := do
  let project ← Script.second (Script.read fun (w : Tenancy) => w.projects.find projectId)
  Script.failIf (project.map (·.tenantId) ≠ some tenantId) "Project not found"
  let inserted ← Script.second (Script.update (.environmentProject environmentId)
    (whenAbsent { projectId, kind, status := .active : EnvironmentProjectRow }))
  Script.failIf (inserted = none) "unique_violation"
  let inserted ← Script.first (Script.update (.environment environmentId)
    (whenAbsent { tenantId, subjectHashKeyVersion := 1, subjectCanonicalizationVersion := 1
                  : EnvironmentRow }))
  Script.failIf (inserted = none) "unique_violation"

/-! ## Pairing -/

/-- `agentId` is `agt_` followed by what `randomUUID()` answers. -/
structure PairAgent where
  tokenHash : String
  registration : AgentRegistration
  now : Int
  agentId : String
  deriving DecidableEq, Repr

def PairAgent.input (pair : PairAgent) : ConsumeAndPairInput where
  tokenHash := pair.tokenHash
  registration := pair.registration
  now := IsoTimestamp.toISOString pair.now
  agentId := pair.agentId

def PairAgent.forced (pair : PairAgent) (token : TokenRow) : ForceReplacement where
  tenantId := token.tenantId
  environmentId := token.environmentId
  registration := pair.registration
  agentId := pair.agentId
  now := pair.now

/-- The body of `replacementMode === "force"`. -/
def forceReplacement (pair : PairAgent) (token : TokenRow) (affectedRequestIds : List String) :
    TenantTransaction Unit := do
  (Pairing.reviewWork token affectedRequestIds pair.input.now).first
  (Pairing.deleteEnvelopes token).first
  let _ ← ofGateway (completeJobs (pair.forced token))
  return ()

def replaceWork (pair : PairAgent) (token : TokenRow) : TenantTransaction Unit := do
  let envelopeRows ← (Pairing.unconsumedEnvelopes token).first
  let attemptRows ← (Pairing.openAttempts token).first
  let affectedRequestIds :=
    (envelopeRows.map (·.1) ++ attemptRows.map (·.2.requestId)).eraseDups
  Script.failIf (token.replacementMode = .drain ∧ affectedRequestIds.length > 0)
    "AGENT_REPLACEMENT_BLOCKED_ACTIVE_WORK"
  if token.replacementMode = .force then forceReplacement pair token affectedRequestIds
  else return ()

def replaceActive (pair : PairAgent) (token : TokenRow) :
    Option (String × AgentRow) → TenantTransaction Unit
  | none => return ()
  | some (activeId, active) => do
    Script.failIf (active.publicSigningKey = pair.registration.publicSigningKey)
      "AGENT_ALREADY_ACTIVE"
    Script.failIf (token.replacementMode = .none) "AGENT_REPLACEMENT_REQUIRES_OWNER_CONFIRMATION"
    replaceWork pair token
    let _ ← Script.first (Script.update (.agent activeId)
      (whenRow (fun (row : AgentRow) => row.environmentId = token.environmentId) fun row =>
        { row with status := .revoked }))
    return ()

def consumeAndPair (pair : PairAgent) : TenantTransaction AgentRow := do
  let bootstrap ← (Pairing.lookupToken pair.tokenHash).first
  match bootstrap with
  | none => .fail "PAIRING_TOKEN_INVALID"
  | some bootstrap => do
    let token ← (Pairing.lockToken pair.input bootstrap).first
    (Pairing.lockEnvironment pair.input token).first
    let active ← (Pairing.activeAgents token.environmentId).first
    replaceActive pair token active.head?
    (Pairing.insertAgent pair.input bootstrap.1 token).first

/-! ## The system -/

inductive TenantRequest where
  | createProjectWithinLimit (tenantId : String) (input : CreateProjectInput) (maxProjects : Nat)
      (projectId : String)
  | createEnvironment (tenantId projectId : String) (kind : EnvironmentKind)
      (environmentId : String)
  | issueToken (input : PersistPairingTokenInput)
  | consumeAndPair (pair : PairAgent)
  | storeEnvelope (input : StoreSubjectEnvelopeInput)
  | bindSubject (input : BindSubjectRequest)
  | save (input : SaveRequest)
  | enqueue (input : EnqueueAgentJobInput)
  | claimTransport (session : AgentSession) (now : Int)
  | claimAgentMessage (input : ClaimAgentMessageInput)
  | lease (input : AgentJobMutation)
  | heartbeat (input : AgentJobMutation)

def TenantRequest.script (rt : Runtime) : TenantRequest → TenantTransaction Unit
  | .createProjectWithinLimit tenantId input maxProjects projectId => do
    let _ ← Tenants.createProjectWithinLimit tenantId input maxProjects projectId
    return ()
  | .createEnvironment tenantId projectId kind environmentId =>
    Tenants.createEnvironment tenantId projectId kind environmentId
  | .issueToken input => (Pairing.issueToken input).first
  | .consumeAndPair pair => do
    let _ ← Tenants.consumeAndPair pair
    return ()
  | .storeEnvelope input => (SubjectEnvelopes.storeEnvelope input).first
  | .bindSubject input => do
    let _ ← (SubjectBinding.bindSubjectInTransaction rt input).first
    return ()
  | .save input => (PrivacyRequestRepository.save rt input).first
  | .enqueue input => do
    let _ ← ofGateway (Gateway.enqueue input)
    return ()
  | .claimTransport session now => do
    let _ ← (Gateway.claimTransport session now).along gatewayPart
    return ()
  | .claimAgentMessage input => do
    let _ ← ofGateway (Gateway.claimAgentMessage input)
    return ()
  | .lease input => do
    let _ ← ofGateway (Gateway.lease input)
    return ()
  | .heartbeat input => do
    let _ ← ofGateway (Gateway.heartbeat input)
    return ()

/-- Any transaction with any arguments, while the aggregates in memory change in any way. -/
def tenantSystem (rt : Runtime) :
    ReadCommitted.System TenantWorld TenantWorldRow TenantRequest Unit where
  starts _ _ := True
  body request := request.script rt
  commits _ _ := True
  settle _ _ w := w
  environment _ w w' := ∃ aggregates acknowledgements,
    w' = ({ w.1 with aggregates, acknowledgements }, w.2)

end ForgetOps.Api.Tenants
