import ForgetOps.Api.Gateway
import ForgetOps.Api.Pairing

/-
  Jobs: `enqueue`, `poll`, `lease` and `heartbeat` of `PostgresJobRepository`
  (`agent-gateway/job-repository.ts`), and the part of `consumeAndPair`
  (`agents/pairing-service.ts`) that replaces an agent by force, as far as it is about agents and
  jobs.

  Row security shows a transaction the rows of its tenant only.
-/

namespace ForgetOps.Api.Gateway

open Database ReadCommitted
open ReadCommitted (Script)

structure EnqueueAgentJobInput where
  id : String
  tenantId : String
  requestId : String
  environmentId : String
  kind : AgentJobKind
  planVersion : Option Int
  payloadCiphertext : Option String
  authorization : Option String
  availableAt : Int
  expiresAt : Int
  deriving DecidableEq, Repr

structure AgentJobLookup where
  tenantId : String
  agentId : String
  environmentId : String
  now : Int
  deriving DecidableEq, Repr

structure AgentJobMutation extends AgentJobLookup where
  jobId : String
  deriving DecidableEq, Repr

def jobLeaseMs : Int := 60000

def newJob (input : EnqueueAgentJobInput) : AgentJobRow where
  tenantId := input.tenantId
  requestId := input.requestId
  environmentId := input.environmentId
  kind := input.kind
  planVersion := input.planVersion
  payloadCiphertext := input.payloadCiphertext
  payloadEncryptionKeyId := none
  authorization := input.authorization
  availableAt := input.availableAt
  expiresAt := input.expiresAt
  leasedByAgentId := none
  leaseExpiresAt := none
  attempt := 0
  completedAt := none

/-- `insert into agent_jobs … select … from privacy_requests …`. -/
def enqueue (input : EnqueueAgentJobInput) : GatewayTransaction AgentJobRow := do
  let scope ← Script.read fun (w : Store) => w.requests.find input.requestId
  Script.failIf (scope ≠ some { tenantId := input.tenantId, environmentId := input.environmentId })
    "Agent job scope does not exist"
  let inserted ← Script.update (.job input.id) (whenAbsent (newJob input))
  Script.failIf (inserted = none) "unique_violation"
  return newJob input

/-- `status in ('online', 'outdated')`. -/
def works (status : AgentStatus) : Prop := status = .online ∨ status = .outdated

instance : DecidablePred works := fun _ => inferInstanceAs (Decidable (_ ∨ _))

/-- The agent of the call works in the environment. -/
def worksIn (environments : Table String EnvironmentRow) (input : AgentJobLookup)
    (environmentId : String) (agent : AgentRow) : Prop :=
  tenantOf environments agent.environmentId = some input.tenantId ∧
    agent.environmentId = environmentId ∧ works agent.status

instance (environments : Table String EnvironmentRow) (input : AgentJobLookup)
    (environmentId : String) : DecidablePred (worksIn environments input environmentId) :=
  fun _ => inferInstanceAs (Decidable (_ ∧ _))

/-- `exists (select 1 from agents a where …)`. -/
def agentWorks (w : Store) (input : AgentJobLookup) (environmentId : String) : Bool :=
  (w.agents.find input.agentId).any fun agent => worksIn w.environments input environmentId agent

/-- No lease of the job runs at `now`. -/
def unleased (now : Int) (row : AgentJobRow) : Prop := ∀ e ∈ row.leaseExpiresAt, e ≤ now

instance (now : Int) : DecidablePred (unleased now) := fun row =>
  match h : row.leaseExpiresAt with
  | none => isTrue (by simp [unleased, h])
  | some e => decidable_of_iff (e ≤ now) (by simp [unleased, h])

/-- The condition of `poll` on a job. -/
def isOffered (w : Store) (input : AgentJobLookup) (row : AgentJobRow) : Prop :=
  row.tenantId = input.tenantId ∧ row.environmentId = input.environmentId ∧
    row.availableAt ≤ input.now ∧ input.now < row.expiresAt ∧ row.completedAt = none ∧
    unleased input.now row ∧ agentWorks w input row.environmentId = true

instance (w : Store) (input : AgentJobLookup) : DecidablePred (isOffered w input) :=
  fun _ => inferInstanceAs (Decidable (_ ∧ _))

/-- `order by j.available_at, j.id`. -/
def earlier (e e' : String × AgentJobRow) : Bool :=
  e.2.availableAt < e'.2.availableAt ∨ (e.2.availableAt = e'.2.availableAt ∧ e.1 ≤ e'.1)

/-- The job that `poll` answers, with the number of answers there were before its snapshot. -/
def poll (input : AgentJobLookup) : GatewayTransaction (Option (String × AgentJobRow) × Nat) :=
  Script.read fun (w : Store) =>
    (((w.jobs.entries.filter fun e => isOffered w input e.2).mergeSort earlier).head?,
      w.answers.length)

def canLease (row : AgentJobRow) (now : Int) : Bool :=
  row.completedAt = none ∧ row.availableAt ≤ now ∧ now < row.expiresAt

/-- The row of a job that is granted. -/
def leasedRow (input : AgentJobMutation) (row : AgentJobRow) : AgentJobRow :=
  { row with
    leasedByAgentId := some input.agentId
    leaseExpiresAt := some (input.now + jobLeaseMs)
    attempt := row.attempt + 1 }

/-- What `lease` does with the job it has locked; the answer says whether it is a new grant. -/
def leaseRow (input : AgentJobMutation) (row : AgentJobRow) :
    GatewayTransaction (Option (LeaseKind × AgentJobRow)) :=
  if ¬ canLease row input.now then return none
  else if row.leasedByAgentId = some input.agentId ∧ ¬ unleased input.now row then
    return some (.repeated, row)
  else if ¬ unleased input.now row then return none
  else do
    let leased ← Script.update (.job input.jobId) (whenRow (fun _ => True) (leasedRow input))
    match leased with
    | none => .fail "TypeError"
    | some row => return some (.granted, leasedRow input row)

def lease (input : AgentJobMutation) :
    GatewayTransaction (Option (LeaseKind × AgentJobRow)) := do
  let environments ← Script.read (·.environments)
  let agent ← Script.update (.agent input.agentId)
    (lockRow (worksIn environments input.toAgentJobLookup input.environmentId))
  match agent with
  | none => return none
  | some _ => do
    let row ← Script.update (.job input.jobId) (lockRow fun (row : AgentJobRow) =>
      row.tenantId = input.tenantId ∧ row.environmentId = input.environmentId)
    match row with
    | none => return none
    | some row => leaseRow input row

/-- The condition of `heartbeat` on a job; `works` is what its subquery finds. -/
def isRenewable (works : String → Bool) (input : AgentJobMutation) (row : AgentJobRow) : Prop :=
  row.tenantId = input.tenantId ∧ row.environmentId = input.environmentId ∧
    row.leasedByAgentId = some input.agentId ∧ ¬ unleased input.now row ∧
    input.now < row.expiresAt ∧ row.completedAt = none ∧ works row.environmentId = true

instance (works : String → Bool) (input : AgentJobMutation) :
    DecidablePred (isRenewable works input) :=
  fun _ => inferInstanceAs (Decidable (_ ∧ _))

def renewedRow (input : AgentJobMutation) (row : AgentJobRow) : AgentJobRow :=
  { row with leaseExpiresAt := some (input.now + jobLeaseMs) }

def heartbeat (input : AgentJobMutation) : GatewayTransaction (Option AgentJobRow) := do
  let works ← Script.read fun (w : Store) => agentWorks w input.toAgentJobLookup
  let row ← Script.update (.job input.jobId)
    (whenRow (isRenewable works input) (renewedRow input))
  return row.map (renewedRow input)

/-! ## Replacement by force -/

structure ForceReplacement where
  tenantId : String
  environmentId : String
  registration : AgentRegistration
  agentId : String
  now : Int
  deriving DecidableEq, Repr

def isUncompleted (input : ForceReplacement) (row : AgentJobRow) : Prop :=
  row.tenantId = input.tenantId ∧ row.environmentId = input.environmentId ∧ row.completedAt = none

instance (input : ForceReplacement) : DecidablePred (isUncompleted input) :=
  fun _ => inferInstanceAs (Decidable (_ ∧ _))

def completedRow (now : Int) (row : AgentJobRow) : AgentJobRow :=
  { row with
    payloadCiphertext := none
    payloadEncryptionKeyId := none
    authorization := none
    leasedByAgentId := none
    leaseExpiresAt := none
    completedAt := some (row.completedAt.getD now) }

/-- `update agent_jobs set …, completed_at = coalesce(completed_at, now) where …`; answers the jobs
    it has completed. -/
def completeJobs (input : ForceReplacement) : GatewayTransaction (List String) := do
  let ids ← Script.read fun (w : Store) =>
    (w.jobs.entries.filter fun e => isUncompleted input e.2).map (·.1)
  let rows ← Script.forRows (fun id => Script.update (.job id)
    (whenRow (isUncompleted input) (completedRow input.now))) ids
  return rows.map (·.1)

def lockActiveAgents (environmentId : String) : GatewayTransaction (List (String × AgentRow)) := do
  let ids ← Script.read fun (w : Store) =>
    (w.agents.entries.filter fun e => Pairing.isActive environmentId e.2).map (·.1)
  Script.forRows (fun id => Script.update (.agent id)
    (lockRow (Pairing.isActive environmentId))) ids

/-- What happens to the jobs of the active agent and to the agent itself. -/
def replaceActive (input : ForceReplacement) :
    Option (String × AgentRow) → GatewayTransaction (List String)
  | none => return []
  | some (activeId, active) => do
    Script.failIf (active.publicSigningKey = input.registration.publicSigningKey)
      "AGENT_ALREADY_ACTIVE"
    let completed ← completeJobs input
    let _ ← Script.update (.agent activeId)
      (whenRow (fun (row : AgentRow) => row.environmentId = input.environmentId) fun row =>
        { row with status := .revoked })
    return completed

def forceReplacement (input : ForceReplacement) : GatewayTransaction (List String) := do
  let environment ← Script.update (.environment input.environmentId)
    (lockRow fun (row : EnvironmentRow) => row.tenantId = input.tenantId)
  match environment with
  | none => .fail "PAIRING_TOKEN_INVALID"
  | some _ => do
    let active ← lockActiveAgents input.environmentId
    let completed ← replaceActive input active.head?
    let inserted ← Script.update (.agent input.agentId)
      (whenAbsent (Pairing.newAgent input.registration input.environmentId))
    Script.failIf (inserted = none) "unique_violation"
    return completed

end ForgetOps.Api.Gateway
