import ForgetOps.Database.World

/-
  `PostgresPairingRepository.consumeAndPair`
  (`apps/api/src/modules/agents/pairing-service.ts`).

  A statement on several rows reads the keys of the rows it is about from its own snapshot, and
  then runs on each of them (`onRows`).
-/

namespace ForgetOps.Api

open Domain Database
open ReadCommitted (Script)

structure AgentRegistration where
  environmentId : String
  publicSigningKey : String
  publicEncryptionKey : String
  signingKeyId : String
  encryptionKeyId : String
  subjectHmacKeyVersion : Int
  version : String
  protocolVersion : String
  instanceFingerprint : String
  deriving DecidableEq, Repr

/-- `agentId` is `agt_` followed by what `randomUUID()` answers. -/
structure ConsumeAndPairInput where
  tokenHash : String
  registration : AgentRegistration
  now : Timestamp
  agentId : String
  deriving DecidableEq, Repr

namespace Pairing

def openAttempt (s : ExecutionAttemptStatus) : Prop := s = .authorized ∨ s = .running

instance : DecidablePred openAttempt := fun _ => inferInstanceAs (Decidable (_ ∨ _))

/-- `lookup_agent_pairing_token`. -/
def lookupToken (tokenHash : String) : Transaction (Option (String × TokenRow)) :=
  Script.read fun (w : World) => w.tokens.entries.find? fun entry => entry.2.tokenHash = tokenHash

/-- The keys of a table's rows with `p`. -/
def selectKeys {ρ : Type} (table : World → Table String ρ) (p : String → ρ → Prop)
    [∀ k, DecidablePred (p k)] : Transaction (List String) :=
  Script.read fun (w : World) => ((table w).entries.filter fun e => p e.1 e.2).map (·.1)

def isActive (environmentId : String) (row : AgentRow) : Prop :=
  row.environmentId = environmentId ∧ row.status ≠ .revoked

instance (environmentId : String) : DecidablePred (isActive environmentId) :=
  fun _ => inferInstanceAs (Decidable (_ ∧ _))

def activeAgents (environmentId : String) : Transaction (List (String × AgentRow)) := do
  let ids ← selectKeys (·.agents) fun _ => isActive environmentId
  onRows (fun id => Script.update (.agent id) (lockRow (isActive environmentId))) ids

def isUnconsumed (token : TokenRow) (row : EnvelopeRow) : Prop :=
  row.tenantId = token.tenantId ∧ row.environmentId = token.environmentId ∧ row.consumedAt = none

instance (token : TokenRow) : DecidablePred (isUnconsumed token) :=
  fun _ => inferInstanceAs (Decidable (_ ∧ _))

def unconsumedEnvelopes (token : TokenRow) : Transaction (List (String × EnvelopeRow)) := do
  let ids ← selectKeys (·.envelopes) fun _ => isUnconsumed token
  onRows (fun id => Script.update (.envelope id) (lockRow (isUnconsumed token))) ids

def isOpen (token : TokenRow) (row : AttemptRow) : Prop :=
  row.tenantId = token.tenantId ∧ row.environmentId = token.environmentId ∧ openAttempt row.status

instance (token : TokenRow) : DecidablePred (isOpen token) :=
  fun _ => inferInstanceAs (Decidable (_ ∧ _))

def openAttempts (token : TokenRow) : Transaction (List (String × AttemptRow)) := do
  let ids ← selectKeys (·.attempts) fun _ => isOpen token
  onRows (fun id => Script.update (.attempt id) (lockRow (isOpen token))) ids

def isAffectedRequest (token : TokenRow) (affectedRequestIds : List String) (id : String)
    (row : RequestRow) : Prop :=
  row.tenantId = token.tenantId ∧ id ∈ affectedRequestIds ∧ ¬ finished row.status

instance (token : TokenRow) (affectedRequestIds : List String) (id : String) :
    DecidablePred (isAffectedRequest token affectedRequestIds id) :=
  fun _ => inferInstanceAs (Decidable (_ ∧ _))

def reviewRequests (token : TokenRow) (affectedRequestIds : List String) : Transaction Unit := do
  let ids ← selectKeys (·.requests) (isAffectedRequest token affectedRequestIds)
  let _ ← onRows (fun id => Script.update (.request id)
    (whenRow (isAffectedRequest token affectedRequestIds id) fun row =>
      { row with status := .needsReview, version := row.version + 1, completedAt := none })) ids
  return ()

def isAffectedAttempt (token : TokenRow) (affectedRequestIds : List String) (row : AttemptRow) :
    Prop :=
  row.tenantId = token.tenantId ∧ row.requestId ∈ affectedRequestIds ∧ openAttempt row.status

instance (token : TokenRow) (affectedRequestIds : List String) :
    DecidablePred (isAffectedAttempt token affectedRequestIds) :=
  fun _ => inferInstanceAs (Decidable (_ ∧ _))

def reviewAttempts (token : TokenRow) (affectedRequestIds : List String) (now : Timestamp) :
    Transaction Unit := do
  let ids ← selectKeys (·.attempts) fun _ => isAffectedAttempt token affectedRequestIds
  let _ ← onRows (fun id => Script.update (.attempt id)
    (whenRow (isAffectedAttempt token affectedRequestIds) fun row =>
      { row with status := .needsReview, completedAt := some now })) ids
  return ()

def deleteEnvelopes (token : TokenRow) : Transaction Unit := do
  let ids ← selectKeys (·.envelopes) fun _ => isUnconsumed token
  let _ ← onRows (fun id => Script.update (.envelope id) (deleteRow (isUnconsumed token))) ids
  return ()

def isUncompletedJob (token : TokenRow) (row : JobRow) : Prop :=
  row.tenantId = token.tenantId ∧ row.environmentId = token.environmentId ∧
    row.completedAt = none

instance (token : TokenRow) : DecidablePred (isUncompletedJob token) :=
  fun _ => inferInstanceAs (Decidable (_ ∧ _))

def revokeJobs (token : TokenRow) (now : Timestamp) : Transaction Unit := do
  let ids ← selectKeys (·.jobs) fun _ => isUncompletedJob token
  let _ ← onRows (fun id => Script.update (.job id) (whenRow (isUncompletedJob token) fun row =>
    { row with
      payloadCiphertext := none
      payloadEncryptionKeyId := none
      authorizationPayload := none
      leasedByAgentId := none
      leaseExpiresAt := none
      completedAt := some (row.completedAt.getD now) })) ids
  return ()

def reviewWork (token : TokenRow) (affectedRequestIds : List String) (now : Timestamp) :
    Transaction Unit :=
  if affectedRequestIds = [] then .done ()
  else do
    reviewRequests token affectedRequestIds
    reviewAttempts token affectedRequestIds now

/-- The body of `replacementMode === "force"`. -/
def forceReplacement (token : TokenRow) (affectedRequestIds : List String) (now : Timestamp) :
    Transaction Unit := do
  reviewWork token affectedRequestIds now
  deleteEnvelopes token
  revokeJobs token now

/-- The body of `if (active)`, but for the revocation, behind the two checks. -/
def replaceWork (token : TokenRow) (now : Timestamp) : Transaction Unit := do
  let envelopeRows ← unconsumedEnvelopes token
  let attemptRows ← openAttempts token
  let affectedRequestIds :=
    (envelopeRows.map (·.1) ++ attemptRows.map (·.2.requestId)).eraseDups
  Script.failIf (token.replacementMode = .drain ∧ affectedRequestIds.length > 0)
    "AGENT_REPLACEMENT_BLOCKED_ACTIVE_WORK"
  if token.replacementMode = .force then forceReplacement token affectedRequestIds now
  else .done ()

/-- What happens to the work of the active agent `activeId` and to the agent itself. -/
def replaceAgent (token : TokenRow) (registration : AgentRegistration) (now : Timestamp)
    (activeId : String) (active : AgentRow) : Transaction Unit := do
  Script.failIf (active.publicSigningKey = registration.publicSigningKey) "AGENT_ALREADY_ACTIVE"
  Script.failIf (token.replacementMode = .none) "AGENT_REPLACEMENT_REQUIRES_OWNER_CONFIRMATION"
  replaceWork token now
  let _ ← Script.update (.agent activeId)
    (whenRow (fun (row : AgentRow) => row.environmentId = token.environmentId) fun row =>
      { row with status := .revoked })
  return ()

def lockToken (input : ConsumeAndPairInput) (bootstrap : String × TokenRow) :
    Transaction TokenRow := do
  let token ← Script.update (.token bootstrap.1)
    (lockRow fun (row : TokenRow) => row.tenantId = bootstrap.2.tenantId)
  match token with
  | none => .fail "PAIRING_TOKEN_INVALID"
  | some token => do
    Script.failIf (token.consumedAt ≠ none ∨ token.expiresAt ≤ input.now) "PAIRING_TOKEN_INVALID"
    Script.failIf (token.environmentId ≠ input.registration.environmentId) "PAIRING_TOKEN_INVALID"
    return token

def lockEnvironment (input : ConsumeAndPairInput) (token : TokenRow) : Transaction Unit := do
  let environment ← Script.update (.environment token.environmentId)
    (lockRow fun (row : EnvironmentRow) => row.tenantId = token.tenantId)
  match environment with
  | none => .fail "PAIRING_TOKEN_INVALID"
  | some environment =>
    Script.failIf (environment.subjectHashKeyVersion ≠ input.registration.subjectHmacKeyVersion)
      "INVALID_AGENT_KEY"

def newAgent (registration : AgentRegistration) (environmentId : String) : AgentRow :=
  { registration with
    environmentId
    signingKeyId := some registration.signingKeyId
    encryptionKeyId := some registration.encryptionKeyId
    status := .pairing
    lastSequence := "0" }

def insertAgent (input : ConsumeAndPairInput) (tokenId : String) (token : TokenRow) :
    Transaction AgentRow := do
  let agent := newAgent input.registration token.environmentId
  let inserted ← Script.update (.agent input.agentId) (whenAbsent agent)
  Script.failIf (inserted = none) "unique_violation"
  let consumed ← Script.update (.token tokenId)
    (whenRow (fun (row : TokenRow) => row.consumedAt = none) fun row =>
      { row with consumedAt := some input.now })
  Script.failIf (consumed = none) "PAIRING_TOKEN_INVALID"
  return agent

def replaceActive (input : ConsumeAndPairInput) (token : TokenRow) :
    Option (String × AgentRow) → Transaction Unit
  | none => .done ()
  | some (activeId, active) => replaceAgent token input.registration input.now activeId active

def consumeAndPair (input : ConsumeAndPairInput) : Transaction AgentRow := do
  let bootstrap ← lookupToken input.tokenHash
  match bootstrap with
  | none => .fail "PAIRING_TOKEN_INVALID"
  | some bootstrap => do
    let token ← lockToken input bootstrap
    lockEnvironment input token
    let active ← activeAgents token.environmentId
    replaceActive input token active.head?
    insertAgent input bootstrap.1 token

end Pairing

end ForgetOps.Api
