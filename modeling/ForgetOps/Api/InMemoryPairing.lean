import ForgetOps.Api.Pairing
import ForgetOps.Library.Awaiting

/-
  `InMemoryPairingRepository` (`apps/api/src/modules/agents/pairing-service.ts`).

  Where the repository has a hierarchy, `consumeAndPair` looks at the token, waits for the key
  version of its environment, and then does the rest without looking at the token again. Tokens are
  objects: the map leads to their number, and a call that waits keeps it. Instants are in
  milliseconds, a map entry is set to `none` where it is deleted.
-/

namespace ForgetOps.Api.InMemoryPairing

open Awaiting Database

structure PairingTokenRecord where
  id : String
  tenantId : String
  environmentId : String
  tokenHash : String
  replacementMode : ReplacementMode
  expiresAt : Int
  consumedAt : Option Int
  deriving DecidableEq, Repr

structure AgentRecord where
  id : String
  environmentId : String
  publicSigningKey : String
  publicEncryptionKey : String
  signingKeyId : String
  encryptionKeyId : String
  subjectHmacKeyVersion : Int
  version : String
  protocolVersion : String
  instanceFingerprint : String
  status : AgentStatus
  lastSeenAt : Option Int
  lastSequence : String
  createdAt : Int
  deriving DecidableEq, Repr

structure PendingCiphertext where
  agentId : String
  ciphertext : String
  deriving DecidableEq, Repr

structure InMemoryPairingRepository where
  tokens : Table String Nat
  objects : List PairingTokenRecord
  agents : Table String AgentRecord
  agentTenants : Table String String
  subjectEnvelopeRequests : Table String (List String)
  runningAttemptRequests : Table String (List String)
  requestStatuses : Table String String
  pendingCiphertexts : Table String PendingCiphertext

def InMemoryPairingRepository.new : InMemoryPairingRepository :=
  ⟨Table.empty, [], Table.empty, Table.empty, Table.empty, Table.empty, Table.empty, Table.empty⟩

/-- `agentId` is `agt_` followed by what `randomUUID()` answers. -/
structure ConsumeInput where
  tokenHash : String
  registration : AgentRegistration
  now : Int
  agentId : String
  deriving DecidableEq, Repr

inductive Failure where
  | pairingTokenInvalid
  | invalidAgentKey
  | agentAlreadyActive
  | replacementRequiresOwnerConfirmation
  | replacementBlockedActiveWork
  | hierarchy
  deriving DecidableEq, Repr

namespace InMemoryPairingRepository

variable (s : InMemoryPairingRepository)

/-- The part before the hierarchy is asked; the token it looks at. -/
def check (input : ConsumeInput) : Except Failure Nat :=
  match s.tokens.find input.tokenHash with
  | none => .error .pairingTokenInvalid
  | some ref =>
    match s.objects[ref]? with
    | none => .error .pairingTokenInvalid
    | some token =>
      if token.consumedAt ≠ none ∨ token.expiresAt ≤ input.now then .error .pairingTokenInvalid
      else if token.environmentId ≠ input.registration.environmentId then
        .error .pairingTokenInvalid
      else .ok ref

/-- The first agent of the environment that is not revoked. -/
def active (environmentId : String) : Option AgentRecord :=
  s.agents.values.find? fun agent =>
    agent.environmentId = environmentId ∧ agent.status ≠ .revoked

def affectedRequests (environmentId : String) : List String :=
  (((s.subjectEnvelopeRequests.find environmentId).getD []) ++
    ((s.runningAttemptRequests.find environmentId).getD [])).eraseDups

/-- What stops a pairing, once the key version is right. -/
def blocked (token : PairingTokenRecord) (registration : AgentRegistration) : Option Failure :=
  match s.active token.environmentId with
  | none => none
  | some active =>
    if active.publicSigningKey = registration.publicSigningKey then some .agentAlreadyActive
    else if token.replacementMode = .none then some .replacementRequiresOwnerConfirmation
    else if token.replacementMode = .drain ∧ s.affectedRequests token.environmentId ≠ [] then
      some .replacementBlockedActiveWork
    else none

/-- What is done to the work of an agent that is replaced by force. -/
def force (environmentId activeId : String) : InMemoryPairingRepository :=
  { s with
    requestStatuses := (s.affectedRequests environmentId).foldl
      (fun statuses requestId => statuses.set requestId (some "needs_review")) s.requestStatuses
    subjectEnvelopeRequests := s.subjectEnvelopeRequests.set environmentId none
    runningAttemptRequests := s.runningAttemptRequests.set environmentId none
    pendingCiphertexts := s.pendingCiphertexts.keep fun job => job.agentId ≠ activeId }

def replaceActive (token : PairingTokenRecord) : InMemoryPairingRepository :=
  match s.active token.environmentId with
  | none => s
  | some active =>
    let left := if token.replacementMode = .force then s.force token.environmentId active.id else s
    { left with
      agents := left.agents.set active.id (some { active with status := .revoked }) }

def newAgent (token : PairingTokenRecord) (input : ConsumeInput) : AgentRecord :=
  { input.registration with
    id := input.agentId
    environmentId := token.environmentId
    status := .pairing
    lastSeenAt := none
    lastSequence := "0"
    createdAt := input.now }

/-- The token is consumed and the agent is there. -/
def insert (ref : Nat) (token : PairingTokenRecord) (input : ConsumeInput) :
    InMemoryPairingRepository :=
  { s with
    objects := s.objects.set ref { token with consumedAt := some input.now }
    tokens := s.tokens.set input.tokenHash (some ref)
    agents := s.agents.set input.agentId (some (newAgent token input))
    agentTenants := s.agentTenants.set input.agentId (some token.tenantId) }

/-- The rest of `consumeAndPair`, with the key version of the environment. -/
def finish (ref : Nat) (input : ConsumeInput) (subjectHmacKeyVersion : Option Int) :
    Except Failure AgentRecord × InMemoryPairingRepository :=
  match s.objects[ref]? with
  | none => (.error .pairingTokenInvalid, s)
  | some token =>
    if subjectHmacKeyVersion ≠ some input.registration.subjectHmacKeyVersion then
      (.error .invalidAgentKey, s)
    else
      match s.blocked token input.registration with
      | some failure => (.error failure, s)
      | none => (.ok (newAgent token input), (s.replaceActive token).insert ref token input)

end InMemoryPairingRepository

/-! ## The other methods -/

inductive Other where
  | issueToken (token : PairingTokenRecord)
  | markSubjectEnvelopeActive (environmentId requestId : String)
  | markAttemptRunning (environmentId requestId : String)
  | addPendingCiphertext (agentId jobId ciphertext : String)
  | revokeAgent (tenantId agentId : String)
  deriving DecidableEq, Repr

def addEnvironmentRequest (requests : Table String (List String))
    (environmentId requestId : String) : Table String (List String) :=
  let current := (requests.find environmentId).getD []
  requests.set environmentId
    (some (if requestId ∈ current then current else current ++ [requestId]))

open InMemoryPairingRepository in
def Other.apply (s : InMemoryPairingRepository) : Other → InMemoryPairingRepository
  | .issueToken token =>
    { s with
      tokens := s.tokens.set token.tokenHash (some s.objects.length)
      objects := s.objects ++ [{ token with consumedAt := none }] }
  | .markSubjectEnvelopeActive environmentId requestId =>
    { s with
      subjectEnvelopeRequests :=
        addEnvironmentRequest s.subjectEnvelopeRequests environmentId requestId }
  | .markAttemptRunning environmentId requestId =>
    { s with
      runningAttemptRequests :=
        addEnvironmentRequest s.runningAttemptRequests environmentId requestId }
  | .addPendingCiphertext agentId jobId ciphertext =>
    { s with pendingCiphertexts := s.pendingCiphertexts.set jobId (some ⟨agentId, ciphertext⟩) }
  | .revokeAgent tenantId agentId =>
    if s.agentTenants.find agentId ≠ some tenantId then s
    else
      match s.agents.find agentId with
      | none => s
      | some agent =>
        if agent.status = .revoked then s
        else { s with agents := s.agents.set agentId (some { agent with status := .revoked }) }

/-! ## Calls -/

/-- The token that a call looked at, and what it came back with. -/
structure Outcome where
  token : Option Nat
  result : Except Failure AgentRecord

/-- `hierarchy` is whether the repository has one; its answer is the key version of the environment,
    if there is one, unless it throws. -/
def consumeAndPair (hierarchy : Bool) : Method InMemoryPairingRepository ConsumeInput
    (Nat × ConsumeInput) (Option (Option Int)) Outcome Other where
  start s input :=
    match s.check input with
    | .error e => .ended ⟨none, .error e⟩ s
    | .ok ref =>
      if hierarchy then .waits (ref, input)
      else
        let (result, left) := s.finish ref input (some input.registration.subjectHmacKeyVersion)
        .ended ⟨some ref, result⟩ left
  resume s kept answer :=
    match answer with
    | none => (⟨some kept.1, .error .hierarchy⟩, s)
    | some version =>
      let (result, left) := s.finish kept.1 kept.2 version
      (⟨some kept.1, result⟩, left)
  other := Other.apply

end ForgetOps.Api.InMemoryPairing
