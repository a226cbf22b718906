import ForgetOps.Api.Gateway
import ForgetOps.Library.IsoTimestamp

/-
  Message authentication: `authenticate` (`agent-gateway/message-signer.ts`), `claimAgentMessage`
  (`agent-gateway/job-repository.ts`) and `revokeAgent` (`agents/pairing-service.ts`).

  `authenticate` first reads the identity of the agent in a transaction of its own. That read takes
  no lock, so that here it is the first statement of the transaction of the claim.
-/

namespace ForgetOps.Api.Gateway

open Database ReadCommitted Calendar
open ReadCommitted (Script)

/-! ## Messages -/

inductive MessageDirection where
  | controlToAgent
  | agentToControl
  deriving DecidableEq, Repr

/-- `payload` is the text of a JSON value. -/
structure AgentMessage where
  protocolVersion : String
  messageType : String
  messageId : String
  keyId : String
  environmentId : String
  agentId : String
  direction : MessageDirection
  sequence : String
  sentAt : String
  payload : String
  signature : String
  deriving DecidableEq, Repr

/-- The functions of `node:crypto` and `Buffer`, the identifier of an Ed25519 key, and the bytes a
    signature is over, which are nothing where the message is not one of the schema. -/
structure MessageLibraries where
  keyIdForPublicKey : String → String
  decodeBase64Url : String → List UInt8
  encodeBase64Url : List UInt8 → String
  agentMessageSigningBytes : AgentMessage → Option (List UInt8)
  /-- The public key, the bytes and the signature. -/
  verify : List UInt8 → List UInt8 → List UInt8 → Bool

def decodeCanonicalBase64Url (libraries : MessageLibraries) (value : String) :
    Option (List UInt8) :=
  if value = "" ∨ value.toList.any fun c => ¬ (c.isAlphanum ∨ c = '_' ∨ c = '-') then none
  else if libraries.encodeBase64Url (libraries.decodeBase64Url value) ≠ value then none
  else some (libraries.decodeBase64Url value)

def verifyAgentMessage (libraries : MessageLibraries) (message : AgentMessage)
    (publicKey : String) : Bool :=
  match decodeCanonicalBase64Url libraries publicKey,
      decodeCanonicalBase64Url libraries message.signature,
      libraries.agentMessageSigningBytes message with
  | some key, some signature, some bytes =>
    key.length = 32 ∧ signature.length = 64 ∧ libraries.verify key bytes signature
  | _, _, _ => false

structure AgentGatewayAuthError where
  code : String
  message : String
  statusCode : Nat
  deriving DecidableEq, Repr

def maxU64 : Nat := 18446744073709551615

def messageFreshnessMs : Int := 5 * 60 * 1000

/-- `BigInt(text)` of a text of decimal digits. -/
def bigInt (text : String) : Option Nat := Decimal.value text.toList

/-- `/^[1-9]\\d{0,19}$/`. -/
def isSequence : List Char → Bool
  | [] => false
  | c :: cs => c.isDigit ∧ c ≠ '0' ∧ cs.length ≤ 19 ∧ cs.all Char.isDigit

def sequenceInvalid : AgentGatewayAuthError :=
  ⟨"AUTH_REPLAY_DETECTED", "The agent message sequence is invalid", 409⟩

def parseSequence (value : String) : Except AgentGatewayAuthError Nat :=
  if isSequence value.toList then
    match bigInt value with
    | some sequence => if sequence > maxU64 then .error sequenceInvalid else .ok sequence
    | none => .error sequenceInvalid
  else .error sequenceInvalid

/-! ## The claim of a message -/

inductive AgentMessageClaimResult where
  | accepted
  | notFound
  | environmentMismatch
  | revoked
  | replay
  deriving DecidableEq, Repr

structure ClaimAgentMessageInput where
  tenantId : String
  agentId : String
  environmentId : String
  messageId : String
  sequence : String
  receivedAt : Timestamp
  deriving DecidableEq, Repr

/-- `select … from agents … for update of a`: the join is of the snapshot, the row is current. -/
def lockAgent (tenantId agentId : String) : GatewayTransaction (Option (String × AgentRow)) := do
  let environments ← Script.read (·.environments)
  let agent ← Script.update (.agent agentId)
    (lockRow fun (row : AgentRow) => tenantOf environments row.environmentId = some tenantId)
  return agent.bind fun row => (tenantOf environments row.environmentId).map (·, row)

def isDuplicate (input : ClaimAgentMessageInput) (entry : ReceiptKey × ReceiptRow) : Prop :=
  entry.1.agentId = input.agentId ∧
    (entry.1.messageId = input.messageId ∨ entry.2.sequence = input.sequence)

instance (input : ClaimAgentMessageInput) : DecidablePred (isDuplicate input) :=
  fun _ => inferInstanceAs (Decidable (_ ∧ _))

/-- The two statements that record an accepted message. -/
def recordMessage (input : ClaimAgentMessageInput) : GatewayTransaction Unit := do
  let inserted ← Script.update (.receipt ⟨input.agentId, input.messageId⟩)
    (whenAbsent { sequence := input.sequence, receivedAt := input.receivedAt : ReceiptRow })
  Script.failIf (inserted = none) "unique_violation"
  let _ ← Script.update (.agent input.agentId)
    (whenRow (fun _ => True) fun (row : AgentRow) => { row with lastSequence := input.sequence })
  return ()

/-- What is left of the claim once the agent is locked and may send messages. -/
def claimSequence (input : ClaimAgentMessageInput) (agent : AgentRow) :
    GatewayTransaction AgentMessageClaimResult :=
  match bigInt input.sequence, bigInt agent.lastSequence with
  | some sequence, some lastSequence =>
    if sequence ≤ lastSequence then return .replay
    else do
      let duplicate ← Script.read fun (w : Store) =>
        w.receipts.entries.find? fun entry => isDuplicate input entry
      if duplicate.isSome then return .replay
      else do
        recordMessage input
        return .accepted
  | _, _ => .fail "SyntaxError"

def claimAgentMessage (input : ClaimAgentMessageInput) :
    GatewayTransaction AgentMessageClaimResult := do
  let agent ← lockAgent input.tenantId input.agentId
  match agent with
  | none => return .notFound
  | some (tenantId, agent) =>
    if tenantId ≠ input.tenantId ∨ agent.environmentId ≠ input.environmentId then
      return .environmentMismatch
    else if agent.status = .revoked then return .revoked
    else claimSequence input agent

/-! ## Authentication -/

structure GatewayAgentIdentity where
  agentId : String
  tenantId : String
  environmentId : String
  publicSigningKey : String
  signingKeyId : String
  protocolVersion : String
  status : AgentStatus
  deriving DecidableEq, Repr

def toIdentity (libraries : MessageLibraries) (agentId tenantId : String) (row : AgentRow) :
    GatewayAgentIdentity where
  agentId := agentId
  tenantId := tenantId
  environmentId := row.environmentId
  publicSigningKey := row.publicSigningKey
  signingKeyId := row.signingKeyId.getD (libraries.keyIdForPublicKey row.publicSigningKey)
  protocolVersion := row.protocolVersion
  status := row.status

/-- The row of `lookup_agent_identity`. -/
def findAgentIdentity (libraries : MessageLibraries) (agentId : String) :
    GatewayTransaction (Option GatewayAgentIdentity) :=
  Script.read fun (w : Store) => do
    let row ← w.agents.find agentId
    let tenantId ← tenantOf w.environments row.environmentId
    some (toIdentity libraries agentId tenantId row)

def signatureInvalid : AgentGatewayAuthError :=
  ⟨"AUTH_SIGNATURE_INVALID", "The agent message signature is invalid", 401⟩

def protocolUnsupported : AgentGatewayAuthError :=
  ⟨"PROTOCOL_VERSION_UNSUPPORTED", "The agent protocol version is unsupported", 400⟩

def environmentMismatch : AgentGatewayAuthError :=
  ⟨"AUTH_ENVIRONMENT_MISMATCH", "The agent is not bound to this environment", 401⟩

def agentRevoked : AgentGatewayAuthError :=
  ⟨"AUTH_AGENT_REVOKED", "The agent identity has been revoked", 401⟩

/-- The checks before the identity is looked up. -/
def checkMessage (message : AgentMessage) (receivedAt : Int) :
    Except AgentGatewayAuthError Nat :=
  if message.protocolVersion ≠ "1.0" then .error protocolUnsupported
  else
    match IsoTimestamp.parse message.sentAt with
    | none =>
      .error ⟨"AUTH_SIGNATURE_INVALID", "The signed agent message is stale or invalid", 401⟩
    | some sentAt =>
      if |receivedAt - sentAt| > messageFreshnessMs then
        .error ⟨"AUTH_SIGNATURE_INVALID", "The signed agent message is stale or invalid", 401⟩
      else parseSequence message.sequence

/-- The checks of the message against the identity. -/
def checkIdentity (libraries : MessageLibraries) (message : AgentMessage) :
    Option GatewayAgentIdentity → Except AgentGatewayAuthError GatewayAgentIdentity
  | none => .error signatureInvalid
  | some agent =>
    if message.keyId ≠ agent.signingKeyId ∨ message.direction ≠ .agentToControl ∨
        ¬ verifyAgentMessage libraries message agent.publicSigningKey then
      .error signatureInvalid
    else if agent.protocolVersion ≠ message.protocolVersion then .error protocolUnsupported
    else if agent.environmentId ≠ message.environmentId then .error environmentMismatch
    else if agent.status = .revoked then .error agentRevoked
    else .ok agent

/-- The claim that `authenticate` makes. -/
def claimOf (message : AgentMessage) (agent : GatewayAgentIdentity) (sequence : Nat)
    (receivedAt : Int) : ClaimAgentMessageInput where
  tenantId := agent.tenantId
  agentId := message.agentId
  environmentId := message.environmentId
  messageId := message.messageId
  sequence := toString sequence
  receivedAt := IsoTimestamp.toISOString receivedAt

/-- The answer to a claim. -/
def claimAnswer (agent : GatewayAgentIdentity) :
    AgentMessageClaimResult → Except AgentGatewayAuthError GatewayAgentIdentity
  | .accepted => .ok agent
  | .environmentMismatch => .error environmentMismatch
  | .revoked => .error agentRevoked
  | .replay =>
    .error ⟨"AUTH_REPLAY_DETECTED", "The agent message was already processed", 409⟩
  | .notFound => .error signatureInvalid

def authenticate (libraries : MessageLibraries) (message : AgentMessage) (receivedAt : Int) :
    GatewayTransaction (Except AgentGatewayAuthError GatewayAgentIdentity) :=
  match checkMessage message receivedAt with
  | .error e => return .error e
  | .ok sequence => do
    let identity ← findAgentIdentity libraries message.agentId
    match checkIdentity libraries message identity with
    | .error e => return .error e
    | .ok agent => do
      let claim ← claimAgentMessage (claimOf message agent sequence receivedAt)
      return claimAnswer agent claim

/-- `update agents set status = 'revoked' where …`, and the look-up where it affects no row. -/
def revokeAgent (tenantId agentId : String) : GatewayTransaction Unit := do
  let environments ← Script.read (·.environments)
  let result ← Script.update (.agent agentId)
    (whenRow (fun (row : AgentRow) =>
      tenantOf environments row.environmentId = some tenantId ∧ row.status ≠ .revoked)
      fun row => { row with status := .revoked })
  match result with
  | some _ => return ()
  | none => do
    let existing ← Script.read fun (w : Store) => (w.agents.find agentId).filter fun row =>
      tenantOf w.environments row.environmentId = some tenantId
    Script.failIf (existing = none) "AGENT_NOT_FOUND"

end ForgetOps.Api.Gateway
