import ForgetOps.Agent.CanonicalClock
import ForgetOps.Library.Base64Url
import ForgetOps.Library.Json

/-
  Signed authorizations on the wire: `signDomainSeparatedJcs`
  (`apps/signer/src/authorization-signer.ts`), the claims as the agent deserializes them
  (`agent/crates/agent-protocol/src/lib.rs`) and `verify_authorization`
  (`agent/crates/agent-core/src/authorization.rs`).

  Ed25519 and the canonical bytes of JSON are arguments, the same for both sides.
  `verifyAuthorization_ok` says what the agent accepts.
-/

namespace ForgetOps.AgentProtocol

/-- The claims as the agent has them. -/
structure ExecutionAuthorizationClaims where
  type : String
  version : Nat
  keyId : String
  issuer : String
  audience : String
  environmentId : String
  agentId : String
  requestId : String
  attemptId : String
  authorizationKind : String
  planId : String
  planVersion : Nat
  planFingerprint : String
  policyVersion : Nat
  connectorConfigurationFingerprint : String
  allowedStepIds : List String
  approvalEvidenceHash : String
  issuedAt : String
  notBefore : String
  expiresAt : String
  nonce : String
  deriving DecidableEq, Repr

namespace ExecutionAuthorizationClaims

open Json

/-- The derived deserializer. -/
def ofMembers (members : Members String) : Option ExecutionAuthorizationClaims := do
  let type ← required asString "type" members
  let version ← required (asUnsigned 8) "version" members
  let keyId ← required asString "keyId" members
  let issuer ← required asString "issuer" members
  let audience ← required asString "audience" members
  let environmentId ← required asString "environmentId" members
  let agentId ← required asString "agentId" members
  let requestId ← required asString "requestId" members
  let attemptId ← required asString "attemptId" members
  let authorizationKind ← required asString "authorizationKind" members
  let planId ← required asString "planId" members
  let planVersion ← required (asUnsigned 32) "planVersion" members
  let planFingerprint ← required asString "planFingerprint" members
  let policyVersion ← required (asUnsigned 32) "policyVersion" members
  let connectorConfigurationFingerprint ←
    required asString "connectorConfigurationFingerprint" members
  let allowedStepIds ← required (asArray asString) "allowedStepIds" members
  let approvalEvidenceHash ← required asString "approvalEvidenceHash" members
  let issuedAt ← required asString "issuedAt" members
  let notBefore ← required asString "notBefore" members
  let expiresAt ← required asString "expiresAt" members
  let nonce ← required asString "nonce" members
  return { type, version, keyId, issuer, audience, environmentId, agentId, requestId, attemptId,
           authorizationKind, planId, planVersion, planFingerprint, policyVersion,
           connectorConfigurationFingerprint, allowedStepIds, approvalEvidenceHash, issuedAt,
           notBefore, expiresAt, nonce }

/-- The members in the order of the fields. -/
def members (claims : ExecutionAuthorizationClaims) : Members String :=
  [("type", .string claims.type), ("version", .number claims.version),
    ("keyId", .string claims.keyId), ("issuer", .string claims.issuer),
    ("audience", .string claims.audience), ("environmentId", .string claims.environmentId),
    ("agentId", .string claims.agentId), ("requestId", .string claims.requestId),
    ("attemptId", .string claims.attemptId),
    ("authorizationKind", .string claims.authorizationKind), ("planId", .string claims.planId),
    ("planVersion", .number claims.planVersion),
    ("planFingerprint", .string claims.planFingerprint),
    ("policyVersion", .number claims.policyVersion),
    ("connectorConfigurationFingerprint", .string claims.connectorConfigurationFingerprint),
    ("allowedStepIds", .array (claims.allowedStepIds.map .string)),
    ("approvalEvidenceHash", .string claims.approvalEvidenceHash),
    ("issuedAt", .string claims.issuedAt), ("notBefore", .string claims.notBefore),
    ("expiresAt", .string claims.expiresAt), ("nonce", .string claims.nonce)]

/-- `serde_json::to_value`, whose objects are ordered by name. -/
def toValue (claims : ExecutionAuthorizationClaims) : Json String :=
  .object (claims.members.mergeSort fun a b => a.1 ≤ b.1)

end ExecutionAuthorizationClaims

end ForgetOps.AgentProtocol

/-! ## Signatures -/

namespace ForgetOps.Signer

open Domain

/-- What both sides use of Ed25519. -/
structure Ed25519 (PrivateKey : Type) where
  publicKey : PrivateKey → List UInt8
  sign : PrivateKey → List UInt8 → List UInt8
  /-- The bytes are a key to verify with. -/
  isVerifyingKey : List UInt8 → Bool
  verify : List UInt8 → List UInt8 → List UInt8 → Bool

/-- What a signature scheme promises about its own keys and signatures. -/
structure Ed25519.Correct {PrivateKey : Type} (ed : Ed25519 PrivateKey) : Prop where
  publicKey_length : ∀ key, (ed.publicKey key).length = 32
  isVerifyingKey : ∀ key, ed.isVerifyingKey (ed.publicKey key) = true
  sign_length : ∀ key material, (ed.sign key material).length = 64
  verify_sign : ∀ key material, ed.verify (ed.publicKey key) material (ed.sign key material) = true

/-- The canonical bytes of a JSON value. -/
abbrev Canonicalize := Json String → List UInt8

/-- The canonical bytes of an object do not depend on the order its members are written in. -/
def Canonicalize.Sorts (canonicalize : Canonicalize) : Prop :=
  ∀ members members' : Json.Members String, members.Perm members' →
    canonicalize (.object members) = canonicalize (.object members')

/-- The context, a zero byte and the canonical bytes. -/
def signingMaterial (context : String) (canonical : List UInt8) : List UInt8 :=
  context.toUTF8.data.toList ++ 0 :: canonical

/-- `"initial"` or `"retry"`. -/
def kindText : AttemptKind → String
  | .initial => "initial"
  | .retry => "retry"

/-- The claims as the schema returns them, in the order of its keys. -/
def ExecutionAuthorizationClaims.members (claims : ExecutionAuthorizationClaims) :
    Json.Members String :=
  [("type", .string claims.type), ("version", .number claims.version),
    ("keyId", .string claims.keyId), ("issuer", .string claims.issuer),
    ("audience", .string claims.audience), ("environmentId", .string claims.environmentId),
    ("agentId", .string claims.agentId), ("requestId", .string claims.requestId),
    ("attemptId", .string claims.attemptId),
    ("authorizationKind", .string (kindText claims.authorizationKind)),
    ("planId", .string claims.planId), ("planVersion", .number claims.planVersion),
    ("planFingerprint", .string claims.planFingerprint),
    ("policyVersion", .number claims.policyVersion),
    ("connectorConfigurationFingerprint", .string claims.connectorConfigurationFingerprint),
    ("allowedStepIds", .array (claims.allowedStepIds.map .string)),
    ("approvalEvidenceHash", .string claims.approvalEvidenceHash),
    ("issuedAt", .string claims.issuedAt), ("notBefore", .string claims.notBefore),
    ("expiresAt", .string claims.expiresAt), ("nonce", .string claims.nonce)]

/-- `AUTHORIZATION_SIGNING_CONTEXT`. -/
def authorizationSigningContext : String := "forgetops.execution-authorization.v1"

/-- `bytes.toString("base64url")`. -/
def base64url (bytes : List UInt8) : String := String.ofList (Base64Url.encode bytes)

def signDomainSeparatedJcs {PrivateKey : Type} (canonicalize : Canonicalize)
    (ed : Ed25519 PrivateKey) (context : String) (members : Json.Members String)
    (privateKey : PrivateKey) : String :=
  base64url (ed.sign privateKey (signingMaterial context (canonicalize (.object members))))

end ForgetOps.Signer

namespace ForgetOps.Agent

open Guards Signer

/-- `decode_url(value)`. -/
def decodeUrl (value : String) : Option (List UInt8) := do
  let decoded ← Base64Url.decode value.toList
  if Base64Url.encode decoded = value.toList then some decoded else none

def verifySignedValue {PrivateKey : Type} (canonicalize : Canonicalize) (ed : Ed25519 PrivateKey)
    (context : String) (value : Json String) (signature publicKey : String) :
    Except AuthorizationError Unit := do
  let publicKey ← okOr (decodeUrl publicKey) .invalidPublicKey
  refuse (publicKey.length ≠ 32) .invalidPublicKey
  refuse (ed.isVerifyingKey publicKey = false) .invalidPublicKey
  let signature ← okOr (decodeUrl signature) .invalidSignature
  refuse (signature.length ≠ 64) .invalidSignature
  let material := signingMaterial context (canonicalize value)
  refuse (ed.verify publicKey material signature = false) .signatureVerificationFailed

/-! ## Verification -/

structure AuthorizationContext where
  now : String
  requestId : String
  environmentId : String
  agentId : String
  requestVersion : Nat
  planVersion : Nat
  planFingerprint : String
  connectorConfigurationFingerprint : String
  policyVersion : Nat
  allowedStepIds : List String
  agentOnline : Bool
  executionPaused : Bool
  deriving DecidableEq, Repr

def verifyAuthorization {PrivateKey : Type} (canonicalize : Canonicalize)
    (ed : Ed25519 PrivateKey) (claims : AgentProtocol.ExecutionAuthorizationClaims)
    (signature publicKey : String) (context : AuthorizationContext) :
    Except AuthorizationError Unit := do
  verifySignedValue canonicalize ed authorizationSigningContext claims.toValue signature publicKey
  refuse (claims.type ≠ "forgetops.execution-authorization" ∨ claims.version ≠ 1 ∨
    claims.issuer ≠ "forgetops-control-plane" ∨ claims.audience ≠ "forgetops-agent" ∨
    claims.requestId ≠ context.requestId ∨ claims.environmentId ≠ context.environmentId ∨
    claims.agentId ≠ context.agentId) .invalidClaims
  refuse (claims.planVersion ≠ context.planVersion ∨
    claims.planFingerprint ≠ context.planFingerprint ∨
    claims.connectorConfigurationFingerprint ≠ context.connectorConfigurationFingerprint ∨
    claims.policyVersion ≠ context.policyVersion) .planVersionMismatch
  refuse (claims.allowedStepIds = [] ∨
    (∃ step ∈ claims.allowedStepIds, step ∉ context.allowedStepIds) ∨
    duplicateIds claims.allowedStepIds = true) .scopeViolation
  refuse (context.executionPaused = true) .executionPaused
  refuse (context.agentOnline = false) .agentUnavailable
  let now ← okOr (parseRfc3339 context.now.toList) .invalidClaims
  let notBefore ← okOr (parseRfc3339 claims.notBefore.toList) .invalidClaims
  let expiresAt ← okOr (parseRfc3339 claims.expiresAt.toList) .invalidClaims
  refuse (expiresAt ≤ notBefore) .invalidClaims
  refuse (now < notBefore) .claimsNotYetValid
  refuse (now ≥ expiresAt) .claimsExpired

/-- The claims fit what the agent knows. -/
structure FitsContext (claims : AgentProtocol.ExecutionAuthorizationClaims)
    (context : AuthorizationContext) : Prop where
  requestId : claims.requestId = context.requestId
  environmentId : claims.environmentId = context.environmentId
  agentId : claims.agentId = context.agentId
  planVersion : claims.planVersion = context.planVersion
  planFingerprint : claims.planFingerprint = context.planFingerprint
  connectorConfigurationFingerprint :
    claims.connectorConfigurationFingerprint = context.connectorConfigurationFingerprint
  policyVersion : claims.policyVersion = context.policyVersion
  steps : ∀ step ∈ claims.allowedStepIds, step ∈ context.allowedStepIds

/-- What the claims have to be by themselves. -/
structure WellFormed (claims : AgentProtocol.ExecutionAuthorizationClaims) : Prop where
  type : claims.type = "forgetops.execution-authorization"
  version : claims.version = 1
  issuer : claims.issuer = "forgetops-control-plane"
  audience : claims.audience = "forgetops-agent"
  nonempty : claims.allowedStepIds ≠ []
  distinct : claims.allowedStepIds.Nodup

/-- The agent's clock is in the interval of the claims. -/
def ReadWithin (claims : AgentProtocol.ExecutionAuthorizationClaims) (clock : String) : Prop :=
  ∃ now notBefore expiresAt, parseRfc3339 clock.toList = some now ∧
    parseRfc3339 claims.notBefore.toList = some notBefore ∧
    parseRfc3339 claims.expiresAt.toList = some expiresAt ∧ notBefore ≤ now ∧ now < expiresAt

theorem verifyAuthorization_ok {PrivateKey : Type} {canonicalize : Canonicalize}
    {ed : Ed25519 PrivateKey} {claims : AgentProtocol.ExecutionAuthorizationClaims}
    {signature publicKey : String} {context : AuthorizationContext} :
    verifyAuthorization canonicalize ed claims signature publicKey context = .ok () ↔
      verifySignedValue canonicalize ed authorizationSigningContext claims.toValue signature publicKey =
          .ok () ∧
        WellFormed claims ∧ FitsContext claims context ∧ context.executionPaused = false ∧
        context.agentOnline = true ∧ ReadWithin claims context.now := by
  unfold verifyAuthorization duplicateIds ReadWithin
  simp only [bind_ok, okOr_ok, refuse_ok, not_or, not_le, not_lt, not_not, ge_iff_le, not_exists,
    not_and, decide_eq_true_eq, Bool.not_eq_true, Bool.not_eq_false]
  constructor
  · rintro ⟨⟨⟩, hsigned, ⟨⟩, ⟨htype, hversion, hissuer, haudience, hrequest, henvironment, hagent⟩,
      ⟨⟩, ⟨hplan, hfingerprint, hconnector, hpolicy⟩, ⟨⟩, ⟨hne, hsteps, hdistinct⟩, ⟨⟩, hpaused, ⟨⟩,
      honline, now, hnow, notBefore, hnotBefore, expiresAt, hexpiresAt, ⟨⟩, -, ⟨⟩, hle, hlt⟩
    exact ⟨hsigned, ⟨htype, hversion, hissuer, haudience, hne, hdistinct⟩,
      ⟨hrequest, henvironment, hagent, hplan, hfingerprint, hconnector, hpolicy, hsteps⟩, hpaused,
      honline, now, notBefore, expiresAt, hnow, hnotBefore, hexpiresAt, hle, hlt⟩
  · rintro ⟨hsigned, hw, hf, hpaused, honline, now, notBefore, expiresAt, hnow, hnotBefore,
      hexpiresAt, hle, hlt⟩
    exact ⟨(), hsigned, (), ⟨hw.type, hw.version, hw.issuer, hw.audience, hf.requestId,
      hf.environmentId, hf.agentId⟩, (), ⟨hf.planVersion, hf.planFingerprint,
      hf.connectorConfigurationFingerprint, hf.policyVersion⟩, (), ⟨hw.nonempty, hf.steps,
      hw.distinct⟩, (), hpaused, (), honline, now, hnow, notBefore, hnotBefore, expiresAt,
      hexpiresAt, (), lt_of_le_of_lt hle hlt, (), hle, hlt⟩

end ForgetOps.Agent
