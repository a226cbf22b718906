import ForgetOps.Signer.AuthorizationPolicy
import ForgetOps.Library.IsoTimestamp

/-
  The authorization signer (`apps/signer/src/authorization-signer.ts`) and the schema of the claims
  it signs (`packages/contracts/src/privacy-request.ts`).

  A `Date` is its time in milliseconds, and nothing where the source has an invalid date; `ttlMs`
  is a rational, added without rounding. What `randomBytes` answers, the clock, the state store and
  the signature are arguments. `authorize_ok` says what a signed authorization was signed for.
-/

namespace ForgetOps.Signer

open Domain Guards

/-- The errors of the signers: of the policy, and those their own code throws. -/
inductive SignerError where
  | policy (code : AuthorizationPolicyError)
  | requestNotFound
  | rangeError (message : String)
  /-- A `ZodError`. -/
  | invalidClaims
  deriving DecidableEq, Repr

/-! ## Dates -/

abbrev Date := Option Int

/-- `new Date(time)`: cut off to whole milliseconds, invalid outside 100,000,000 days of 1970. -/
def Date.ofTime (time : ℚ) : Date :=
  if |time| ≤ 8640000000000000 then some (if 0 ≤ time then ⌊time⌋ else ⌈time⌉) else none

/-- `new Date(now.getTime() + ttlMs)`. -/
def Date.plus (now : Date) (ttlMs : ℚ) : Date := now.bind fun time => Date.ofTime (time + ttlMs)

/-- `date.toISOString()`, which throws on an invalid date. -/
def Date.toISOString : Date → Except SignerError String
  | some time => pure (IsoTimestamp.toISOString time)
  | none => throw (.rangeError "Invalid time value")

/-! ## Claims -/

structure ExecutionAuthorizationClaims where
  type : String
  version : Int
  keyId : String
  issuer : String
  audience : String
  environmentId : String
  agentId : String
  requestId : String
  attemptId : String
  authorizationKind : AttemptKind
  planId : String
  planVersion : Int
  planFingerprint : String
  policyVersion : Int
  connectorConfigurationFingerprint : String
  allowedStepIds : List String
  approvalEvidenceHash : String
  issuedAt : String
  notBefore : String
  expiresAt : String
  nonce : String
  deriving DecidableEq, Repr

/-- `z.string().regex(/^sha256:/)`. -/
def isFingerprint (s : String) : Bool := "sha256:".toList.isPrefixOf s.toList

/-- `z.number().int().positive()`. -/
def isPositiveInt (n : Int) : Bool := 0 < n ∧ n ≤ 9007199254740991

/-- `z.array(z.string().min(1)).min(1)`. -/
def isStepIds (stepIds : List String) : Bool := stepIds ≠ [] ∧ stepIds.all (· ≠ "")

/-- The `length` of a string: the units of its UTF-16 encoding. -/
def utf16Length (s : String) : Nat :=
  (s.toList.map fun c => if c.toNat < 65536 then 1 else 2).sum

/-- `ExecutionAuthorizationClaimsSchema` accepts the claims. -/
@[mk_iff]
structure ExecutionAuthorizationClaims.Accepted (claims : ExecutionAuthorizationClaims) :
    Prop where
  type : claims.type = "forgetops.execution-authorization"
  version : claims.version = 1
  keyId : claims.keyId ≠ ""
  issuer : claims.issuer = "forgetops-control-plane"
  audience : claims.audience = "forgetops-agent"
  environmentId : claims.environmentId ≠ ""
  agentId : claims.agentId ≠ ""
  requestId : claims.requestId ≠ ""
  attemptId : claims.attemptId ≠ ""
  planId : claims.planId ≠ ""
  planVersion : isPositiveInt claims.planVersion = true
  planFingerprint : isFingerprint claims.planFingerprint = true
  policyVersion : isPositiveInt claims.policyVersion = true
  connectorConfigurationFingerprint :
    isFingerprint claims.connectorConfigurationFingerprint = true
  allowedStepIds : isStepIds claims.allowedStepIds = true
  approvalEvidenceHash : isFingerprint claims.approvalEvidenceHash = true
  issuedAt : IsoTimestamp.isDatetime claims.issuedAt = true
  notBefore : IsoTimestamp.isDatetime claims.notBefore = true
  expiresAt : IsoTimestamp.isDatetime claims.expiresAt = true
  nonce : 16 ≤ utf16Length claims.nonce

instance (claims : ExecutionAuthorizationClaims) : Decidable claims.Accepted :=
  decidable_of_iff _ (ExecutionAuthorizationClaims.accepted_iff claims).symm

/-- `ExecutionAuthorizationClaimsSchema.parse`. -/
def ExecutionAuthorizationClaims.parse (claims : ExecutionAuthorizationClaims) :
    Except SignerError ExecutionAuthorizationClaims := do
  refuse (¬ claims.Accepted) .invalidClaims
  return claims

/-! ## The signer -/

/-- A signer as its constructor leaves it. -/
structure AuthorizationSigner where
  keyId : String
  maxTtlMs : ℚ := 30 * 60 * 1000
  keyId_ne : keyId ≠ ""
  maxTtlMs_bounds : 0 < maxTtlMs ∧ maxTtlMs ≤ 30 * 60 * 1000

structure AuthorizeInput where
  requestId : String
  actorId : String
  expectedRequestVersion : Int
  requestedStepIds : List String
  authorizationKind : Option AttemptKind := none
  ttlMs : Option ℚ := none

structure SignedAuthorization where
  claims : ExecutionAuthorizationClaims
  signature : String
  deriving DecidableEq, Repr

/-- The claims `authorize` makes for a policy input, before the schema has seen them. -/
def authorizationClaims (keyId : String) (input : AuthorizationPolicyInput)
    (attemptId nonce issuedAt expiresAt : String) : ExecutionAuthorizationClaims where
  type := "forgetops.execution-authorization"
  version := 1
  keyId := keyId
  issuer := "forgetops-control-plane"
  audience := "forgetops-agent"
  environmentId := input.state.request.environmentId
  agentId := input.state.agent.id
  requestId := input.state.request.id
  attemptId := attemptId
  authorizationKind := input.authorizationKind
  planId := input.state.plan.id
  planVersion := input.state.plan.version
  planFingerprint := input.state.plan.fingerprint
  policyVersion := input.state.request.policyVersion
  connectorConfigurationFingerprint := input.state.plan.connectorConfigurationFingerprint
  allowedStepIds := input.requestedStepIds
  approvalEvidenceHash :=
    (input.state.approval.map (·.evidenceHash)).getD "sha256:unapproved"
  issuedAt := issuedAt
  notBefore := issuedAt
  expiresAt := expiresAt
  nonce := nonce

/-- What `authorize` asks the policy about. -/
def AuthorizeInput.policyInput (input : AuthorizeInput) (state : AuthorizationPolicyState) :
    AuthorizationPolicyInput where
  state := state
  actorId := input.actorId
  expectedRequestVersion := input.expectedRequestVersion
  requestedStepIds := input.requestedStepIds
  authorizationKind := input.authorizationKind.getD .initial

/-- What surrounds one call of the signer: the state store, the clock, the two answers of
    `randomBytes` and the signature of claims under the private key. -/
structure SigningContext where
  getAuthorizationState : String → Option AuthorizationPolicyState
  now : Date
  attemptId : String
  nonce : String
  sign : ExecutionAuthorizationClaims → String

def AuthorizationSigner.authorize (signer : AuthorizationSigner) (context : SigningContext)
    (input : AuthorizeInput) : Except SignerError SignedAuthorization := do
  match context.getAuthorizationState input.requestId with
  | none => throw .requestNotFound
  | some state =>
    let policyInput := input.policyInput state
    (assertAuthorizationPolicy policyInput).mapError SignerError.policy
    let ttlMs := input.ttlMs.getD signer.maxTtlMs
    refuse (ttlMs ≤ 0 ∨ ttlMs > signer.maxTtlMs) (.rangeError "AUTHORIZATION_TTL_INVALID")
    let issuedAt ← context.now.toISOString
    let expiresAt ← (context.now.plus ttlMs).toISOString
    let claims ← (authorizationClaims signer.keyId policyInput context.attemptId context.nonce
      issuedAt expiresAt).parse
    return { claims, signature := context.sign claims }

/-! ## What is signed -/

section Signed

theorem Date.toISOString_ok {date : Date} {s : String} :
    date.toISOString = .ok s ↔ ∃ time, date = some time ∧ IsoTimestamp.toISOString time = s := by
  cases date with
  | none => simp [Date.toISOString]
  | some time => simp [Date.toISOString]

theorem ExecutionAuthorizationClaims.parse_ok {claims parsed : ExecutionAuthorizationClaims} :
    claims.parse = .ok parsed ↔ claims.Accepted ∧ claims = parsed := by
  unfold ExecutionAuthorizationClaims.parse
  rw [refuse_bind_ok, not_not, pure_ok]

/-- What a signed authorization was signed for: an input the policy accepts, at a time from which
    the lifetime stays under the limit. -/
structure SignedFor (signer : AuthorizationSigner) (context : SigningContext)
    (input : AuthorizeInput) (state : AuthorizationPolicyState) (issued expires : Int)
    (claims : ExecutionAuthorizationClaims) : Prop where
  stored : context.getAuthorizationState input.requestId = some state
  accepted : assertAuthorizationPolicy (input.policyInput state) = .ok ()
  clock : context.now = some issued
  expiry : context.now.plus (input.ttlMs.getD signer.maxTtlMs) = some expires
  ttl : 0 < input.ttlMs.getD signer.maxTtlMs ∧ input.ttlMs.getD signer.maxTtlMs ≤ signer.maxTtlMs
  claims_eq : claims = authorizationClaims signer.keyId (input.policyInput state)
    context.attemptId context.nonce (IsoTimestamp.toISOString issued)
    (IsoTimestamp.toISOString expires)
  schema : claims.Accepted

theorem authorize_ok {signer : AuthorizationSigner} {context : SigningContext}
    {input : AuthorizeInput} {signed : SignedAuthorization}
    (h : signer.authorize context input = .ok signed) :
    ∃ state issued expires, SignedFor signer context input state issued expires signed.claims ∧
      signed.signature = context.sign signed.claims := by
  unfold AuthorizationSigner.authorize at h
  cases hstored : context.getAuthorizationState input.requestId with
  | none =>
    rw [hstored] at h
    cases h
  | some state =>
    rw [hstored] at h
    dsimp only at h
    obtain ⟨u, hpolicy, h⟩ := bind_ok.mp h
    rw [mapError_ok] at hpolicy
    obtain ⟨httl, h⟩ := refuse_bind_ok.mp h
    rw [not_or, not_le, not_lt] at httl
    obtain ⟨issuedAt, hissued, h⟩ := bind_ok.mp h
    obtain ⟨issued, hnow, rfl⟩ := Date.toISOString_ok.mp hissued
    obtain ⟨expiresAt, hexpires, h⟩ := bind_ok.mp h
    obtain ⟨expires, hplus, rfl⟩ := Date.toISOString_ok.mp hexpires
    obtain ⟨claims, hparse, h⟩ := bind_ok.mp h
    obtain ⟨haccepted, hclaims⟩ := ExecutionAuthorizationClaims.parse_ok.mp hparse
    cases h
    subst hclaims
    exact ⟨state, issued, expires, ⟨hstored, hpolicy, hnow, hplus, httl, rfl, haccepted⟩, rfl⟩

end Signed

end ForgetOps.Signer
