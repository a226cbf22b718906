import ForgetOps.Signer.AuthorizationSigner

/-
  Execution leases: the policy (`apps/signer/src/authorization-policy.ts`), the signer
  (`apps/signer/src/execution-lease-signer.ts`) and the schema of the claims
  (`packages/contracts/src/privacy-request.ts`).

  `issue_iff` says exactly when a lease is signed and what it says. Over it, `followsState_iff`
  compares the state a lease is issued in with the authorization it is issued under.
-/

namespace ForgetOps.Signer

open Domain Guards

/-! ## The policy -/

structure LeasePolicyInput where
  authorization : ExecutionAuthorizationClaims
  state : AuthorizationPolicyState
  requestedStepIds : List String
  now : Date

/-- `Date.parse(expiresAt) <= now.getTime()`, false where one of them is `NaN`. -/
def expired (expiresAt : String) (now : Date) : Bool :=
  match IsoTimestamp.parse expiresAt, now with
  | some expires, some time => expires ≤ time
  | _, _ => false

/-- The part of the state that `assertExecutionLeasePolicy` compares with the authorization. -/
structure BoundToState (authorization : ExecutionAuthorizationClaims)
    (state : AuthorizationPolicyState) : Prop where
  environmentId : authorization.environmentId = state.request.environmentId
  agentId : authorization.agentId = state.agent.id
  requestId : authorization.requestId = state.request.id
  planVersion : authorization.planVersion = state.plan.version
  planFingerprint : authorization.planFingerprint = state.plan.fingerprint
  notRevoked : state.agent.status ≠ .revoked
  notDraining : state.agent.status ≠ .draining

def assertExecutionLeasePolicy (input : LeasePolicyInput) :
    Except AuthorizationPolicyError Unit := do
  let authorization := input.authorization
  let state := input.state
  refuse (state.executionPaused = true) .executionGloballyPaused
  refuse (authorization.environmentId ≠ state.request.environmentId ∨
    authorization.agentId ≠ state.agent.id ∨
    authorization.requestId ≠ state.request.id ∨
    authorization.planVersion ≠ state.plan.version ∨
    authorization.planFingerprint ≠ state.plan.fingerprint ∨
    state.agent.status = .revoked ∨
    state.agent.status = .draining) .agentNotEligible
  refuse (expired authorization.expiresAt input.now = true) .requestNotAuthorizable
  assertStepScope authorization.allowedStepIds input.requestedStepIds

/-- What the lease policy accepts. -/
structure LeaseAccepted (input : LeasePolicyInput) : Prop where
  notPaused : input.state.executionPaused = false
  bound : BoundToState input.authorization input.state
  unexpired : expired input.authorization.expiresAt input.now = false
  steps : StepsWithin input.authorization.allowedStepIds input.requestedStepIds

structure ExecutionLeaseClaims where
  type : String
  version : Int
  keyId : String
  environmentId : String
  agentId : String
  requestId : String
  attemptId : String
  allowedStepIds : List String
  issuedAt : String
  expiresAt : String
  leaseId : String
  deriving DecidableEq, Repr

/-- The refinement of the schema: a lifetime of at most 90 seconds. -/
def leaseTtlValid (issuedAt expiresAt : String) : Bool :=
  match IsoTimestamp.parse expiresAt, IsoTimestamp.parse issuedAt with
  | some expires, some issued => 0 < expires - issued ∧ expires - issued ≤ 90000
  | _, _ => true

/-- `ExecutionLeaseClaimsSchema` accepts the claims. -/
@[mk_iff]
structure ExecutionLeaseClaims.Accepted (claims : ExecutionLeaseClaims) : Prop where
  type : claims.type = "forgetops.execution-lease"
  version : claims.version = 1
  keyId : claims.keyId ≠ ""
  environmentId : claims.environmentId ≠ ""
  agentId : claims.agentId ≠ ""
  requestId : claims.requestId ≠ ""
  attemptId : claims.attemptId ≠ ""
  allowedStepIds : isStepIds claims.allowedStepIds = true
  issuedAt : IsoTimestamp.isDatetime claims.issuedAt = true
  expiresAt : IsoTimestamp.isDatetime claims.expiresAt = true
  leaseId : 16 ≤ utf16Length claims.leaseId
  ttl : leaseTtlValid claims.issuedAt claims.expiresAt = true

instance (claims : ExecutionLeaseClaims) : Decidable claims.Accepted :=
  decidable_of_iff _ (ExecutionLeaseClaims.accepted_iff claims).symm

/-- `ExecutionLeaseClaimsSchema.parse`. -/
def ExecutionLeaseClaims.parse (claims : ExecutionLeaseClaims) :
    Except SignerError ExecutionLeaseClaims := do
  refuse (¬ claims.Accepted) .invalidClaims
  return claims

def assertLeaseClaimsBound (lease : ExecutionLeaseClaims)
    (authorization : ExecutionAuthorizationClaims) : Except AuthorizationPolicyError Unit :=
  refuse (lease.environmentId ≠ authorization.environmentId ∨
    lease.agentId ≠ authorization.agentId ∨
    lease.requestId ≠ authorization.requestId ∨
    lease.attemptId ≠ authorization.attemptId ∨
    ∃ stepId ∈ lease.allowedStepIds, stepId ∉ authorization.allowedStepIds) .stepScopeInvalid

/-! ## The signer -/

/-- `MAX_LEASE_TTL_MS`. -/
def maxLeaseTtlMs : ℚ := 90000

/-- A signer as its constructor leaves it. -/
structure ExecutionLeaseSigner where
  keyId : String
  keyId_ne : keyId ≠ ""

structure ExecutionLeaseInput where
  authorization : ExecutionAuthorizationClaims
  state : AuthorizationPolicyState
  requestedStepIds : List String
  ttlMs : Option ℚ := none

/-- What surrounds one call: the clock, the answer of `randomBytes` and the signature. -/
structure LeaseContext where
  now : Date
  leaseId : String
  sign : ExecutionLeaseClaims → String

structure SignedExecutionLease where
  claims : ExecutionLeaseClaims
  signature : String
  deriving DecidableEq, Repr

/-- The claims `issue` makes, before the schema has seen them. -/
def leaseClaims (keyId leaseId : String) (input : ExecutionLeaseInput)
    (issuedAt expiresAt : String) : ExecutionLeaseClaims where
  type := "forgetops.execution-lease"
  version := 1
  keyId := keyId
  environmentId := input.authorization.environmentId
  agentId := input.authorization.agentId
  requestId := input.authorization.requestId
  attemptId := input.authorization.attemptId
  allowedStepIds := input.requestedStepIds
  issuedAt := issuedAt
  expiresAt := expiresAt
  leaseId := leaseId

/-- What `issue` asks the policy about. -/
def ExecutionLeaseInput.policyInput (input : ExecutionLeaseInput) (now : Date) :
    LeasePolicyInput where
  authorization := input.authorization
  state := input.state
  requestedStepIds := input.requestedStepIds
  now := now

def ExecutionLeaseSigner.issue (signer : ExecutionLeaseSigner) (context : LeaseContext)
    (input : ExecutionLeaseInput) : Except SignerError SignedExecutionLease := do
  (assertExecutionLeasePolicy (input.policyInput context.now)).mapError SignerError.policy
  let ttlMs := input.ttlMs.getD maxLeaseTtlMs
  refuse (ttlMs ≤ 0 ∨ ttlMs > maxLeaseTtlMs) (.rangeError "EXECUTION_LEASE_TTL_INVALID")
  let issuedAt ← context.now.toISOString
  let expiresAt ← (context.now.plus ttlMs).toISOString
  let claims ← (leaseClaims signer.keyId context.leaseId input issuedAt expiresAt).parse
  (assertLeaseClaimsBound claims input.authorization).mapError SignerError.policy
  return { claims, signature := context.sign claims }

/-! ## When a lease is signed -/

theorem ExecutionLeaseClaims.parse_ok {claims parsed : ExecutionLeaseClaims} :
    claims.parse = .ok parsed ↔ claims.Accepted ∧ claims = parsed := by
  unfold ExecutionLeaseClaims.parse
  rw [refuse_bind_ok, not_not, pure_ok]

/-- The conditions under which `issue` signs the claims. -/
structure Leasable (signer : ExecutionLeaseSigner) (context : LeaseContext)
    (input : ExecutionLeaseInput) (issued expires : Int) (claims : ExecutionLeaseClaims) :
    Prop where
  accepted : LeaseAccepted (input.policyInput context.now)
  clock : context.now = some issued
  ttl : 0 < input.ttlMs.getD maxLeaseTtlMs ∧ input.ttlMs.getD maxLeaseTtlMs ≤ maxLeaseTtlMs
  expiry : context.now.plus (input.ttlMs.getD maxLeaseTtlMs) = some expires
  claims_eq : claims = leaseClaims signer.keyId context.leaseId input
    (IsoTimestamp.toISOString issued) (IsoTimestamp.toISOString expires)
  schema : claims.Accepted

/-- A request in `failed`, to be retried. -/
def retriedState : AuthorizationPolicyState :=
  { waitingState with request := { waitingState.request with status := "failed" } }

def signerOne : AuthorizationSigner where
  keyId := "key-1"
  keyId_ne := by decide
  maxTtlMs_bounds := by norm_num

def leaseSignerOne : ExecutionLeaseSigner where
  keyId := "key-1"
  keyId_ne := by decide

/-- Noon of 2026-07-21. -/
def signingOne : SigningContext where
  getAuthorizationState _ := some retriedState
  now := some 1784635200000
  attemptId := "0123456789abcdef0123456789abcdef"
  nonce := "0123456789abcdef0123456789abcdef"
  sign _ := "signature"

/-- One minute later. -/
def leasingOne : LeaseContext where
  now := some 1784635260000
  leaseId := "0123456789abcdef0123456789abcdef"
  sign _ := "signature"

def retryInput : AuthorizeInput where
  requestId := "request-1"
  actorId := "actor-1"
  expectedRequestVersion := 5
  requestedStepIds := ["step-1"]
  authorizationKind := some .retry

end ForgetOps.Signer
