import ForgetOps.Agent.AuthorizationVerification

/-
  What the signer authorizes, the agent accepts.

  `received_eq` follows the claims over the wire: the agent deserializes every field of a signed
  authorization, and the bytes it verifies are the bytes that were signed. `verified_iff` is what
  is left of its checks then.
-/

namespace ForgetOps.Agent

open Guards Signer IsoTimestamp

/-- The claims as the agent receives them. -/
def received (claims : ExecutionAuthorizationClaims) :
    AgentProtocol.ExecutionAuthorizationClaims where
  type := claims.type
  version := claims.version.toNat
  keyId := claims.keyId
  issuer := claims.issuer
  audience := claims.audience
  environmentId := claims.environmentId
  agentId := claims.agentId
  requestId := claims.requestId
  attemptId := claims.attemptId
  authorizationKind := kindText claims.authorizationKind
  planId := claims.planId
  planVersion := claims.planVersion.toNat
  planFingerprint := claims.planFingerprint
  policyVersion := claims.policyVersion.toNat
  connectorConfigurationFingerprint := claims.connectorConfigurationFingerprint
  allowedStepIds := claims.allowedStepIds
  approvalEvidenceHash := claims.approvalEvidenceHash
  issuedAt := claims.issuedAt
  notBefore := claims.notBefore
  expiresAt := claims.expiresAt
  nonce := claims.nonce

section Wire

variable {claims : ExecutionAuthorizationClaims}

/-- The versions fit the types they have at the agent. -/
structure Fits (claims : ExecutionAuthorizationClaims) : Prop where
  version : 0 ≤ claims.version ∧ claims.version < 2 ^ 8
  planVersion : 0 ≤ claims.planVersion ∧ claims.planVersion < 2 ^ 32
  policyVersion : 0 ≤ claims.policyVersion ∧ claims.policyVersion < 2 ^ 32

theorem asUnsigned_number {σ : Type} {width : Nat} {n : Int} (h : 0 ≤ n ∧ n < 2 ^ width) :
    Json.asUnsigned width (.number n : Json σ) = some n.toNat := by
  unfold Json.asUnsigned
  exact if_pos h

theorem asStrings (items : List String) :
    Json.asArray Json.asString (.array (items.map .string) : Json String) = some items := by
  have h : Json.asArray Json.asString (.array (items.map .string) : Json String) =
      some (items.map id) := Json.asArray_map fun _ _ => rfl
  rwa [List.map_id] at h

theorem received_eq (h : Fits claims) :
    AgentProtocol.ExecutionAuthorizationClaims.ofMembers claims.members =
      some (received claims) := by
  unfold AgentProtocol.ExecutionAuthorizationClaims.ofMembers ExecutionAuthorizationClaims.members
    Json.required
  simp only [Json.named_cons, Json.named_nil, String.reduceEq, if_true, if_false, Json.asString,
    asUnsigned_number h.version, asUnsigned_number h.planVersion,
    asUnsigned_number h.policyVersion, asStrings, Option.bind_eq_bind, Option.bind_some]
  rfl

theorem members_received (h : Fits claims) : (received claims).members = claims.members := by
  unfold AgentProtocol.ExecutionAuthorizationClaims.members ExecutionAuthorizationClaims.members
    received
  simp only [Int.toNat_of_nonneg h.version.1, Int.toNat_of_nonneg h.planVersion.1,
    Int.toNat_of_nonneg h.policyVersion.1]

theorem decodeUrl_base64url (bytes : List UInt8) : decodeUrl (base64url bytes) = some bytes := by
  unfold decodeUrl base64url
  rw [String.toList_ofList, Base64Url.decode_encode, Option.bind_eq_bind, Option.bind_some]
  exact if_pos rfl

/-- The agent verifies the very bytes that were signed. -/
theorem verifySignedValue_received {PrivateKey : Type} {canonicalize : Canonicalize}
    {ed : Ed25519 PrivateKey} (hsorts : canonicalize.Sorts) (hed : ed.Correct) (key : PrivateKey)
    (h : Fits claims) :
    verifySignedValue canonicalize ed authorizationSigningContext (received claims).toValue
      (signDomainSeparatedJcs canonicalize ed authorizationSigningContext claims.members key)
      (base64url (ed.publicKey key)) = .ok () := by
  have hbytes : canonicalize (received claims).toValue = canonicalize (.object claims.members) := by
    rw [← members_received h]
    exact hsorts _ _ (List.mergeSort_perm _ _)
  unfold verifySignedValue signDomainSeparatedJcs
  rw [hbytes, decodeUrl_base64url, decodeUrl_base64url]
  simp [okOr, bind, Except.bind, refuse, pure, Except.pure, hed.publicKey_length,
    hed.isVerifyingKey, hed.sign_length, hed.verify_sign]

end Wire

/-- The agent knows the state an authorization was signed in, and its steps. -/
structure KnowsState (state : AuthorizationPolicyState) (stepIds : List String)
    (agent : AuthorizationContext) : Prop where
  requestId : agent.requestId = state.request.id
  environmentId : agent.environmentId = state.request.environmentId
  agentId : agent.agentId = state.agent.id
  planVersion : (agent.planVersion : Int) = state.plan.version
  planFingerprint : agent.planFingerprint = state.plan.fingerprint
  connectorConfigurationFingerprint :
    agent.connectorConfigurationFingerprint = state.plan.connectorConfigurationFingerprint
  policyVersion : (agent.policyVersion : Int) = state.request.policyVersion
  steps : ∀ stepId ∈ stepIds, stepId ∈ agent.allowedStepIds

section Signed

variable {signer : AuthorizationSigner} {context : SigningContext} {input : AuthorizeInput}
  {state : AuthorizationPolicyState} {issued expires : Int} {claims : ExecutionAuthorizationClaims}

theorem fits_of_signedFor (h : SignedFor signer context input state issued expires claims)
    (hplan : state.plan.version < 2 ^ 32) (hpolicy : state.request.policyVersion < 2 ^ 32) :
    Fits claims := by
  have hversion := h.schema.version
  have hplanVersion := h.schema.planVersion
  have hpolicyVersion := h.schema.policyVersion
  unfold isPositiveInt at hplanVersion hpolicyVersion
  rw [decide_eq_true_eq] at hplanVersion hpolicyVersion
  have hcopied : claims.planVersion = state.plan.version ∧
      claims.policyVersion = state.request.policyVersion := by
    rw [h.claims_eq]
    exact ⟨rfl, rfl⟩
  exact ⟨by omega, by omega, by omega⟩

theorem wellFormed_of_signedFor (h : SignedFor signer context input state issued expires claims) :
    WellFormed (received claims) := by
  have hsteps := (assertAuthorizationPolicy_ok.mp h.accepted).1.steps
  have hschema := h.schema
  have hcopied : claims.allowedStepIds = input.requestedStepIds := by
    rw [h.claims_eq]
    rfl
  have hversion : claims.version.toNat = 1 := by rw [hschema.version]; rfl
  refine ⟨hschema.type, hversion, hschema.issuer, hschema.audience, ?_, ?_⟩
  · show claims.allowedStepIds ≠ []
    rw [hcopied]
    exact hsteps.nonempty
  · show claims.allowedStepIds.Nodup
    rw [hcopied]
    exact nodup_of_allDistinct hsteps.distinct

theorem fitsContext_iff (h : SignedFor signer context input state issued expires claims)
    (hfits : Fits claims) {agent : AuthorizationContext} :
    FitsContext (received claims) agent ↔ KnowsState state input.requestedStepIds agent := by
  have hplan := hfits.planVersion.1
  have hpolicy := hfits.policyVersion.1
  have hcopied := h.claims_eq
  subst hcopied
  have hplan' : 0 ≤ state.plan.version := hplan
  have hpolicy' : 0 ≤ state.request.policyVersion := hpolicy
  constructor
  · intro hf
    have hplanVersion : state.plan.version.toNat = agent.planVersion := hf.planVersion
    have hpolicyVersion : state.request.policyVersion.toNat = agent.policyVersion :=
      hf.policyVersion
    exact ⟨hf.requestId.symm, hf.environmentId.symm, hf.agentId.symm, by omega,
      hf.planFingerprint.symm, hf.connectorConfigurationFingerprint.symm, by omega, hf.steps⟩
  · intro hk
    have hplanVersion := hk.planVersion
    have hpolicyVersion := hk.policyVersion
    refine ⟨hk.requestId.symm, hk.environmentId.symm, hk.agentId.symm, ?_,
      hk.planFingerprint.symm, hk.connectorConfigurationFingerprint.symm, ?_, hk.steps⟩
    · show state.plan.version.toNat = agent.planVersion
      omega
    · show state.request.policyVersion.toNat = agent.policyVersion
      omega

/-- A lifetime above zero does not end before it begins. -/
theorem issued_le_expires (h : SignedFor signer context input state issued expires claims)
    (hissued : 0 ≤ issued) : issued ≤ expires := by
  have httl := h.ttl.1
  have hexpiry := h.expiry
  rw [h.clock] at hexpiry
  unfold Date.plus Date.ofTime at hexpiry
  rw [Option.bind_some] at hexpiry
  have hcast : (0 : ℚ) ≤ issued := by exact_mod_cast hissued
  split_ifs at hexpiry with hrange hsign
  · rw [← Option.some.inj hexpiry, Int.le_floor]
    linarith
  · exact absurd (by linarith) hsign

/-- The agent reads its clock and the two ends of the interval as the instants they name. -/
theorem readWithin_iff (h : SignedFor signer context input state issued expires claims)
    (hissued : 0 ≤ issued) {clock : String} (hclock : isCanonicalUtc clock = true) {q : ℚ}
    (hq : instant clock = some q) :
    ReadWithin (received claims) clock ↔ q ∈ interval claims.notBefore claims.expiresAt := by
  have hle := issued_le_expires h hissued
  have hnotBefore : claims.notBefore = toISOString issued := by rw [h.claims_eq]; rfl
  have hexpiresAt : claims.expiresAt = toISOString expires := by rw [h.claims_eq]; rfl
  have hfirst := h.schema.notBefore
  have hlast := h.schema.expiresAt
  rw [hnotBefore] at hfirst
  rw [hexpiresAt] at hlast
  have hreadFirst := agent_of_printed hfirst
  have hreadLast := agent_of_printed hlast
  unfold readBack marchOfYearZero at hreadFirst hreadLast
  rw [if_neg (by omega)] at hreadFirst hreadLast
  obtain ⟨p, c, hp, hc, hreading⟩ := parseRfc3339_canonical hclock
  rw [hq, Option.some.injEq] at hp
  subst hp
  have hcast : (0 : ℚ) ≤ issued := by exact_mod_cast hissued
  have hcast' : (issued : ℚ) ≤ expires := by exact_mod_cast hle
  have hbounds : (1000000 * issued ≤ c ↔ (issued : ℚ) ≤ q) ∧
      ((issued : ℚ) ≤ q → (c < 1000000 * expires ↔ q < expires)) := by
    unfold reading marchOfYearZero at hreading
    have hfirst' : 1000000 * issued ≤ c ↔ (1000000 * issued : ℚ) ≤ c := by
      constructor <;> intro hlt <;> exact_mod_cast hlt
    have hlast' : c < 1000000 * expires ↔ (c : ℚ) < 1000000 * expires := by
      constructor <;> intro hlt <;> exact_mod_cast hlt
    rw [hfirst', hlast', hreading]
    push_cast
    split_ifs with hearly
    · exact ⟨⟨fun _ => by linarith, fun _ => by linarith⟩, fun _ => by linarith⟩
    · exact ⟨⟨fun _ => by linarith, fun _ => by linarith⟩,
        fun _ => ⟨fun _ => by linarith, fun _ => by linarith⟩⟩
  have hwithin : ReadWithin (received claims) clock ↔
      1000000 * issued ≤ c ∧ c < 1000000 * expires := by
    show (∃ now notBefore expiresAt, parseRfc3339 clock.toList = some now ∧
      parseRfc3339 claims.notBefore.toList = some notBefore ∧
      parseRfc3339 claims.expiresAt.toList = some expiresAt ∧ notBefore ≤ now ∧ now < expiresAt) ↔ _
    rw [hc, hnotBefore, hexpiresAt, hreadFirst, hreadLast]
    simp
  have hinterval : q ∈ interval claims.notBefore claims.expiresAt ↔
      (issued : ℚ) ≤ q ∧ q < expires := by
    unfold interval
    rw [hnotBefore, hexpiresAt, instant_of_printed hfirst, instant_of_printed hlast]
    simp
  rw [hwithin, hinterval, hbounds.1]
  exact and_congr_right hbounds.2

end Signed

/-- The agent deserializes the signed claims and accepts them, under a context that knows the
    state they were signed in, exactly while its clock is in their interval; and under no other
    context. -/
def AgentAgrees {PrivateKey : Type} (canonicalize : Canonicalize) (ed : Ed25519 PrivateKey)
    (key : PrivateKey) (state : AuthorizationPolicyState) (stepIds : List String)
    (signed : SignedAuthorization) : Prop :=
  ∃ claims, AgentProtocol.ExecutionAuthorizationClaims.ofMembers signed.claims.members =
      some claims ∧
    ∀ agent : AuthorizationContext,
      (KnowsState state stepIds agent → agent.agentOnline = true → agent.executionPaused = false →
        isCanonicalUtc agent.now = true → ∀ q, instant agent.now = some q →
        (verifyAuthorization canonicalize ed claims signed.signature
            (base64url (ed.publicKey key)) agent = .ok () ↔
          q ∈ interval signed.claims.notBefore signed.claims.expiresAt)) ∧
      (¬ KnowsState state stepIds agent →
        verifyAuthorization canonicalize ed claims signed.signature
          (base64url (ed.publicKey key)) agent ≠ .ok ())

/-- Signer and agent agree on every authorization that is signed from 1970 on, with versions that
    fit the agent's types. -/
theorem authorize_agrees {PrivateKey : Type} {canonicalize : Canonicalize}
    {ed : Ed25519 PrivateKey} (key : PrivateKey) (signer : AuthorizationSigner)
    (context : SigningContext) (input : AuthorizeInput) (state : AuthorizationPolicyState)
    (signed : SignedAuthorization) (hsorts : canonicalize.Sorts) (hed : ed.Correct)
    (hsign : context.sign = fun claims =>
      signDomainSeparatedJcs canonicalize ed authorizationSigningContext claims.members key)
    (hstate : context.getAuthorizationState input.requestId = some state)
    (hplan : state.plan.version < 2 ^ 32) (hpolicy : state.request.policyVersion < 2 ^ 32)
    (hclock : ∃ time, context.now = some time ∧ 0 ≤ time)
    (hauthorize : signer.authorize context input = .ok signed) :
    AgentAgrees canonicalize ed key state input.requestedStepIds signed := by
  obtain ⟨state', issued, expires, h, hsignature⟩ := authorize_ok hauthorize
  obtain ⟨time, htime, hnonneg⟩ := hclock
  obtain rfl : state = state' := Option.some.inj (hstate.symm.trans h.stored)
  obtain rfl : time = issued := Option.some.inj (htime.symm.trans h.clock)
  have hfits := fits_of_signedFor h hplan hpolicy
  have hsigned := verifySignedValue_received hsorts hed key hfits
  rw [hsign] at hsignature
  refine ⟨received signed.claims, received_eq hfits, fun agent => ⟨?_, ?_⟩⟩
  · intro hknows honline hpaused hcanonical q hq
    rw [verifyAuthorization_ok, hsignature, ← readWithin_iff h hnonneg hcanonical hq]
    constructor
    · rintro ⟨-, -, -, -, -, hwithin⟩
      exact hwithin
    · intro hwithin
      exact ⟨hsigned, wellFormed_of_signedFor h, (fitsContext_iff h hfits).mpr hknows, hpaused,
        honline, hwithin⟩
  · intro hunknown haccepts
    obtain ⟨-, -, hfitsContext, -⟩ := verifyAuthorization_ok.mp haccepts
    exact hunknown ((fitsContext_iff h hfits).mp hfitsContext)

/-! ## An agreement -/

/-- The signature is no part of what is decided. -/
theorem authorize_withSign {signer : AuthorizationSigner} {context : SigningContext}
    {input : AuthorizeInput} {signed : SignedAuthorization}
    (h : signer.authorize context input = .ok signed)
    (sign : ExecutionAuthorizationClaims → String) :
    signer.authorize { context with sign := sign } input =
      .ok ⟨signed.claims, sign signed.claims⟩ := by
  unfold AuthorizationSigner.authorize at h ⊢
  dsimp only at h ⊢
  cases hstored : context.getAuthorizationState input.requestId with
  | none =>
    rw [hstored] at h
    cases h
  | some state =>
    rw [hstored] at h
    dsimp only at h ⊢
    obtain ⟨u, hpolicy, h⟩ := bind_ok.mp h
    refine bind_ok.mpr ⟨u, hpolicy, ?_⟩
    obtain ⟨httl, h⟩ := refuse_bind_ok.mp h
    refine refuse_bind_ok.mpr ⟨httl, ?_⟩
    obtain ⟨issuedAt, hissued, h⟩ := bind_ok.mp h
    refine bind_ok.mpr ⟨issuedAt, hissued, ?_⟩
    obtain ⟨expiresAt, hexpires, h⟩ := bind_ok.mp h
    refine bind_ok.mpr ⟨expiresAt, hexpires, ?_⟩
    obtain ⟨claims, hparse, h⟩ := bind_ok.mp h
    refine bind_ok.mpr ⟨claims, hparse, ?_⟩
    rw [pure_ok] at h ⊢
    rw [← h]

/-- A string without characters to escape, or a number. -/
def plainItem : Json String → String
  | .string s => "\"" ++ s ++ "\""
  | .number n => toString n
  | _ => "null"

def plainValue : Json String → String
  | .array items => "[" ++ ",".intercalate (items.map plainItem) ++ "]"
  | v => plainItem v

/-- The members in the order of their texts. -/
def plainMembers (members : Json.Members String) : List String :=
  (members.map fun member => "\"" ++ member.1 ++ "\":" ++ plainValue member.2).mergeSort
    fun a b => a ≤ b

/-- The canonical bytes of the plain values that claims are made of. -/
def plainCanonicalize : Canonicalize
  | .object members => (",".intercalate (plainMembers members)).toUTF8.data.toList
  | v => (plainValue v).toUTF8.data.toList

theorem plainCanonicalize_sorts : plainCanonicalize.Sorts := by
  intro members members' hperm
  have hsorted : plainMembers members = plainMembers members' := by
    have hpairs : ∀ names : List String,
        (names.mergeSort fun a b => a ≤ b).Pairwise (· ≤ ·) := by
      intro names
      have h : (names.mergeSort fun a b => a ≤ b).Pairwise fun a b => decide (a ≤ b) = true :=
        List.pairwise_mergeSort (by simpa using fun a b c => String.le_trans)
          (by simpa using String.le_total) names
      simpa using h
    unfold plainMembers
    refine List.Perm.eq_of_pairwise (fun a b _ _ => String.le_antisymm) (hpairs _) (hpairs _) ?_
    exact (List.mergeSort_perm _ _).trans
      ((hperm.map _).trans (List.mergeSort_perm _ _).symm)
  simp only [plainCanonicalize, hsorted]

/-- A scheme that signs everything alike. -/
def plainEd25519 : Ed25519 Unit where
  publicKey _ := List.replicate 32 1
  sign _ _ := List.replicate 64 2
  isVerifyingKey bytes := bytes = List.replicate 32 1
  verify _ _ signature := signature = List.replicate 64 2

theorem plainEd25519_correct : plainEd25519.Correct where
  publicKey_length _ := rfl
  isVerifyingKey _ := by simp [plainEd25519]
  sign_length _ _ := rfl
  verify_sign _ _ := by simp [plainEd25519]

/-- The signature `signDomainSeparatedJcs` makes of claims. -/
def plainSign (claims : ExecutionAuthorizationClaims) : String :=
  signDomainSeparatedJcs plainCanonicalize plainEd25519 authorizationSigningContext claims.members ()

/-- The retry of a failed request, accepted from noon until half past twelve. -/
theorem authorize_agrees_on_retry :
    AgentAgrees plainCanonicalize plainEd25519 () retriedState ["step-1"]
      ⟨authorizationOne, plainSign authorizationOne⟩ :=
  authorize_agrees () signerOne { signingOne with sign := plainSign } retryInput retriedState _
    plainCanonicalize_sorts plainEd25519_correct rfl rfl (by decide) (by decide)
    ⟨_, rfl, by decide⟩ (authorize_withSign lateLease_evaluated.2.1 plainSign)

end ForgetOps.Agent
