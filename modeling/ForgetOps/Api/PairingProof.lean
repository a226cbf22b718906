import ForgetOps.Agent.AuthorizationVerification
import ForgetOps.Api.Pairing
import ForgetOps.Domain.Audit

/-
  The proof of a pairing request: `apps/api/src/modules/agents/signature-verifier.ts`, and
  `consume` and `validateRegistration` of `apps/api/src/modules/agents/pairing-service.ts`.

  Ed25519, SHA-256 and the canonical bytes of JSON are arguments, the same for the agent and the
  service. `consume_ok` says which requests get to `consumeAndPair`, and with what.
-/

namespace ForgetOps.Api.Pairing

open Database (Timestamp)
open Domain (Digest toHex utf8)
open Guards
open Signer (Canonicalize Ed25519 base64url)

/-! ## Requests -/

structure PairingProofFields extends AgentRegistration where
  pairingToken : String
  deriving DecidableEq, Repr

structure AgentPairBody extends PairingProofFields where
  proof : String
  deriving DecidableEq, Repr

structure PairingError where
  code : String
  message : String
  statusCode : Nat
  deriving DecidableEq, Repr

def pairingTokenInvalid : PairingError :=
  ⟨"PAIRING_TOKEN_INVALID", "The pairing token is invalid or expired", 400⟩

def invalidAgentKey : PairingError :=
  ⟨"INVALID_AGENT_KEY", "Agent keys or proof are invalid", 400⟩

/-- What is not under the source. -/
structure PairingLibraries (PrivateKey : Type) where
  canonicalize : Canonicalize
  ed : Ed25519 PrivateKey
  sha256 : List UInt8 → Digest

def proofMembers (fields : PairingProofFields) : Json.Members String :=
  [("environmentId", .string fields.environmentId),
    ("instanceFingerprint", .string fields.instanceFingerprint),
    ("pairingToken", .string fields.pairingToken),
    ("protocolVersion", .string fields.protocolVersion),
    ("publicEncryptionKey", .string fields.publicEncryptionKey),
    ("publicSigningKey", .string fields.publicSigningKey),
    ("encryptionKeyId", .string fields.encryptionKeyId),
    ("signingKeyId", .string fields.signingKeyId),
    ("subjectHmacKeyVersion", .number fields.subjectHmacKeyVersion),
    ("version", .string fields.version)]

section Service

variable {PrivateKey : Type} (lib : PairingLibraries PrivateKey)

/-- The bytes of the text that `createPairingProofPayload` answers. -/
def createPairingProofPayload (fields : PairingProofFields) : List UInt8 :=
  lib.canonicalize (.object (proofMembers fields))

def decodeBase64Url (value : String) : Option (List UInt8) :=
  if value = "" ∨ ¬ value.toList.all fun c => c ∈ Base64Url.alphabet then none
  else do
    let bytes ← Base64Url.decodeForgiving value.toList
    if bytes = [] ∨ Base64Url.encode bytes ≠ value.toList then none else some bytes

def decodeAgentKey (value : String) : Option (List UInt8) := do
  let bytes ← decodeBase64Url value
  if bytes.length ≠ 32 then none else some bytes

/-- The identifier of the bytes of a key. -/
def keyIdOf (purpose : String) (keyBytes : List UInt8) : String :=
  purpose ++ ":sha256:" ++ toHex (lib.sha256 keyBytes).val

def keyIdForPublicKey (purpose publicKey : String) : Option String :=
  (decodeAgentKey publicKey).map (keyIdOf lib purpose)

/-- No key is made of anything but 32 bytes. -/
def verifyAgentProof (publicSigningKey proof : String) (payload : List UInt8) : Bool :=
  match decodeBase64Url publicSigningKey, decodeBase64Url proof with
  | some keyBytes, some signature =>
    signature.length = 64 ∧ keyBytes.length = 32 ∧ lib.ed.verify keyBytes payload signature
  | _, _ => false

def sha256Token (token : String) : String := toHex (lib.sha256 (utf8 token)).val

/-- The required fields but `subjectHmacKeyVersion`. -/
def requiredTexts (registration : AgentPairBody) : List String :=
  [registration.pairingToken, registration.environmentId, registration.publicSigningKey,
    registration.publicEncryptionKey, registration.signingKeyId, registration.encryptionKeyId,
    registration.version, registration.protocolVersion, registration.instanceFingerprint,
    registration.proof]

def validateRegistration (registration : AgentPairBody) : Except PairingError Unit := do
  refuse (registration.subjectHmacKeyVersion ≤ 0 ∨ "" ∈ requiredTexts registration) invalidAgentKey
  let _ ← okOr (decodeAgentKey registration.publicSigningKey) invalidAgentKey
  let encryptionKey ← okOr (decodeAgentKey registration.publicEncryptionKey) invalidAgentKey
  refuse (encryptionKey.all fun byte => byte = 0) invalidAgentKey
  refuse (keyIdForPublicKey lib "ed25519" registration.publicSigningKey ≠
      some registration.signingKeyId ∨
    keyIdForPublicKey lib "x25519" registration.publicEncryptionKey ≠
      some registration.encryptionKeyId) invalidAgentKey
  let proofBytes ← okOr (Base64Url.decodeForgiving registration.proof.toList) invalidAgentKey
  refuse (proofBytes.length ≠ 64 ∨ Base64Url.encode proofBytes ≠ registration.proof.toList)
    invalidAgentKey

/-- What `consume` calls `consumeAndPair` with, at the time `now`, where `randomUUID()` answers
    the identifier of the agent. -/
def consume (pairingToken : String) (registration : AgentPairBody) (now : Timestamp)
    (agentId : String) : Except PairingError ConsumeAndPairInput := do
  refuse (registration.pairingToken ≠ pairingToken) pairingTokenInvalid
  validateRegistration lib registration
  let proofPayload := createPairingProofPayload lib registration.toPairingProofFields
  refuse (verifyAgentProof lib registration.publicSigningKey registration.proof proofPayload = false)
    invalidAgentKey
  return {
    tokenHash := sha256Token lib pairingToken
    registration := registration.toAgentRegistration
    now
    agentId }

def pair (registration : AgentPairBody) (now : Timestamp) (agentId : String) :
    Except PairingError ConsumeAndPairInput :=
  consume lib registration.pairingToken registration now agentId

end Service

/-! ## Texts of bytes -/

theorem base64url_injective {bytes bytes' : List UInt8} (h : base64url bytes = base64url bytes') :
    bytes = bytes' := by
  have hencode : Base64Url.encode bytes = Base64Url.encode bytes' := String.ofList_injective h
  have hdecode := Base64Url.decode_encode bytes
  rw [hencode, Base64Url.decode_encode] at hdecode
  exact (Option.some.inj hdecode).symm

theorem encode_eq_nil {bytes : List UInt8} (h : Base64Url.encode bytes = []) : bytes = [] := by
  have hlength := Base64Url.length_encode bytes
  rw [h] at hlength
  exact List.length_eq_zero_iff.mp hlength.symm

theorem base64url_ne {bytes : List UInt8} {n : Nat} (h : bytes.length = n) (hn : 0 < n) :
    base64url bytes ≠ "" := by
  intro hempty
  have htext : (base64url bytes).toList = Base64Url.encode bytes := String.toList_ofList
  rw [hempty] at htext
  rw [encode_eq_nil htext.symm] at h
  exact hn.ne h

/-- Only what the encoder writes is decoded. -/
theorem decodeBase64Url_iff {value : String} {bytes : List UInt8} :
    decodeBase64Url value = some bytes ↔ bytes ≠ [] ∧ value = base64url bytes := by
  unfold decodeBase64Url
  constructor
  · intro h
    split at h
    · cases h
    · obtain ⟨read, -, h⟩ := Option.bind_eq_some_iff.mp h
      split_ifs at h with hread
      obtain rfl := Option.some.inj h
      rw [not_or, not_not] at hread
      refine ⟨hread.1, ?_⟩
      rw [base64url, hread.2, String.ofList_toList]
  · rintro ⟨hne, rfl⟩
    have htext : (base64url bytes).toList = Base64Url.encode bytes := String.toList_ofList
    have hread := Base64Url.decodeForgiving_of_decode (Base64Url.decode_encode bytes)
    have halphabet : ((base64url bytes).toList.all fun c => c ∈ Base64Url.alphabet) = true := by
      rw [htext, List.all_eq_true]
      intro c hc
      exact decide_eq_true (Base64Url.mem_alphabet_of_mem_encode hc)
    have hnonempty : base64url bytes ≠ "" := base64url_ne rfl (List.length_pos_of_ne_nil hne)
    rw [if_neg (not_or.mpr ⟨hnonempty, not_not.mpr halphabet⟩), htext, hread]
    exact if_neg (not_or.mpr ⟨hne, not_not.mpr rfl⟩)

theorem decodeAgentKey_iff {value : String} {bytes : List UInt8} :
    decodeAgentKey value = some bytes ↔ bytes.length = 32 ∧ value = base64url bytes := by
  unfold decodeAgentKey
  rw [Option.bind_eq_bind, Option.bind_eq_some_iff]
  constructor
  · rintro ⟨read, hread, h⟩
    split_ifs at h with hlength
    obtain rfl := Option.some.inj h
    exact ⟨not_not.mp hlength, (decodeBase64Url_iff.mp hread).2⟩
  · rintro ⟨hlength, rfl⟩
    have hne : bytes ≠ [] := by
      rintro rfl
      cases hlength
    exact ⟨bytes, decodeBase64Url_iff.mpr ⟨hne, rfl⟩, if_neg (not_not.mpr hlength)⟩

/-! ## Proven requests -/

section Proven

variable {PrivateKey : Type} {lib : PairingLibraries PrivateKey} {body : AgentPairBody}

/-- The request is complete, names its keys, and carries a signature of its fields. -/
structure Proven (lib : PairingLibraries PrivateKey) (body : AgentPairBody)
    (signingKey encryptionKey signature : List UInt8) : Prop where
  version : 0 < body.subjectHmacKeyVersion
  complete : "" ∉ requiredTexts body
  signingKey_length : signingKey.length = 32
  publicSigningKey : body.publicSigningKey = base64url signingKey
  encryptionKey_length : encryptionKey.length = 32
  publicEncryptionKey : body.publicEncryptionKey = base64url encryptionKey
  encryptionKey_ne : ∃ byte ∈ encryptionKey, byte ≠ 0
  signingKeyId : body.signingKeyId = keyIdOf lib "ed25519" signingKey
  encryptionKeyId : body.encryptionKeyId = keyIdOf lib "x25519" encryptionKey
  signature_length : signature.length = 64
  proof : body.proof = base64url signature
  verified : lib.ed.verify signingKey
    (createPairingProofPayload lib body.toPairingProofFields) signature = true

theorem keyIdForPublicKey_base64url {key : List UInt8} (h : key.length = 32) (purpose : String) :
    keyIdForPublicKey lib purpose (base64url key) = some (keyIdOf lib purpose key) := by
  rw [keyIdForPublicKey, decodeAgentKey_iff.mpr ⟨h, rfl⟩, Option.map_some]

theorem verifyAgentProof_base64url {key signature payload : List UInt8} (hkey : key.length = 32)
    (hsignature : signature.length = 64) :
    verifyAgentProof lib (base64url key) (base64url signature) payload =
      lib.ed.verify key payload signature := by
  have hkey_ne : key ≠ [] := by
    rintro rfl
    cases hkey
  have hsignature_ne : signature ≠ [] := by
    rintro rfl
    cases hsignature
  unfold verifyAgentProof
  rw [decodeBase64Url_iff.mpr ⟨hkey_ne, rfl⟩, decodeBase64Url_iff.mpr ⟨hsignature_ne, rfl⟩]
  simp [hkey, hsignature]

/-- `Buffer.from(proof, "base64url")` is 64 bytes, and the proof their one spelling. -/
theorem readProof_iff {proof : String} {signature : List UInt8} :
    (Base64Url.decodeForgiving proof.toList = some signature ∧
      ¬ (signature.length ≠ 64 ∨ Base64Url.encode signature ≠ proof.toList)) ↔
      signature.length = 64 ∧ proof = base64url signature := by
  rw [not_or, not_not, not_not]
  constructor
  · rintro ⟨-, hlength, htext⟩
    refine ⟨hlength, ?_⟩
    rw [base64url, htext, String.ofList_toList]
  · rintro ⟨hlength, rfl⟩
    have htext : (base64url signature).toList = Base64Url.encode signature := String.toList_ofList
    rw [htext]
    exact ⟨Base64Url.decodeForgiving_of_decode (Base64Url.decode_encode signature), hlength, rfl⟩

theorem validateRegistration_ok :
    validateRegistration lib body = .ok () ↔
      ∃ signingKey encryptionKey signature : List UInt8,
        0 < body.subjectHmacKeyVersion ∧ "" ∉ requiredTexts body ∧
        (signingKey.length = 32 ∧ body.publicSigningKey = base64url signingKey) ∧
        (encryptionKey.length = 32 ∧ body.publicEncryptionKey = base64url encryptionKey) ∧
        (∃ byte ∈ encryptionKey, byte ≠ 0) ∧
        body.signingKeyId = keyIdOf lib "ed25519" signingKey ∧
        body.encryptionKeyId = keyIdOf lib "x25519" encryptionKey ∧
        signature.length = 64 ∧ body.proof = base64url signature := by
  unfold validateRegistration
  rw [refuse_bind_ok, not_or, not_le, bind_ok]
  constructor
  · rintro ⟨⟨hversion, hcomplete⟩, signingKey, hsigning, h⟩
    obtain ⟨encryptionKey, hencryption, h⟩ := bind_ok.mp h
    obtain ⟨hzero, h⟩ := refuse_bind_ok.mp h
    obtain ⟨hids, h⟩ := refuse_bind_ok.mp h
    obtain ⟨signature, hproof, h⟩ := bind_ok.mp h
    have hsigning := decodeAgentKey_iff.mp (okOr_ok.mp hsigning)
    have hencryption := decodeAgentKey_iff.mp (okOr_ok.mp hencryption)
    rw [not_or, not_not, not_not, hsigning.2, hencryption.2,
      keyIdForPublicKey_base64url hsigning.1, keyIdForPublicKey_base64url hencryption.1] at hids
    have hsignature := readProof_iff.mp ⟨okOr_ok.mp hproof, refuse_ok.mp h⟩
    refine ⟨signingKey, encryptionKey, signature, hversion, hcomplete, hsigning, hencryption, ?_,
      (Option.some.inj hids.1).symm, (Option.some.inj hids.2).symm, hsignature⟩
    simpa using hzero
  · rintro ⟨signingKey, encryptionKey, signature, hversion, hcomplete, hsigning, hencryption,
      hzero, hsigningId, hencryptionId, hsignature⟩
    obtain ⟨hproof, hread⟩ := readProof_iff.mpr hsignature
    refine ⟨⟨hversion, hcomplete⟩, signingKey, okOr_ok.mpr (decodeAgentKey_iff.mpr hsigning), ?_⟩
    refine bind_ok.mpr ⟨encryptionKey, okOr_ok.mpr (decodeAgentKey_iff.mpr hencryption), ?_⟩
    refine refuse_bind_ok.mpr ⟨by simpa using hzero, refuse_bind_ok.mpr ⟨?_, ?_⟩⟩
    · rw [hsigning.2, hencryption.2, keyIdForPublicKey_base64url hsigning.1,
        keyIdForPublicKey_base64url hencryption.1, hsigningId, hencryptionId]
      simp
    · exact bind_ok.mpr ⟨signature, okOr_ok.mpr hproof, refuse_ok.mpr hread⟩

/-- A request that gets to `consumeAndPair` names the token, and is proven. -/
theorem consume_ok {pairingToken : String} {now : Timestamp} {agentId : String}
    {input : ConsumeAndPairInput} :
    consume lib pairingToken body now agentId = .ok input ↔
      body.pairingToken = pairingToken ∧
      (∃ signingKey encryptionKey signature,
        Proven lib body signingKey encryptionKey signature) ∧
      input = ⟨sha256Token lib pairingToken, body.toAgentRegistration, now, agentId⟩ := by
  unfold consume
  rw [refuse_bind_ok, not_not, bind_ok]
  constructor
  · rintro ⟨htoken, _, hvalid, h⟩
    obtain ⟨hverified, h⟩ := refuse_bind_ok.mp h
    obtain ⟨signingKey, encryptionKey, signature, hversion, hcomplete, hsigning, hencryption,
      hzero, hsigningId, hencryptionId, hlength, hproof⟩ := validateRegistration_ok.mp hvalid
    rw [hsigning.2, hproof, verifyAgentProof_base64url hsigning.1 hlength, Bool.not_eq_false]
      at hverified
    refine ⟨htoken, ⟨signingKey, encryptionKey, signature, ?_⟩, (pure_ok.mp h).symm⟩
    exact ⟨hversion, hcomplete, hsigning.1, hsigning.2, hencryption.1, hencryption.2, hzero,
      hsigningId, hencryptionId, hlength, hproof, hverified⟩
  · rintro ⟨htoken, ⟨signingKey, encryptionKey, signature, h⟩, rfl⟩
    refine ⟨htoken, (), validateRegistration_ok.mpr ⟨signingKey, encryptionKey, signature,
      h.version, h.complete, ⟨h.signingKey_length, h.publicSigningKey⟩,
      ⟨h.encryptionKey_length, h.publicEncryptionKey⟩, h.encryptionKey_ne, h.signingKeyId,
      h.encryptionKeyId, h.signature_length, h.proof⟩, refuse_bind_ok.mpr ⟨?_, rfl⟩⟩
    rw [h.publicSigningKey, h.proof,
      verifyAgentProof_base64url h.signingKey_length h.signature_length, h.verified]
    decide

end Proven

end ForgetOps.Api.Pairing
