import ForgetOps.Api.MessageAgreement

/-
  The messages of the control plane: `Ed25519MessageSigner`
  (`apps/api/src/modules/agent-gateway/message-signer.ts`) signs them, and `verify_message`
  (`agent/crates/agent-protocol/src/signing.rs`) verifies them.

  Whatever reaches the agent, it accepts what the signer has signed, and nothing that says anything
  else (`control_messages_agree`).
-/

namespace ForgetOps.AgentProtocol

open Api.Gateway (ProtocolLibraries firstPoll plainProtocol plainProtocol_correct)
open Json (JsString)
open Signer (base64url)

/-! ## The signer -/

/-- The constructor throws where the key id is empty. -/
structure Ed25519MessageSigner (PrivateKey : Type) where
  privateKey : PrivateKey
  keyId : String
  keyId_ne : keyId ≠ ""

namespace Ed25519MessageSigner

variable {PrivateKey : Type} (lib : ProtocolLibraries PrivateKey)
  (signer : Ed25519MessageSigner PrivateKey)

/-- What `sign` answers, if it does not throw. -/
def sign (message : Api.Gateway.AgentMessage) : Option Api.Gateway.AgentMessage :=
  if message.keyId ≠ signer.keyId then none
  else
    (lib.agentMessageSigningBytes message).map fun bytes =>
      { message with signature := base64url (lib.ed.sign signer.privateKey bytes) }

def publicKey : String := base64url (lib.ed.publicKey signer.privateKey)

end Ed25519MessageSigner

/-- The payload is the text of a value of the gateway. -/
def Composed (message : Api.Gateway.AgentMessage) : Prop :=
  ∃ payload : Json JsString, payload.distinct ∧ message.payload = String.ofList payload.stringify

/-! ## Verified alike -/

section Verified

variable {PrivateKey : Type} {lib : ProtocolLibraries PrivateKey} {message : AgentMessage}
  {received signed : Api.Gateway.AgentMessage}

theorem valid_of_signingBytes {bytes : List UInt8}
    (h : lib.agentMessageSigningBytes received = some bytes) :
    Api.Gateway.UnsignedAgentMessageSchema received = true := by
  obtain ⟨canonical, hcanonical, -⟩ := Option.map_eq_some_iff.mp h
  unfold ProtocolLibraries.canonicalUnsignedBytes at hcanonical
  split_ifs at hcanonical with hvalid
  exact hvalid

/-- Under a key to verify with, the agent and the gateway verify alike. -/
theorem verified_alike (hcanonical : Json.Canonicalizes lib.canonicalize)
    (hvalid : Api.Gateway.UnsignedAgentMessageSchema received = true) (hcomposed : Composed received)
    (h : Says received message) (hsignature : message.signature = received.signature)
    {publicKey : String}
    (hkey : ∀ key, publicKey = base64url key → lib.ed.isVerifyingKey key = true) :
    verifyMessage lib message publicKey = .ok () ↔
      Api.Gateway.verifyAgentMessage lib.messages received publicKey = true := by
  obtain ⟨payload, hdistinct, hpayload⟩ := hcomposed
  have hbytes := signingBytes_of_says hcanonical hvalid hdistinct hpayload h
  rw [verifyMessage_ok, Api.Gateway.verifyAgentMessage_iff]
  constructor
  · rintro ⟨key, signature, hpublic, htext, hlength, -, hsignatureLength, hverified⟩
    exact ⟨key, signature, _, hlength, hsignatureLength, hpublic, hsignature.symm.trans htext, hbytes,
      hverified⟩
  · rintro ⟨key, signature, bytes, hlength, hsignatureLength, hpublic, htext, hsome, hverified⟩
    obtain rfl := Option.some.inj (hsome.symm.trans hbytes)
    exact ⟨key, signature, hpublic, hsignature.trans htext, hlength, hkey key hpublic,
      hsignatureLength, hverified⟩

/-! ## Control messages -/

variable {signer : Ed25519MessageSigner PrivateKey}

theorem sign_eq_some (h : signer.sign lib received = some signed) :
    ∃ bytes, lib.agentMessageSigningBytes signed = some bytes ∧
      signed = { received with signature := base64url (lib.ed.sign signer.privateKey bytes) } := by
  unfold Ed25519MessageSigner.sign at h
  split_ifs at h
  obtain ⟨bytes, hbytes, rfl⟩ := Option.map_eq_some_iff.mp h
  exact ⟨bytes, hbytes, rfl⟩

/-- The gateway verifies what it has signed. -/
theorem verifyAgentMessage_sign (hed : lib.ed.Correct)
    (h : signer.sign lib received = some signed) :
    Api.Gateway.verifyAgentMessage lib.messages signed (signer.publicKey lib) = true := by
  obtain ⟨bytes, hbytes, hsigned⟩ := sign_eq_some h
  refine Api.Gateway.verifyAgentMessage_iff.mpr ⟨lib.ed.publicKey signer.privateKey,
    lib.ed.sign signer.privateKey bytes, bytes, hed.publicKey_length _, hed.sign_length _ _, rfl, ?_,
    hbytes, hed.verify_sign _ _⟩
  rw [hsigned]

variable (lib signer) in
/-- Who presents a signature of the key over a message has it from the signer. -/
def Unforged (Issued : Api.Gateway.AgentMessage → Prop) (Presented : AgentMessage → Prop) : Prop :=
  ∀ message signature, Presented message → message.signature = base64url signature →
    lib.ed.verify (lib.ed.publicKey signer.privateKey) (messageSigningBytes lib message) signature =
      true →
    ∃ issued, Issued issued ∧
      lib.agentMessageSigningBytes issued = some (messageSigningBytes lib message)

/-- **Control messages agree.** Of what is presented to it, the agent accepts under the key of the
    signer only what says what the signer has signed, and it accepts all of that. -/
theorem control_messages_agree (hcanonical : Json.Canonicalizes lib.canonicalize)
    (hed : lib.ed.Correct)
    {Issued : Api.Gateway.AgentMessage → Prop} {Presented : AgentMessage → Prop}
    (hcomposed : ∀ issued, Issued issued → Composed issued)
    (hunforged : Unforged lib signer Issued Presented) :
    (∀ message, Presented message → verifyMessage lib message (signer.publicKey lib) = .ok () →
      ∃ issued, Issued issued ∧ Says issued message) ∧
    ∀ issued signed message, Issued issued → signer.sign lib issued = some signed →
      Says signed message → message.signature = signed.signature →
      verifyMessage lib message (signer.publicKey lib) = .ok () := by
  constructor
  · intro message hpresented hverified
    obtain ⟨key, signature, hkey, htext, -, -, -, hverify⟩ := verifyMessage_ok.mp hverified
    rw [← Api.Pairing.base64url_injective hkey] at hverify
    obtain ⟨issued, hissued, hbytes⟩ := hunforged message signature hpresented htext hverify
    obtain ⟨payload, hdistinct, hpayload⟩ := hcomposed issued hissued
    have hmaterial := Api.Gateway.bytes_of_payload hpayload hbytes
    refine ⟨issued, hissued, says_of_bytes hcanonical hdistinct hpayload ?_⟩
    exact (Api.Gateway.signingMaterial_injective hmaterial).symm
  · intro issued signed message hissued hsign hsaid hsignature
    obtain ⟨bytes, hbytes, hsigned⟩ := sign_eq_some hsign
    have hsignedComposed : Composed signed := by
      rw [hsigned]
      exact hcomposed issued hissued
    have hkey : ∀ key, signer.publicKey lib = base64url key → lib.ed.isVerifyingKey key = true := by
      intro key hpublic
      rw [← Api.Pairing.base64url_injective hpublic]
      exact hed.isVerifyingKey signer.privateKey
    exact (verified_alike hcanonical (valid_of_signingBytes hbytes) hsignedComposed hsaid hsignature
      hkey).mpr (verifyAgentMessage_sign hed hsign)

end Verified

/-! ## A first job -/

theorem keyId_first : "key_1" ≠ "" := by decide

def firstSigner : Ed25519MessageSigner Unit := ⟨(), "key_1", keyId_first⟩

def firstJob : AgentMessage :=
  { firstPoll with
    messageType := "job.available"
    direction := "control_to_agent"
    signature := base64url (List.replicate 64 2) }

def firstIssued : Api.Gateway.AgentMessage := firstJob.atGateway .controlToAgent

theorem says_firstIssued : Says firstIssued firstJob :=
  ⟨rfl, rfl, rfl, rfl, rfl, rfl, rfl, rfl, rfl, rfl, firstJob.payload.json, rfl, rfl⟩

theorem composed_firstIssued : Composed firstIssued :=
  ⟨firstJob.payload.json, distinct_json firstJob.payload, rfl⟩

theorem signingBytes_firstIssued : plainProtocol.agentMessageSigningBytes firstIssued =
    some (messageSigningBytes plainProtocol firstJob) := by
  have hvalid : Api.Gateway.UnsignedAgentMessageSchema firstIssued = true := by decide
  exact signingBytes_of_says Json.canonicalizes_canonical hvalid (distinct_json firstJob.payload) rfl
    says_firstIssued

theorem sign_firstIssued : firstSigner.sign plainProtocol firstIssued = some firstIssued := by
  have hkeyId : firstIssued.keyId = firstSigner.keyId := rfl
  unfold Ed25519MessageSigner.sign
  rw [if_neg (not_not.mpr hkeyId), signingBytes_firstIssued]
  rfl

theorem control_messages_agree_first :
    verifyMessage plainProtocol firstJob (firstSigner.publicKey plainProtocol) = .ok () ∧
      ∃ issued, issued = firstIssued ∧ Says issued firstJob := by
  have hunforged : Unforged plainProtocol firstSigner (· = firstIssued) (· = firstJob) := by
    rintro message signature rfl - -
    exact ⟨firstIssued, rfl, signingBytes_firstIssued⟩
  have hcomposed : ∀ issued, issued = firstIssued → Composed issued := by
    rintro issued rfl
    exact composed_firstIssued
  obtain ⟨honly, hall⟩ := control_messages_agree Json.canonicalizes_canonical plainProtocol_correct
    hcomposed hunforged
  have hverified := hall firstIssued firstIssued firstJob rfl sign_firstIssued says_firstIssued rfl
  exact ⟨hverified, honly firstJob rfl hverified⟩

end ForgetOps.AgentProtocol
