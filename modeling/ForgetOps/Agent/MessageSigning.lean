import ForgetOps.Api.MessageSchema

/-
  The messages of the agent: `AgentMessage` (`agent/crates/agent-protocol/src/lib.rs`), and how it
  is signed and verified there (`agent/crates/agent-protocol/src/signing.rs`).

  The agent and the gateway sign the same bytes. The gateway reads and verifies what the agent has
  signed, in any order of the members (`read_signed`), and what it verifies over the bytes of a
  message says what that message says (`says_of_bytes`).
-/

namespace ForgetOps.AgentProtocol

open Api.Gateway (ProtocolLibraries messageSigningContext)
open Guards
open Json (JsString jsString)
open Signer (base64url signingMaterial)

/-- `serde_json::Value`, where the numbers are whole and exact in a double. -/
abbrev Value := { v : Json String // v.distinct ∧ v.safe }

/-- The value in the strings of the gateway. -/
def Value.json (value : Value) : Json JsString := value.val.mapStrings jsString

structure AgentMessage where
  type : String
  protocolVersion : String
  messageType : String
  messageId : String
  keyId : String
  environmentId : String
  agentId : String
  direction : String
  sequence : String
  sentAt : String
  payload : Value
  signature : String

/-- `serde_json::to_value(message)`. -/
def AgentMessage.members (message : AgentMessage) : Json.Members JsString :=
  [("type", .string (jsString message.type)),
    ("protocolVersion", .string (jsString message.protocolVersion)),
    ("messageType", .string (jsString message.messageType)),
    ("messageId", .string (jsString message.messageId)),
    ("keyId", .string (jsString message.keyId)),
    ("environmentId", .string (jsString message.environmentId)),
    ("agentId", .string (jsString message.agentId)),
    ("direction", .string (jsString message.direction)),
    ("sequence", .string (jsString message.sequence)),
    ("sentAt", .string (jsString message.sentAt)),
    ("payload", message.payload.json),
    ("signature", .string (jsString message.signature))]

/-- `object.remove("signature")`. -/
def AgentMessage.unsigned (message : AgentMessage) : Json.Members JsString :=
  message.members.filter (·.1 ≠ "signature")

/-- `MessageSigningError`, where a message is one of JSON. -/
inductive MessageSigningError where
  | invalidPublicKey
  | invalidSignature
  | verificationFailed
  deriving DecidableEq, Repr

def MessageSigningError.text : MessageSigningError → String
  | .invalidPublicKey => "invalid Ed25519 public key"
  | .invalidSignature => "invalid Ed25519 signature"
  | .verificationFailed => "message signature verification failed"

def decodeCanonical (value : String) : Except MessageSigningError (List UInt8) := do
  let decoded ← okOr (Base64Url.decode value.toList) .invalidSignature
  refuse (Base64Url.encode decoded ≠ value.toList) .invalidSignature
  return decoded

section Signing

variable {PrivateKey : Type} (lib : ProtocolLibraries PrivateKey)

def canonicalUnsignedBytes (message : AgentMessage) : List UInt8 :=
  lib.canonicalize (.object message.unsigned)

def messageSigningBytes (message : AgentMessage) : List UInt8 :=
  signingMaterial messageSigningContext (canonicalUnsignedBytes lib message)

def signMessage (message : AgentMessage) (signingKey : PrivateKey) : AgentMessage :=
  { message with signature := base64url (lib.ed.sign signingKey (messageSigningBytes lib message)) }

def verifyMessage (message : AgentMessage) (publicKey : String) :
    Except MessageSigningError Unit := do
  let publicKey ← decodeCanonical publicKey
  refuse (publicKey.length ≠ 32) .invalidPublicKey
  refuse (lib.ed.isVerifyingKey publicKey = false) .invalidPublicKey
  let signature ← decodeCanonical message.signature
  refuse (signature.length ≠ 64) .invalidSignature
  refuse (lib.ed.verify publicKey (messageSigningBytes lib message) signature = false)
    .verificationFailed

end Signing

/-! ## What is verified -/

section Verified

variable {PrivateKey : Type} {lib : ProtocolLibraries PrivateKey} {message : AgentMessage}

theorem decodeCanonical_ok {value : String} {bytes : List UInt8} :
    decodeCanonical value = .ok bytes ↔ value = base64url bytes := by
  unfold decodeCanonical
  rw [bind_ok]
  constructor
  · rintro ⟨decoded, -, h⟩
    rw [refuse_bind_ok, not_not, pure_ok] at h
    obtain ⟨hcanonical, rfl⟩ := h
    refine String.toList_injective ?_
    rw [base64url, String.toList_ofList]
    exact hcanonical.symm
  · rintro rfl
    have htext : (base64url bytes).toList = Base64Url.encode bytes := String.toList_ofList
    refine ⟨bytes, ?_, ?_⟩
    · rw [okOr_ok, htext]
      exact Base64Url.decode_encode bytes
    · rw [refuse_bind_ok, htext]
      exact ⟨not_not.mpr rfl, rfl⟩

/-- A signature is verified over the bytes of the message, under a key to verify with. -/
theorem verifyMessage_ok {publicKey : String} :
    verifyMessage lib message publicKey = .ok () ↔
      ∃ key signature, publicKey = base64url key ∧ message.signature = base64url signature ∧
        key.length = 32 ∧ lib.ed.isVerifyingKey key = true ∧ signature.length = 64 ∧
        lib.ed.verify key (messageSigningBytes lib message) signature = true := by
  unfold verifyMessage
  constructor
  · intro h
    obtain ⟨key, hkey, h⟩ := bind_ok.mp h
    obtain ⟨hlength, h⟩ := refuse_bind_ok.mp h
    obtain ⟨hverifying, h⟩ := refuse_bind_ok.mp h
    obtain ⟨signature, hsignature, h⟩ := bind_ok.mp h
    obtain ⟨hsignatureLength, h⟩ := refuse_bind_ok.mp h
    exact ⟨key, signature, decodeCanonical_ok.mp hkey, decodeCanonical_ok.mp hsignature,
      not_not.mp hlength, Bool.eq_true_of_not_eq_false hverifying, not_not.mp hsignatureLength,
      Bool.eq_true_of_not_eq_false (refuse_ok.mp h)⟩
  · rintro ⟨key, signature, hkey, hsignature, hlength, hverifying, hsignatureLength, hverified⟩
    refine bind_ok.mpr ⟨key, decodeCanonical_ok.mpr hkey, ?_⟩
    refine refuse_bind_ok.mpr ⟨not_not.mpr hlength, ?_⟩
    refine refuse_bind_ok.mpr ⟨by rw [hverifying]; decide, ?_⟩
    refine bind_ok.mpr ⟨signature, decodeCanonical_ok.mpr hsignature, ?_⟩
    refine refuse_bind_ok.mpr ⟨not_not.mpr hsignatureLength, ?_⟩
    exact refuse_ok.mpr (by rw [hverified]; decide)

end Verified

/-! ## The same message -/

/-- The message of the gateway says what the message of the agent says. -/
structure Says (received : Api.Gateway.AgentMessage) (message : AgentMessage) : Prop where
  type : message.type = Api.Gateway.agentMessageType
  protocolVersion : received.protocolVersion = message.protocolVersion
  messageType : received.messageType = message.messageType
  messageId : received.messageId = message.messageId
  keyId : received.keyId = message.keyId
  environmentId : received.environmentId = message.environmentId
  agentId : received.agentId = message.agentId
  direction : received.direction.text = message.direction
  sequence : received.sequence = message.sequence
  sentAt : received.sentAt = message.sentAt
  payload : ∃ payload : Json JsString, received.payload = String.ofList payload.stringify ∧
    payload.ordered = message.payload.json.ordered

section Same

variable {message : AgentMessage} {received : Api.Gateway.AgentMessage} {payload : Json JsString}

theorem distinct_json (value : Value) : value.json.distinct = true :=
  (Json.distinct_mapStrings _ _).trans value.property.1

theorem safe_json (value : Value) : value.json.safe = true :=
  (Json.safe_mapStrings _ _).trans value.property.2

theorem unsigned_names (message : AgentMessage) :
    message.unsigned.map Prod.fst = ["type", "protocolVersion", "messageType", "messageId", "keyId",
      "environmentId", "agentId", "direction", "sequence", "sentAt", "payload"] := rfl

theorem members_values {m : String × Json JsString} (hm : m ∈ message.members) :
    (∃ s, m.2 = .string s) ∨ m.2 = message.payload.json := by
  revert m
  simp [AgentMessage.members]

theorem members_distinct (message : AgentMessage) :
    (Json.object message.members).distinct = true := by
  refine Json.distinct_object (show Api.Gateway.messageNames.Nodup by decide) fun m hm => ?_
  obtain ⟨s, hs⟩ | hpayload := members_values hm
  · rw [hs]
    rfl
  · rw [hpayload]
    exact distinct_json message.payload

theorem unsigned_distinct (message : AgentMessage) :
    (Json.object message.unsigned).distinct = true := by
  refine Json.distinct_object (by rw [unsigned_names]; decide) fun m hm => ?_
  obtain ⟨s, hs⟩ | hpayload := members_values (List.mem_of_mem_filter hm)
  · rw [hs]
    rfl
  · rw [hpayload]
    exact distinct_json message.payload

theorem unsigned_safe (message : AgentMessage) : (Json.object message.unsigned).safe = true := by
  refine Json.safe_object fun m hm => ?_
  obtain ⟨s, hs⟩ | hpayload := members_values (List.mem_of_mem_filter hm)
  · rw [hs]
    rfl
  · rw [hpayload]
    exact safe_json message.payload

theorem unsignedMembers_distinct (received : Api.Gateway.AgentMessage) (h : payload.distinct = true) :
    (Json.object (Api.Gateway.unsignedMembers received payload)).distinct = true := by
  refine Json.distinct_object (show List.Nodup ["type", "protocolVersion", "messageType",
    "messageId", "keyId", "environmentId", "agentId", "direction", "sequence", "sentAt",
    "payload"] by decide) fun m hm => ?_
  have hvalue : (∃ s, m.2 = .string s) ∨ m.2 = payload := by
    revert m
    simp [Api.Gateway.unsignedMembers]
  obtain ⟨s, hs⟩ | hpayload := hvalue
  · rw [hs]
    rfl
  · rw [hpayload]
    exact h

/-- A message of the gateway over the same bytes says the same. -/
theorem says_of_bytes {PrivateKey : Type} {lib : ProtocolLibraries PrivateKey}
    (hcanonical : Json.Canonicalizes lib.canonicalize) (hpayload : payload.distinct = true)
    (hreceived : received.payload = String.ofList payload.stringify)
    (h : lib.canonicalize (.object (Api.Gateway.unsignedMembers received payload)) =
      canonicalUnsignedBytes lib message) : Says received message := by
  have hordered := hcanonical.determined _ _ (unsignedMembers_distinct received hpayload)
    (unsigned_distinct message) (unsigned_safe message) h
  have htext (name : String) {s s' : String}
      (hs : Json.named name (Api.Gateway.unsignedMembers received payload) =
        [.string (jsString s)])
      (hs' : Json.named name message.unsigned = [.string (jsString s')]) : s = s' := by
    obtain ⟨v, hv, hsame⟩ := Json.named_of_ordered hordered name hs
    obtain rfl := (List.cons.inj (hv.symm.trans hs')).1
    exact Json.jsString_injective (Json.string.inj hsame).symm
  obtain ⟨v, hv, hsame⟩ := Json.named_of_ordered hordered "payload" (v := payload) rfl
  obtain rfl : v = message.payload.json := (List.cons.inj (hv.symm.trans rfl)).1
  exact {
    type := (htext "type" rfl rfl).symm
    protocolVersion := htext "protocolVersion" rfl rfl
    messageType := htext "messageType" rfl rfl
    messageId := htext "messageId" rfl rfl
    keyId := htext "keyId" rfl rfl
    environmentId := htext "environmentId" rfl rfl
    agentId := htext "agentId" rfl rfl
    direction := htext "direction" rfl rfl
    sequence := htext "sequence" rfl rfl
    sentAt := htext "sentAt" rfl rfl
    payload := ⟨payload, hreceived, hsame.symm⟩ }

end Same

/-! ## Signed messages -/

/-- The message as the gateway has it. -/
def AgentMessage.atGateway (message : AgentMessage) (direction : Api.Gateway.MessageDirection) :
    Api.Gateway.AgentMessage where
  protocolVersion := message.protocolVersion
  messageType := message.messageType
  messageId := message.messageId
  keyId := message.keyId
  environmentId := message.environmentId
  agentId := message.agentId
  direction
  sequence := message.sequence
  sentAt := message.sentAt
  payload := String.ofList message.payload.json.stringify
  signature := message.signature

/-- The message is one of the schema, in this direction. -/
structure Conforms (message : AgentMessage) (direction : Api.Gateway.MessageDirection) : Prop where
  type : message.type = Api.Gateway.agentMessageType
  directed : message.direction = direction.text
  unsigned : Api.Gateway.UnsignedAgentMessageSchema (message.atGateway direction) = true

section Signed

variable {PrivateKey : Type} {lib : ProtocolLibraries PrivateKey} {message : AgentMessage}
  {direction : Api.Gateway.MessageDirection} {key : PrivateKey} {body : Json JsString}

theorem isSignature_base64url {signature : List UInt8} (h : signature.length = 64) :
    Api.Gateway.isSignature (base64url signature) = true := by
  have htext : (base64url signature).toList = Base64Url.encode signature := String.toList_ofList
  have hlength := Base64Url.length_encode signature
  refine decide_eq_true ⟨?_, ?_⟩
  · rw [htext]
    omega
  · rw [htext, List.all_eq_true]
    intro c hc
    exact decide_eq_true (Base64Url.mem_alphabet_of_mem_encode hc)

theorem members_signMessage (h : Conforms message direction) :
    (signMessage lib message key).members =
      Api.Gateway.wireMembers ((signMessage lib message key).atGateway direction)
        message.payload.json := by
  show _ = Api.Gateway.unsignedMembers _ _ ++ _
  unfold AgentMessage.members Api.Gateway.unsignedMembers
  rw [show (signMessage lib message key).type = Api.Gateway.agentMessageType from h.type,
    show (signMessage lib message key).direction = direction.text from h.directed]
  rfl

/-- The gateway verifies a message over the bytes of what it says. -/
theorem signingBytes_of_says {received : Api.Gateway.AgentMessage} {payload : Json JsString}
    (hcanonical : Json.Canonicalizes lib.canonicalize)
    (hvalid : Api.Gateway.UnsignedAgentMessageSchema received = true)
    (hdistinct : payload.distinct = true)
    (hpayload : received.payload = String.ofList payload.stringify) (h : Says received message) :
    lib.agentMessageSigningBytes received = some (messageSigningBytes lib message) := by
  obtain ⟨payload', hpayload', hsame⟩ := h.payload
  obtain rfl : payload' = payload :=
    Json.stringify_injective (String.ofList_injective (hpayload'.symm.trans hpayload))
  have hparse : Json.parse received.payload.toList = some payload' := by
    rw [hpayload, String.toList_ofList]
    exact Json.parse_stringify payload'
  have hmembers : ((Api.Gateway.unsignedMembers received payload').map
      fun m => (m.1, m.2.ordered)) = message.unsigned.map fun m => (m.1, m.2.ordered) := by
    unfold Api.Gateway.unsignedMembers
    rw [← h.type, h.protocolVersion, h.messageType, h.messageId, h.keyId, h.environmentId,
      h.agentId, h.direction, h.sequence, h.sentAt]
    simp only [List.map_cons, hsame]
    rfl
  have hbytes := hcanonical.same _ _ (unsignedMembers_distinct received hdistinct)
    (unsigned_distinct message) (Json.ordered_congr hmembers)
  unfold ProtocolLibraries.agentMessageSigningBytes ProtocolLibraries.canonicalUnsignedBytes
  rw [if_pos hvalid, hparse, Option.map_some, Option.map_some, hbytes]
  rfl

/-- **What the agent signs is verified**: in any order of its members, the message is read as one
    that says the same, and its signature is that of the key. -/
theorem read_signed (hcanonical : Json.Canonicalizes lib.canonicalize) (hed : lib.ed.Correct)
    (h : Conforms message direction) (hbody : body.distinct = true)
    (hordered : body.ordered = (Json.object (signMessage lib message key).members).ordered) :
    ∃ received, Api.Gateway.AgentMessageSchema body = some received ∧ Says received message ∧
      received.direction = direction ∧
      lib.agentMessageSigningBytes received = some (messageSigningBytes lib message) ∧
      Api.Gateway.verifyAgentMessage lib.messages received (base64url (lib.ed.publicKey key)) =
        true := by
  rw [members_signMessage h] at hordered
  have hsignature : Api.Gateway.isSignature
      ((signMessage lib message key).atGateway direction).signature = true :=
    isSignature_base64url (hed.sign_length key (messageSigningBytes lib message))
  have hunsigned : Api.Gateway.UnsignedAgentMessageSchema
      ((signMessage lib message key).atGateway direction) = true := h.unsigned
  obtain ⟨payload, hsame, hread⟩ := Api.Gateway.schema_of_ordered hunsigned hsignature hordered
  obtain ⟨payload', hdistinct, hpayload⟩ := Api.Gateway.payload_of_schema hbody hread
  have hsaid : Says { (signMessage lib message key).atGateway direction with
      payload := String.ofList payload.stringify } message :=
    ⟨h.type, rfl, rfl, rfl, rfl, rfl, rfl, h.directed.symm, rfl, rfl, payload, rfl, hsame⟩
  have hbytes : lib.agentMessageSigningBytes { (signMessage lib message key).atGateway direction with
      payload := String.ofList payload.stringify } = some (messageSigningBytes lib message) :=
    signingBytes_of_says hcanonical hunsigned hdistinct hpayload hsaid
  exact ⟨_, hread, hsaid, rfl, hbytes, Api.Gateway.verifyAgentMessage_iff.mpr ⟨_, _, _,
    hed.publicKey_length key, hed.sign_length key _, rfl, rfl, hbytes, hed.verify_sign key _⟩⟩

/-- In whatever order the members are sent, the message is read and verified. -/
theorem read_signed_of_perm (hcanonical : Json.Canonicalizes lib.canonicalize)
    (hed : lib.ed.Correct) (h : Conforms message direction) {members : Json.Members JsString}
    (hperm : (signMessage lib message key).members.Perm members) :
    ∃ received, Api.Gateway.AgentMessageSchema (.object members) = some received ∧
      Says received message ∧
      Api.Gateway.verifyAgentMessage lib.messages received (base64url (lib.ed.publicKey key)) =
        true := by
  have hdistinct := members_distinct (signMessage lib message key)
  have hordered := Json.ordered_of_perm hperm (Json.distinct_object_iff.mp hdistinct).1
  obtain ⟨received, hread, hsaid, -, -, hverified⟩ :=
    read_signed hcanonical hed h (Json.distinct_of_perm hperm hdistinct) hordered.symm
  exact ⟨received, hread, hsaid, hverified⟩

end Signed

end ForgetOps.AgentProtocol
