import ForgetOps.Api.MessageAuthentication
import ForgetOps.Api.PairingProof
import ForgetOps.Library.CanonicalJson

/-
  The messages of agents as they are read and signed: `packages/contracts/src/agent-message.ts`.

  A body is a value of `JSON.parse`, in which no object has a name twice. `schema_of_ordered` says
  that the order of its members does not matter, and `verifyAgentMessage_iff` what is verified.
-/

namespace ForgetOps.Api.Gateway

open Json (JsString jsString required)
open Pairing (PairingLibraries)
open Signer (Ed25519 base64url signingMaterial)

/-! ## Schemas -/

/-- The literal of the field `type`. -/
def agentMessageType : String := "forgetops.agent-message"

def MessageDirection.text : MessageDirection → String
  | .controlToAgent => "control_to_agent"
  | .agentToControl => "agent_to_control"

/-- `z.string()`, of a string that is one of characters. -/
def readText (v : Json JsString) : Option String :=
  v.asString.bind fun us => (Utf16.text us).map String.ofList

/-- `z.enum(["control_to_agent", "agent_to_control"])`. -/
def readDirection (v : Json JsString) : Option MessageDirection := do
  let direction ← readText v
  if direction = MessageDirection.controlToAgent.text then some .controlToAgent
  else if direction = MessageDirection.agentToControl.text then some .agentToControl
  else none

def AgentSequenceSchema (value : String) : Bool :=
  isSequence value.toList && (bigInt value).any (· ≤ maxU64)

/-- The fields that are not of one type alone. -/
def UnsignedAgentMessageSchema (message : AgentMessage) : Bool :=
  message.protocolVersion = "1.0" ∧ message.messageType ≠ "" ∧ message.messageId ≠ "" ∧
    message.keyId ≠ "" ∧ message.environmentId ≠ "" ∧ message.agentId ≠ "" ∧
    AgentSequenceSchema message.sequence ∧ IsoTimestamp.isDatetime message.sentAt

/-- `/^[A-Za-z0-9_-]{86}$/`. -/
def isSignature (value : String) : Bool :=
  value.toList.length = 86 ∧ value.toList.all fun c => c ∈ Base64Url.alphabet

def messageNames : List String :=
  ["type", "protocolVersion", "messageType", "messageId", "keyId", "environmentId", "agentId",
    "direction", "sequence", "sentAt", "payload", "signature"]

/-- What `safeParse` answers for a body, if it is a success. -/
def AgentMessageSchema : Json JsString → Option AgentMessage :=
  Json.strict messageNames fun members => do
    let type ← required readText "type" members
    let protocolVersion ← required readText "protocolVersion" members
    let messageType ← required readText "messageType" members
    let messageId ← required readText "messageId" members
    let keyId ← required readText "keyId" members
    let environmentId ← required readText "environmentId" members
    let agentId ← required readText "agentId" members
    let direction ← required readDirection "direction" members
    let sequence ← required readText "sequence" members
    let sentAt ← required readText "sentAt" members
    let payload ← required some "payload" members
    let signature ← required readText "signature" members
    let message : AgentMessage := {
      protocolVersion, messageType, messageId, keyId, environmentId, agentId, direction, sequence,
      sentAt, payload := String.ofList payload.stringify, signature }
    if type = agentMessageType ∧ UnsignedAgentMessageSchema message ∧ isSignature signature then
      some message
    else none

/-! ## Signing bytes -/

/-- The text of `signingContext`. -/
def messageSigningContext : String := "forgetops.agent-message.v1"

/-- What `UnsignedAgentMessageSchema.parse` answers for a message of this payload. -/
def unsignedMembers (message : AgentMessage) (payload : Json JsString) : Json.Members JsString :=
  [("type", .string (jsString agentMessageType)),
    ("protocolVersion", .string (jsString message.protocolVersion)),
    ("messageType", .string (jsString message.messageType)),
    ("messageId", .string (jsString message.messageId)),
    ("keyId", .string (jsString message.keyId)),
    ("environmentId", .string (jsString message.environmentId)),
    ("agentId", .string (jsString message.agentId)),
    ("direction", .string (jsString message.direction.text)),
    ("sequence", .string (jsString message.sequence)),
    ("sentAt", .string (jsString message.sentAt)),
    ("payload", payload)]

/-- What is not under the source: RFC 8785, Ed25519 and SHA-256. -/
structure ProtocolLibraries (PrivateKey : Type) where
  canonicalize : Json JsString → List UInt8
  ed : Ed25519 PrivateKey
  sha256 : List UInt8 → Domain.Digest

namespace ProtocolLibraries

variable {PrivateKey : Type} (lib : ProtocolLibraries PrivateKey)

def canonicalUnsignedBytes (message : AgentMessage) : Option (List UInt8) :=
  if UnsignedAgentMessageSchema message then
    (Json.parse message.payload.toList).map fun payload =>
      lib.canonicalize (.object (unsignedMembers message payload))
  else none

def agentMessageSigningBytes (message : AgentMessage) : Option (List UInt8) :=
  (lib.canonicalUnsignedBytes message).map (signingMaterial messageSigningContext)

/-- The pairing of agents by the same functions. -/
def pairing : PairingLibraries PrivateKey where
  canonicalize v := lib.canonicalize (v.mapStrings jsString)
  ed := lib.ed
  sha256 := lib.sha256

/-- `Buffer.from(value, "base64url")` reads nothing where the length is off, which is not written
    back as `value`; `keyIdForPublicKey` throws where there is no key. -/
def messages : MessageLibraries where
  keyIdForPublicKey key := (Pairing.keyIdForPublicKey lib.pairing "ed25519" key).getD ""
  decodeBase64Url value := (Base64Url.decodeForgiving value.toList).getD []
  encodeBase64Url := base64url
  agentMessageSigningBytes := lib.agentMessageSigningBytes
  verify := lib.ed.verify

end ProtocolLibraries

/-! ## What is read -/

theorem readText_jsString (s : String) : readText (.string (jsString s)) = some s := by
  show (Utf16.text (jsString s)).map String.ofList = some s
  rw [Json.text_jsString, Option.map_some, String.ofList_toList]

theorem readDirection_text (direction : MessageDirection) :
    readDirection (.string (jsString direction.text)) = some direction := by
  unfold readDirection
  rw [readText_jsString]
  cases direction with
  | controlToAgent | agentToControl => rfl

/-- A message on the wire. -/
def wireMembers (message : AgentMessage) (payload : Json JsString) : Json.Members JsString :=
  unsignedMembers message payload ++ [("signature", .string (jsString message.signature))]

/-- A message is read in any order of its members. -/
theorem schema_of_ordered {message : AgentMessage} {payload body : Json JsString}
    (hvalid : UnsignedAgentMessageSchema message = true)
    (hsignature : isSignature message.signature = true)
    (hbody : body.ordered = (Json.object (wireMembers message payload)).ordered) :
    ∃ payload' : Json JsString, payload'.ordered = payload.ordered ∧ AgentMessageSchema body =
      some { message with payload := String.ofList payload'.stringify } := by
  obtain ⟨members, rfl⟩ := Json.ordered_eq_object hbody
  have htext (name : String) {s : String}
      (h : Json.named name (wireMembers message payload) = [.string (jsString s)]) :
      required readText name members = some s := by
    obtain ⟨v, hv, hsame⟩ := Json.named_of_ordered hbody.symm name h
    rw [Json.required_of_named hv, Json.ordered_eq_string hsame]
    exact readText_jsString s
  have hdirection : required readDirection "direction" members = some message.direction := by
    obtain ⟨v, hv, hsame⟩ := Json.named_of_ordered hbody.symm "direction" rfl
    rw [Json.required_of_named hv, Json.ordered_eq_string hsame]
    exact readDirection_text message.direction
  obtain ⟨payload', hpayload, hsame⟩ := Json.named_of_ordered hbody.symm "payload" rfl
  have hread : required some "payload" members = some payload' := Json.required_of_named hpayload
  refine ⟨payload', hsame, ?_⟩
  unfold AgentMessageSchema
  rw [Json.strict_object (Json.onlyNames_of_ordered hbody.symm messageNames rfl),
    htext "type" rfl, htext "protocolVersion" rfl, htext "messageType" rfl, htext "messageId" rfl,
    htext "keyId" rfl, htext "environmentId" rfl, htext "agentId" rfl, hdirection,
    htext "sequence" rfl, htext "sentAt" rfl, hread, htext "signature" rfl]
  exact if_pos ⟨rfl, hvalid, hsignature⟩

/-- The payload of a message that was read is the text of a value. -/
theorem payload_of_schema {body : Json JsString} (hbody : body.distinct) {message : AgentMessage}
    (h : AgentMessageSchema body = some message) :
    ∃ payload : Json JsString, payload.distinct ∧
      message.payload = String.ofList payload.stringify := by
  cases body with
  | object members =>
    have h : (if Json.onlyNames messageNames members then _ else none) = some message := h
    split_ifs at h
    iterate 10 obtain ⟨_, -, h⟩ := Option.bind_eq_some_iff.mp h
    obtain ⟨payload, hpayload, h⟩ := Option.bind_eq_some_iff.mp h
    obtain ⟨signature, -, h⟩ := Option.bind_eq_some_iff.mp h
    dsimp only at h
    split_ifs at h
    obtain rfl := Option.some.inj h
    obtain ⟨v, hv, hread⟩ := Json.required_eq_some.mp hpayload
    obtain rfl := Option.some.inj hread
    exact ⟨v, Json.distinct_of_named hbody hv, rfl⟩
  | _ => cases h

/-! ## What is verified -/

section Verified

variable {PrivateKey : Type} {lib : ProtocolLibraries PrivateKey}

theorem isAlphanum_of_mem_alphabet {c : Char} (h : c ∈ Base64Url.alphabet) :
    c.isAlphanum = true ∨ c = '_' ∨ c = '-' := by
  have hall : (Base64Url.alphabet.all fun c => c.isAlphanum ∨ c = '_' ∨ c = '-') = true := by decide
  exact of_decide_eq_true (List.all_eq_true.mp hall c h)

theorem decodeCanonicalBase64Url_iff {value : String} {bytes : List UInt8} (hne : bytes ≠ []) :
    decodeCanonicalBase64Url lib.messages value = some bytes ↔ value = base64url bytes := by
  have htext : (base64url bytes).toList = Base64Url.encode bytes := String.toList_ofList
  have hread : lib.messages.decodeBase64Url (base64url bytes) = bytes := by
    show (Base64Url.decodeForgiving (base64url bytes).toList).getD [] = bytes
    rw [htext, Base64Url.decodeForgiving_of_decode (Base64Url.decode_encode bytes)]
    rfl
  unfold decodeCanonicalBase64Url
  constructor
  · intro h
    split_ifs at h with _ hcanonical
    obtain rfl := Option.some.inj h
    exact (not_not.mp hcanonical).symm
  · rintro rfl
    have hnonempty : base64url bytes ≠ "" :=
      Pairing.base64url_ne rfl (List.length_pos_of_ne_nil hne)
    have hplain : ¬ ((base64url bytes).toList.any
        fun c => ¬ (c.isAlphanum ∨ c = '_' ∨ c = '-')) = true := by
      rw [htext, List.any_eq_true]
      intro hany
      obtain ⟨c, hc, hother⟩ := hany
      have halphabet := Base64Url.mem_alphabet_of_mem_encode hc
      exact of_decide_eq_true hother (isAlphanum_of_mem_alphabet halphabet)
    rw [if_neg (not_or.mpr ⟨hnonempty, hplain⟩), hread]
    exact if_neg (not_not.mpr rfl)

/-- A signature is verified over the bytes of the message, under a key of 32 bytes. -/
theorem verifyAgentMessage_iff {message : AgentMessage} {publicKey : String} :
    verifyAgentMessage lib.messages message publicKey = true ↔
      ∃ key signature bytes, key.length = 32 ∧ signature.length = 64 ∧
        publicKey = base64url key ∧ message.signature = base64url signature ∧
        lib.agentMessageSigningBytes message = some bytes ∧
        lib.ed.verify key bytes signature = true := by
  have hne {bytes : List UInt8} {n : Nat} (h : bytes.length = n) (hn : 0 < n) : bytes ≠ [] := by
    rintro rfl
    exact hn.ne h
  constructor
  · intro h
    unfold verifyAgentMessage at h
    split at h
    · next key signature bytes hkey hsignature hbytes =>
      obtain ⟨hkeyLength, hsignatureLength, hverified⟩ := of_decide_eq_true h
      refine ⟨key, signature, bytes, hkeyLength, hsignatureLength, ?_, ?_, hbytes, hverified⟩
      · exact (decodeCanonicalBase64Url_iff (hne hkeyLength (by decide))).mp hkey
      · exact (decodeCanonicalBase64Url_iff (hne hsignatureLength (by decide))).mp hsignature
    · cases h
  · rintro ⟨key, signature, bytes, hkeyLength, hsignatureLength, hkey, hsignature, hbytes, hverified⟩
    have hkeyRead : decodeCanonicalBase64Url lib.messages publicKey = some key :=
      (decodeCanonicalBase64Url_iff (hne hkeyLength (by decide))).mpr hkey
    have hsignatureRead : decodeCanonicalBase64Url lib.messages message.signature = some signature :=
      (decodeCanonicalBase64Url_iff (hne hsignatureLength (by decide))).mpr hsignature
    have hbytesRead : lib.messages.agentMessageSigningBytes message = some bytes := hbytes
    unfold verifyAgentMessage
    rw [hkeyRead, hsignatureRead, hbytesRead]
    exact decide_eq_true ⟨hkeyLength, hsignatureLength, hverified⟩

end Verified

end ForgetOps.Api.Gateway
