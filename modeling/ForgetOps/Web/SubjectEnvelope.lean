import ForgetOps.Agent.Subject
import ForgetOps.Api.SubjectEnvelopes
import ForgetOps.Domain.Audit
import ForgetOps.Library.Base64Url
import ForgetOps.Sdk.Responses

/-
  Subject envelopes: `encryptSubject` (`apps/web/lib/subject-envelope.ts`),
  `validateSerializedEnvelope`
  (`apps/api/src/modules/privacy-requests/subject-envelope-service.ts`) and
  `decrypt_subject_envelope` (`agent/crates/agent-store/src/crypto.rs`).

  The primitives are those of `Crypto`, for both sides; what the generators of random bytes
  answer is given. So are the readers of JSON, `JSON.parse` and `serde_json::from_slice`, and
  the canonical serializer. The options are texts, as their type has them, and the envelope has
  one type for its three users.
-/

namespace ForgetOps.Envelopes

open AdapterHttp (asText)
open AdapterSdk (ecmaTrim text)
open Api.SubjectEnvelopes (StoreSubjectEnvelopeInput)
open Connector (SubjectIdentity)
open Domain (Digest toHex)
open Guards
open Json

/-! ## Primitives -/

/-- SHA-256, X25519, HKDF and AES-GCM. `deriveBits` of the browser refuses the points of small
    order; where it answers, it answers what `diffieHellman` answers at the other side. -/
structure Crypto where
  sha256 : List UInt8 → Digest
  publicKey : List UInt8 → List UInt8
  deriveBits (secret publicKey : List UInt8) : Option (List UInt8)
  diffieHellman (secret publicKey : List UInt8) : List UInt8
  hkdf (salt secret info : List UInt8) : List UInt8
  encrypt (key iv additionalData plaintext : List UInt8) : List UInt8
  decrypt (key iv additionalData ciphertext : List UInt8) : Option (List UInt8)
  length_publicKey (secret : List UInt8) : (publicKey secret).length = 32
  agree {secret other shared : List UInt8} :
    deriveBits secret (publicKey other) = some shared →
      diffieHellman other (publicKey secret) = shared
  length_encrypt (key iv additionalData plaintext : List UInt8) :
    (encrypt key iv additionalData plaintext).length = plaintext.length + 16
  decrypt_encrypt (key iv additionalData plaintext : List UInt8) :
    decrypt key iv additionalData (encrypt key iv additionalData plaintext) = some plaintext

/-- What `generateKey` and `getRandomValues` answer. -/
structure Randomness where
  ephemeralKey : List UInt8
  salt : List UInt8
  iv : List UInt8
  length_salt : salt.length = 32
  length_iv : iv.length = 12

def SUBJECT_ENVELOPE_VERSION : Nat := 1

def SUBJECT_ENVELOPE_ALGORITHM : String := "X25519-HKDF-SHA256-AES-256-GCM"

def HKDF_INFO : List UInt8 := utf8 "forgetops.subject-envelope.v1".toList

/-- `x25519:sha256:…` of a public key. -/
def keyId (crypto : Crypto) (publicKey : List UInt8) : String :=
  "x25519:sha256:" ++ toHex (crypto.sha256 publicKey).val

/-! ## Envelopes -/

structure SubjectEnvelope where
  version : Nat
  algorithm : String
  requestId : String
  environmentId : String
  encryptionKeyId : String
  ephemeralPublicKey : String
  salt : String
  iv : String
  ciphertext : String
  deriving DecidableEq, Repr

/-- The envelope as `JSON.stringify` writes it. -/
def SubjectEnvelope.json (envelope : SubjectEnvelope) : Json JsString :=
  .object [("version", .number envelope.version), ("algorithm", text envelope.algorithm),
    ("requestId", text envelope.requestId), ("environmentId", text envelope.environmentId),
    ("encryptionKeyId", text envelope.encryptionKeyId),
    ("ephemeralPublicKey", text envelope.ephemeralPublicKey), ("salt", text envelope.salt),
    ("iv", text envelope.iv), ("ciphertext", text envelope.ciphertext)]

/-- The scope of an envelope, which is authenticated with its contents. -/
def envelopeMetadata (encryptionKeyId environmentId requestId : String) : Json JsString :=
  .object [("encryptionKeyId", text encryptionKeyId), ("environmentId", text environmentId),
    ("requestId", text requestId)]

/-! ## Subjects -/

/-- A property that is there: `undefined`, a string or something else. -/
inductive Property where
  | undefined
  | string (s : String)
  | other
  deriving DecidableEq, Repr

def Property.value : Property → Option String
  | .string s => some s
  | _ => none

/-- An object by its own properties, in order. -/
structure JsObject where
  properties : List (String × Property)
  nodup : (properties.map Prod.fst).Nodup

/-- What is passed for a subject: an object, or an array or no object at all. -/
inductive Subject where
  | object (object : JsObject)
  | other

def JsObject.get (object : JsObject) (name : String) : Property :=
  (object.properties.lookup name).getD .undefined

/-- An object of texts as `JSON.stringify` writes it. -/
def JsObject.json (object : JsObject) : Json JsString :=
  .object (object.properties.filterMap fun property =>
    property.2.value.map fun s => (property.1, text s))

/-- The identity that is passed. -/
def JsObject.identity (object : JsObject) : SubjectIdentity where
  applicationUserId := (object.get "applicationUserId").value
  email := (object.get "email").value

/-- `!value || !value.trim()`. -/
def isBlank (value : Property) : Bool :=
  value.value.all fun s => s = "" ∨ ecmaTrim s = ""

/-- The object that has been validated is answered. -/
def validateSubject (subject : Subject) : Except String JsObject :=
  match subject with
  | .other => throw "SUBJECT_IDENTIFIER_INVALID"
  | .object subject => do
    refuse (subject.properties.any fun property =>
      property.1 ≠ "applicationUserId" ∧ property.1 ≠ "email") "SUBJECT_IDENTIFIER_INVALID"
    refuse (subject.get "applicationUserId" = .other) "SUBJECT_IDENTIFIER_INVALID"
    refuse (subject.get "email" = .other) "SUBJECT_IDENTIFIER_INVALID"
    refuse (isBlank (subject.get "applicationUserId") ∧ isBlank (subject.get "email"))
      "SUBJECT_IDENTIFIER_REQUIRED"
    return subject

/-! ## Encryption -/

structure SubjectEncryptionOptions where
  environmentId : String
  requestId : String
  publicKey : String
  encryptionKeyId : String
  deriving DecidableEq, Repr

/-- `/^x25519:sha256:[0-9a-f]{64}$/`. -/
def isKeyId (s : String) : Bool :=
  let tail := s.toList.drop 14
  s.toList.take 14 = "x25519:sha256:".toList ∧ tail.length = 64 ∧
    tail.all fun c => ('0' ≤ c ∧ c ≤ '9') ∨ ('a' ≤ c ∧ c ≤ 'f')

def validateScope (options : SubjectEncryptionOptions) : Except String Unit := do
  refuse (ecmaTrim options.environmentId = "" ∨ ecmaTrim options.requestId = "")
    "SUBJECT_ENVELOPE_SCOPE_REQUIRED"
  refuse (!isKeyId options.encryptionKeyId) "SUBJECT_ENVELOPE_KEY_ID_REQUIRED"

/-- `/^[A-Za-z0-9_-]+$/`. -/
def isBase64Url (value : String) : Bool :=
  value ≠ "" ∧ value.toList.all fun c => c ∈ Base64Url.alphabet

/-- `atob` throws where a single character is left. -/
def decodeBase64Url (value : String) : Except String (List UInt8) := do
  refuse (!isBase64Url value) "SUBJECT_ENVELOPE_BASE64_INVALID"
  okOr (Base64Url.decodeForgiving value.toList) "InvalidCharacterError"

def encodeBase64Url (bytes : List UInt8) : String := String.ofList (Base64Url.encode bytes)

/-- The envelope of a subject for the key that follows from the shared secret. -/
def sealEnvelope (crypto : Crypto) (random : Randomness) (options : SubjectEncryptionOptions)
    (sharedSecret : List UInt8) (subject : JsObject) : SubjectEnvelope :=
  let encryptionKey := crypto.hkdf random.salt sharedSecret HKDF_INFO
  let metadata :=
    envelopeMetadata options.encryptionKeyId options.environmentId options.requestId
  let ciphertext := crypto.encrypt encryptionKey random.iv (encode metadata) (encode subject.json)
  { version := SUBJECT_ENVELOPE_VERSION
    algorithm := SUBJECT_ENVELOPE_ALGORITHM
    requestId := options.requestId
    environmentId := options.environmentId
    encryptionKeyId := options.encryptionKeyId
    ephemeralPublicKey := encodeBase64Url (crypto.publicKey random.ephemeralKey)
    salt := encodeBase64Url random.salt
    iv := encodeBase64Url random.iv
    ciphertext := encodeBase64Url ciphertext }

def encryptSubject (cryptoProvider : Option Crypto) (random : Randomness) (subject : Subject)
    (options : SubjectEncryptionOptions) : Except String SubjectEnvelope := do
  let subject ← validateSubject subject
  validateScope options
  let crypto ← okOr cryptoProvider "SUBJECT_ENVELOPE_CRYPTO_UNAVAILABLE"
  let recipientPublicKeyBytes ← decodeBase64Url options.publicKey
  refuse (recipientPublicKeyBytes.length ≠ 32) "SUBJECT_ENVELOPE_PUBLIC_KEY_INVALID"
  refuse (keyId crypto recipientPublicKeyBytes ≠ options.encryptionKeyId)
    "SUBJECT_ENVELOPE_KEY_ID_MISMATCH"
  let sharedSecret ← okOr (crypto.deriveBits random.ephemeralKey recipientPublicKeyBytes)
    "OperationError"
  return sealEnvelope crypto random options sharedSecret subject

/-! ## Storing -/

/-- A property of a parsed object. -/
def property (name : String) (members : Members JsString) : Option (Json JsString) :=
  members.lookup name

def isNumber (n : Int) (value : Option (Json JsString)) : Bool :=
  match value with
  | some (.number k) => k = n
  | _ => false

def isText (s : String) (value : Option (Json JsString)) : Bool :=
  value.bind asString = some (jsString s)

/-- `Object.keys(envelope).sort().join("\0")`. -/
def sortedKeys (names : List String) : String :=
  String.ofList (List.intercalate ['\x00']
    ((names.insertionSort fun a b => jsString a ≤ jsString b).map String.toList))

def expectedKeys : List String :=
  ["algorithm", "ciphertext", "encryptionKeyId", "environmentId", "ephemeralPublicKey", "iv",
    "requestId", "salt", "version"]

/-- `Buffer.from(value, "base64url")` reads three bytes from four characters, and no byte from a
    single one. -/
def isBase64UrlBytes (value : Option (Json JsString)) (exactLength : Option Nat)
    (minimumLength : Nat) : Bool :=
  match value.bind asText with
  | none => false
  | some value =>
    let length := value.toList.length * 3 / 4
    isBase64Url value ∧ exactLength.all (length = ·) ∧ minimumLength ≤ length

def validateSerializedEnvelope (parse : List Char → Option (Json JsString))
    (input : StoreSubjectEnvelopeInput) : Except String Unit := do
  let value ← okOr (parse input.ciphertext.toList) "SUBJECT_ENVELOPE_FORMAT_INVALID"
  match value with
  | .object envelope =>
    refuse (sortedKeys (envelope.map Prod.fst) ≠
          String.ofList (List.intercalate ['\x00'] (expectedKeys.map String.toList)) ∨
        !isNumber 1 (property "version" envelope) ∨
        !isText "X25519-HKDF-SHA256-AES-256-GCM" (property "algorithm" envelope) ∨
        !isText input.environmentId (property "environmentId" envelope) ∨
        !isText input.requestId (property "requestId" envelope) ∨
        !isText input.encryptionKeyId (property "encryptionKeyId" envelope) ∨
        !isBase64UrlBytes (property "ephemeralPublicKey" envelope) (some 32) 0 ∨
        !isBase64UrlBytes (property "salt" envelope) (some 32) 0 ∨
        !isBase64UrlBytes (property "iv" envelope) (some 12) 0 ∨
        !isBase64UrlBytes (property "ciphertext" envelope) none 16)
      "SUBJECT_ENVELOPE_FORMAT_INVALID"
  | _ => throw "SUBJECT_ENVELOPE_FORMAT_INVALID"

/-! ## Decryption -/

inductive SubjectEnvelopeError where
  | subjectEnvelopeInvalid
  deriving DecidableEq, Repr

/-- The secret of the agent's encryption key. -/
structure AgentIdentity where
  encryptionKey : List UInt8

def PUBLIC_KEY_BYTES : Nat := 32

def SALT_BYTES : Nat := 32

def NONCE_BYTES : Nat := 12

def TAG_BYTES : Nat := 16

def AgentIdentity.encryptionKeyId (crypto : Crypto) (identity : AgentIdentity) : String :=
  keyId crypto (crypto.publicKey identity.encryptionKey)

/-- The members of a `SubjectEnvelopeCiphertext`. -/
def readSubjectEnvelope (members : Members JsString) : Option SubjectEnvelope := do
  let version ← required (asUnsigned 32) "version" members
  let algorithm ← required asText "algorithm" members
  let requestId ← required asText "requestId" members
  let environmentId ← required asText "environmentId" members
  let encryptionKeyId ← required asText "encryptionKeyId" members
  let ephemeralPublicKey ← required asText "ephemeralPublicKey" members
  let salt ← required asText "salt" members
  let iv ← required asText "iv" members
  let ciphertext ← required asText "ciphertext" members
  return ⟨version, algorithm, requestId, environmentId, encryptionKeyId, ephemeralPublicKey, salt,
    iv, ciphertext⟩

/-- The derived deserializer of `SubjectEnvelopeCiphertext`. -/
def asSubjectEnvelope : Json JsString → Option SubjectEnvelope :=
  strict ["version", "algorithm", "requestId", "environmentId", "encryptionKeyId",
    "ephemeralPublicKey", "salt", "iv", "ciphertext"] readSubjectEnvelope

/-- The members of a `SubjectIdentity`. -/
def readSubjectIdentity (members : Members JsString) : Option SubjectIdentity := do
  let applicationUserId ← Json.optional asText "applicationUserId" members
  let email ← Json.optional asText "email" members
  return ⟨applicationUserId, email⟩

/-- The derived deserializer of `SubjectIdentity`. -/
def asSubjectIdentity : Json JsString → Option SubjectIdentity :=
  strict ["applicationUserId", "email"] readSubjectIdentity

/-- `validate_scope`. -/
def validateEnvelopeScope (crypto : Crypto) (identity : AgentIdentity)
    (expectedEnvironmentId expectedRequestId : String) (envelope : SubjectEnvelope) :
    Except SubjectEnvelopeError Unit :=
  refuse (envelope.version ≠ SUBJECT_ENVELOPE_VERSION ∨
      envelope.algorithm ≠ SUBJECT_ENVELOPE_ALGORITHM ∨
      envelope.environmentId ≠ expectedEnvironmentId ∨
      envelope.requestId ≠ expectedRequestId ∨
      envelope.encryptionKeyId ≠ identity.encryptionKeyId crypto)
    .subjectEnvelopeInvalid

def decodeExact (n : Nat) (value : String) : Except SubjectEnvelopeError (List UInt8) := do
  let bytes ← okOr (Base64Url.decode value.toList) .subjectEnvelopeInvalid
  refuse (bytes.length ≠ n) .subjectEnvelopeInvalid
  return bytes

def canonicalAad (toVec : Json JsString → Option (List UInt8)) (envelope : SubjectEnvelope) :
    Except SubjectEnvelopeError (List UInt8) :=
  okOr (toVec (envelopeMetadata envelope.encryptionKeyId envelope.environmentId envelope.requestId))
    .subjectEnvelopeInvalid

def decryptSubjectEnvelope (crypto : Crypto) (toVec : Json JsString → Option (List UInt8))
    (fromSlice : List UInt8 → Option (Json JsString)) (identity : AgentIdentity)
    (expectedEnvironmentId expectedRequestId : String) (envelope : SubjectEnvelope) :
    Except SubjectEnvelopeError SubjectIdentity := do
  validateEnvelopeScope crypto identity expectedEnvironmentId expectedRequestId envelope
  let ephemeralPublicKey ← decodeExact PUBLIC_KEY_BYTES envelope.ephemeralPublicKey
  let salt ← decodeExact SALT_BYTES envelope.salt
  let nonce ← decodeExact NONCE_BYTES envelope.iv
  let ciphertext ← okOr (Base64Url.decode envelope.ciphertext.toList) .subjectEnvelopeInvalid
  refuse (ciphertext.length < TAG_BYTES) .subjectEnvelopeInvalid
  let sharedSecret := crypto.diffieHellman identity.encryptionKey ephemeralPublicKey
  let key := crypto.hkdf salt sharedSecret HKDF_INFO
  let aad ← canonicalAad toVec envelope
  let plaintext ← okOr (crypto.decrypt key nonce aad ciphertext) .subjectEnvelopeInvalid
  okOr ((fromSlice plaintext).bind asSubjectIdentity) .subjectEnvelopeInvalid

end ForgetOps.Envelopes
