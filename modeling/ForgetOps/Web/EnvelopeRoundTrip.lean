import ForgetOps.Web.SubjectEnvelope
import Mathlib.Data.List.TakeWhile

/-
  From the browser to the agent: what `encryptSubject` answers is stored and decrypted to the
  identity that was passed.

  The agent knows less characters than the browser does: U+0085 is white space to it alone, so a
  subject of nothing else has an envelope but no canonical identity (`roundTrip_iff`).
-/

namespace ForgetOps.Envelopes

open AdapterHttp (asText asText_text)
open AdapterSdk (text)
open Agent.Subject (canonicalIdentity canonicalIdentity_isOk_iff)
open Api.SubjectEnvelopes (StoreSubjectEnvelopeInput)
open Connector (SubjectIdentity isWhitespace trim nonEmpty)
open Database (Timestamp)
open Guards
open Json

/-! ## White space -/

theorem trim_eq_empty_iff {s : String} : trim s = "" ↔ ∀ c ∈ s.toList, isWhitespace c = true := by
  have hlist : ∀ cs : List Char, String.ofList cs = "" ↔ cs = [] := by
    intro cs
    rw [← String.toList_inj, String.toList_ofList]
    rfl
  unfold trim
  rw [hlist, List.reverse_eq_nil_iff, List.dropWhile_eq_nil_iff]
  constructor
  · intro h c hc
    rw [← List.takeWhile_append_dropWhile (p := isWhitespace) (l := s.toList), List.mem_append] at hc
    cases hc with
    | inl hc => exact List.mem_takeWhile_imp hc
    | inr hc => exact h c (List.mem_reverse.mpr hc)
  · intro h c hc
    exact h c (List.dropWhile_subset _ (List.mem_reverse.mp hc))

/-- A character that is there to be seen. -/
def Visible (value : Option String) : Prop :=
  ∃ s, value = some s ∧ ∃ c ∈ s.toList, isWhitespace c = false

theorem nonEmpty_iff {value : Option String} : nonEmpty value ≠ none ↔ Visible value := by
  unfold nonEmpty Visible
  cases value with
  | none => simp
  | some s =>
    rw [Option.map_some, Ne, Option.filter_eq_none_iff]
    simp [trim_eq_empty_iff]

/-! ## Subjects -/

theorem validateSubject_ok {subject : Subject} {object : JsObject}
    (h : validateSubject subject = .ok object) :
    subject = .object object ∧
      ∀ property ∈ object.properties,
        property.1 = "applicationUserId" ∨ property.1 = "email" := by
  unfold validateSubject at h
  cases subject with
  | other => cases h
  | object subject =>
    simp only [refuse_bind_ok, pure_ok] at h
    obtain ⟨hkeys, -, -, -, rfl⟩ := h
    refine ⟨rfl, fun property hmem => ?_⟩
    rw [List.any_eq_true, not_exists] at hkeys
    have hkey := hkeys property
    grind

/-- An object has one member under the name of a text, and none under another name. -/
theorem named_texts {properties : List (String × Property)}
    (hnodup : (properties.map Prod.fst).Nodup) (name : String) :
    named name (properties.filterMap fun property =>
        property.2.value.map fun s => (property.1, text s)) =
      ((properties.lookup name).bind Property.value).toList.map text := by
  induction properties with
  | nil => rfl
  | cons property properties ih =>
    obtain ⟨key, value⟩ := property
    rw [List.map_cons, List.nodup_cons] at hnodup
    have htail := ih hnodup.2
    have hhead : named name (List.filterMap (fun property : String × Property =>
        property.2.value.map fun s => (property.1, text s)) ((key, value) :: properties)) =
        (if key = name then value.value.toList.map text else []) ++
          named name (properties.filterMap fun property =>
            property.2.value.map fun s => (property.1, text s)) := by
      cases hvalue : value.value with
      | none => simp [hvalue]
      | some s =>
        simp only [List.filterMap_cons, hvalue, Option.map_some, named_cons]
        split_ifs <;> simp
    rw [hhead, htail, List.lookup_cons]
    by_cases hkey : key = name
    · subst hkey
      have hnone : properties.lookup key = none := by
        rw [List.lookup_eq_none_iff]
        intro property hmem
        have hne : property.1 ≠ key := by
          intro heq
          exact hnodup.1 (List.mem_map.mpr ⟨property, hmem, heq⟩)
        simpa using hne.symm
      simp [hnone]
    · have hne : (name == key) = false := by simpa using fun heq => hkey heq.symm
      simp [hkey, hne]

theorem optional_texts {value : Option String} {name : String} {members : Members JsString}
    (h : named name members = value.toList.map text) :
    Json.optional asText name members = some value := by
  unfold Json.optional
  rw [h]
  cases value with
  | none => rfl
  | some s =>
    show (asText (text s)).map some = some (some s)
    rw [asText_text, Option.map_some]

theorem get_value (object : JsObject) (name : String) :
    (object.get name).value = (object.properties.lookup name).bind Property.value := by
  unfold JsObject.get
  cases object.properties.lookup name <;> rfl

/-- The agent reads the identity that was written. -/
theorem asSubjectIdentity_json {object : JsObject}
    (hkeys : ∀ property ∈ object.properties,
      property.1 = "applicationUserId" ∨ property.1 = "email") :
    asSubjectIdentity object.json = some object.identity := by
  have honly : onlyNames ["applicationUserId", "email"] (object.properties.filterMap fun property =>
      property.2.value.map fun s => (property.1, text s)) = true := by
    unfold onlyNames
    rw [List.all_eq_true]
    intro member hmem
    rw [List.mem_filterMap] at hmem
    obtain ⟨property, hproperty, hvalue⟩ := hmem
    rw [Option.map_eq_some_iff] at hvalue
    obtain ⟨s, -, rfl⟩ := hvalue
    have hkey := hkeys property hproperty
    simpa using hkey
  have huser := optional_texts (named_texts object.nodup "applicationUserId")
  have hemail := optional_texts (named_texts object.nodup "email")
  unfold asSubjectIdentity JsObject.json
  rw [strict_object honly, readSubjectIdentity, huser, hemail, ← get_value, ← get_value]
  rfl

/-! ## Bytes -/

theorem decode_encodeBase64Url (bytes : List UInt8) :
    Base64Url.decode (encodeBase64Url bytes).toList = some bytes := by
  unfold encodeBase64Url
  rw [String.toList_ofList, Base64Url.decode_encode]

theorem isBase64Url_encode {bytes : List UInt8} (hne : bytes ≠ []) :
    isBase64Url (encodeBase64Url bytes) = true := by
  have hnonempty : encodeBase64Url bytes ≠ "" := by
    intro heq
    have hdecode := decode_encodeBase64Url bytes
    rw [heq] at hdecode
    exact hne (Option.some.inj hdecode).symm
  have hall : (encodeBase64Url bytes).toList.all (fun c => decide (c ∈ Base64Url.alphabet)) = true := by
    rw [List.all_eq_true]
    intro c hc
    unfold encodeBase64Url at hc
    rw [String.toList_ofList] at hc
    exact decide_eq_true (Base64Url.mem_alphabet_of_mem_encode hc)
  unfold isBase64Url
  exact decide_eq_true ⟨hnonempty, hall⟩

/-- A public key that was written is read. -/
theorem decodeBase64Url_encode {bytes : List UInt8} (hne : bytes ≠ []) :
    decodeBase64Url (encodeBase64Url bytes) = .ok bytes := by
  have hread := Base64Url.decodeForgiving_of_decode (decode_encodeBase64Url bytes)
  unfold decodeBase64Url
  rw [isBase64Url_encode hne, hread]
  rfl

theorem isBase64UrlBytes_encode {bytes : List UInt8} {exactLength : Option Nat}
    {minimumLength : Nat} (hne : bytes ≠ [])
    (hexact : exactLength.all (bytes.length = ·) = true) (hmin : minimumLength ≤ bytes.length) :
    isBase64UrlBytes (some (text (encodeBase64Url bytes))) exactLength minimumLength = true := by
  have hlength : (encodeBase64Url bytes).toList.length * 3 / 4 = bytes.length := by
    unfold encodeBase64Url
    rw [String.toList_ofList, Base64Url.length_encode]
  unfold isBase64UrlBytes
  rw [Option.bind_some, asText_text]
  dsimp only
  rw [hlength, isBase64Url_encode hne]
  exact decide_eq_true ⟨rfl, hexact, hmin⟩

theorem decodeExact_encode {n : Nat} {bytes : List UInt8} (h : bytes.length = n) :
    decodeExact n (encodeBase64Url bytes) = .ok bytes := by
  unfold decodeExact
  rw [decode_encodeBase64Url, bind_ok]
  refine ⟨bytes, rfl, ?_⟩
  rw [refuse_bind_ok]
  exact ⟨not_not.mpr h, rfl⟩

theorem isText_text (s : String) : isText s (some (text s)) = true := decide_eq_true rfl

/-! ## Envelopes -/

/-- What an envelope was made of. -/
theorem encryptSubject_ok {crypto : Crypto} {random : Randomness} {subject : Subject}
    {options : SubjectEncryptionOptions} {envelope : SubjectEnvelope}
    (h : encryptSubject (some crypto) random subject options = .ok envelope) :
    ∃ object recipient sharedSecret, validateSubject subject = .ok object ∧
      decodeBase64Url options.publicKey = .ok recipient ∧
      keyId crypto recipient = options.encryptionKeyId ∧
      crypto.deriveBits random.ephemeralKey recipient = some sharedSecret ∧
      envelope = sealEnvelope crypto random options sharedSecret object := by
  unfold encryptSubject at h
  obtain ⟨object, hobject, h⟩ := bind_ok.mp h
  obtain ⟨-, -, h⟩ := bind_ok.mp h
  obtain ⟨_, hcrypto, h⟩ := bind_ok.mp h
  obtain rfl := Option.some.inj (okOr_ok.mp hcrypto)
  obtain ⟨recipient, hrecipient, h⟩ := bind_ok.mp h
  rw [refuse_bind_ok, refuse_bind_ok] at h
  obtain ⟨-, hkey, h⟩ := h
  obtain ⟨sharedSecret, hshared, h⟩ := bind_ok.mp h
  exact ⟨object, recipient, sharedSecret, hobject, hrecipient, not_not.mp hkey,
    okOr_ok.mp hshared, (pure_ok.mp h).symm⟩

section

variable (crypto : Crypto) (random : Randomness) (options : SubjectEncryptionOptions)
  (sharedSecret : List UInt8) (object : JsObject)

/-- The envelope as it is stored. -/
def storedInput (tenantId : String) (expiresAt : Timestamp) (envelope : SubjectEnvelope) :
    StoreSubjectEnvelopeInput where
  tenantId := tenantId
  environmentId := options.environmentId
  requestId := options.requestId
  ciphertext := String.ofList (stringify envelope.json)
  encryptionKeyId := options.encryptionKeyId
  expiresAt := expiresAt

theorem validateSerializedEnvelope_seal {parse : List Char → Option (Json JsString)}
    (hparse : parse (stringify (sealEnvelope crypto random options sharedSecret object).json) =
      some (sealEnvelope crypto random options sharedSecret object).json)
    (tenantId : String) (expiresAt : Timestamp) :
    validateSerializedEnvelope parse (storedInput options tenantId expiresAt
      (sealEnvelope crypto random options sharedSecret object)) = .ok () := by
  have hephemeral := crypto.length_publicKey random.ephemeralKey
  have hsalt := random.length_salt
  have hiv := random.length_iv
  have hnonempty : ∀ {bytes : List UInt8}, 0 < bytes.length → bytes ≠ [] :=
    fun h => List.ne_nil_of_length_pos h
  have hciphertext := crypto.length_encrypt (crypto.hkdf random.salt sharedSecret HKDF_INFO)
    random.iv (encode (envelopeMetadata options.encryptionKeyId options.environmentId
      options.requestId)) (encode object.json)
  unfold validateSerializedEnvelope storedInput
  dsimp only
  rw [String.toList_ofList, hparse, bind_ok]
  refine ⟨_, rfl, refuse_ok.mpr ?_⟩
  simp only [not_or, not_not, Bool.not_eq_true', Bool.not_eq_false]
  refine ⟨?_, rfl, ?_, ?_, ?_, ?_, ?_, ?_, ?_, ?_⟩
  · show sortedKeys ["version", "algorithm", "requestId", "environmentId", "encryptionKeyId",
      "ephemeralPublicKey", "salt", "iv", "ciphertext"] = _
    decide +kernel
  · exact isText_text _
  · exact isText_text _
  · exact isText_text _
  · exact isText_text _
  · exact isBase64UrlBytes_encode (hnonempty (by omega)) (decide_eq_true hephemeral) (Nat.zero_le _)
  · exact isBase64UrlBytes_encode (hnonempty (by omega)) (decide_eq_true hsalt) (Nat.zero_le _)
  · exact isBase64UrlBytes_encode (hnonempty (by omega)) (decide_eq_true hiv) (Nat.zero_le _)
  · exact isBase64UrlBytes_encode (hnonempty (by omega)) rfl (by omega)

end

theorem asSubjectEnvelope_json {envelope : SubjectEnvelope} (h : envelope.version < 2 ^ 32) :
    asSubjectEnvelope envelope.json = some envelope := by
  have hversion := asUnsigned_iff (σ := JsString).mpr ⟨h, rfl⟩
  have htext : ∀ {name s : String} {members : Members JsString},
      named name members = [text s] → required asText name members = some s := by
    intro name s members hnamed
    rw [required_of_named hnamed, asText_text]
  unfold asSubjectEnvelope SubjectEnvelope.json
  rw [strict_object (by simp), readSubjectEnvelope,
    required_of_named (v := .number envelope.version) (by simp), hversion,
    htext (s := envelope.algorithm) (by simp), htext (s := envelope.requestId) (by simp),
    htext (s := envelope.environmentId) (by simp), htext (s := envelope.encryptionKeyId) (by simp),
    htext (s := envelope.ephemeralPublicKey) (by simp), htext (s := envelope.salt) (by simp),
    htext (s := envelope.iv) (by simp), htext (s := envelope.ciphertext) (by simp)]
  simp only [Option.bind_eq_bind, Option.bind_some, Option.pure_def]

/-- RFC 8785 of an object of texts whose names are in order already. -/
def CanonicalForm (toVec : Json JsString → Option (List UInt8)) : Prop :=
  ∀ members : Members JsString, (members.map fun member => jsString member.1).Pairwise (· < ·) →
    (∀ member ∈ members, ∃ s, member.2 = text s) →
    toVec (.object members) = some (encode (.object members))

theorem canonicalAad_of_form {toVec : Json JsString → Option (List UInt8)}
    (h : CanonicalForm toVec) (envelope : SubjectEnvelope) :
    canonicalAad toVec envelope = .ok (encode (envelopeMetadata envelope.encryptionKeyId
      envelope.environmentId envelope.requestId)) := by
  have hsorted : [jsString "encryptionKeyId", jsString "environmentId",
      jsString "requestId"].Pairwise (· < ·) := by
    decide +kernel
  unfold canonicalAad envelopeMetadata
  rw [okOr_ok]
  refine h _ hsorted ?_
  intro member hmem
  simp only [List.mem_cons, List.not_mem_nil, or_false] at hmem
  rcases hmem with rfl | rfl | rfl <;> exact ⟨_, rfl⟩

/-- The agent whose key was meant reads what was sealed. -/
theorem decryptSubjectEnvelope_seal {crypto : Crypto} {random : Randomness}
    {options : SubjectEncryptionOptions} {sharedSecret : List UInt8} {object : JsObject}
    {toVec : Json JsString → Option (List UInt8)} {fromSlice : List UInt8 → Option (Json JsString)}
    {identity : AgentIdentity}
    (hkeyId : identity.encryptionKeyId crypto = options.encryptionKeyId)
    (hshared : crypto.deriveBits random.ephemeralKey (crypto.publicKey identity.encryptionKey) =
      some sharedSecret)
    (hkeys : ∀ property ∈ object.properties,
      property.1 = "applicationUserId" ∨ property.1 = "email")
    (hcanonical : CanonicalForm toVec) (hread : fromSlice (encode object.json) = some object.json) :
    decryptSubjectEnvelope crypto toVec fromSlice identity options.environmentId options.requestId
      (sealEnvelope crypto random options sharedSecret object) = .ok object.identity := by
  have hagree := crypto.agree hshared
  have hephemeral := decodeExact_encode (crypto.length_publicKey random.ephemeralKey)
  have hsalt := decodeExact_encode random.length_salt
  have hiv := decodeExact_encode random.length_iv
  have haad := canonicalAad_of_form hcanonical
    (sealEnvelope crypto random options sharedSecret object)
  have hlength := crypto.length_encrypt (crypto.hkdf random.salt sharedSecret HKDF_INFO)
    random.iv (encode (envelopeMetadata options.encryptionKeyId options.environmentId
      options.requestId)) (encode object.json)
  unfold decryptSubjectEnvelope
  rw [bind_ok]
  refine ⟨(), refuse_ok.mpr ?_, bind_ok.mpr ⟨_, hephemeral, bind_ok.mpr ⟨_, hsalt,
    bind_ok.mpr ⟨_, hiv, bind_ok.mpr ⟨_, okOr_ok.mpr (decode_encodeBase64Url _), ?_⟩⟩⟩⟩⟩
  · simp only [not_or, not_not]
    exact ⟨rfl, rfl, rfl, rfl, hkeyId.symm⟩
  · rw [refuse_bind_ok, hagree, bind_ok]
    have htag : TAG_BYTES = 16 := rfl
    refine ⟨by omega, _, haad, bind_ok.mpr ⟨_, okOr_ok.mpr (crypto.decrypt_encrypt _ _ _ _), ?_⟩⟩
    rw [hread, Option.bind_some, okOr_ok]
    exact asSubjectIdentity_json hkeys

/-! ## The round trip -/

/-- The envelope is stored, and the agent reads it, decrypts it to what was passed and names it. -/
def RoundTrips (crypto : Crypto) (parse : List Char → Option (Json JsString))
    (toVec : Json JsString → Option (List UInt8)) (fromSlice : List UInt8 → Option (Json JsString))
    (toLowercase : String → String) (identity : AgentIdentity) (input : StoreSubjectEnvelopeInput)
    (passed : SubjectIdentity) : Prop :=
  validateSerializedEnvelope parse input = .ok () ∧
    ∃ envelope,
      (fromSlice (utf8 input.ciphertext.toList)).bind asSubjectEnvelope = some envelope ∧
      decryptSubjectEnvelope crypto toVec fromSlice identity input.environmentId input.requestId
        envelope = .ok passed ∧
      ∃ canonical, canonicalIdentity toLowercase passed = .ok canonical

/-- A subject that is accepted comes through just if the agent sees a character of it. -/
theorem roundTrip_iff {crypto : Crypto} {random : Randomness} {object : JsObject}
    {options : SubjectEncryptionOptions} {envelope : SubjectEnvelope} {identity : AgentIdentity}
    {parse : List Char → Option (Json JsString)}
    {toVec : Json JsString → Option (List UInt8)} {fromSlice : List UInt8 → Option (Json JsString)}
    (hencrypt : encryptSubject (some crypto) random (.object object) options = .ok envelope)
    (hrecipient : decodeBase64Url options.publicKey = .ok (crypto.publicKey identity.encryptionKey))
    (hparse : parse (stringify envelope.json) = some envelope.json)
    (henvelope : fromSlice (encode envelope.json) = some envelope.json)
    (hsubject : fromSlice (encode object.json) = some object.json)
    (hcanonical : CanonicalForm toVec) (toLowercase : String → String) (tenantId : String)
    (expiresAt : Timestamp) :
    RoundTrips crypto parse toVec fromSlice toLowercase identity
        (storedInput options tenantId expiresAt envelope) object.identity ↔
      Visible object.identity.applicationUserId ∨ Visible object.identity.email := by
  obtain ⟨_, recipient, sharedSecret, hvalid, hdecode, hkeyId, hshared, rfl⟩ :=
    encryptSubject_ok hencrypt
  obtain ⟨hsame, hkeys⟩ := validateSubject_ok hvalid
  obtain rfl := Subject.object.inj hsame
  obtain rfl := Except.ok.inj (hrecipient.symm.trans hdecode)
  have hstored := validateSerializedEnvelope_seal crypto random options sharedSecret object hparse
    tenantId expiresAt
  have hdecrypt := decryptSubjectEnvelope_seal hkeyId hshared hkeys hcanonical hsubject
  have hnamed : (∃ canonical, canonicalIdentity toLowercase object.identity = .ok canonical) ↔
      nonEmpty object.identity.applicationUserId ≠ none ∨
        nonEmpty object.identity.email ≠ none := canonicalIdentity_isOk_iff
  rw [nonEmpty_iff, nonEmpty_iff] at hnamed
  have hreads : (fromSlice (utf8 (storedInput options tenantId expiresAt
      (sealEnvelope crypto random options sharedSecret object)).ciphertext.toList)).bind
        asSubjectEnvelope = some (sealEnvelope crypto random options sharedSecret object) := by
    have htext : utf8 (storedInput options tenantId expiresAt
        (sealEnvelope crypto random options sharedSecret object)).ciphertext.toList =
        encode (sealEnvelope crypto random options sharedSecret object).json := by
      unfold storedInput
      rw [String.toList_ofList]
      rfl
    rw [htext, henvelope, Option.bind_some]
    exact asSubjectEnvelope_json (by show (1 : Nat) < 2 ^ 32; decide)
  unfold RoundTrips
  rw [← hnamed]
  constructor
  · intro h
    obtain ⟨-, _, -, -, hname⟩ := h
    exact hname
  · intro hname
    exact ⟨hstored, _, hreads, hdecrypt, hname⟩

/-! ## A subject that is lost -/

def plainKey (secret : List UInt8) : List UInt8 := (secret ++ List.replicate 32 0).take 32

def plainTag : List UInt8 := List.replicate 16 7

/-- Sums for the exchange of keys, and a tag behind the plain text. -/
def plainCrypto : Crypto where
  sha256 _ := ⟨List.replicate 32 0, rfl⟩
  publicKey := plainKey
  deriveBits secret publicKey := some (List.zipWith (· + ·) (plainKey secret) publicKey)
  diffieHellman secret publicKey := List.zipWith (· + ·) (plainKey secret) publicKey
  hkdf salt secret info := salt ++ secret ++ info
  encrypt _ _ _ plaintext := plaintext ++ plainTag
  decrypt _ _ _ ciphertext :=
    let plaintext := ciphertext.take (ciphertext.length - 16)
    if plaintext ++ plainTag = ciphertext then some plaintext else none
  length_publicKey secret := by simp [plainKey]
  agree h := by
    rw [← Option.some.inj h]
    exact List.zipWith_comm_of_comm fun a b => UInt8.add_comm a b
  length_encrypt _ _ _ plaintext := by simp [plainTag]
  decrypt_encrypt _ _ _ plaintext := by simp [plainTag]

def plainRandom : Randomness where
  ephemeralKey := [5]
  salt := List.replicate 32 1
  iv := List.replicate 12 2
  length_salt := rfl
  length_iv := rfl

def plainAgent : AgentIdentity := ⟨[3]⟩

def plainOptions : SubjectEncryptionOptions where
  environmentId := "environment-1"
  requestId := "request-1"
  publicKey := encodeBase64Url (plainKey [3])
  encryptionKeyId := plainAgent.encryptionKeyId plainCrypto

def subjectOf (email : String) : JsObject := ⟨[("email", .string email)], List.nodup_singleton _⟩

/-- A reader of the texts of these values. -/
def readOf {α : Type} [DecidableEq α] (write : Json JsString → α) (values : List (Json JsString))
    (a : α) : Option (Json JsString) :=
  values.find? fun v => write v = a

def plainEnvelope (object : JsObject) : SubjectEnvelope :=
  sealEnvelope plainCrypto plainRandom plainOptions
    (List.zipWith (· + ·) (plainKey [5]) (plainKey [3])) object

theorem readOf_head {α : Type} [DecidableEq α] (write : Json JsString → α) (v : Json JsString)
    (values : List (Json JsString)) : readOf write (v :: values) (write v) = some v :=
  List.find?_cons_of_pos (decide_eq_true rfl)

theorem readOf_tail {α : Type} [DecidableEq α] (write : Json JsString → α) {u v : Json JsString}
    (h : write u ≠ write v) : readOf write [u, v] (write v) = some v := by
  unfold readOf
  rw [List.find?_cons_of_neg (by simpa using h)]
  exact readOf_head write v []

theorem plainRecipient : decodeBase64Url plainOptions.publicKey =
    .ok (plainCrypto.publicKey plainAgent.encryptionKey) :=
  decodeBase64Url_encode (by decide)

theorem plainCanonical : CanonicalForm fun v => some (encode v) := fun _ _ _ => rfl

theorem encrypt_address :
    encryptSubject (some plainCrypto) plainRandom (.object (subjectOf "ada@example.com"))
      plainOptions = .ok (plainEnvelope (subjectOf "ada@example.com")) := by
  decide +kernel

theorem roundTrip_of_address :
    RoundTrips plainCrypto
        (readOf stringify [(plainEnvelope (subjectOf "ada@example.com")).json])
        (fun v => some (encode v))
        (readOf encode [(subjectOf "ada@example.com").json,
          (plainEnvelope (subjectOf "ada@example.com")).json])
        String.toLower plainAgent
        (storedInput plainOptions "tenant-1" "2026-01-01T00:00:00Z" (plainEnvelope (subjectOf "ada@example.com")))
        (subjectOf "ada@example.com").identity ↔
      Visible none ∨ Visible (some "ada@example.com") :=
  roundTrip_iff encrypt_address plainRecipient (readOf_head _ _ _)
    (readOf_tail _ (by decide +kernel)) (readOf_head _ _ _) plainCanonical _ _ _

/-- A subject of U+0085 alone is encrypted, stored and decrypted, but no identity is its own. -/
theorem nextLine_has_no_identity :
    encryptSubject (some plainCrypto) plainRandom (.object (subjectOf "\x85")) plainOptions =
        .ok (plainEnvelope (subjectOf "\x85")) ∧
      decryptSubjectEnvelope plainCrypto (fun v => some (encode v))
          (readOf encode [(subjectOf "\x85").json]) plainAgent plainOptions.environmentId
          plainOptions.requestId (plainEnvelope (subjectOf "\x85")) =
        .ok (subjectOf "\x85").identity ∧
      canonicalIdentity String.toLower (subjectOf "\x85").identity =
        .error .subjectIdentifierRequired := by
  refine ⟨by decide +kernel, ?_, by decide +kernel⟩
  exact decryptSubjectEnvelope_seal rfl rfl (by decide) plainCanonical (readOf_head _ _ _)

end ForgetOps.Envelopes
