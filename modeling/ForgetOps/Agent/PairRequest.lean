import ForgetOps.Agent.LeaseVerification
import ForgetOps.Api.PairingProof

/-
  `forgetops-agent pair` (`agent/bin/forgetops-agent/src/pair.rs`): its command line, the public
  registration of an identity (`agent/crates/agent-core/src/identity.rs`), and the signed request.

  The agent and the service take the same proof: what the command answers for a token is a request
  that `consume` accepts, as `printed_accepted` has it.
-/

namespace ForgetOps.Agent

open Api.Pairing
open Domain (toHex utf8)
open Guards
open Signer (base64url)

/-! ## Identities -/

/-- `[u8; 32]`. -/
abbrev Secret := { bytes : List UInt8 // bytes.length = 32 }

structure AgentIdentity where
  signingKey : Secret
  encryptionSecret : Secret
  deriving DecidableEq

structure AgentPublicKeys where
  signingKey : List UInt8
  encryptionKey : List UInt8
  deriving DecidableEq

structure AgentKeyIds where
  signingKeyId : String
  encryptionKeyId : String
  deriving DecidableEq

structure IdentityLibraries extends PairingLibraries Secret where
  /-- `PublicKey::from(&secret)` of X25519. -/
  x25519 : Secret → List UInt8

/-- Ed25519 is correct, and the public keys of X25519 are 32 bytes, not all of them zero. -/
structure IdentityLibraries.Correct (lib : IdentityLibraries) : Prop where
  ed : lib.ed.Correct
  length_x25519 : ∀ secret, (lib.x25519 secret).length = 32
  x25519_ne : ∀ secret, ∃ byte ∈ lib.x25519 secret, byte ≠ 0

variable (lib : IdentityLibraries)

def AgentIdentity.publicKeys (identity : AgentIdentity) : AgentPublicKeys where
  signingKey := lib.ed.publicKey identity.signingKey
  encryptionKey := lib.x25519 identity.encryptionSecret

def AgentIdentity.keyIds (identity : AgentIdentity) : AgentKeyIds where
  signingKeyId := "ed25519:sha256:" ++ toHex (lib.sha256 (identity.publicKeys lib).signingKey).val
  encryptionKeyId :=
    "x25519:sha256:" ++ toHex (lib.sha256 (identity.publicKeys lib).encryptionKey).val

def AgentIdentity.sign (identity : AgentIdentity) (message : List UInt8) : List UInt8 :=
  lib.ed.sign identity.signingKey message

/-! ## The command line -/

structure Options where
  dataDir : String
  stateMasterKeyFile : String
  subjectHmacKeyFile : String
  subjectHmacKeyVersion : Nat
  environmentId : Option String
  version : String
  protocolVersion : String
  deriving DecidableEq, Repr

/-- The options read so far. -/
structure OptionsRead where
  dataDir : Option String
  stateMasterKeyFile : Option String
  subjectHmacKeyFile : Option String
  subjectHmacKeyVersion : Option Nat
  environmentId : Option String
  version : String
  protocolVersion : String
  deriving DecidableEq, Repr

/-- `CARGO_PKG_VERSION`, and the protocol the agent speaks. -/
def OptionsRead.initial : OptionsRead where
  dataDir := none
  stateMasterKeyFile := none
  subjectHmacKeyFile := none
  subjectHmacKeyVersion := none
  environmentId := none
  version := "0.1.0"
  protocolVersion := "1.0"

def withoutPlus : List Char → List Char
  | '+' :: digits => digits
  | digits => digits

/-- `text.parse::<u32>()`: a plus sign or none, then digits, in the range of the type. -/
def parseU32 (text : List Char) : Option Nat := do
  let n ← parseDigits (withoutPlus text)
  if n < 2 ^ 32 then some n.toNat else none

def versionInvalid : String :=
  "--subject-hmac-key-version must be a positive unsigned 32-bit integer"

/-- One turn of the loop. -/
def OptionsRead.take (o : OptionsRead) (flag value : String) : Except String OptionsRead :=
  match flag with
  | "--data-dir" => return { o with dataDir := some value }
  | "--state-master-key-file" => return { o with stateMasterKeyFile := some value }
  | "--subject-hmac-key-file" => return { o with subjectHmacKeyFile := some value }
  | "--subject-hmac-key-version" => do
    let version ← okOr (parseU32 value.toList) versionInvalid
    refuse (version = 0) versionInvalid
    return { o with subjectHmacKeyVersion := some version }
  | "--environment-id" => return { o with environmentId := some value }
  | "--version" => return { o with version := value }
  | "--protocol-version" => return { o with protocolVersion := value }
  | flag => throw ("unknown option " ++ flag)

def OptionsRead.takeAll (o : OptionsRead) : List String → Except String OptionsRead
  | [] => return o
  | [flag] => throw ("missing value for " ++ flag)
  | flag :: value :: arguments => do
    refuse (value = "") ("empty value for " ++ flag)
    let o ← o.take flag value
    o.takeAll arguments

def Options.parse (arguments : List String) : Except String Options := do
  let o ← OptionsRead.initial.takeAll arguments
  return {
    dataDir := ← okOr o.dataDir "--data-dir is required"
    stateMasterKeyFile := ← okOr o.stateMasterKeyFile "--state-master-key-file is required"
    subjectHmacKeyFile := ← okOr o.subjectHmacKeyFile "--subject-hmac-key-file is required"
    subjectHmacKeyVersion := ← okOr o.subjectHmacKeyVersion
      "--subject-hmac-key-version is required"
    environmentId := o.environmentId
    version := o.version
    protocolVersion := o.protocolVersion }

/-! ## Registrations and requests -/

structure PublicRegistration where
  publicSigningKey : String
  publicEncryptionKey : String
  signingKeyId : String
  encryptionKeyId : String
  subjectHmacKeyVersion : Nat
  version : String
  protocolVersion : String
  instanceFingerprint : String
  deriving DecidableEq, Repr

def PublicRegistration.fromIdentity (identity : AgentIdentity) (subjectHmacKeyVersion : Nat)
    (version protocolVersion : String) : PublicRegistration :=
  let publicKeys := identity.publicKeys lib
  let keyIds := identity.keyIds lib
  { publicSigningKey := base64url publicKeys.signingKey
    publicEncryptionKey := base64url publicKeys.encryptionKey
    signingKeyId := keyIds.signingKeyId
    encryptionKeyId := keyIds.encryptionKeyId
    subjectHmacKeyVersion
    version
    protocolVersion
    instanceFingerprint :=
      "sha256:" ++ toHex (lib.sha256 (publicKeys.signingKey ++ publicKeys.encryptionKey)).val }

structure PairingRequest where
  pairingToken : String
  environmentId : String
  publicSigningKey : String
  publicEncryptionKey : String
  signingKeyId : String
  encryptionKeyId : String
  subjectHmacKeyVersion : Nat
  version : String
  protocolVersion : String
  instanceFingerprint : String
  proof : String
  deriving DecidableEq, Repr

structure PairingProofPayload where
  environmentId : String
  instanceFingerprint : String
  pairingToken : String
  protocolVersion : String
  publicEncryptionKey : String
  publicSigningKey : String
  encryptionKeyId : String
  signingKeyId : String
  subjectHmacKeyVersion : Nat
  version : String

/-- The members in the order of the fields. -/
def PairingProofPayload.members (payload : PairingProofPayload) : Json.Members String :=
  [("environmentId", .string payload.environmentId),
    ("instanceFingerprint", .string payload.instanceFingerprint),
    ("pairingToken", .string payload.pairingToken),
    ("protocolVersion", .string payload.protocolVersion),
    ("publicEncryptionKey", .string payload.publicEncryptionKey),
    ("publicSigningKey", .string payload.publicSigningKey),
    ("encryptionKeyId", .string payload.encryptionKeyId),
    ("signingKeyId", .string payload.signingKeyId),
    ("subjectHmacKeyVersion", .number payload.subjectHmacKeyVersion),
    ("version", .string payload.version)]

/-- `serde_json::to_value`, whose objects are ordered by name, and its canonical bytes. -/
def canonicalProofPayload (payload : PairingProofPayload) : List UInt8 :=
  lib.canonicalize (.object (payload.members.mergeSort fun a b => a.1 ≤ b.1))

def PairingRequest.new (identity : AgentIdentity) (pairingToken environmentId : String)
    (registration : PublicRegistration) : PairingRequest :=
  let payload := canonicalProofPayload lib
    { environmentId
      instanceFingerprint := registration.instanceFingerprint
      pairingToken
      protocolVersion := registration.protocolVersion
      publicEncryptionKey := registration.publicEncryptionKey
      publicSigningKey := registration.publicSigningKey
      encryptionKeyId := registration.encryptionKeyId
      signingKeyId := registration.signingKeyId
      subjectHmacKeyVersion := registration.subjectHmacKeyVersion
      version := registration.version }
  { pairingToken
    environmentId
    publicSigningKey := registration.publicSigningKey
    publicEncryptionKey := registration.publicEncryptionKey
    signingKeyId := registration.signingKeyId
    encryptionKeyId := registration.encryptionKeyId
    subjectHmacKeyVersion := registration.subjectHmacKeyVersion
    version := registration.version
    protocolVersion := registration.protocolVersion
    instanceFingerprint := registration.instanceFingerprint
    proof := base64url (identity.sign lib payload) }

/-- What the command prints. -/
inductive PairOutput where
  | registration (registration : PublicRegistration)
  | request (request : PairingRequest)
  deriving DecidableEq, Repr

/-- `pairing_token.is_some() != options.environment_id.is_some()`. -/
def togetherError : String :=
  "FORGETOPS_PAIRING_TOKEN and --environment-id must be provided together"

/-- What `run_with` prints once it has the identity; it has seen to it that there is a token exactly
    if there is an environment. -/
def printed (identity : AgentIdentity) (options : Options) (pairingToken : Option String) :
    PairOutput :=
  let registration := PublicRegistration.fromIdentity lib identity options.subjectHmacKeyVersion
    options.version options.protocolVersion
  match pairingToken, options.environmentId with
  | some pairingToken, some environmentId =>
    .request (PairingRequest.new lib identity pairingToken environmentId registration)
  | _, _ => .registration registration

/-- The request as the service receives it. -/
def PairingRequest.body (request : PairingRequest) : AgentPairBody where
  pairingToken := request.pairingToken
  environmentId := request.environmentId
  publicSigningKey := request.publicSigningKey
  publicEncryptionKey := request.publicEncryptionKey
  signingKeyId := request.signingKeyId
  encryptionKeyId := request.encryptionKeyId
  subjectHmacKeyVersion := request.subjectHmacKeyVersion
  version := request.version
  protocolVersion := request.protocolVersion
  instanceFingerprint := request.instanceFingerprint
  proof := request.proof

/-! ## What the command line promises -/

section Parse

variable {o o' : OptionsRead} {arguments : List String} {options : Options}

/-- No option is empty, and the version of the key is a positive number of 32 bits. -/
structure OptionsRead.WellFormed (o : OptionsRead) : Prop where
  environmentId : o.environmentId ≠ some ""
  version : o.version ≠ ""
  protocolVersion : o.protocolVersion ≠ ""
  keyVersion : ∀ n, o.subjectHmacKeyVersion = some n → 0 < n ∧ n < 2 ^ 32

theorem parseU32_lt {text : List Char} {n : Nat} (h : parseU32 text = some n) : n < 2 ^ 32 := by
  obtain ⟨m, -, h⟩ := Option.bind_eq_some_iff.mp h
  split_ifs at h with hlt
  obtain rfl := Option.some.inj h
  omega

theorem OptionsRead.WellFormed.take (h : o.WellFormed) {flag value : String} (hvalue : value ≠ "")
    (htake : o.take flag value = .ok o') : o'.WellFormed := by
  have hsome : some value ≠ some "" := fun heq => hvalue (Option.some.inj heq)
  unfold OptionsRead.take at htake
  split at htake
  case h_4 =>
    obtain ⟨n, hn, htake⟩ := bind_ok.mp htake
    obtain ⟨hzero, htake⟩ := refuse_bind_ok.mp htake
    obtain rfl := pure_ok.mp htake
    refine ⟨h.environmentId, h.version, h.protocolVersion, fun m hm => ?_⟩
    obtain rfl := Option.some.inj hm
    exact ⟨Nat.pos_of_ne_zero hzero, parseU32_lt (okOr_ok.mp hn)⟩
  case h_5 =>
    obtain rfl := pure_ok.mp htake
    exact { h with environmentId := hsome }
  case h_6 =>
    obtain rfl := pure_ok.mp htake
    exact { h with version := hvalue }
  case h_7 =>
    obtain rfl := pure_ok.mp htake
    exact { h with protocolVersion := hvalue }
  case h_8 => cases htake
  all_goals
    obtain rfl := pure_ok.mp htake
    exact { h with }

/-- Each turn of the loop keeps the options well formed. -/
theorem OptionsRead.WellFormed.takeAll (h : o.WellFormed)
    (htake : o.takeAll arguments = .ok o') : o'.WellFormed := by
  induction o, arguments using OptionsRead.takeAll.induct with
  | case1 o =>
    obtain rfl := pure_ok.mp htake
    exact h
  | case2 o flag => cases htake
  | case3 o flag value arguments ih =>
    obtain ⟨hvalue, htake⟩ := refuse_bind_ok.mp htake
    obtain ⟨o₁, hone, htake⟩ := bind_ok.mp htake
    exact ih o₁ (h.take hvalue hone) htake

theorem wellFormed_initial : OptionsRead.initial.WellFormed where
  environmentId := by decide
  version := by decide
  protocolVersion := by decide
  keyVersion _ h := by cases h

/-- No option is empty, and the version of the key is a positive number of 32 bits. -/
structure Options.WellFormed (options : Options) : Prop where
  environmentId : options.environmentId ≠ some ""
  version : options.version ≠ ""
  protocolVersion : options.protocolVersion ≠ ""
  keyVersion : 0 < options.subjectHmacKeyVersion ∧ options.subjectHmacKeyVersion < 2 ^ 32

theorem wellFormed_of_parse (h : Options.parse arguments = .ok options) : options.WellFormed := by
  obtain ⟨o, ho, h⟩ := bind_ok.mp h
  obtain ⟨dataDir, -, h⟩ := bind_ok.mp h
  obtain ⟨stateMasterKeyFile, -, h⟩ := bind_ok.mp h
  obtain ⟨subjectHmacKeyFile, -, h⟩ := bind_ok.mp h
  obtain ⟨keyVersion, hkey, h⟩ := bind_ok.mp h
  obtain rfl := pure_ok.mp h
  have hread := wellFormed_initial.takeAll ho
  exact ⟨hread.environmentId, hread.version, hread.protocolVersion,
    hread.keyVersion keyVersion (okOr_ok.mp hkey)⟩

end Parse

/-! ## What the service accepts -/

section Accepted

variable {lib : IdentityLibraries}

theorem toHex_ne (digest : Domain.Digest) : toHex digest.val ≠ "" := by
  intro h
  have hlength := congrArg (fun s => s.toList.length) h
  unfold toHex at hlength
  rw [String.toList_ofList, List.length_flatMap] at hlength
  simp [digest.property] at hlength

theorem append_ne {a b : String} (h : b ≠ "") : a ++ b ≠ "" := by
  intro heq
  have hlength := congrArg (fun s => s.toList.length) heq
  simp only [String.toList_append, List.length_append] at hlength
  have hb : b.toList.length = 0 := by
    have : "".toList.length = 0 := rfl
    omega
  exact h (String.toList_eq_nil_iff.mp (List.length_eq_zero_iff.mp hb))

/-- The service signs the payload of a request as the agent does. -/
theorem canonicalProofPayload_eq (hsorts : lib.canonicalize.Sorts) (request : PairingRequest) :
    canonicalProofPayload lib
      { environmentId := request.environmentId
        instanceFingerprint := request.instanceFingerprint
        pairingToken := request.pairingToken
        protocolVersion := request.protocolVersion
        publicEncryptionKey := request.publicEncryptionKey
        publicSigningKey := request.publicSigningKey
        encryptionKeyId := request.encryptionKeyId
        signingKeyId := request.signingKeyId
        subjectHmacKeyVersion := request.subjectHmacKeyVersion
        version := request.version } =
      createPairingProofPayload lib.toPairingLibraries request.body.toPairingProofFields :=
  hsorts _ _ (List.mergeSort_perm _ _)

variable {identity : AgentIdentity} {options : Options} {token : String} {request : PairingRequest}

theorem printed_request (h : printed lib identity options (some token) = .request request) :
    ∃ environmentId, options.environmentId = some environmentId ∧
      request = PairingRequest.new lib identity token environmentId
        (PublicRegistration.fromIdentity lib identity options.subjectHmacKeyVersion options.version
          options.protocolVersion) := by
  unfold printed at h
  cases henvironment : options.environmentId with
  | none =>
    rw [henvironment] at h
    cases h
  | some environmentId =>
    rw [henvironment] at h
    exact ⟨environmentId, rfl, (PairOutput.request.inj h).symm⟩

/-- A request that is printed is complete, and carries a signature of its fields. -/
theorem printed_proven (hsorts : lib.canonicalize.Sorts) (hlib : lib.Correct)
    (hoptions : options.WellFormed) (htoken : token ≠ "")
    (h : printed lib identity options (some token) = .request request) :
    ∃ signature, Proven lib.toPairingLibraries request.body
      (lib.ed.publicKey identity.signingKey) (lib.x25519 identity.encryptionSecret) signature := by
  obtain ⟨environmentId, henvironment, rfl⟩ := printed_request h
  have hsigning : (lib.ed.publicKey identity.signingKey).length = 32 := hlib.ed.publicKey_length _
  have hencryption := hlib.length_x25519 identity.encryptionSecret
  have hlength (message : List UInt8) : (identity.sign lib message).length = 64 :=
    hlib.ed.sign_length _ _
  refine ⟨_, ?_, ?_, hsigning, rfl, hencryption, rfl, hlib.x25519_ne _, rfl, rfl, hlength _, rfl,
    ?_⟩
  · exact Int.natCast_pos.mpr hoptions.keyVersion.1
  · have henvironment_ne : environmentId ≠ "" := by
      rintro rfl
      exact hoptions.environmentId henvironment
    have hid (purpose : String) (key : List UInt8) : purpose ++ toHex (lib.sha256 key).val ≠ "" :=
      append_ne (toHex_ne _)
    intro hempty
    simp only [requiredTexts, List.mem_cons, List.not_mem_nil, or_false] at hempty
    rcases hempty with h | h | h | h | h | h | h | h | h | h
    · exact htoken h.symm
    · exact henvironment_ne h.symm
    · exact base64url_ne hsigning (by decide) h.symm
    · exact base64url_ne hencryption (by decide) h.symm
    · exact hid _ _ h.symm
    · exact hid _ _ h.symm
    · exact hoptions.version h.symm
    · exact hoptions.protocolVersion h.symm
    · exact hid _ _ h.symm
    · exact base64url_ne (hlength _) (by decide) h.symm
  · rw [← canonicalProofPayload_eq hsorts]
    exact hlib.ed.verify_sign _ _

/-- **What the agent prints, the service accepts**: the request of any command line, for any token,
    gets to `consumeAndPair`, with the hash of that token. -/
theorem printed_accepted (hsorts : lib.canonicalize.Sorts) (hlib : lib.Correct)
    (hoptions : options.WellFormed) (htoken : token ≠ "")
    (h : printed lib identity options (some token) = .request request) (now : Database.Timestamp)
    (agentId : String) :
    pair lib.toPairingLibraries request.body now agentId = .ok
      { tokenHash := sha256Token lib.toPairingLibraries token
        registration := request.body.toAgentRegistration
        now
        agentId } := by
  obtain ⟨signature, hproven⟩ := printed_proven hsorts hlib hoptions htoken h
  obtain ⟨environmentId, -, rfl⟩ := printed_request h
  exact consume_ok.mpr ⟨rfl, ⟨_, _, _, hproven⟩, rfl⟩

end Accepted

end ForgetOps.Agent
