import ForgetOps.Agent.ArchiveWriter
import ForgetOps.Agent.PairRequest
import ForgetOps.Library.Interference

/-
  The file of the identity (`agent/crates/agent-core/src/identity.rs`), the secrets that open it
  (`agent/crates/agent-core/src/environment_secrets.rs`), and `run` of `forgetops-agent pair`
  (`agent/bin/forgetops-agent/src/pair.rs`).

  The calls of the operating system are effects. `answers` says what they may answer while any
  number of commands runs on one data directory: every call but `sync_all` may fail, and a command
  may be killed anywhere.
-/

namespace ForgetOps.Agent

open CrashLogic
open Domain (utf8)
open ExportBuilder (Key Nonce XChaCha20Poly1305)
open Guards

/-! ## Errors -/

/-- What is read of an `io::Error`: whether its kind is `NotFound`, and its text. -/
structure IoError where
  notFound : Bool
  text : String
  deriving DecidableEq, Repr

inductive IdentityError where
  | io (error : IoError)
  | invalidBlob (reason : String)
  | authenticationFailed
  deriving DecidableEq, Repr

def IdentityError.text : IdentityError → String
  | .io error => "identity state I/O failed: " ++ error.text
  | .invalidBlob reason => "invalid encrypted identity blob: " ++ reason
  | .authenticationFailed => "encrypted identity authentication failed"

inductive EnvironmentSecretError where
  | io (secret : String) (source : IoError)
  | invalidLength (secret : String) (length : Nat)
  | invalidVersion
  deriving DecidableEq, Repr

def EnvironmentSecretError.text : EnvironmentSecretError → String
  | .io secret source => "cannot read " ++ secret ++ ": " ++ source.text
  | .invalidLength secret length =>
    secret ++ " must contain exactly 32 raw bytes, found " ++ toString length
  | .invalidVersion => "subject-HMAC key version must be greater than zero"

/-! ## The encrypted identity -/

def identityMagic : List UInt8 := utf8 "FOPSID01"
def identityVersion : UInt8 := 1
def identityNonceBytes : Nat := 24
def identityPrivateBytes : Nat := 64
def identityTagBytes : Nat := 16
def identityBlobBytes : Nat :=
  identityMagic.length + 1 + identityNonceBytes + identityPrivateBytes + identityTagBytes
def identityAad : List UInt8 := utf8 "forgetops.agent.identity.v1" ++ [0]

theorem length_signingHalf {plaintext : List UInt8} (h : plaintext.length = identityPrivateBytes) :
    (plaintext.take 32).length = 32 := by
  rw [List.length_take, h]
  rfl

theorem length_encryptionHalf {plaintext : List UInt8}
    (h : plaintext.length = identityPrivateBytes) : (plaintext.drop 32).length = 32 := by
  rw [List.length_drop, h]
  rfl

/-- The identity whose private keys these are. -/
def AgentIdentity.ofPlaintext (plaintext : List UInt8) : Except IdentityError AgentIdentity :=
  if h : plaintext.length = identityPrivateBytes then
    .ok ⟨⟨plaintext.take 32, length_signingHalf h⟩, ⟨plaintext.drop 32, length_encryptionHalf h⟩⟩
  else .error (.invalidBlob "unexpected plaintext length")

/-- `XNonce::try_from`. -/
def toNonce (bytes : List UInt8) : Option Nonce :=
  if h : bytes.length = 24 then some ⟨bytes, h⟩ else none

section Blob

variable (cipher : XChaCha20Poly1305)

/-- `encrypt`, which draws this nonce. -/
def AgentIdentity.encrypt (identity : AgentIdentity) (stateMasterKey : Key) (nonce : Nonce) :
    Except IdentityError (List UInt8) := do
  let plaintext := identity.signingKey.val ++ identity.encryptionSecret.val
  let ciphertext ← okOr (cipher.encrypt stateMasterKey nonce plaintext identityAad)
    .authenticationFailed
  return identityMagic ++ identityVersion :: (nonce.val ++ ciphertext)

def AgentIdentity.decrypt (blob : List UInt8) (stateMasterKey : Key) :
    Except IdentityError AgentIdentity := do
  refuse (blob.length ≠ identityBlobBytes) (.invalidBlob "unexpected length")
  refuse (blob.take identityMagic.length ≠ identityMagic) (.invalidBlob "bad magic")
  refuse (blob[identityMagic.length]? ≠ some identityVersion) (.invalidBlob "unsupported version")
  let sealed := blob.drop (identityMagic.length + 1)
  let nonce ← okOr (toNonce (sealed.take identityNonceBytes)) (.invalidBlob "invalid nonce")
  let plaintext ← okOr
    (cipher.decrypt stateMasterKey nonce (sealed.drop identityNonceBytes) identityAad)
    .authenticationFailed
  AgentIdentity.ofPlaintext plaintext

end Blob

/-! ## Effects -/

/-- The calls of `run_with` on the outside. -/
inductive Effect where
  /-- `fs::read` of a secret. -/
  | readFile (path : String)
  /-- `fs::read` of the identity. -/
  | readIdentity
  | generate
  | fillNonce
  | createDirAll
  /-- `open` with `create_new`. -/
  | openNew
  /-- `write_all` of one byte. -/
  | append (byte : UInt8)
  | syncAll
  | removeFile

def Effect.Answer : Effect → Type
  | .readFile _ => Except IoError (List UInt8)
  | .readIdentity => Except IoError (List UInt8)
  | .generate => AgentIdentity
  | .fillNonce => Nonce
  | .createDirAll => Except IoError Unit
  | .openNew => Except IoError Unit
  | .append _ => Except IoError Unit
  | .syncAll => Except IoError Unit
  | .removeFile => Except IoError Unit

abbrev Io (ε α : Type) := ExceptT ε (Prog Effect Effect.Answer) α

def orThrow {ε α : Type} (x : Except ε α) : Io ε α := ExceptT.mk (pure x)

def readFile (path : String) : Io IoError (List UInt8) := ExceptT.mk (Prog.effect (Effect.readFile path))
def readIdentity : Io IoError (List UInt8) := ExceptT.mk (Prog.effect Effect.readIdentity)
def generate {ε : Type} : Io ε AgentIdentity := ExceptT.lift (Prog.effect Effect.generate)
def fillNonce {ε : Type} : Io ε Nonce := ExceptT.lift (Prog.effect Effect.fillNonce)
def createDirAll : Io IoError Unit := ExceptT.mk (Prog.effect Effect.createDirAll)
def openNew : Io IoError Unit := ExceptT.mk (Prog.effect Effect.openNew)
def append (byte : UInt8) : Io IoError Unit := ExceptT.mk (Prog.effect (Effect.append byte))
def syncAll : Io IoError Unit := ExceptT.mk (Prog.effect Effect.syncAll)
def removeFile : Io IoError Unit := ExceptT.mk (Prog.effect Effect.removeFile)

/-! ## Secrets -/

structure EnvironmentSecrets where
  subjectHmacKey : Key
  subjectHmacKeyVersion : Nat
  stateMasterKey : Key

def toKey (bytes : List UInt8) : Option Key :=
  if h : bytes.length = 32 then some ⟨bytes, h⟩ else none

def read32ByteSecret (path secret : String) : Io EnvironmentSecretError Key := do
  let bytes ← (readFile path).adapt (.io secret)
  orThrow (okOr (toKey bytes) (.invalidLength secret bytes.length))

def EnvironmentSecrets.fromSecretFiles (subjectHmacKeyPath : String)
    (subjectHmacKeyVersion : Nat) (stateMasterKeyPath : String) :
    Io EnvironmentSecretError EnvironmentSecrets := do
  orThrow (refuse (subjectHmacKeyVersion = 0) .invalidVersion)
  let subjectHmacKey ← read32ByteSecret subjectHmacKeyPath "environment subject-HMAC key"
  let stateMasterKey ← read32ByteSecret stateMasterKeyPath "agent state master key"
  return { subjectHmacKey, subjectHmacKeyVersion, stateMasterKey }

/-! ## The file -/

def writeAll : List UInt8 → Io IoError Unit
  | [] => return ()
  | byte :: bytes => do
    append byte
    writeAll bytes

/-- `file.write_all(bytes).and_then(|()| file.sync_all())`. -/
def writeAndSync (bytes : List UInt8) : Io IoError Unit := do
  writeAll bytes
  syncAll

def writeNewSecretFile (bytes : List UInt8) : Io IoError Unit := do
  openNew
  let written ← ExceptT.lift (writeAndSync bytes).run
  match written with
  | .ok () => return ()
  | .error error => do
    let _ ← ExceptT.lift removeFile.run
    throw error

section Command

variable (cipher : XChaCha20Poly1305)

def AgentIdentity.writeNewEncrypted (identity : AgentIdentity) (stateMasterKey : Key) :
    Io IdentityError Unit := do
  createDirAll.adapt .io
  let nonce ← fillNonce
  let blob ← orThrow (identity.encrypt cipher stateMasterKey nonce)
  (writeNewSecretFile blob).adapt .io

def AgentIdentity.readEncrypted (stateMasterKey : Key) : Io IdentityError AgentIdentity := do
  let blob ← readIdentity.adapt .io
  orThrow (AgentIdentity.decrypt cipher blob stateMasterKey)

/-- The `match` on `read_encrypted`. -/
def loadOrCreate (stateMasterKey : Key) : Io String AgentIdentity := do
  let loaded ← ExceptT.lift (AgentIdentity.readEncrypted cipher stateMasterKey).run
  match loaded with
  | .ok identity => return identity
  | .error (.io ⟨true, _⟩) => do
    let identity ← generate
    (identity.writeNewEncrypted cipher stateMasterKey).adapt fun error =>
      "cannot create encrypted identity: " ++ error.text
    return identity
  | .error error => throw ("cannot load encrypted identity: " ++ error.text)

variable (lib : IdentityLibraries)

def runWith (options : Options) (pairingToken : Option String) : Io String PairOutput := do
  orThrow (refuse (pairingToken.isSome ≠ options.environmentId.isSome) togetherError)
  let secrets ← (EnvironmentSecrets.fromSecretFiles options.subjectHmacKeyFile
    options.subjectHmacKeyVersion options.stateMasterKeyFile).adapt fun error =>
      "cannot load environment secrets: " ++ error.text
  let identity ← loadOrCreate cipher secrets.stateMasterKey
  return printed lib identity options pairingToken

/-- `run`, with `FORGETOPS_PAIRING_TOKEN` as it is in the environment. -/
def run (arguments : List String) (pairingToken : Option String) : Io String PairOutput := do
  let options ← orThrow (Options.parse arguments)
  runWith cipher lib options (pairingToken.filter (· ≠ ""))

end Command

end ForgetOps.Agent
