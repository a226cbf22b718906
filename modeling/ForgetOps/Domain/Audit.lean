import Mathlib.Tactic

/-
  Audit events and their hash chain (`packages/domain/src/audit/{canonical-event,hash-chain}.ts`).

  SHA-256 and `canonicalize` are parameters. `canonicalize` answers `none` where the package
  answers `undefined`. Metadata is any type: nothing but `canonicalize` looks at it.
-/

namespace ForgetOps.Domain

inductive ActorType where
  | user
  | agent
  | system
  deriving DecidableEq, Repr

structure AuditEventWithoutHashes (Metadata : Type) where
  id : String
  tenantId : String
  environmentId : String
  sequence : String
  requestId : Option String
  actorType : ActorType
  actorId : String
  action : String
  metadata : Metadata
  createdAt : String
  deriving DecidableEq, Repr

structure CanonicalAuditEvent (Metadata : Type) extends AuditEventWithoutHashes Metadata where
  previousEventHash : Option String
  eventHash : String
  deriving DecidableEq, Repr

/-- The `TypeError`s of `canonical-event.ts`. -/
inductive AuditError where
  | eventNotCanonical
  | previousHashInvalid
  deriving DecidableEq, Repr

/-! ## Bytes -/

def utf8 (s : String) : List UInt8 := s.toUTF8.data.toList

def hexDigit (n : Nat) : Char :=
  if n < 10 then Char.ofNat ('0'.toNat + n) else Char.ofNat ('a'.toNat + (n - 10))

/-- `digest("hex")`. -/
def toHex (bytes : List UInt8) : String :=
  String.ofList (bytes.flatMap fun b => [hexDigit (b.toNat / 16), hexDigit (b.toNat % 16)])

def hexValue (c : Char) : Option Nat :=
  if '0' ≤ c ∧ c ≤ '9' then some (c.toNat - '0'.toNat)
  else if 'a' ≤ c ∧ c ≤ 'f' then some (c.toNat - 'a'.toNat + 10)
  else if 'A' ≤ c ∧ c ≤ 'F' then some (c.toNat - 'A'.toNat + 10)
  else none

def hexBytes : List Char → List UInt8
  | c :: c' :: rest =>
    match hexValue c, hexValue c' with
    | some n, some n' => UInt8.ofNat (16 * n + n') :: hexBytes rest
    | _, _ => []
  | _ => []

/-- `Buffer.from(s, "hex")`: decoding stops at the first pair that is not hexadecimal. -/
def fromHex (s : String) : List UInt8 := hexBytes s.toList

/-- A SHA-256 digest. -/
abbrev Digest := { bytes : List UInt8 // bytes.length = 32 }

def AUDIT_HASH_CONTEXT : String := "forgetops.audit-event.v1"

section Hashing

variable {Metadata : Type} (sha256 : List UInt8 → Digest)
  (canonicalize : AuditEventWithoutHashes Metadata → Option String)

def canonicalAuditEventBytes (event : AuditEventWithoutHashes Metadata) :
    Except AuditError (List UInt8) :=
  match canonicalize event with
  | none => .error .eventNotCanonical
  | some serialized => .ok (utf8 serialized)

/-- The bytes of `previousEventHash`; `null` and the empty string stand for none. -/
def previousBytes (previousEventHash : Option String) : Except AuditError (List UInt8) :=
  match previousEventHash with
  | none => .ok []
  | some hash =>
    if hash = "" then .ok []
    else if (fromHex hash).length ≠ 32 then .error .previousHashInvalid
    else .ok (fromHex hash)

/-- What is fed to the hash: the context, a zero byte, the previous hash and the event. -/
def hashInput (previous event : List UInt8) : List UInt8 :=
  utf8 AUDIT_HASH_CONTEXT ++ [0] ++ previous ++ event

def auditEventHash (previousEventHash : Option String)
    (event : AuditEventWithoutHashes Metadata) : Except AuditError String := do
  let previous ← previousBytes previousEventHash
  let bytes ← canonicalAuditEventBytes canonicalize event
  return toHex (sha256 (hashInput previous bytes)).val

inductive Verdict where
  | valid
  | broken (brokenAt : String)
  deriving DecidableEq, Repr

/-- The loop of `verifyChain` behind `previous`. -/
def verifyFrom (previous : Option String) :
    List (CanonicalAuditEvent Metadata) → Except AuditError Verdict
  | [] => .ok .valid
  | event :: chain => do
    let expected ← auditEventHash sha256 canonicalize previous event.toAuditEventWithoutHashes
    if event.previousEventHash ≠ previous ∨ event.eventHash ≠ expected then
      return .broken event.id
    else
      verifyFrom (some event.eventHash) chain

def verifyChain (chain : List (CanonicalAuditEvent Metadata)) : Except AuditError Verdict :=
  verifyFrom sha256 canonicalize none chain

/-- The `map` of `buildChain` behind `previous`. -/
def buildFrom (previous : Option String) :
    List (AuditEventWithoutHashes Metadata) → Except AuditError (List (CanonicalAuditEvent Metadata))
  | [] => .ok []
  | event :: events => do
    let eventHash ← auditEventHash sha256 canonicalize previous event
    let rest ← buildFrom (some eventHash) events
    return { event with previousEventHash := previous, eventHash } :: rest

def buildChain (events : List (AuditEventWithoutHashes Metadata)) :
    Except AuditError (List (CanonicalAuditEvent Metadata)) :=
  buildFrom sha256 canonicalize none events

end Hashing

end ForgetOps.Domain
