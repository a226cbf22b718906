import ForgetOps.Library.Guards
import ForgetOps.Library.JsonParse
import ForgetOps.Library.PrefixCode
import ForgetOps.Library.Utf8
import ForgetOps.Sdk.Responses

/-
  `EncryptedArchiveWriter` (`agent/crates/export-builder`): the manifest, the encryption of one
  chunk, and the writer.

  XChaCha20-Poly1305 is a parameter, of which `Documented` says what its documentation does. A nonce
  is drawn anew for each chunk: it is part of the call here.
-/

namespace ForgetOps.ExportBuilder

open AdapterHttp (jsString_injective)
open Guards
open Json (jsString JsString Members)
open PrefixCode

/-! ## The manifest -/

structure ConnectorExportSummary where
  connector : String
  resourceCount : Nat
  status : String
  deriving DecidableEq, Repr

structure ExportFileEntry where
  path : String
  bytes : Nat
  sha256 : String
  deriving DecidableEq, Repr

structure ExportManifest where
  formatVersion : String
  requestId : String
  generatedAt : String
  connectors : List ConnectorExportSummary
  files : List ExportFileEntry
  archiveFormat : String
  chunkBytes : Nat
  plaintextBytes : Nat
  ciphertextSha256 : String
  deriving DecidableEq, Repr

def ExportManifest.validate (m : ExportManifest) : Except String Unit :=
  refuse (m.formatVersion ≠ "forgetops.export-manifest.v1" ∨
    m.archiveFormat ≠ "forgetops.chunked-aead.v1" ∨ m.requestId.isEmpty ∨ m.chunkBytes = 0 ∨
    m.files.any fun file => file.path.isEmpty) "INVALID_EXPORT_MANIFEST"

def string (s : String) : Json JsString := .string (jsString s)

def ConnectorExportSummary.json (c : ConnectorExportSummary) : Json JsString :=
  .object [("connector", string c.connector), ("resourceCount", .number c.resourceCount),
    ("status", string c.status)]

def ExportFileEntry.json (f : ExportFileEntry) : Json JsString :=
  .object [("path", string f.path), ("bytes", .number f.bytes), ("sha256", string f.sha256)]

def ExportManifest.json (m : ExportManifest) : Json JsString :=
  .object [("formatVersion", string m.formatVersion), ("requestId", string m.requestId),
    ("generatedAt", string m.generatedAt),
    ("connectors", .array (m.connectors.map ConnectorExportSummary.json)),
    ("files", .array (m.files.map ExportFileEntry.json)),
    ("archiveFormat", string m.archiveFormat), ("chunkBytes", .number m.chunkBytes),
    ("plaintextBytes", .number m.plaintextBytes), ("ciphertextSha256", string m.ciphertextSha256)]

/-- `serde_json::to_vec(manifest)`. -/
def ExportManifest.toVec (m : ExportManifest) : List UInt8 := Json.encode m.json

/-! ## One chunk -/

/-- `[u8; 32]` and `[u8; 24]`. -/
abbrev Key := { bytes : List UInt8 // bytes.length = 32 }
abbrev Nonce := { bytes : List UInt8 // bytes.length = 24 }

/-- What is not under the source. -/
structure XChaCha20Poly1305 where
  encrypt : Key → Nonce → (msg aad : List UInt8) → Option (List UInt8)
  decrypt : Key → Nonce → (ciphertext aad : List UInt8) → Option (List UInt8)

/-- What was encrypted opens under the same associated data, and carries a tag of 16 bytes. -/
structure XChaCha20Poly1305.Documented (cipher : XChaCha20Poly1305) : Prop where
  opens : ∀ key nonce msg aad ciphertext, cipher.encrypt key nonce msg aad = some ciphertext →
    cipher.decrypt key nonce ciphertext aad = some msg
  length : ∀ key nonce msg aad ciphertext, cipher.encrypt key nonce msg aad = some ciphertext →
    ciphertext.length = msg.length + 16

inductive ArchiveEncryptionError where
  | invalidKey
  | invalidNonce
  | authenticationFailed
  | chunkTooLarge
  deriving DecidableEq, Repr

def ArchiveEncryptionError.display : ArchiveEncryptionError → String
  | .invalidKey => "invalid archive key"
  | .invalidNonce => "invalid archive nonce"
  | .authenticationFailed => "archive chunk authentication failed"
  | .chunkTooLarge => "archive chunk exceeds configured limit"

/-- The largest chunk. -/
def largestChunk : Nat := 16 * 1024 * 1024

variable (cipher : XChaCha20Poly1305)

/-- `encrypt_chunk`, which draws this nonce. -/
def encryptChunk (key : Key) (plaintext aad : List UInt8) (nonce : Nonce) :
    Except ArchiveEncryptionError (Nonce × List UInt8) := do
  refuse (plaintext.length > largestChunk) .chunkTooLarge
  let ciphertext ← okOr (cipher.encrypt key nonce plaintext aad) .authenticationFailed
  return (nonce, ciphertext)

def decryptChunk (key : Key) (nonce ciphertext aad : List UInt8) :
    Except ArchiveEncryptionError (List UInt8) :=
  if h : nonce.length = 24 then
    okOr (cipher.decrypt key ⟨nonce, h⟩ ciphertext aad) .authenticationFailed
  else .error .invalidNonce

/-! ## The writer -/

/-- `b"FOPSEX01"`. -/
def magic : List UInt8 := "FOPSEX01".toList.map fun c => UInt8.ofNat c.toNat

structure EncryptedArchive where
  bytes : List UInt8
  plaintextBytes : Nat
  chunks : Nat
  deriving DecidableEq, Repr

structure EncryptedArchiveWriter where
  key : Key
  maxBytes : Nat
  chunkBytes : Nat
  manifestAad : List UInt8
  output : List UInt8
  plaintextBytes : Nat
  chunks : Nat
  deriving DecidableEq

/-- A call of `write_chunk`. -/
structure Call where
  plaintext : List UInt8
  nonce : Nonce
  deriving DecidableEq

/-- `a.checked_add(b)` for `u64`. -/
def checkedAdd (a b : Nat) : Option Nat := if a + b < 2 ^ 64 then some (a + b) else none

namespace EncryptedArchiveWriter

def new (key : Key) (maxBytes chunkBytes : Nat) (manifest : ExportManifest) :
    Except String EncryptedArchiveWriter := do
  manifest.validate
  refuse (chunkBytes = 0 ∨ chunkBytes > 16 * 1024 * 1024) "INVALID_CHUNK_SIZE"
  let manifestAad := manifest.toVec
  return {
    key
    maxBytes
    chunkBytes
    manifestAad
    output := magic ++ bigEndian 4 manifestAad.length ++ manifestAad
    plaintextBytes := 0
    chunks := 0 }

/-- `&mut self`: what was changed before an error stays changed. -/
abbrev Writing := ExceptT ArchiveEncryptionError (StateM EncryptedArchiveWriter)

/-- `self.output.extend_from_slice(bytes)`. -/
def extend (bytes : List UInt8) : Writing Unit :=
  modify fun w => { w with output := w.output ++ bytes }

def writeChunk (call : Call) : Writing Unit := do
  let w ← get
  if call.plaintext.length > w.chunkBytes then throw .chunkTooLarge
  let next ← ofExcept (okOr (checkedAdd w.plaintextBytes call.plaintext.length) .chunkTooLarge)
  if next > w.maxBytes then throw .chunkTooLarge
  let aad := w.manifestAad ++ bigEndian 4 w.chunks
  let (nonce, ciphertext) ← ofExcept (encryptChunk cipher w.key call.plaintext aad call.nonce)
  extend (bigEndian 4 call.plaintext.length)
  extend nonce
  extend (bigEndian 4 ciphertext.length)
  extend ciphertext
  modify fun w => { w with plaintextBytes := next }
  modify fun w => { w with chunks := min (w.chunks + 1) (2 ^ 32 - 1) }

variable (w : EncryptedArchiveWriter)

/-- What a call answers, and the writer behind it. -/
def write (call : Call) : Except ArchiveEncryptionError Unit × EncryptedArchiveWriter :=
  (writeChunk cipher call).run.run w

def finish : EncryptedArchive where
  bytes := w.output
  plaintextBytes := w.plaintextBytes
  chunks := w.chunks

/-- The writer after these calls. -/
def run (calls : List Call) : EncryptedArchiveWriter :=
  calls.foldl (fun w call => (w.write cipher call).2) w

/-- The calls that are answered without an error. -/
def accepted (w : EncryptedArchiveWriter) : List Call → List Call
  | [] => []
  | call :: calls =>
    match w.write cipher call with
    | (.ok (), w') => call :: accepted w' calls
    | (.error _, w') => accepted w' calls

/-! ### What was encrypted -/

/-- `[&self.manifest_aad[..], &self.chunks.to_be_bytes()[..]].concat()`. -/
def aad : List UInt8 := w.manifestAad ++ bigEndian 4 w.chunks

end EncryptedArchiveWriter

/-- What the cipher was given for a chunk, and what it returned. -/
structure Encryption where
  plaintext : List UInt8
  nonce : Nonce
  aad : List UInt8
  ciphertext : List UInt8
  deriving DecidableEq

/-- The record of a chunk. -/
def Encryption.bytes (e : Encryption) : List UInt8 :=
  bigEndian 4 e.plaintext.length ++ (e.nonce ++ (bigEndian 4 e.ciphertext.length ++ e.ciphertext))

namespace EncryptedArchiveWriter

variable (w : EncryptedArchiveWriter)

/-- The encryption of an accepted call. -/
def encryption (call : Call) : Option Encryption :=
  match (w.write cipher call).1 with
  | .ok () =>
    (cipher.encrypt w.key call.nonce call.plaintext w.aad).map fun ciphertext =>
      ⟨call.plaintext, call.nonce, w.aad, ciphertext⟩
  | .error _ => none

/-- The encryptions of the accepted calls, in order. -/
def encryptions (w : EncryptedArchiveWriter) : List Call → List Encryption
  | [] => []
  | call :: calls =>
    (w.encryption cipher call).toList ++ encryptions (w.write cipher call).2 calls

/-- The writer with one record more. -/
def push (e : Encryption) : EncryptedArchiveWriter :=
  { w with
    output := w.output ++ e.bytes
    plaintextBytes := w.plaintextBytes + e.plaintext.length
    chunks := min (w.chunks + 1) (2 ^ 32 - 1) }

/-- The chunk or the archive would be too large, or the cipher fails. -/
def Refuses (call : Call) : Prop :=
  call.plaintext.length > w.chunkBytes ∨
    checkedAdd w.plaintextBytes call.plaintext.length = none ∨
    w.plaintextBytes + call.plaintext.length > w.maxBytes ∨
    call.plaintext.length > largestChunk ∨
    cipher.encrypt w.key call.nonce call.plaintext w.aad = none

variable {cipher} {w}

/-! ### One call -/

section

variable {α β : Type} {x : Except ArchiveEncryptionError α}

theorem run_get_bind (f : EncryptedArchiveWriter → Writing β) :
    ((get : Writing EncryptedArchiveWriter) >>= f).run.run w = (f w).run.run w := rfl

theorem run_ofExcept_error (f : α → Writing β) {error : ArchiveEncryptionError}
    (h : x = .error error) : ((ofExcept x : Writing α) >>= f).run.run w = (.error error, w) := by
  rw [h]
  rfl

theorem run_ofExcept_ok (f : α → Writing β) {a : α} (h : x = .ok a) :
    ((ofExcept x : Writing α) >>= f).run.run w = (f a).run.run w := by
  rw [h]
  rfl

end

theorem checkedAdd_eq {a b c : Nat} (h : checkedAdd a b = some c) : c = a + b := by
  unfold checkedAdd at h
  split_ifs at h
  exact (Option.some.inj h).symm

/-- A call that is refused leaves the writer as it was. -/
theorem write_of_refuses {call : Call} (h : w.Refuses cipher call) :
    ∃ error, w.write cipher call = (.error error, w) := by
  unfold write writeChunk
  rw [run_get_bind]
  by_cases hchunk : call.plaintext.length > w.chunkBytes
  · rw [if_pos hchunk]
    exact ⟨_, rfl⟩
  rw [if_neg hchunk]
  cases hadd : checkedAdd w.plaintextBytes call.plaintext.length with
  | none => exact ⟨_, run_ofExcept_error _ (okOr_error.mpr ⟨rfl, rfl⟩)⟩
  | some next =>
    have hnext := checkedAdd_eq hadd
    beta_reduce
    rw [run_ofExcept_ok _ (okOr_ok.mpr rfl)]
    by_cases hmax : next > w.maxBytes
    · rw [if_pos hmax]
      exact ⟨_, rfl⟩
    rw [if_neg hmax]
    have hfails : ∃ error,
        encryptChunk cipher w.key call.plaintext w.aad call.nonce = .error error := by
      unfold encryptChunk
      rcases h with h | h | h | h | h
      · exact absurd h hchunk
      · rw [hadd] at h
        exact absurd h (Option.some_ne_none next)
      · exact absurd (hnext ▸ h) hmax
      · exact ⟨_, refuse_bind_error.mpr (.inl ⟨h, rfl⟩)⟩
      · by_cases hlargest : call.plaintext.length > largestChunk
        · exact ⟨_, refuse_bind_error.mpr (.inl ⟨hlargest, rfl⟩)⟩
        · exact ⟨_, refuse_bind_error.mpr
            (.inr ⟨hlargest, bind_error.mpr (.inl (okOr_error.mpr ⟨h, rfl⟩))⟩)⟩
    obtain ⟨error, herror⟩ := hfails
    exact ⟨error, run_ofExcept_error _ herror⟩

/-- Otherwise a record is appended. -/
theorem write_of_not_refuses {call : Call} (h : ¬ w.Refuses cipher call) :
    ∃ ciphertext, cipher.encrypt w.key call.nonce call.plaintext w.aad = some ciphertext ∧
      w.write cipher call =
        (.ok (), w.push ⟨call.plaintext, call.nonce, w.aad, ciphertext⟩) := by
  unfold Refuses at h
  push Not at h
  obtain ⟨hchunk, hadd, hmax, hlargest, hencrypt⟩ := h
  obtain ⟨ciphertext, hciphertext⟩ := Option.ne_none_iff_exists'.mp hencrypt
  obtain ⟨next, hnext⟩ := Option.ne_none_iff_exists'.mp hadd
  have hsum := checkedAdd_eq hnext
  have hencrypted : encryptChunk cipher w.key call.plaintext w.aad call.nonce =
      .ok (call.nonce, ciphertext) := by
    unfold encryptChunk
    rw [hciphertext]
    exact refuse_bind_ok.mpr ⟨hlargest.not_gt, rfl⟩
  refine ⟨ciphertext, hciphertext, ?_⟩
  unfold write writeChunk
  rw [run_get_bind, if_neg hchunk.not_gt]
  beta_reduce
  rw [run_ofExcept_ok _ (okOr_ok.mpr hnext), if_neg (by omega)]
  refine (run_ofExcept_ok _ hencrypted).trans ?_
  simp only [push, Encryption.bytes, ← List.append_assoc, hsum]
  rfl

/-! ### Runs -/

/-- The writer with these records more. -/
def after (w : EncryptedArchiveWriter) (es : List Encryption) : EncryptedArchiveWriter :=
  { w with
    output := w.output ++ es.flatMap Encryption.bytes
    plaintextBytes := w.plaintextBytes + (es.map fun e => e.plaintext.length).sum
    chunks := min (w.chunks + es.length) (2 ^ 32 - 1) }

theorem after_nil (h : w.chunks < 2 ^ 32) : w.after [] = w := by
  have hchunks : min w.chunks (2 ^ 32 - 1) = w.chunks := by omega
  simp only [after, List.flatMap_nil, List.append_nil, List.map_nil, List.sum_nil, Nat.add_zero,
    List.length_nil, hchunks]

theorem push_chunks (e : Encryption) : (w.push e).chunks < 2 ^ 32 := by
  unfold push
  dsimp only
  omega

theorem after_push (e : Encryption) (es : List Encryption) :
    (w.push e).after es = w.after (e :: es) := by
  have hchunks : min (min (w.chunks + 1) (2 ^ 32 - 1) + es.length) (2 ^ 32 - 1) =
      min (w.chunks + (es.length + 1)) (2 ^ 32 - 1) := by omega
  simp only [after, push, List.flatMap_cons, List.append_assoc, List.map_cons, List.sum_cons,
    Nat.add_assoc, List.length_cons, hchunks]

/-- What the writer encrypts in a call that it accepts. -/
structure Seals (cipher : XChaCha20Poly1305) (w : EncryptedArchiveWriter) (e : Encryption) :
    Prop where
  aad : e.aad = w.aad
  encrypts : cipher.encrypt w.key e.nonce e.plaintext e.aad = some e.ciphertext
  small : e.plaintext.length ≤ largestChunk
  total_le : w.plaintextBytes + e.plaintext.length ≤ w.maxBytes

variable (cipher) (w)

/-- A call is refused, or it is accepted with one encryption. -/
theorem write_cases (call : Call) :
    (∃ error, w.write cipher call = (.error error, w) ∧ w.encryption cipher call = none) ∨
    ∃ e, w.write cipher call = (.ok (), w.push e) ∧ w.encryption cipher call = some e ∧
      Seals cipher w e ∧ (⟨e.plaintext, e.nonce⟩ : Call) = call := by
  by_cases hrefuses : w.Refuses cipher call
  · obtain ⟨error, herror⟩ := write_of_refuses hrefuses
    refine .inl ⟨error, herror, ?_⟩
    unfold encryption
    rw [herror]
  · obtain ⟨ciphertext, hciphertext, hwrite⟩ := write_of_not_refuses hrefuses
    unfold Refuses at hrefuses
    push Not at hrefuses
    obtain ⟨-, -, hmax, hlargest, -⟩ := hrefuses
    refine .inr ⟨_, hwrite, ?_, ⟨rfl, hciphertext, hlargest, hmax⟩, rfl⟩
    unfold encryption
    rw [hwrite, hciphertext]
    rfl

theorem run_cons (call : Call) (calls : List Call) :
    w.run cipher (call :: calls) = (w.write cipher call).2.run cipher calls := rfl

/-- What was encrypted is all that a run has done. -/
theorem run_eq (calls : List Call) (h : w.chunks < 2 ^ 32) :
    w.run cipher calls = w.after (w.encryptions cipher calls) := by
  induction calls generalizing w with
  | nil => exact (after_nil h).symm
  | cons call calls ih =>
    rw [run_cons, encryptions]
    rcases write_cases cipher w call with
      ⟨error, hwrite, hencryption⟩ | ⟨e, hwrite, hencryption, -, -⟩
    · rw [hwrite, hencryption]
      exact ih w h
    · rw [hwrite, hencryption, ih (w.push e) (push_chunks e), after_push]
      rfl

/-- The encryptions are those of the accepted calls, in order. -/
theorem accepted_eq (calls : List Call) :
    w.accepted cipher calls =
      (w.encryptions cipher calls).map fun e => ⟨e.plaintext, e.nonce⟩ := by
  induction calls generalizing w with
  | nil => rfl
  | cons call calls ih =>
    rw [accepted, encryptions, List.map_append]
    rcases write_cases cipher w call with
      ⟨error, hwrite, hencryption⟩ | ⟨e, hwrite, hencryption, -, hcall⟩
    · rw [hwrite, hencryption]
      exact ih w
    · rw [hwrite, hencryption, Option.toList_some, List.map_singleton, hcall, List.singleton_append]
      exact congrArg _ (ih (w.push e))

variable {cipher} {w}

/-- Each chunk was encrypted by the writer behind those before it. -/
theorem seals_of_getElem? {calls : List Call} (h : w.chunks < 2 ^ 32) {i : Nat} {e : Encryption}
    (hget : (w.encryptions cipher calls)[i]? = some e) :
    Seals cipher (w.after ((w.encryptions cipher calls).take i)) e := by
  induction calls generalizing w i with
  | nil =>
    rw [encryptions, List.getElem?_nil] at hget
    cases hget
  | cons call calls ih =>
    rw [encryptions] at hget ⊢
    rcases write_cases cipher w call with
      ⟨error, hwrite, hencryption⟩ | ⟨e', hwrite, hencryption, hseals, -⟩
    · rw [hwrite, hencryption] at hget ⊢
      exact ih h hget
    · rw [hwrite, hencryption, Option.toList_some, List.singleton_append] at hget ⊢
      cases i with
      | zero =>
        cases hget
        rw [List.take_zero, after_nil h]
        exact hseals
      | succ i =>
        rw [List.take_succ_cons, ← after_push]
        exact ih (push_chunks e') hget

variable (cipher) (w)

/-- The limit on the archive is kept. -/
theorem total_le (calls : List Call) (h : w.plaintextBytes ≤ w.maxBytes) :
    (w.run cipher calls).plaintextBytes ≤ w.maxBytes := by
  induction calls generalizing w with
  | nil => exact h
  | cons call calls ih =>
    rw [run_cons]
    rcases write_cases cipher w call with ⟨error, hwrite, -⟩ | ⟨e, hwrite, -, hseals, -⟩
    · rw [hwrite]
      exact ih w h
    · rw [hwrite]
      exact ih (w.push e) hseals.total_le

theorem length_encryptions_le (calls : List Call) :
    (w.encryptions cipher calls).length ≤ calls.length := by
  induction calls generalizing w with
  | nil => exact le_rfl
  | cons call calls ih =>
    have htail := ih (w.write cipher call).2
    have hhead := Option.length_toList_le (o := w.encryption cipher call)
    rw [encryptions, List.length_append, List.length_cons]
    omega

end EncryptedArchiveWriter

end ForgetOps.ExportBuilder
