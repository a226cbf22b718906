import ForgetOps.Agent.ArchiveContainer

/-
  `agent/crates/export-builder/src/key_wrap.rs`: the key of an archive, wrapped for its recipient.

  X25519 and HKDF are parameters, as the cipher is. What an export of the agent is for: its
  recipient unwraps the key, and reads the manifest and the chunks that were written
  (`export_delivered`).
-/

namespace ForgetOps.ExportBuilder

open Guards
open PrefixCode

/-- What is not under the source. -/
structure WrapLibraries where
  publicKey : Key → Key
  diffieHellman : (secret publicKey : Key) → Key
  wasContributory : Key → Bool
  /-- HKDF-SHA256 without a salt, for 32 bytes. -/
  expand : (shared : Key) → (info : List UInt8) → Option Key
  cipher : XChaCha20Poly1305

/-- Both sides share one secret, and what was encrypted opens. -/
structure WrapLibraries.Documented (lib : WrapLibraries) : Prop where
  agree : ∀ a b, lib.diffieHellman a (lib.publicKey b) = lib.diffieHellman b (lib.publicKey a)
  cipher : lib.cipher.Documented

/-- `b"forgetops.export-key-wrap.v1\0"`. -/
def wrapContext : List UInt8 :=
  ("forgetops.export-key-wrap.v1".toList.map fun c => UInt8.ofNat c.toNat) ++ [0]

structure WrappedArchiveKey where
  version : Nat
  ephemeralPublicKey : Key
  nonce : Nonce
  ciphertext : List UInt8
  deriving DecidableEq

section Wrapping

variable (lib : WrapLibraries)

def deriveWrapKey (shared : Key) (context : List UInt8) : Except ArchiveEncryptionError Key := do
  refuse (lib.wasContributory shared = false) .invalidKey
  okOr (lib.expand shared context) .invalidKey

/-- `wrap_archive_key`, which draws this secret and this nonce. -/
def wrapArchiveKey (archiveKey recipientPublicKey : Key) (context : List UInt8)
    (ephemeralSecret : Key) (nonce : Nonce) : Except ArchiveEncryptionError WrappedArchiveKey := do
  let shared := lib.diffieHellman ephemeralSecret recipientPublicKey
  let key ← deriveWrapKey lib shared (wrapContext ++ context)
  let ciphertext ← okOr (lib.cipher.encrypt key nonce archiveKey.1 (wrapContext ++ context))
    .authenticationFailed
  return { version := 1, ephemeralPublicKey := lib.publicKey ephemeralSecret, nonce, ciphertext }

/-- `plaintext.try_into()`. -/
def toArchiveKey (plaintext : List UInt8) : Except ArchiveEncryptionError Key :=
  if h : plaintext.length = 32 then .ok ⟨plaintext, h⟩ else .error .authenticationFailed

def unwrapArchiveKey (wrapped : WrappedArchiveKey) (recipientSecretKey : Key)
    (context : List UInt8) : Except ArchiveEncryptionError Key := do
  refuse (wrapped.version ≠ 1) .invalidNonce
  let shared := lib.diffieHellman recipientSecretKey wrapped.ephemeralPublicKey
  let key ← deriveWrapKey lib shared (wrapContext ++ context)
  let plaintext ← okOr (lib.cipher.decrypt key wrapped.nonce wrapped.ciphertext
    (wrapContext ++ context)) .authenticationFailed
  toArchiveKey plaintext

/-! ## What the recipient does -/

/-- Each record is opened at its index, behind those before it. -/
def openFrom (key : Key) (manifest : List UInt8) : Nat → List Record → Option (List (List UInt8))
  | _, [] => some []
  | i, r :: records => do
    let chunk ← (decryptChunk lib.cipher key r.nonce r.ciphertext
      (manifest ++ bigEndian 4 i)).toOption
    let chunks ← openFrom key manifest (i + 1) records
    some (chunk :: chunks)

/-- The manifest and the chunks of an archive, for who has the secret of the wrapped key. -/
def openExport (wrapped : WrappedArchiveKey) (recipientSecretKey : Key) (context bytes : List UInt8) :
    Option (List UInt8 × List (List UInt8)) := do
  let key ← (unwrapArchiveKey lib wrapped recipientSecretKey context).toOption
  let (manifest, records) ← parse bytes
  let chunks ← openFrom lib key manifest 0 records
  some (manifest, chunks)

end Wrapping

/-! ## Wrapped keys -/

section Wrapped

variable {lib : WrapLibraries} {key secret ephemeral : Key} {nonce : Nonce}
  {context : List UInt8} {wrapped : WrappedArchiveKey}

theorem toArchiveKey_val (key : Key) : toArchiveKey key.1 = .ok key := dif_pos key.2

/-- What is wrapped: the key, under what both sides share. -/
theorem wrapArchiveKey_ok {recipient : Key}
    (h : wrapArchiveKey lib key recipient context ephemeral nonce = .ok wrapped) :
    ∃ wrapKey, deriveWrapKey lib (lib.diffieHellman ephemeral recipient) (wrapContext ++ context) =
        .ok wrapKey ∧
      lib.cipher.encrypt wrapKey nonce key.1 (wrapContext ++ context) = some wrapped.ciphertext ∧
      wrapped.version = 1 ∧ wrapped.ephemeralPublicKey = lib.publicKey ephemeral ∧
      wrapped.nonce = nonce := by
  unfold wrapArchiveKey at h
  obtain ⟨wrapKey, hkey, h⟩ := bind_ok.mp h
  obtain ⟨ciphertext, hciphertext, h⟩ := bind_ok.mp h
  obtain rfl := pure_ok.mp h
  exact ⟨wrapKey, hkey, okOr_ok.mp hciphertext, rfl, rfl, rfl⟩

/-- The recipient unwraps the key. -/
theorem unwrapArchiveKey_wrap (hlib : lib.Documented)
    (h : wrapArchiveKey lib key (lib.publicKey secret) context ephemeral nonce = .ok wrapped) :
    unwrapArchiveKey lib wrapped secret context = .ok key := by
  obtain ⟨wrapKey, hkey, hciphertext, hversion, hephemeral, hnonce⟩ := wrapArchiveKey_ok h
  unfold unwrapArchiveKey
  refine refuse_bind_ok.mpr ⟨not_not.mpr hversion, ?_⟩
  rw [hephemeral, hlib.agree secret ephemeral, hnonce]
  refine bind_ok.mpr ⟨wrapKey, hkey, ?_⟩
  refine bind_ok.mpr ⟨key.1, okOr_ok.mpr ?_, toArchiveKey_val key⟩
  exact hlib.cipher.opens _ _ _ _ _ hciphertext

/-- What was encrypted opens under this associated data only. -/
def Bound (cipher : XChaCha20Poly1305) (nonce : Nonce) (ciphertext aad : List UInt8) : Prop :=
  ∀ key aad', cipher.decrypt key nonce ciphertext aad' ≠ none → aad' = aad

/-- Nothing is unwrapped in another context. -/
theorem unwrapArchiveKey_bound {context' : List UInt8} {secret' key' : Key}
    (hbound : Bound lib.cipher wrapped.nonce wrapped.ciphertext (wrapContext ++ context))
    (h : unwrapArchiveKey lib wrapped secret' context' = .ok key') : context' = context := by
  unfold unwrapArchiveKey at h
  obtain ⟨-, h⟩ := refuse_bind_ok.mp h
  obtain ⟨wrapKey, -, h⟩ := bind_ok.mp h
  obtain ⟨plaintext, hplaintext, -⟩ := bind_ok.mp h
  have hopens := okOr_ok.mp hplaintext
  refine List.append_cancel_left (hbound wrapKey _ ?_)
  rw [hopens]
  exact Option.some_ne_none _

/-! ## Exports -/

variable {maxBytes chunkBytes : Nat} {manifest : ExportManifest} {w : EncryptedArchiveWriter}

theorem openFrom_record (hdoc : lib.cipher.Documented) (es : List { e : Encryption // e.Fits })
    (i : Nat) (h : ∀ j e, es[j]? = some e → Sealed lib.cipher key manifest (i + j) e.1) :
    openFrom lib key manifest.toVec i (es.map record) = some (es.map fun e => e.1.plaintext) := by
  induction es generalizing i with
  | nil => rfl
  | cons e es ih =>
    have hsealed := h 0 e rfl
    have hopens := hdoc.opens _ _ _ _ _ hsealed.encrypts
    rw [hsealed.aad] at hopens
    have hchunk : decryptChunk lib.cipher key (record e).nonce (record e).ciphertext
        (manifest.toVec ++ bigEndian 4 i) = .ok e.1.plaintext := decryptChunk_iff.mpr hopens
    have hrest : openFrom lib key manifest.toVec (i + 1) (es.map record) =
        some (es.map fun e => e.1.plaintext) := by
      refine ih (i + 1) fun j e' hget => ?_
      have hlater := h (j + 1) e' hget
      rwa [show i + (j + 1) = i + 1 + j by omega] at hlater
    rw [List.map_cons, openFrom, hchunk, hrest]
    rfl

/-- The records of a finished archive, and what they hold. -/
theorem parse_run (hdoc : lib.cipher.Documented)
    (hnew : EncryptedArchiveWriter.new key maxBytes chunkBytes manifest = .ok w)
    (hfits : manifest.toVec.length < 2 ^ 32) {calls : List Call} (hcalls : calls.length < 2 ^ 32) :
    ∃ records, parse (w.run lib.cipher calls).finish.bytes = some (manifest.toVec, records) ∧
      openFrom lib key manifest.toVec 0 records =
        some ((w.accepted lib.cipher calls).map (·.plaintext)) := by
  have hsealed : ∀ (i : Nat) (e : Encryption), (w.encryptions lib.cipher calls)[i]? = some e →
      Sealed lib.cipher key manifest i e :=
    fun _ _ hget => sealed_of_getElem? hnew hcalls hget
  have hsmall := encryptions_fit hdoc hnew hcalls
  rw [EncryptedArchiveWriter.accepted_eq, bytes_eq_of_new calls hnew]
  generalize w.encryptions lib.cipher calls = es at hsealed hsmall
  lift es to List { e : Encryption // e.Fits } using hsmall
  refine ⟨es.map record, parse_iff.mpr ⟨hfits, ?_⟩, ?_⟩
  · rw [flatMap_record]
  · rw [openFrom_record hdoc es 0, List.map_map, List.map_map]
    · rfl
    · intro j e hget
      rw [Nat.zero_add]
      refine hsealed j e.1 ?_
      rw [List.getElem?_map, hget]
      rfl

/-- **An export is delivered.** Whatever chunks are written, the recipient of the wrapped key reads
    the manifest and the chunks that were accepted, in order; in another context nobody reads
    anything. -/
theorem export_delivered (hlib : lib.Documented)
    (hnew : EncryptedArchiveWriter.new key maxBytes chunkBytes manifest = .ok w)
    (hfits : manifest.toVec.length < 2 ^ 32) (calls : List Call) (hcalls : calls.length < 2 ^ 32)
    (hwrap : wrapArchiveKey lib key (lib.publicKey secret) context ephemeral nonce = .ok wrapped)
    (hbound : Bound lib.cipher wrapped.nonce wrapped.ciphertext (wrapContext ++ context)) :
    openExport lib wrapped secret context (w.run lib.cipher calls).finish.bytes =
        some (manifest.toVec, (w.accepted lib.cipher calls).map (·.plaintext)) ∧
      ∀ secret' context' bytes, context' ≠ context →
        openExport lib wrapped secret' context' bytes = none := by
  constructor
  · obtain ⟨records, hparse, hchunks⟩ := parse_run hlib.cipher hnew hfits hcalls
    unfold openExport
    rw [unwrapArchiveKey_wrap hlib hwrap, hparse]
    show (openFrom lib key manifest.toVec 0 records).bind _ = _
    rw [hchunks]
    rfl
  · intro secret' context' bytes hother
    unfold openExport
    cases hunwrap : unwrapArchiveKey lib wrapped secret' context' with
    | error e => rfl
    | ok key' => exact absurd (unwrapArchiveKey_bound hbound hunwrap) hother

end Wrapped

/-! ## A small export -/

def smallContext : List UInt8 := [0x72]

/-- The tag tells the context of the small export from all other associated data. -/
def smallTag (aad : List UInt8) : UInt8 := if aad = wrapContext ++ smallContext then 1 else 0

def taggedCipher : XChaCha20Poly1305 where
  encrypt _ _ msg aad := some (msg ++ List.replicate 16 (smallTag aad))
  decrypt _ _ ciphertext aad :=
    if ciphertext.drop (ciphertext.length - 16) = List.replicate 16 (smallTag aad) then
      some (ciphertext.take (ciphertext.length - 16))
    else none

theorem taggedCipher_documented : taggedCipher.Documented where
  opens key nonce msg aad ciphertext h := by
    cases h
    have hlength : (msg ++ List.replicate 16 (smallTag aad)).length - 16 = msg.length := by
      rw [List.length_append, List.length_replicate, Nat.add_sub_cancel]
    unfold taggedCipher
    dsimp only
    rw [hlength, List.drop_left, List.take_left, if_pos rfl]
  length key nonce msg aad ciphertext h := by
    cases h
    rw [List.length_append, List.length_replicate]

/-- One secret is shared by all. -/
def smallLibraries : WrapLibraries where
  publicKey key := key
  diffieHellman _ _ := zeroKey
  wasContributory _ := true
  expand _ _ := some zeroKey
  cipher := taggedCipher

theorem smallLibraries_documented : smallLibraries.Documented where
  agree _ _ := rfl
  cipher := taggedCipher_documented

def smallWrapped : WrappedArchiveKey where
  version := 1
  ephemeralPublicKey := zeroKey
  nonce := zeroNonce
  ciphertext := List.replicate 32 0 ++ List.replicate 16 1

theorem wrap_small : wrapArchiveKey smallLibraries zeroKey (smallLibraries.publicKey zeroKey)
    smallContext zeroKey zeroNonce = .ok smallWrapped := rfl

theorem bound_small : Bound smallLibraries.cipher smallWrapped.nonce smallWrapped.ciphertext
    (wrapContext ++ smallContext) := by
  intro key aad' hopens
  by_contra hother
  have htag : smallTag aad' = 0 := if_neg hother
  refine hopens (if_neg ?_)
  rw [htag]
  decide

theorem export_delivered_small :
    openExport smallLibraries smallWrapped zeroKey smallContext
        (smallWriter.run smallLibraries.cipher
          [⟨[1, 2, 3], zeroNonce⟩, ⟨[1, 2], zeroNonce⟩]).finish.bytes =
        some (emptyManifest.toVec, [[1, 2]]) ∧
      ∀ secret context bytes, context ≠ smallContext →
        openExport smallLibraries smallWrapped secret context bytes = none := by
  obtain ⟨hread, hother⟩ := export_delivered smallLibraries_documented smallWriter_new
    emptyManifest_fits [⟨[1, 2, 3], zeroNonce⟩, ⟨[1, 2], zeroNonce⟩] (by decide) wrap_small
    bound_small
  exact ⟨hread, hother⟩

end ForgetOps.ExportBuilder
