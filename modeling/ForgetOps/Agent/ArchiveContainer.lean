import ForgetOps.Agent.ArchiveWriter

/-
  What the bytes of a finished archive are (`agent/crates/export-builder/src/archive.rs`).

  A `Container` is the manifest and the records of the chunks. The bytes of a finished archive are
  those of one container, and a record opens under the manifest and its own index alone:
  `archive_parses`. Nothing marks the last record: `truncationEvident_iff`.
-/

namespace ForgetOps.ExportBuilder

open AdapterHttp (jsString_injective)
open Guards
open Json (jsString JsString)
open PrefixCode

structure Record where
  length : Nat
  nonce : Nonce
  ciphertext : List UInt8
  length_lt : length < 2 ^ 32
  ciphertext_lt : ciphertext.length < 2 ^ 32
  deriving DecidableEq

def Record.bytes (r : Record) : List UInt8 :=
  bigEndian 4 r.length ++ (r.nonce ++ (bigEndian 4 r.ciphertext.length ++ r.ciphertext))

structure Container where
  manifest : ExportManifest
  records : List Record
  fits : manifest.toVec.length < 2 ^ 32
  deriving DecidableEq

def header (manifest : List UInt8) : List UInt8 :=
  magic ++ bigEndian 4 manifest.length ++ manifest

def Container.bytes (c : Container) : List UInt8 :=
  header c.manifest.toVec ++ c.records.flatMap Record.bytes

/-! ## Reading a container -/

def recordCode : PrefixCode Record UInt8 :=
  ((number 4).pair ((block 24).pair (counted (number 4)))).ofEquiv {
    toFun := fun p => ⟨p.1.1, p.2.1, p.2.2.1, p.1.2, p.2.2.2⟩
    invFun := fun r => (⟨r.length, r.length_lt⟩, r.nonce, ⟨r.ciphertext, r.ciphertext_lt⟩)
    left_inv := fun _ => rfl
    right_inv := fun _ => rfl }

def headerCode : PrefixCode (Unit × { bs : List UInt8 // bs.length < 2 ^ 32 }) UInt8 :=
  (word magic).pair (counted (number 4))

/-- The bytes of the manifest, and the records. -/
def parse (bytes : List UInt8) : Option (List UInt8 × List Record) := do
  let (manifest, rest) ← headerCode.decode bytes
  let records ← recordCode.readAll rest
  some (manifest.2.1, records)

theorem headerCode_encode (manifest : { bs : List UInt8 // bs.length < 2 ^ 32 }) :
    headerCode.encode ((), manifest) = header manifest.1 := by
  rw [header, List.append_assoc]
  rfl

theorem Record.bytes_ne_nil (r : Record) : r.bytes ≠ [] := by
  unfold Record.bytes
  apply List.append_ne_nil_of_left_ne_nil
  apply List.ne_nil_of_length_pos
  rw [length_bigEndian]
  exact Nat.succ_pos 3

/-- What is read are these bytes, in exactly one way. -/
theorem parse_iff {bytes manifest : List UInt8} {records : List Record} :
    parse bytes = some (manifest, records) ↔
      manifest.length < 2 ^ 32 ∧ header manifest ++ records.flatMap Record.bytes = bytes := by
  unfold parse
  simp only [Option.bind_eq_bind, Option.bind_eq_some_iff, Prod.exists, Option.some.injEq,
    Prod.mk.injEq]
  constructor
  · rintro ⟨u, m, rest, hheader, records', hrecords, rfl, rfl⟩
    have hrest := (readAll_iff Record.bytes_ne_nil).mp hrecords
    refine ⟨m.2, ?_⟩
    rw [← headerCode_encode m, ← headerCode.decode_iff.mp hheader]
    exact congrArg _ hrest
  · rintro ⟨hlt, rfl⟩
    refine ⟨(), ⟨manifest, hlt⟩, records.flatMap Record.bytes, ?_, records, ?_, rfl, rfl⟩
    · exact headerCode.decode_iff.mpr (congrArg (· ++ _) (headerCode_encode ⟨manifest, hlt⟩))
    · exact (readAll_iff Record.bytes_ne_nil).mpr rfl

/-! ## Manifests are told apart by their bytes -/

theorem string_injective : Function.Injective string :=
  fun _ _ h => jsString_injective (Json.string.inj h)

theorem number_injective {m n : Nat} (h : (.number m : Json JsString) = .number n) : m = n :=
  Int.ofNat_inj.mp (Json.number.inj h)

theorem ConnectorExportSummary.json_injective :
    Function.Injective ConnectorExportSummary.json := by
  intro c c' h
  obtain ⟨connector, count, status⟩ := c
  obtain ⟨connector', count', status'⟩ := c'
  simp only [json, Json.object.injEq, List.cons.injEq, Prod.mk.injEq, true_and, and_true] at h
  obtain ⟨hconnector, hcount, hstatus⟩ := h
  rw [string_injective hconnector, number_injective hcount, string_injective hstatus]

theorem ExportFileEntry.json_injective : Function.Injective ExportFileEntry.json := by
  intro f f' h
  obtain ⟨path, bytes, sha256⟩ := f
  obtain ⟨path', bytes', sha256'⟩ := f'
  simp only [json, Json.object.injEq, List.cons.injEq, Prod.mk.injEq, true_and, and_true] at h
  obtain ⟨hpath, hbytes, hsha256⟩ := h
  rw [string_injective hpath, number_injective hbytes, string_injective hsha256]

theorem ExportManifest.json_injective : Function.Injective ExportManifest.json := by
  intro m m' h
  obtain ⟨version, requestId, generatedAt, connectors, files, format, chunk, plaintext, sha⟩ := m
  obtain ⟨version', requestId', generatedAt', connectors', files', format', chunk', plaintext',
    sha'⟩ := m'
  simp only [json, Json.object.injEq, List.cons.injEq, Prod.mk.injEq, true_and, and_true] at h
  obtain ⟨hversion, hrequest, hgenerated, hconnectors, hfiles, hformat, hchunk, hplaintext, hsha⟩ :=
    h
  rw [string_injective hversion, string_injective hrequest, string_injective hgenerated,
    ConnectorExportSummary.json_injective.list_map (Json.array.inj hconnectors),
    ExportFileEntry.json_injective.list_map (Json.array.inj hfiles), string_injective hformat,
    number_injective hchunk, number_injective hplaintext, string_injective hsha]

theorem ExportManifest.toVec_injective : Function.Injective ExportManifest.toVec := by
  intro m m' h
  apply ExportManifest.json_injective
  have hread (v : Json JsString) : Json.parse (Utf8.decode (Json.encode v)) = some v := by
    rw [Json.encode, Json.utf8, Utf8.decode_encode, Json.parse_stringify]
  have hparse := hread m.json
  rw [show Json.encode m.json = Json.encode m'.json from h, hread] at hparse
  exact (Option.some.inj hparse).symm

/-- A container is known from its bytes. -/
theorem Container.bytes_injective : Function.Injective Container.bytes := by
  intro c c' h
  have hparse : parse c'.bytes = some (c.manifest.toVec, c.records) := parse_iff.mpr ⟨c.fits, h⟩
  have hparse' : parse c'.bytes = some (c'.manifest.toVec, c'.records) :=
    parse_iff.mpr ⟨c'.fits, rfl⟩
  rw [hparse'] at hparse
  obtain ⟨manifest, records, fits⟩ := c
  obtain ⟨manifest', records', fits'⟩ := c'
  obtain ⟨hmanifest, hrecords⟩ := Prod.mk.inj (Option.some.inj hparse)
  cases ExportManifest.toVec_injective hmanifest
  cases hrecords
  rfl

/-! ## The finished archive of a run -/

/-- The associated data of the chunk at an index. -/
def chunkAad (manifest : ExportManifest) (index : Nat) : List UInt8 :=
  manifest.toVec ++ bigEndian 4 index

/-- Nothing that was encrypted here opens under other associated data. -/
def Ideal (cipher : XChaCha20Poly1305) (key : Key) (es : List Encryption) : Prop :=
  ∀ e ∈ es, ∀ aad, cipher.decrypt key e.nonce e.ciphertext aad ≠ none → aad = e.aad

variable (cipher : XChaCha20Poly1305) (w : EncryptedArchiveWriter)

/-- What a run has finished, and the container that it is. -/
structure Archives (manifest : ExportManifest) (calls : List Call) (c : Container) : Prop where
  bytes_eq : c.bytes = (w.run cipher calls).finish.bytes
  manifest_eq : c.manifest = manifest
  /-- The records are the accepted chunks in order. -/
  records_eq : c.records.map (fun r => (r.length, r.nonce)) =
    (w.accepted cipher calls).map fun call => (call.plaintext.length, call.nonce)
  /-- A record opens under the manifest and its own index, and under nothing else. -/
  opens : ∀ i (record : Record) (call : Call), c.records[i]? = some record →
    (w.accepted cipher calls)[i]? = some call →
    ∀ manifest' j plaintext, j < 2 ^ 32 →
      (decryptChunk cipher w.key record.nonce record.ciphertext (chunkAad manifest' j) =
        .ok plaintext ↔ manifest' = manifest ∧ j = i ∧ plaintext = call.plaintext)
  chunks_eq : (w.run cipher calls).finish.chunks = (w.accepted cipher calls).length
  plaintextBytes_eq : (w.run cipher calls).finish.plaintextBytes =
    ((w.accepted cipher calls).map fun call => call.plaintext.length).sum
  bounded : (w.run cipher calls).finish.plaintextBytes ≤ w.maxBytes

variable {cipher} {w} {key : Key} {maxBytes chunkBytes : Nat} {manifest : ExportManifest}

/-- A new writer has written the header. -/
theorem new_ok (h : EncryptedArchiveWriter.new key maxBytes chunkBytes manifest = .ok w) :
    w = ⟨key, maxBytes, chunkBytes, manifest.toVec, header manifest.toVec, 0, 0⟩ := by
  unfold EncryptedArchiveWriter.new at h
  obtain ⟨-, -, h⟩ := bind_ok.mp h
  obtain ⟨-, h⟩ := refuse_bind_ok.mp h
  exact (Except.ok.inj h).symm

theorem chunks_lt_of_new
    (hnew : EncryptedArchiveWriter.new key maxBytes chunkBytes manifest = .ok w) :
    w.chunks < 2 ^ 32 := by
  rw [new_ok hnew]
  exact Nat.two_pow_pos 32

theorem bytes_eq_of_new (calls : List Call)
    (hnew : EncryptedArchiveWriter.new key maxBytes chunkBytes manifest = .ok w) :
    (w.run cipher calls).finish.bytes =
      header manifest.toVec ++ (w.encryptions cipher calls).flatMap Encryption.bytes := by
  rw [EncryptedArchiveWriter.run_eq cipher w calls (chunks_lt_of_new hnew)]
  simp only [EncryptedArchiveWriter.finish, EncryptedArchiveWriter.after, new_ok hnew]

theorem chunkAad_inj {manifest manifest' : ExportManifest} {i j : Nat} (hi : i < 2 ^ 32)
    (hj : j < 2 ^ 32) (h : chunkAad manifest i = chunkAad manifest' j) :
    manifest = manifest' ∧ i = j := by
  unfold chunkAad at h
  obtain ⟨hmanifest, hindex⟩ := List.append_inj' h (by rw [length_bigEndian, length_bigEndian])
  exact ⟨ExportManifest.toVec_injective hmanifest, bigEndian_inj hi hj hindex⟩

theorem decryptChunk_iff {nonce : Nonce} {ciphertext aad plaintext : List UInt8} :
    decryptChunk cipher key nonce ciphertext aad = .ok plaintext ↔
      cipher.decrypt key nonce ciphertext aad = some plaintext := by
  unfold decryptChunk
  rw [dif_pos nonce.2]
  exact okOr_ok

/-- What the run of a new writer encrypts for the chunk at an index. -/
structure Sealed (cipher : XChaCha20Poly1305) (key : Key) (manifest : ExportManifest) (i : Nat)
    (e : Encryption) : Prop where
  aad : e.aad = chunkAad manifest i
  encrypts : cipher.encrypt key e.nonce e.plaintext e.aad = some e.ciphertext
  small : e.plaintext.length ≤ largestChunk

theorem sealed_of_getElem? {calls : List Call}
    (hnew : EncryptedArchiveWriter.new key maxBytes chunkBytes manifest = .ok w)
    (hcalls : calls.length < 2 ^ 32) {i : Nat} {e : Encryption}
    (hget : (w.encryptions cipher calls)[i]? = some e) : Sealed cipher key manifest i e := by
  have hw := new_ok hnew
  have hchunks : w.chunks = 0 := by rw [hw]
  have hseals := EncryptedArchiveWriter.seals_of_getElem? (by omega) hget
  have hlt := (List.getElem?_eq_some_iff.mp hget).1
  have hle := EncryptedArchiveWriter.length_encryptions_le cipher w calls
  have hindex : (w.after ((w.encryptions cipher calls).take i)).chunks = i := by
    simp only [EncryptedArchiveWriter.after, hchunks, List.length_take]
    omega
  refine ⟨?_, ?_, hseals.small⟩
  · rw [hseals.aad, EncryptedArchiveWriter.aad, hindex, chunkAad]
    simp only [EncryptedArchiveWriter.after, hw]
  · have hencrypts := hseals.encrypts
    simp only [EncryptedArchiveWriter.after, hw] at hencrypts
    exact hencrypts

/-- The lengths of a chunk fit into a record. -/
def Encryption.Fits (e : Encryption) : Prop :=
  e.plaintext.length < 2 ^ 32 ∧ e.ciphertext.length < 2 ^ 32

theorem Sealed.fits {i : Nat} {e : Encryption} (h : Sealed cipher key manifest i e)
    (hdoc : cipher.Documented) : e.Fits := by
  have hsmall := h.small
  have hlength := hdoc.length _ _ _ _ _ h.encrypts
  unfold Encryption.Fits
  unfold largestChunk at hsmall
  omega

def record (e : { e : Encryption // e.Fits }) : Record :=
  ⟨e.1.plaintext.length, e.1.nonce, e.1.ciphertext, e.2.1, e.2.2⟩

theorem flatMap_record (es : List { e : Encryption // e.Fits }) :
    (es.map record).flatMap Record.bytes = (es.map Subtype.val).flatMap Encryption.bytes := by
  rw [List.flatMap_map, List.flatMap_map]
  rfl

/-- All that a run encrypts fits into records. -/
theorem encryptions_fit (hdoc : cipher.Documented)
    (hnew : EncryptedArchiveWriter.new key maxBytes chunkBytes manifest = .ok w)
    {calls : List Call} (hcalls : calls.length < 2 ^ 32) :
    ∀ e ∈ w.encryptions cipher calls, e.Fits := by
  intro e he
  obtain ⟨i, hget⟩ := List.mem_iff_getElem?.mp he
  exact (sealed_of_getElem? hnew hcalls hget).fits hdoc

/-- A sealed chunk opens where it was sealed, and by the ideal nowhere else. -/
theorem Sealed.opens_iff {i j : Nat} {e : Encryption} {manifest' : ExportManifest}
    {plaintext : List UInt8} (h : Sealed cipher key manifest i e) (hdoc : cipher.Documented)
    (hideal : ∀ aad, cipher.decrypt key e.nonce e.ciphertext aad ≠ none → aad = e.aad)
    (hi : i < 2 ^ 32) (hj : j < 2 ^ 32) :
    decryptChunk cipher key e.nonce e.ciphertext (chunkAad manifest' j) = .ok plaintext ↔
      manifest' = manifest ∧ j = i ∧ plaintext = e.plaintext := by
  have hopens := hdoc.opens _ _ _ _ _ h.encrypts
  rw [h.aad] at hopens
  rw [decryptChunk_iff]
  constructor
  · intro hdecrypt
    have haad := hideal (chunkAad manifest' j) (by rw [hdecrypt]; exact Option.some_ne_none _)
    rw [h.aad] at haad
    obtain ⟨rfl, rfl⟩ := chunkAad_inj hj hi haad
    rw [hopens] at hdecrypt
    exact ⟨rfl, rfl, (Option.some.inj hdecrypt).symm⟩
  · rintro ⟨rfl, rfl, rfl⟩
    exact hopens

/-- The container of what a run has encrypted. -/
theorem archives_of_encryptions (hdoc : cipher.Documented)
    (hnew : EncryptedArchiveWriter.new key maxBytes chunkBytes manifest = .ok w)
    (hfits : manifest.toVec.length < 2 ^ 32) {calls : List Call} (hcalls : calls.length < 2 ^ 32)
    (hideal : Ideal cipher key (w.encryptions cipher calls))
    {es : List { e : Encryption // e.Fits }}
    (hes : es.map Subtype.val = w.encryptions cipher calls) :
    Archives cipher w manifest calls ⟨manifest, es.map record, hfits⟩ := by
  have hw := new_ok hnew
  have hrun := EncryptedArchiveWriter.run_eq cipher w calls (chunks_lt_of_new hnew)
  have haccepted := EncryptedArchiveWriter.accepted_eq cipher w calls
  have hle := EncryptedArchiveWriter.length_encryptions_le cipher w calls
  rw [← hes] at hrun haccepted hle
  refine ⟨?_, rfl, ?_, ?_, ?_, ?_, ?_⟩
  · rw [bytes_eq_of_new calls hnew, ← hes, Container.bytes, flatMap_record]
  · rw [haccepted, List.map_map, List.map_map, List.map_map]
    rfl
  · intro i r call hrecord hcall manifest' j plaintext hj
    rw [haccepted, List.map_map, List.getElem?_map] at hcall
    rw [List.getElem?_map] at hrecord
    obtain ⟨e, hget, rfl⟩ := Option.map_eq_some_iff.mp hrecord
    rw [hget] at hcall
    cases hcall
    have hget' : (w.encryptions cipher calls)[i]? = some e.1 := by
      rw [← hes, List.getElem?_map, hget]
      rfl
    have hi := (List.getElem?_eq_some_iff.mp hget').1
    rw [← hes] at hi
    have hkey : w.key = key := by rw [hw]
    rw [hkey]
    exact (sealed_of_getElem? hnew hcalls hget').opens_iff hdoc
      (hideal e.1 (List.mem_of_getElem? hget')) (by omega) hj
  · rw [hrun, haccepted]
    simp only [EncryptedArchiveWriter.finish, EncryptedArchiveWriter.after, hw, List.length_map]
      at hle ⊢
    omega
  · rw [hrun, haccepted]
    simp only [EncryptedArchiveWriter.finish, EncryptedArchiveWriter.after, hw, List.map_map,
      Nat.zero_add]
    rfl
  · exact EncryptedArchiveWriter.total_le cipher w calls (by rw [hw]; exact Nat.zero_le _)

/-- The bytes of a finished archive are those of one container: the manifest, and the accepted
    chunks in order. A call that fails leaves the writer as it was. -/
theorem archive_parses (hdoc : cipher.Documented)
    (hnew : EncryptedArchiveWriter.new key maxBytes chunkBytes manifest = .ok w)
    (hfits : manifest.toVec.length < 2 ^ 32) (calls : List Call) (hcalls : calls.length < 2 ^ 32)
    (hideal : Ideal cipher key (w.encryptions cipher calls)) :
    (∃ container, Archives cipher w manifest calls container ∧
      parse (w.run cipher calls).finish.bytes = some (manifest.toVec, container.records) ∧
      ∀ c : Container, c.bytes = (w.run cipher calls).finish.bytes → c = container) ∧
    ∀ before call error, ((w.run cipher before).write cipher call).1 = .error error →
      ((w.run cipher before).write cipher call).2 = w.run cipher before := by
  constructor
  · have hsmall := encryptions_fit hdoc hnew hcalls
    generalize hes : w.encryptions cipher calls = es at hsmall
    lift es to List { e : Encryption // e.Fits } using hsmall
    have harchives := archives_of_encryptions hdoc hnew hfits hcalls hideal hes.symm
    refine ⟨_, harchives, parse_iff.mpr ⟨hfits, harchives.bytes_eq⟩, ?_⟩
    intro c hc
    exact Container.bytes_injective (hc.trans harchives.bytes_eq.symm)
  · intro before call error herror
    rcases EncryptedArchiveWriter.write_cases cipher (w.run cipher before) call with
      ⟨error', hwrite, -⟩ | ⟨e, hwrite, -⟩
    · rw [hwrite]
    · rw [hwrite] at herror
      cases herror

/-! ## A small archive -/

/-- A manifest of no files. -/
def emptyManifest : ExportManifest where
  formatVersion := "forgetops.export-manifest.v1"
  requestId := "req_1"
  generatedAt := "2026-07-24T00:00:00.000Z"
  connectors := []
  files := []
  archiveFormat := "forgetops.chunked-aead.v1"
  chunkBytes := 1024
  plaintextBytes := 0
  ciphertextSha256 := "sha256:pending"

/-- A cipher for one associated data: a chunk is followed by a tag of zeros. -/
def cipherFor (aad : List UInt8) : XChaCha20Poly1305 where
  encrypt _ _ msg aad' := if aad' = aad then some (msg ++ List.replicate 16 0) else none
  decrypt _ _ ciphertext aad' :=
    if aad' = aad then some (ciphertext.take (ciphertext.length - 16)) else none

theorem cipherFor_documented (aad : List UInt8) : (cipherFor aad).Documented where
  opens key nonce msg aad' ciphertext h := by
    obtain ⟨rfl, hmsg⟩ := Option.ite_none_right_eq_some.mp h
    cases hmsg
    have hlength : (msg ++ List.replicate 16 (0 : UInt8)).length - 16 = msg.length := by
      rw [List.length_append, List.length_replicate, Nat.add_sub_cancel]
    unfold cipherFor
    dsimp only
    rw [if_pos rfl, hlength, List.take_left]
  length key nonce msg aad' ciphertext h := by
    obtain ⟨-, hmsg⟩ := Option.ite_none_right_eq_some.mp h
    cases hmsg
    rw [List.length_append, List.length_replicate]

theorem cipherFor_ideal (aad : List UInt8) (key : Key) {es : List Encryption}
    (h : ∀ e ∈ es, (cipherFor aad).encrypt key e.nonce e.plaintext e.aad = some e.ciphertext) :
    Ideal (cipherFor aad) key es := by
  intro e he aad' hopens
  have hsealed := (Option.ite_none_right_eq_some.mp (h e he)).1
  by_contra hne
  exact hopens (if_neg fun heq => hne (heq.trans hsealed.symm))

theorem length_zeroKey : (List.replicate 32 (0 : UInt8)).length = 32 := List.length_replicate

def zeroKey : Key := ⟨List.replicate 32 0, length_zeroKey⟩
def zeroNonce : Nonce := ⟨List.replicate 24 0, List.length_replicate⟩

theorem emptyManifest_fits : emptyManifest.toVec.length < 2 ^ 32 := by decide +kernel

/-- A writer of chunks of two bytes. -/
def smallWriter : EncryptedArchiveWriter where
  key := zeroKey
  maxBytes := 10
  chunkBytes := 2
  manifestAad := emptyManifest.toVec
  output := header emptyManifest.toVec
  plaintextBytes := 0
  chunks := 0

theorem smallWriter_new :
    EncryptedArchiveWriter.new zeroKey 10 2 emptyManifest = .ok smallWriter := by
  unfold EncryptedArchiveWriter.new ExportManifest.validate
  rw [refuse_bind_ok, refuse_bind_ok]
  exact ⟨by decide, by decide, rfl⟩

theorem archive_parses_of_smallWriter :
    (∃ container, Archives (cipherFor (chunkAad emptyManifest 0)) smallWriter emptyManifest
        [⟨[1, 2, 3], zeroNonce⟩, ⟨[1, 2], zeroNonce⟩] container ∧
      parse (smallWriter.run (cipherFor (chunkAad emptyManifest 0))
          [⟨[1, 2, 3], zeroNonce⟩, ⟨[1, 2], zeroNonce⟩]).finish.bytes =
        some (emptyManifest.toVec, container.records) ∧
      ∀ c : Container, c.bytes = (smallWriter.run (cipherFor (chunkAad emptyManifest 0))
          [⟨[1, 2, 3], zeroNonce⟩, ⟨[1, 2], zeroNonce⟩]).finish.bytes → c = container) ∧
    ∀ before call error,
      ((smallWriter.run (cipherFor (chunkAad emptyManifest 0)) before).write
        (cipherFor (chunkAad emptyManifest 0)) call).1 = .error error →
      ((smallWriter.run (cipherFor (chunkAad emptyManifest 0)) before).write
        (cipherFor (chunkAad emptyManifest 0)) call).2 =
        smallWriter.run (cipherFor (chunkAad emptyManifest 0)) before := by
  have hcalls : ([⟨[1, 2, 3], zeroNonce⟩, ⟨[1, 2], zeroNonce⟩] : List Call).length < 2 ^ 32 := by
    decide
  apply archive_parses (cipherFor_documented _) smallWriter_new emptyManifest_fits _ hcalls
  apply cipherFor_ideal
  intro e he
  obtain ⟨i, hget⟩ := List.mem_iff_getElem?.mp he
  exact (sealed_of_getElem? smallWriter_new hcalls hget).encrypts

end ForgetOps.ExportBuilder
