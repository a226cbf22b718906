import ForgetOps.Agent.ArchiveContainer

/-
  Archives that end early (`agent/crates/export-builder/src/archive.rs`).

  The index of a chunk is authenticated, and the number of the chunks is not: what a writer has
  written up to a chunk is what it finishes if no call follows. So a truncation is evident only
  where there is nothing to cut off (`truncationEvident_iff`).
-/

namespace ForgetOps.ExportBuilder

open Guards
open PrefixCode

variable (cipher : XChaCha20Poly1305) (key : Key) (manifest : ExportManifest)

/-- The bytes that some calls finish under this key and manifest, whatever the limits. -/
def FinishedArchive (bytes : List UInt8) : Prop :=
  ∃ maxBytes chunkBytes w calls,
    EncryptedArchiveWriter.new key maxBytes chunkBytes manifest = .ok w ∧
    (w.run cipher calls).finish.bytes = bytes

/-- Nothing shorter than these bytes is a finished archive that they begin with. -/
def TruncationEvident (bytes : List UInt8) : Prop :=
  ∀ truncated, truncated <+: bytes → truncated ≠ bytes →
    ¬ FinishedArchive cipher key manifest truncated

variable {cipher} {key} {manifest} {maxBytes chunkBytes : Nat} {w : EncryptedArchiveWriter}

/-- Every finished archive begins with the header. -/
theorem FinishedArchive.header_prefix {bytes : List UInt8}
    (h : FinishedArchive cipher key manifest bytes) : header manifest.toVec <+: bytes := by
  obtain ⟨maxBytes, chunkBytes, w, calls, hnew, rfl⟩ := h
  rw [bytes_eq_of_new calls hnew]
  exact List.prefix_append _ _

/-- An archive cut off where some chunk began is a finished archive. -/
theorem finishedArchive_of_prefix (cipher : XChaCha20Poly1305)
    (hnew : EncryptedArchiveWriter.new key maxBytes chunkBytes manifest = .ok w)
    (before rest : List Call) :
    FinishedArchive cipher key manifest (w.run cipher before).finish.bytes ∧
      (w.run cipher before).finish.bytes <+: (w.run cipher (before ++ rest)).finish.bytes := by
  refine ⟨⟨maxBytes, chunkBytes, w, before, hnew, rfl⟩, ?_⟩
  have hchunks := chunks_lt_of_new hnew
  have hbefore : (w.run cipher before).chunks < 2 ^ 32 := by
    rw [EncryptedArchiveWriter.run_eq cipher w before hchunks]
    simp only [EncryptedArchiveWriter.after]
    omega
  have happend : w.run cipher (before ++ rest) = (w.run cipher before).run cipher rest :=
    List.foldl_append
  rw [happend, EncryptedArchiveWriter.run_eq cipher (w.run cipher before) rest hbefore]
  exact List.prefix_append _ _

/-- Nothing is encrypted where each call is refused. -/
theorem encryptions_eq_nil_iff {calls : List Call} :
    w.encryptions cipher calls = [] ↔ ∀ call ∈ calls, w.Refuses cipher call := by
  induction calls with
  | nil => exact ⟨fun _ _ h => absurd h List.not_mem_nil, fun _ => rfl⟩
  | cons call calls ih =>
    rw [EncryptedArchiveWriter.encryptions, List.append_eq_nil_iff, Option.toList_eq_nil_iff,
      List.forall_mem_cons]
    by_cases hrefuses : w.Refuses cipher call
    · obtain ⟨error, hwrite⟩ := EncryptedArchiveWriter.write_of_refuses hrefuses
      have hnone : w.encryption cipher call = none := by
        unfold EncryptedArchiveWriter.encryption
        rw [hwrite]
      rw [hwrite, ih]
      exact and_congr_left fun _ => iff_of_true hnone hrefuses
    · obtain ⟨ciphertext, hciphertext, hwrite⟩ :=
        EncryptedArchiveWriter.write_of_not_refuses hrefuses
      have hsome : w.encryption cipher call ≠ none := by
        unfold EncryptedArchiveWriter.encryption
        rw [hwrite, hciphertext]
        exact Option.some_ne_none _
      exact iff_of_false (fun h => hsome h.1) (fun h => hrefuses h.1)

/-- What a new writer refuses: a chunk over a limit, or one that the cipher fails on. -/
theorem refuses_iff_of_new (cipher : XChaCha20Poly1305) {call : Call}
    (hnew : EncryptedArchiveWriter.new key maxBytes chunkBytes manifest = .ok w) :
    w.Refuses cipher call ↔ call.plaintext.length > chunkBytes ∨
      call.plaintext.length > maxBytes ∨
      cipher.encrypt key call.nonce call.plaintext (chunkAad manifest 0) = none := by
  have hw := new_ok hnew
  have hlimit : chunkBytes ≤ largestChunk := by
    unfold EncryptedArchiveWriter.new at hnew
    obtain ⟨-, -, hnew⟩ := bind_ok.mp hnew
    obtain ⟨hlimit, -⟩ := refuse_bind_ok.mp hnew
    unfold largestChunk
    omega
  have hadd : checkedAdd 0 call.plaintext.length = none → call.plaintext.length > chunkBytes := by
    intro h
    unfold checkedAdd at h
    unfold largestChunk at hlimit
    split_ifs at h
    omega
  rw [hw]
  unfold EncryptedArchiveWriter.Refuses EncryptedArchiveWriter.aad
  dsimp only
  rw [Nat.zero_add]
  constructor
  · rintro (h | h | h | h | h)
    · exact .inl h
    · exact .inl (hadd h)
    · exact .inr (.inl h)
    · exact .inl (by omega)
    · exact .inr (.inr h)
  · rintro (h | h | h)
    · exact .inl h
    · exact .inr (.inr (.inl h))
    · exact .inr (.inr (.inr (.inr h)))

/-- Behind a chunk that was accepted, the header is a finished archive. -/
theorem not_truncationEvident {calls : List Call} (hne : w.encryptions cipher calls ≠ [])
    (hnew : EncryptedArchiveWriter.new key maxBytes chunkBytes manifest = .ok w) :
    ¬ TruncationEvident cipher key manifest (w.run cipher calls).finish.bytes := by
  intro hevident
  obtain ⟨hfinished, hcut⟩ := finishedArchive_of_prefix cipher hnew [] calls
  refine hevident _ hcut ?_ hfinished
  rw [bytes_eq_of_new [] hnew, bytes_eq_of_new calls hnew]
  obtain ⟨e, es, hes⟩ := List.exists_cons_of_ne_nil hne
  intro heq
  have hlength := congrArg List.length (List.append_cancel_left heq)
  rw [hes, List.flatMap_cons, List.length_append, Encryption.bytes, List.length_append,
    length_bigEndian] at hlength
  simp only [EncryptedArchiveWriter.encryptions, List.flatMap_nil, List.length_nil] at hlength
  omega

/-- A truncation is evident exactly where every chunk is refused. -/
theorem truncationEvident_iff
    (hnew : EncryptedArchiveWriter.new key maxBytes chunkBytes manifest = .ok w)
    (calls : List Call) :
    TruncationEvident cipher key manifest (w.run cipher calls).finish.bytes ↔
      ∀ call ∈ calls, call.plaintext.length > chunkBytes ∨ call.plaintext.length > maxBytes ∨
        cipher.encrypt key call.nonce call.plaintext (chunkAad manifest 0) = none := by
  simp only [← refuses_iff_of_new cipher hnew]
  rw [← encryptions_eq_nil_iff]
  constructor
  · intro hevident
    by_contra hne
    exact not_truncationEvident hne hnew hevident
  · intro hnil truncated hcut hne hfinished
    rw [bytes_eq_of_new calls hnew, hnil, List.flatMap_nil, List.append_nil] at hcut hne
    exact hne (hcut.eq_of_length_le hfinished.header_prefix.length_le)

theorem truncationEvident_of_smallWriter :
    TruncationEvident (cipherFor (chunkAad emptyManifest 0)) zeroKey emptyManifest
        (smallWriter.run (cipherFor (chunkAad emptyManifest 0))
          [⟨[1, 2, 3], zeroNonce⟩]).finish.bytes ↔
      ∀ call ∈ ([⟨[1, 2, 3], zeroNonce⟩] : List Call), call.plaintext.length > 2 ∨
        call.plaintext.length > 10 ∨
        (cipherFor (chunkAad emptyManifest 0)).encrypt zeroKey call.nonce call.plaintext
          (chunkAad emptyManifest 0) = none :=
  truncationEvident_iff smallWriter_new _

/-- One chunk of two bytes, and the archive without it. -/
theorem truncation_of_smallWriter :
    ¬ TruncationEvident (cipherFor (chunkAad emptyManifest 0)) zeroKey emptyManifest
      (smallWriter.run (cipherFor (chunkAad emptyManifest 0))
        [⟨[1, 2], zeroNonce⟩]).finish.bytes := by
  refine not_truncationEvident ?_ smallWriter_new
  rw [Ne, encryptions_eq_nil_iff, List.forall_mem_singleton, refuses_iff_of_new _ smallWriter_new]
  have hencrypt : (cipherFor (chunkAad emptyManifest 0)).encrypt zeroKey zeroNonce [1, 2]
      (chunkAad emptyManifest 0) ≠ none := by
    unfold cipherFor
    dsimp only
    rw [if_pos rfl]
    exact Option.some_ne_none _
  rintro (h | h | h)
  · exact absurd h (by decide)
  · exact absurd h (by decide)
  · exact hencrypt h

end ForgetOps.ExportBuilder
