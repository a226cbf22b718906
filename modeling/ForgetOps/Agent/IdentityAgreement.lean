import ForgetOps.Agent.ArchiveContainer
import ForgetOps.Agent.IdentityFile
import ForgetOps.Api.PairingHandshake

/-
  One data directory has one identity.

  Any number of `pair` commands runs on it side by side; files and secrets may be unreadable, writes
  may fail after any byte, and commands may be killed. What any two of them print is of the same
  identity (`one_identity`): the file is created by one command at a time, a part of it does not
  open, and a file that opens stays as it is.
-/

namespace ForgetOps.Agent

open CrashLogic
open ExportBuilder (Key Nonce XChaCha20Poly1305)
open Guards

/-! ## The file system -/

/-- The file, and the process that created it. -/
structure StateFile where
  writer : ℕ
  bytes : List UInt8
  deriving DecidableEq, Repr

/-- One more byte, where the path still is that of the process's file. -/
def afterAppend (i : ℕ) (byte : UInt8) : Option StateFile → Option StateFile
  | some file => if file.writer = i then some { file with bytes := file.bytes ++ [byte] } else some file
  | none => none

/-- What the calls of the process `i` may answer, and what they leave of the identity's file. Secrets
    do not change, and what is written reaches the disk. -/
def answers (secrets : String → List UInt8) (i : ℕ) :
    Env Effect Effect.Answer (Option StateFile)
  | s, .readFile path, r, s' => s' = s ∧ (r = .ok (secrets path) ∨ ∃ e, r = .error e)
  | s, .readIdentity, r, s' => s' = s ∧
    ((∃ file, s = some file ∧ r = .ok file.bytes) ∨ ∃ e, r = .error e ∧ (e.notFound → s = none))
  | s, .generate, _, s' => s' = s
  | s, .fillNonce, _, s' => s' = s
  | s, .createDirAll, _, s' => s' = s
  | s, .openNew, r, s' => (r = .ok () ∧ s = none ∧ s' = some ⟨i, []⟩) ∨ (s' = s ∧ ∃ e, r = .error e)
  | s, .append byte, r, s' => (r = .ok () ∧ s' = afterAppend i byte s) ∨ (s' = s ∧ ∃ e, r = .error e)
  | s, .syncAll, r, s' => r = .ok () ∧ s' = s
  | s, .removeFile, r, s' => (r = .ok () ∧ s' = none) ∨ (s' = s ∧ ∃ e, r = .error e)

/-! ## Blobs -/

section Blobs

variable {cipher : XChaCha20Poly1305} {key : Key} {identity : AgentIdentity} {blob : List UInt8}

theorem length_of_decrypt (h : AgentIdentity.decrypt cipher blob key = .ok identity) :
    blob.length = identityBlobBytes :=
  not_not.mp (refuse_bind_ok.mp h).1

theorem ofPlaintext_keys (identity : AgentIdentity) :
    AgentIdentity.ofPlaintext (identity.signingKey.val ++ identity.encryptionSecret.val) =
      .ok identity := by
  obtain ⟨⟨signing, hsigning⟩, ⟨encryption, hencryption⟩⟩ := identity
  have hlength : (signing ++ encryption).length = identityPrivateBytes := by
    rw [List.length_append, hsigning, hencryption]
    rfl
  have htake : (signing ++ encryption).take 32 = signing := by
    rw [← hsigning, List.take_left]
  have hdrop : (signing ++ encryption).drop 32 = encryption := by
    rw [← hsigning, List.drop_left]
  unfold AgentIdentity.ofPlaintext
  rw [dif_pos hlength]
  simp only [htake, hdrop]

/-- A blob opens under the key it was sealed with. -/
theorem decrypt_encrypt (hcipher : cipher.Documented) {nonce : Nonce}
    (h : identity.encrypt cipher key nonce = .ok blob) :
    AgentIdentity.decrypt cipher blob key = .ok identity := by
  obtain ⟨ciphertext, hciphertext, h⟩ := bind_ok.mp h
  obtain rfl := pure_ok.mp h
  have hencrypts := okOr_ok.mp hciphertext
  have hmagic : identityMagic.length = 8 := by decide
  have hlength : ciphertext.length = 80 := by
    rw [hcipher.length _ _ _ _ _ hencrypts, List.length_append, identity.signingKey.property,
      identity.encryptionSecret.property]
  have hnonce : nonce.val.length = identityNonceBytes := nonce.property
  refine refuse_bind_ok.mpr ⟨?_, refuse_bind_ok.mpr ⟨?_, refuse_bind_ok.mpr ⟨?_, ?_⟩⟩⟩
  · rw [not_not, List.length_append, List.length_cons, List.length_append, hlength, hnonce]
    rfl
  · rw [not_not, List.take_left]
  · rw [not_not, List.getElem?_append_right le_rfl, Nat.sub_self]
    rfl
  · have hsealed : (identityMagic ++ identityVersion :: (nonce.val ++ ciphertext)).drop
        (identityMagic.length + 1) = nonce.val ++ ciphertext := by
      rw [List.drop_append]
      simp
    have htoNonce : toNonce nonce.val = some nonce := dif_pos nonce.property
    dsimp only
    rw [hsealed, ← hnonce, List.take_left, List.drop_left]
    have hopens := hcipher.opens _ _ _ _ _ hencrypts
    exact bind_ok.mpr ⟨nonce, okOr_ok.mpr htoNonce,
      bind_ok.mpr ⟨_, okOr_ok.mpr hopens, ofPlaintext_keys identity⟩⟩

end Blobs

/-! ## What commands do to one another -/

/-- The file opens under the key. -/
def Opens (cipher : XChaCha20Poly1305) (key : Key) (s : Option StateFile)
    (identity : AgentIdentity) : Prop :=
  ∃ file, s = some file ∧ AgentIdentity.decrypt cipher file.bytes key = .ok identity

/-- Others leave its file alone, and one that opens. -/
def Rely (cipher : XChaCha20Poly1305) (key : Key) (i : ℕ) (s s' : Option StateFile) : Prop :=
  (∀ file, s = some file → file.writer = i → s' = s) ∧
    ∀ identity, Opens cipher key s identity → s' = s

/-- It leaves the files of others alone, and one that opens. -/
def Guar (cipher : XChaCha20Poly1305) (key : Key) (i : ℕ) (s s' : Option StateFile) : Prop :=
  (∀ file, s = some file → file.writer ≠ i → s' = s) ∧
    ∀ identity, Opens cipher key s identity → s' = s

/-- What is printed is of the identity in the file. -/
def PrintedFrom (cipher : XChaCha20Poly1305) (key : Key) (lib : IdentityLibraries)
    (answer : Except String PairOutput) (s : Option StateFile) : Prop :=
  ∀ output, answer = .ok output → ∃ identity options pairingToken,
    Opens cipher key s identity ∧ output = printed lib identity options pairingToken

section Interference

variable {cipher : XChaCha20Poly1305} {key : Key} {lib : IdentityLibraries}
  {secrets : String → List UInt8} {i : ℕ} {s s' : Option StateFile} {identity identity' : AgentIdentity}

theorem Opens.unique (h : Opens cipher key s identity) (h' : Opens cipher key s identity') :
    identity = identity' := by
  obtain ⟨file, hs, hopens⟩ := h
  obtain ⟨file', hs', hopens'⟩ := h'
  obtain rfl := Option.some.inj (hs.symm.trans hs')
  exact Except.ok.inj (hopens.symm.trans hopens')

theorem rely_refl (i : ℕ) (s : Option StateFile) : Rely cipher key i s s :=
  ⟨fun _ _ _ => rfl, fun _ _ => rfl⟩

theorem rely_trans (i : ℕ) (a b c : Option StateFile) (h : Rely cipher key i a b)
    (h' : Rely cipher key i b c) : Rely cipher key i a c := by
  constructor
  · intro file ha hwriter
    have hb := h.1 file ha hwriter
    rw [h'.1 file (hb.trans ha) hwriter, hb]
  · intro identity hopens
    have hb := h.2 identity hopens
    rw [h'.2 identity (by rwa [hb]), hb]

theorem rely_of_guar (i j : ℕ) (hij : i ≠ j) (a b : Option StateFile)
    (h : Guar cipher key j a b) : Rely cipher key i a b :=
  ⟨fun file ha hwriter => h.1 file ha (hwriter ▸ hij), h.2⟩

theorem guar_refl (i : ℕ) (s : Option StateFile) : Guar cipher key i s s :=
  ⟨fun _ _ _ => rfl, fun _ _ => rfl⟩

theorem PrintedFrom.stable {answer : Except String PairOutput}
    (h : PrintedFrom cipher key lib answer s)
    (hkeeps : ∀ identity, Opens cipher key s identity → s' = s) :
    PrintedFrom cipher key lib answer s' := by
  intro output houtput
  obtain ⟨identity, options, pairingToken, hopens, hprinted⟩ := h output houtput
  refine ⟨identity, options, pairingToken, ?_, hprinted⟩
  rwa [hkeeps identity hopens]

end Interference

/-! ## Each command alone -/

section Commands

variable {cipher : XChaCha20Poly1305} {key : Key} {lib : IdentityLibraries}
  {secrets : String → List UInt8} {i : ℕ} {s : Option StateFile} {blob : List UInt8}

/-- The precondition of a command, or a part of it, among the others. -/
abbrev Among {α : Type} (cipher : XChaCha20Poly1305) (key : Key) (secrets : String → List UInt8)
    (i : ℕ) (prog : Prog Effect Effect.Answer α) (Q : α → Option StateFile → Prop)
    (s : Option StateFile) : Prop :=
  among (answers secrets i) (Rely cipher key i) (Guar cipher key i) prog Q s

/-- The file is the process's own, and has these bytes. -/
def Own (i : ℕ) (bytes : List UInt8) (s : Option StateFile) : Prop := s = some ⟨i, bytes⟩

theorem Own.rely {bytes : List UInt8} {s' : Option StateFile} (h : Own i bytes s)
    (hs : Rely cipher key i s s') : Own i bytes s' :=
  (hs.1 _ h rfl).trans h

/-- The process may write while the file is its own and does not open. -/
theorem Own.guar {bytes : List UInt8} {s' : Option StateFile} (h : Own i bytes s)
    (hlength : bytes.length ≠ identityBlobBytes) : Guar cipher key i s s' := by
  constructor
  · intro file hfile hwriter
    obtain rfl := Option.some.inj (hfile.symm.trans h)
    exact absurd rfl hwriter
  · intro identity hopens
    obtain ⟨file, hfile, hdecrypt⟩ := hopens
    obtain rfl := Option.some.inj (hfile.symm.trans h)
    exact absurd (length_of_decrypt hdecrypt) hlength

/-- What a write leaves: the whole blob, or a part that does not open. -/
def Written (i : ℕ) (blob : List UInt8) (answer : Except IoError Unit) (s : Option StateFile) :
    Prop :=
  match answer with
  | .ok () => Own i blob s
  | .error _ => ∃ part, Own i part s ∧ part.length ≠ identityBlobBytes

theorem Written.rely {answer : Except IoError Unit} {s' : Option StateFile}
    (h : Written i blob answer s) (hs : Rely cipher key i s s') : Written i blob answer s' := by
  cases answer with
  | ok => exact Own.rely h hs
  | error =>
    obtain ⟨part, hown, hlength⟩ := h
    exact ⟨part, hown.rely hs, hlength⟩

/-- The file grows byte by byte to the whole blob, and opens before that under no key. -/
theorem among_writeAll (hblob : blob.length = identityBlobBytes) {written rest : List UInt8}
    (hrest : written ++ rest = blob) (hs : Own i written s) :
    Among cipher key secrets i (writeAll rest).run (Written i blob) s := by
  induction rest generalizing written s with
  | nil =>
    obtain rfl : written = blob := by rwa [List.append_nil] at hrest
    exact fun s₁ hs₁ => hs.rely hs₁
  | cons byte rest ih =>
    have hpart : written.length ≠ identityBlobBytes := by
      rw [← hblob, ← hrest, List.length_append, List.length_cons]
      omega
    refine among_try (rely_refl i) ?_
    intro s₁ hs₁ r s₂ hanswer
    have hown : Own i written s₁ := hs.rely hs₁
    refine ⟨hown.guar hpart, fun s₃ hs₃ => ?_⟩
    obtain ⟨rfl, hs₂⟩ | ⟨hs₂, e, rfl⟩ := hanswer
    · have hnext : Own i (written ++ [byte]) s₂ := by
        rw [hs₂, show s₁ = some ⟨i, written⟩ from hown]
        exact if_pos rfl
      have hrest' : written ++ [byte] ++ rest = blob := by
        rw [List.append_assoc]
        exact hrest
      exact ih hrest' (hnext.rely hs₃)
    · exact fun s₄ hs₄ => ⟨written, (hown.rely (hs₂ ▸ hs₃)).rely hs₄, hpart⟩

theorem among_writeAndSync (hblob : blob.length = identityBlobBytes) (hs : Own i [] s) :
    Among cipher key secrets i (writeAndSync blob).run (Written i blob) s := by
  refine among_try (rely_refl i) (among_mono ?_ (among_writeAll hblob (List.nil_append blob) hs))
  intro answer s₁ hwritten
  cases answer with
  | error e => exact fun s₂ hs₂ => hwritten.rely hs₂
  | ok =>
    intro s₂ hs₂ r s₃ hanswer
    obtain ⟨rfl, rfl⟩ := hanswer
    have hown : Own i blob s₃ := Own.rely hwritten hs₂
    exact ⟨guar_refl i s₃, fun s₄ hs₄ => hown.rely hs₄⟩

/-- The file is the process's own where it was written without an error. -/
theorem among_writeNewSecretFile (hblob : blob.length = identityBlobBytes) :
    Among cipher key secrets i (writeNewSecretFile blob).run
      (fun r s' => r = .ok () → Own i blob s') s := by
  refine among_try (rely_refl i) ?_
  intro s₁ _ r s₂ hanswer
  obtain ⟨rfl, rfl, hs₂⟩ | ⟨rfl, e, rfl⟩ := hanswer
  swap
  · refine ⟨guar_refl i s₂, fun s₃ _ s₄ _ h => ?_⟩
    cases h
  constructor
  · constructor
    · intro file hfile
      cases hfile
    · intro identity hopens
      obtain ⟨file, hfile, -⟩ := hopens
      cases hfile
  intro s₃ hs₃
  have hown : Own i [] s₃ := Own.rely hs₂ hs₃
  refine among_try (rely_refl i) (among_map (rely_refl i)
    (among_mono ?_ (among_writeAndSync hblob hown)))
  intro answer s₄ hwritten s₅ hs₅
  have hwritten := hwritten.rely hs₅
  cases answer with
  | ok => exact fun s₆ hs₆ _ => Own.rely hwritten hs₆
  | error e =>
    obtain ⟨part, hpart, hlength⟩ := hwritten
    refine among_try (rely_refl i) (among_map (rely_refl i) ?_)
    intro s₆ hs₆ r s₇ _
    refine ⟨(hpart.rely hs₆).guar hlength, fun s₈ _ s₉ _ s₁₀ _ h => ?_⟩
    cases h

theorem length_of_encrypt (hcipher : cipher.Documented) {identity : AgentIdentity} {nonce : Nonce}
    (h : identity.encrypt cipher key nonce = .ok blob) : blob.length = identityBlobBytes :=
  length_of_decrypt (decrypt_encrypt hcipher h)

/-- What a call that neither reads nor writes the file goes on from. -/
theorem among_call {α : Type} {e : Effect} {f : e.Answer → α} {Q : α → Option StateFile → Prop}
    (hsame : ∀ s r s', answers secrets i s e r s' → s' = s) (hQ : ∀ r s', Q (f r) s') :
    Among cipher key secrets i (f <$> Prog.effect e) Q s := by
  refine among_map (rely_refl i) ?_
  intro s₁ _ r s₂ hanswer
  rw [hsame s₁ r s₂ hanswer]
  exact ⟨guar_refl i s₁, fun s₃ _ s₄ _ => hQ r s₄⟩

theorem among_orThrow {ε α β : Type} {x : Except ε α} {f : α → Io ε β}
    {Q : Except ε β → Option StateFile → Prop}
    (hok : ∀ a, x = .ok a → Among cipher key secrets i (f a).run Q s)
    (herror : ∀ e, x = .error e → ∀ s₁, Q (.error e) s₁) :
    Among cipher key secrets i (orThrow x >>= f).run Q s := by
  cases x with
  | ok a => exact hok a rfl
  | error e => exact fun s₁ _ => herror e rfl s₁

/-- The file opens where the identity was written without an error. -/
theorem among_writeNewEncrypted (hcipher : cipher.Documented) (identity : AgentIdentity) :
    Among cipher key secrets i (identity.writeNewEncrypted cipher key).run
      (fun r s' => r = .ok () → Opens cipher key s' identity) s := by
  refine among_try (rely_refl i) (among_call (fun _ _ _ h => h) ?_)
  intro r s₁
  cases r with
  | error e =>
    intro s₂ _ h
    cases h
  | ok =>
    refine among_try (rely_refl i) (among_call (fun _ _ _ h => h) fun nonce s₂ => ?_)
    refine among_orThrow (fun blob hblob => ?_) fun e _ s₃ h => ?_
    swap
    · cases h
    refine among_map (rely_refl i) (among_mono ?_
      (among_writeNewSecretFile (length_of_encrypt hcipher hblob)))
    intro r s₃ hown s₄ hs₄ h
    cases r with
    | error e => cases h
    | ok => exact ⟨_, (hown rfl).rely hs₄, decrypt_encrypt hcipher hblob⟩

/-- What is read without an error is the identity in the file. -/
theorem among_readEncrypted :
    Among cipher key secrets i (AgentIdentity.readEncrypted cipher key).run
      (fun r s' => ∀ identity, r = .ok identity → Opens cipher key s' identity) s := by
  refine among_try (rely_refl i) (among_map (rely_refl i) ?_)
  intro s₁ _ r s₂ hanswer
  obtain ⟨rfl, ⟨file, hfile, rfl⟩ | ⟨e, rfl, -⟩⟩ := hanswer
  · refine ⟨guar_refl i s₂, fun s₃ hs₃ s₄ hs₄ => ?_⟩
    intro s₅ hs₅ identity hidentity
    have hopens : Opens cipher key s₂ identity := ⟨file, hfile, hidentity⟩
    have hrely := rely_trans i _ _ _ (rely_trans i _ _ _ hs₃ hs₄) hs₅
    rwa [hrely.2 identity hopens]
  · refine ⟨guar_refl i s₂, fun s₃ _ s₄ _ s₅ _ identity h => ?_⟩
    cases h

/-- The identity a command goes on with is the one in the file. -/
theorem among_loadOrCreate (hcipher : cipher.Documented) :
    Among cipher key secrets i (loadOrCreate cipher key).run
      (fun r s' => ∀ identity, r = .ok identity → Opens cipher key s' identity) s := by
  refine among_try (rely_refl i) (among_map (rely_refl i) (among_mono ?_ among_readEncrypted))
  intro loaded s₁ hloaded s₂ hs₂
  dsimp only
  split
  · next identity =>
    intro s₃ hs₃ identity' h
    obtain rfl := Except.ok.inj h
    have hopens := hloaded identity rfl
    rwa [(rely_trans i _ _ _ hs₂ hs₃).2 identity hopens]
  · refine among_try (rely_refl i) (among_call (fun _ _ _ h => h) fun identity s₃ => ?_)
    refine among_try (rely_refl i) (among_map (rely_refl i)
      (among_mono ?_ (among_writeNewEncrypted hcipher identity)))
    intro r s₄ hwritten s₅ hs₅
    cases r with
    | error e =>
      intro s₆ _ identity' h
      cases h
    | ok =>
      intro s₆ hs₆ identity' h
      obtain rfl := Except.ok.inj h
      have hopens := hwritten rfl
      rwa [(rely_trans i _ _ _ hs₅ hs₆).2 identity hopens]
  · intro s₃ _ identity h
    cases h

/-- Nothing is known of the state, and none is needed for an error. -/
theorem among_readSecret {path secret : String} {Q : Key → Prop}
    (hQ : ∀ k, toKey (secrets path) = some k → Q k) :
    Among cipher key secrets i (read32ByteSecret path secret).run
      (fun r _ => ∀ k, r = .ok k → Q k) s := by
  refine among_try (rely_refl i) (among_map (rely_refl i) ?_)
  intro s₁ _ r s₂ hanswer
  obtain ⟨rfl, hr⟩ := hanswer
  refine ⟨guar_refl i s₂, fun s₃ _ s₄ _ => ?_⟩
  obtain rfl | ⟨e, rfl⟩ := hr
  · intro s₅ _ k hk
    exact hQ k (okOr_ok.mp hk)
  · intro s₅ _ k hk
    cases hk

theorem among_fromSecretFiles {subjectPath statePath : String} {version : Nat}
    (hkey : secrets statePath = key.val) :
    Among cipher key secrets i
      (EnvironmentSecrets.fromSecretFiles subjectPath version statePath).run
      (fun r _ => ∀ loaded, r = .ok loaded → loaded.stateMasterKey = key) s := by
  refine among_orThrow (fun _ _ => ?_) fun e _ s₁ loaded h => ?_
  swap
  · cases h
  have hsubject : ∀ k, toKey (secrets subjectPath) = some k → True := fun _ _ => trivial
  refine among_try (rely_refl i) (among_mono ?_ (among_readSecret hsubject))
  intro r s₁ _
  cases r with
  | error e =>
    intro s₂ _ loaded h
    cases h
  | ok subjectKey =>
    have hstate : ∀ k, toKey (secrets statePath) = some k → k = key := by
      intro k hk
      unfold toKey at hk
      split_ifs at hk
      obtain rfl := Option.some.inj hk
      exact Subtype.ext hkey
    refine among_try (rely_refl i) (among_mono ?_ (among_readSecret hstate))
    intro r s₂ hr
    cases r with
    | error e =>
      intro s₃ _ loaded h
      cases h
    | ok stateKey =>
      intro s₃ _ loaded h
      obtain rfl := Except.ok.inj h
      exact hr stateKey rfl

/-- A command that reads the master key prints from the file. -/
theorem among_run (hcipher : cipher.Documented) {arguments : List String}
    {pairingToken : Option String}
    (hkey : ∀ options, Options.parse arguments = .ok options →
      secrets options.stateMasterKeyFile = key.val) :
    Among cipher key secrets i (run cipher lib arguments pairingToken).run
      (PrintedFrom cipher key lib) s := by
  refine among_orThrow (fun options hoptions => ?_) fun e _ s₁ output h => ?_
  swap
  · cases h
  refine among_orThrow (fun _ _ => ?_) fun e _ s₁ output h => ?_
  swap
  · cases h
  refine among_try (rely_refl i) (among_map (rely_refl i)
    (among_mono ?_ (among_fromSecretFiles (hkey options hoptions))))
  intro r s₁ hr s₂ _
  cases r with
  | error e =>
    intro s₃ _ output h
    cases h
  | ok loaded =>
    have hsame := hr loaded rfl
    refine among_try (rely_refl i) ?_
    rw [hsame]
    refine among_mono ?_ (among_loadOrCreate hcipher)
    intro r s₃ hidentity
    cases r with
    | error e =>
      intro s₄ _ output h
      cases h
    | ok identity =>
      intro s₄ hs₄ output h
      have hopens := hidentity identity rfl
      refine ⟨identity, options, _, ?_, (Except.ok.inj h).symm⟩
      rwa [hs₄.2 identity hopens]

end Commands

/-! ## One identity -/

section OneIdentity

variable (cipher : XChaCha20Poly1305) (lib : IdentityLibraries) (secrets : String → List UInt8)
  (directory : String) (key : Key)

/-- The `pair` commands on this data directory, with this master key. -/
def Command (prog : Prog Effect Effect.Answer (Except String PairOutput)) : Prop :=
  ∃ arguments pairingToken, prog = (run cipher lib arguments pairingToken).run ∧
    ∀ options, Options.parse arguments = .ok options →
      options.dataDir = directory ∧ secrets options.stateMasterKeyFile = key.val

/-- Any number of them, side by side and one after the other. -/
abbrev Commands := Pool Effect Effect.Answer (Except String PairOutput) (Option StateFile)

abbrev CommandStep : Commands → Commands → Prop :=
  PoolStep (answers secrets) (Command cipher lib secrets directory key)

variable {cipher lib secrets directory key}

/-- **One data directory, one identity.** In every interleaving of any number of `pair` commands on
    one data directory with one master key, from whatever file there is, and with unreadable files,
    failing writes and commands killed anywhere: all they print is of the same identity. -/
theorem one_identity (hcipher : cipher.Documented) {file : Option StateFile} {p : Commands}
    (hp : Relation.ReflTransGen (CommandStep cipher lib secrets directory key)
      (.initial file) p) :
    ∃ identity, ∀ output, .ok output ∈ p.returned →
      ∃ options pairingToken, output = printed lib identity options pairingToken := by
  have hholds : p.Holds (answers secrets) (Rely cipher key) (Guar cipher key)
      (PrintedFrom cipher key lib) := by
    refine pool_rule rely_refl rely_trans (fun i j hij a b h => rely_of_guar i j hij a b h)
      (fun i a s s' hguar h => h.stable hguar.2) ?_ hp
    intro i prog s hprog
    obtain ⟨arguments, pairingToken, rfl, hoptions⟩ := hprog
    exact among_run hcipher fun options hparse => (hoptions options hparse).2
  by_cases hnone : ∃ output, .ok output ∈ p.returned
  · obtain ⟨output, houtput⟩ := hnone
    obtain ⟨identity, -, -, hopens, -⟩ := hholds.returned _ houtput output rfl
    refine ⟨identity, fun output' houtput' => ?_⟩
    obtain ⟨identity', options, pairingToken, hopens', hprinted⟩ :=
      hholds.returned _ houtput' output' rfl
    exact ⟨options, pairingToken, hopens.unique hopens' ▸ hprinted⟩
  · exact ⟨⟨⟨List.replicate 32 0, List.length_replicate⟩, ⟨List.replicate 32 0,
      List.length_replicate⟩⟩, fun output houtput => absurd ⟨output, houtput⟩ hnone⟩

end OneIdentity

/-! ## Commands that nothing disturbs -/

section Undisturbed

variable {cipher : XChaCha20Poly1305} {key : Key} {lib : IdentityLibraries}
  {secrets : String → List UInt8} {i : ℕ} {identity : AgentIdentity} {options : Options}

/-- Both secrets of the command line are keys. -/
structure SecretsRead (secrets : String → List UInt8) (key : Key) (options : Options) : Prop where
  version : 0 < options.subjectHmacKeyVersion
  subject : (secrets options.subjectHmacKeyFile).length = 32
  state : secrets options.stateMasterKeyFile = key.val

theorem run_orThrow {ε α : Type} {x : Except ε α} {a : α} (hx : x = .ok a)
    (s : Option StateFile) :
    Run (answers secrets i) (orThrow x).run s (some (.ok a)) s := by
  rw [hx]
  exact .pure

theorem run_refuse {ε : Type} {c : Prop} [Decidable c] {e : ε} (h : ¬ c) (s : Option StateFile) :
    Run (answers secrets i) (orThrow (refuse c e)).run s (some (.ok ())) s :=
  run_orThrow (refuse_ok.mpr h) s

theorem run_readSecret {path secret : String} {k : Key} (hk : secrets path = k.val)
    (s : Option StateFile) :
    Run (answers secrets i) (read32ByteSecret path secret).run s (some (.ok k)) s := by
  have hread : Run (answers secrets i) (readFile path).run s (some (.ok (secrets path))) s :=
    .effect ⟨rfl, .inl rfl⟩
  have htoKey : toKey (secrets path) = some k := by
    rw [hk]
    exact dif_pos k.property
  exact Run.andThen hread.map (run_orThrow (okOr_ok.mpr htoKey) s)

theorem run_fromSecretFiles (h : SecretsRead secrets key options) (s : Option StateFile) :
    ∃ loaded : EnvironmentSecrets, loaded.stateMasterKey = key ∧
      Run (answers secrets i) (EnvironmentSecrets.fromSecretFiles options.subjectHmacKeyFile
        options.subjectHmacKeyVersion options.stateMasterKeyFile).run s (some (.ok loaded)) s := by
  refine ⟨⟨⟨_, h.subject⟩, options.subjectHmacKeyVersion, key⟩, rfl, ?_⟩
  have hsubject : secrets options.subjectHmacKeyFile =
      (⟨_, h.subject⟩ : Key).val := rfl
  exact Run.andThen (run_refuse h.version.ne' s)
    (Run.andThen (run_readSecret hsubject s) (Run.andThen (run_readSecret h.state s) .pure))

/-- A command with its secrets prints for the identity it loads or creates. -/
theorem run_prints {arguments : List String} {pairingToken : Option String} {s s' : Option StateFile}
    (hparse : Options.parse arguments = .ok options)
    (htogether : (pairingToken.filter (· ≠ "")).isSome = options.environmentId.isSome)
    (hsecrets : SecretsRead secrets key options)
    (hload : Run (answers secrets i) (loadOrCreate cipher key).run s (some (.ok identity)) s') :
    Run (answers secrets i) (run cipher lib arguments pairingToken).run s
      (some (.ok (printed lib identity options (pairingToken.filter (· ≠ ""))))) s' := by
  obtain ⟨loaded, hkey, hloaded⟩ := run_fromSecretFiles (i := i) hsecrets s
  refine Run.andThen (run_orThrow hparse s)
    (Run.andThen (run_refuse (not_not.mpr htogether) s)
      (Run.andThen hloaded.map ?_))
  rw [hkey]
  exact Run.andThen hload .pure

theorem run_loads {s : Option StateFile} (h : Opens cipher key s identity) :
    Run (answers secrets i) (loadOrCreate cipher key).run s (some (.ok identity)) s := by
  obtain ⟨file, hfile, hdecrypt⟩ := h
  have hread : Run (answers secrets i) readIdentity.run s (some (.ok file.bytes)) s :=
    .effect ⟨rfl, .inl ⟨file, hfile, rfl⟩⟩
  have hloaded : Run (answers secrets i) (AgentIdentity.readEncrypted cipher key).run s
      (some (.ok identity)) s := by
    refine Run.andThen hread.map ?_
    rw [hdecrypt]
    exact .pure
  exact Run.andThen hloaded.map .pure

theorem run_writeAll (bytes written : List UInt8) :
    Run (answers secrets i) (writeAll bytes).run (some ⟨i, written⟩) (some (.ok ()))
      (some ⟨i, written ++ bytes⟩) := by
  induction bytes generalizing written with
  | nil =>
    rw [List.append_nil]
    exact .pure
  | cons byte bytes ih =>
    have happend : Run (answers secrets i) (append byte).run (some ⟨i, written⟩)
        (some (.ok ())) (some ⟨i, written ++ [byte]⟩) :=
      .effect (.inl ⟨rfl, (if_pos rfl).symm⟩)
    have hrest := ih (written ++ [byte])
    rw [List.append_assoc] at hrest
    exact Run.andThen happend hrest

theorem run_creates {nonce : Nonce} {blob : List UInt8}
    (hblob : identity.encrypt cipher key nonce = .ok blob) :
    Run (answers secrets i) (loadOrCreate cipher key).run none (some (.ok identity))
      (some ⟨i, blob⟩) := by
  have hread : Run (answers secrets i) readIdentity.run none
      (some (.error ⟨true, "entity not found"⟩)) none :=
    .effect ⟨rfl, .inr ⟨_, rfl, fun _ => rfl⟩⟩
  have hloaded : Run (answers secrets i) (AgentIdentity.readEncrypted cipher key).run none
      (some (.error (.io ⟨true, "entity not found"⟩))) none := by
    have hadapted := hread.map (f := Except.mapError IdentityError.io)
    exact hadapted.bind rfl .pure
  have hopen : Run (answers secrets i) openNew.run none (some (.ok ())) (some ⟨i, []⟩) :=
    .effect (.inl ⟨rfl, rfl, rfl⟩)
  have hsync : Run (answers secrets i) syncAll.run (some ⟨i, blob⟩) (some (.ok ()))
      (some ⟨i, blob⟩) := .effect ⟨rfl, rfl⟩
  have hwrite : Run (answers secrets i) (writeNewSecretFile blob).run none (some (.ok ()))
      (some ⟨i, blob⟩) := by
    have hwritten : Run (answers secrets i) (writeAndSync blob).run (some ⟨i, []⟩)
        (some (.ok ())) (some ⟨i, blob⟩) := Run.andThen (run_writeAll blob []) hsync
    exact Run.andThen hopen (Run.andThen hwritten.map .pure)
  have hdirectory : Run (answers secrets i) createDirAll.run none (some (.ok ())) none :=
    .effect rfl
  have hnew : Run (answers secrets i) (identity.writeNewEncrypted cipher key).run none
      (some (.ok ())) (some ⟨i, blob⟩) := by
    have hnonce : Run (answers secrets i) (Prog.effect Effect.fillNonce) none (some nonce)
        none := .effect rfl
    refine Run.andThen hdirectory.map (Run.andThen hnonce.map ?_)
    rw [hblob]
    exact Run.andThen .pure hwrite.map
  have hgenerate : Run (answers secrets i) (Prog.effect Effect.generate) none (some identity)
      none := .effect rfl
  exact Run.andThen hloaded.map (Run.andThen hgenerate.map (Run.andThen hnew.map .pure))

end Undisturbed

/-! ## Two commands -/

section Twice

open Api.Pairing (firstArguments firstIdentity firstLibraries firstOptions)

def firstCipher : XChaCha20Poly1305 := ExportBuilder.cipherFor identityAad

def firstSecrets (_ : String) : List UInt8 := List.replicate 32 5

theorem length_firstKey : (List.replicate 32 5 : List UInt8).length = 32 := List.length_replicate

def firstKey : Key := ⟨List.replicate 32 5, length_firstKey⟩

theorem length_firstNonce : (List.replicate 24 3 : List UInt8).length = 24 := List.length_replicate

def firstNonce : Nonce := ⟨List.replicate 24 3, length_firstNonce⟩

theorem command_first (pairingToken : String) :
    Command firstCipher firstLibraries firstSecrets "/data" firstKey
      (run firstCipher firstLibraries firstArguments (some pairingToken)).run := by
  refine ⟨firstArguments, some pairingToken, rfl, fun options hoptions => ?_⟩
  have hparse : Options.parse firstArguments = .ok firstOptions := by rfl
  obtain rfl := Except.ok.inj (hparse.symm.trans hoptions)
  exact ⟨rfl, rfl⟩

/-- The first command creates the identity, and the second loads it. -/
theorem one_identity_twice :
    ∃ p, Relation.ReflTransGen
        (CommandStep firstCipher firstLibraries firstSecrets "/data" firstKey) (.initial none) p ∧
      p.returned = [.ok (printed firstLibraries firstIdentity firstOptions (some "second")),
        .ok (printed firstLibraries firstIdentity firstOptions (some "first"))] ∧
      ∃ identity, ∀ output, .ok output ∈ p.returned →
        ∃ options pairingToken, output = printed firstLibraries identity options pairingToken := by
  have hsecrets : SecretsRead firstSecrets firstKey firstOptions := ⟨by decide, rfl, rfl⟩
  have hparse : Options.parse firstArguments = .ok firstOptions := by rfl
  obtain ⟨blob, hblob⟩ :
      ∃ blob, firstIdentity.encrypt firstCipher firstKey firstNonce = .ok blob := ⟨_, rfl⟩
  have hopens : Opens firstCipher firstKey (some ⟨0, blob⟩) firstIdentity :=
    ⟨_, rfl, decrypt_encrypt (ExportBuilder.cipherFor_documented identityAad) hblob⟩
  have hfirst : Run (answers firstSecrets 0)
      (run firstCipher firstLibraries firstArguments (some "first")).run none
      (some (.ok (printed firstLibraries firstIdentity firstOptions (some "first"))))
      (some ⟨0, blob⟩) := run_prints hparse rfl hsecrets (run_creates hblob)
  have hsecond : Run (answers firstSecrets 1)
      (run firstCipher firstLibraries firstArguments (some "second")).run (some ⟨0, blob⟩)
      (some (.ok (printed firstLibraries firstIdentity firstOptions (some "second"))))
      (some ⟨0, blob⟩) := run_prints hparse rfl hsecrets (run_loads hopens)
  have hsteps : Relation.ReflTransGen
      (CommandStep firstCipher firstLibraries firstSecrets "/data" firstKey) (.initial none)
      ⟨some ⟨0, blob⟩, fun _ => none,
        [.ok (printed firstLibraries firstIdentity firstOptions (some "second")),
          .ok (printed firstLibraries firstIdentity firstOptions (some "first"))]⟩ :=
    (pool_call hfirst (command_first "first")).trans (pool_call hsecond (command_first "second"))
  exact ⟨_, hsteps, rfl, one_identity (ExportBuilder.cipherFor_documented identityAad) hsteps⟩

end Twice

end ForgetOps.Agent
