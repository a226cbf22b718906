import ForgetOps.Agent.IdentityFile
import ForgetOps.Agent.Runner
import ForgetOps.Library.Refinement
import ForgetOps.Library.Table
import ForgetOps.Sdk.ResponseAgreement

/-
  `EncryptedStore` (`agent/crates/agent-store/src/lib.rs`): the subjects, the execution steps and
  the consumed nonces of an agent, in three tables of one database.

  A call makes one statement, which the mutex keeps from the others; a statement may fail, and one
  that writes may fail after it took effect. `AgentState` is what the store is for, and
  `store_simulates` says that the tables serve for it: what is encrypted under an identifier is read
  back under it.
-/

namespace ForgetOps.Agent

open AdapterHttp (asName asName_text asText asText_text)
open AdapterSdk (text)
open CrashLogic
open Domain (Digest utf8)
open ExportBuilder (Key)
open Guards
open Json (JsString Members)

/-! ## Steps in JSON -/

def StepAction.name : StepAction → String
  | .discover => "discover"
  | .export => "export"
  | .erase => "erase"
  | .verify => "verify"

def StepStatus.name : StepStatus → String
  | .pending => "pending"
  | .prepared => "prepared"
  | .inFlight => "in_flight"
  | .verifying => "verifying"
  | .succeeded => "succeeded"
  | .failed => "failed"
  | .needsReview => "needs_review"
  | .blocked => "blocked"

def VerificationExpectation.name : VerificationExpectation → String
  | .absent => "absent"
  | .anonymized => "anonymized"
  | .exported => "exported"
  | .retained => "retained"

def ExecutionStep.json (step : ExecutionStep) : Json JsString :=
  .object [("id", text step.id), ("operation_key", text step.operationKey),
    ("connector", text step.connector), ("action", text step.action.name),
    ("dependencies", .array (step.dependencies.map text)), ("status", text step.status.name),
    ("attempts", .number step.attempts.toNat), ("desired_state", text step.desiredState.name),
    ("block_reason", step.blockReason.elim .null text)]

def asStepAction : Json JsString → Option StepAction :=
  asName StepAction.name [.discover, .export, .erase, .verify]

def asStepStatus : Json JsString → Option StepStatus :=
  asName StepStatus.name [.pending, .prepared, .inFlight, .verifying, .succeeded, .failed,
    .needsReview, .blocked]

def asExpectation : Json JsString → Option VerificationExpectation :=
  asName VerificationExpectation.name [.absent, .anonymized, .exported, .retained]

def asStep : Json JsString → Option ExecutionStep :=
  Json.asObject fun members => do
    let id ← Json.required asText "id" members
    let operationKey ← Json.required asText "operation_key" members
    let connector ← Json.required asText "connector" members
    let action ← Json.required asStepAction "action" members
    let dependencies ← Json.required (Json.asArray asText) "dependencies" members
    let status ← Json.required asStepStatus "status" members
    let attempts ← Json.required (Json.asUnsigned 32) "attempts" members
    let desiredState ← Json.required asExpectation "desired_state" members
    let blockReason ← Json.optional asText "block_reason" members
    return { id, operationKey, connector, action, dependencies, status,
             attempts := .ofNat attempts, desiredState, blockReason }

/-! ## The store -/

abbrev GcmNonce := { bytes : List UInt8 // bytes.length = 12 }

/-- What is not under the source: AES-GCM, SHA-256 and `serde_json::from_slice`. -/
structure StoreLibraries where
  encrypt : Key → GcmNonce → (msg aad : List UInt8) → Option (List UInt8)
  decrypt : Key → GcmNonce → (ciphertext aad : List UInt8) → Option (List UInt8)
  sha256 : List UInt8 → Digest
  fromSlice : List UInt8 → Option (Json JsString)

/-- What was encrypted opens under the same associated data and carries a tag; what was serialized
    is read. -/
structure StoreLibraries.Documented (lib : StoreLibraries) : Prop where
  opens : ∀ key nonce msg aad ciphertext, lib.encrypt key nonce msg aad = some ciphertext →
    lib.decrypt key nonce ciphertext aad = some msg
  length : ∀ key nonce msg aad ciphertext, lib.encrypt key nonce msg aad = some ciphertext →
    ciphertext.length = msg.length + 16
  reads : ∀ v, lib.fromSlice (Json.encode v) = some v

inductive StoreError where
  | database
  | json
  | invalidCiphertext
  | invalidInput
  | lockPoisoned
  deriving DecidableEq, Repr

def StoreError.text : StoreError → String
  | .database => "agent state database error"
  | .json => "agent state serialization error"
  | .invalidCiphertext => "agent state authentication failed"
  | .invalidInput => "agent state input invalid"
  | .lockPoisoned => "agent state lock poisoned"

/-- The three tables, by their primary keys. -/
structure EncryptedStore where
  encryptedSubjects : Table String (List UInt8)
  executionSteps : Table String (List UInt8)
  consumedAuthorizationNonces : Table (List UInt8) String

/-- What becomes of a statement; a failed one may have taken effect. -/
inductive Outcome where
  | done
  | failed (applied : Bool)
  | poisoned
  deriving DecidableEq, Repr

/-- `String::from_utf8`. -/
def fromUtf8 (bytes : List UInt8) : Option String := String.fromUTF8? ⟨bytes.toArray⟩

def toGcmNonce (bytes : List UInt8) : Option GcmNonce :=
  if h : bytes.length = 12 then some ⟨bytes, h⟩ else none

namespace EncryptedStore

variable (lib : StoreLibraries) (key : Key)

/-- `encrypt`, which draws this nonce. -/
def encrypt (aad plaintext : List UInt8) (nonce : GcmNonce) : Except StoreError (List UInt8) := do
  let ciphertext ← okOr (lib.encrypt key nonce plaintext aad) .invalidCiphertext
  return nonce.val ++ ciphertext

def decrypt (aad ciphertext : List UInt8) : Except StoreError (List UInt8) := do
  refuse (ciphertext.length ≤ 12) .invalidCiphertext
  let nonce ← okOr (toGcmNonce (ciphertext.take 12)) .invalidCiphertext
  okOr (lib.decrypt key nonce (ciphertext.drop 12) aad) .invalidCiphertext

/-- A statement that writes. -/
def execute (outcome : Outcome) (s written : EncryptedStore) :
    Except StoreError Unit × EncryptedStore :=
  match outcome with
  | .done => (.ok (), written)
  | .failed applied => (.error .database, if applied then written else s)
  | .poisoned => (.error .lockPoisoned, s)

/-- A statement that reads a row, and what is made of the row. -/
def queryRow {α : Type} (outcome : Outcome) (row : Option (List UInt8))
    (read : List UInt8 → Except StoreError α) : Except StoreError (Option α) :=
  match outcome with
  | .done => row.mapM read
  | .failed _ => .error .database
  | .poisoned => .error .lockPoisoned

def saveSubject (requestId subject : String) (nonce : GcmNonce) (outcome : Outcome)
    (s : EncryptedStore) : Except StoreError Unit × EncryptedStore :=
  if requestId = "" then (.error .invalidInput, s)
  else
    match encrypt lib key (utf8 requestId) (utf8 subject) nonce with
    | .error e => (.error e, s)
    | .ok encrypted => execute outcome s
        { s with encryptedSubjects := s.encryptedSubjects.set requestId (some encrypted) }

def readSubject (requestId : String) (bytes : List UInt8) : Except StoreError String := do
  let plaintext ← decrypt lib key (utf8 requestId) bytes
  okOr (fromUtf8 plaintext) .invalidCiphertext

def loadSubject (requestId : String) (outcome : Outcome) (s : EncryptedStore) :
    Except StoreError (Option String) :=
  queryRow outcome (s.encryptedSubjects.find requestId) (readSubject lib key requestId)

def saveExecutionStep (step : ExecutionStep) (nonce : GcmNonce) (outcome : Outcome)
    (s : EncryptedStore) : Except StoreError Unit × EncryptedStore :=
  match encrypt lib key (utf8 step.id) (Json.encode step.json) nonce with
  | .error e => (.error e, s)
  | .ok encrypted => execute outcome s
      { s with executionSteps := s.executionSteps.set step.id (some encrypted) }

def readStep (stepId : String) (bytes : List UInt8) : Except StoreError ExecutionStep := do
  let plaintext ← decrypt lib key (utf8 stepId) bytes
  okOr ((lib.fromSlice plaintext).bind asStep) .json

def loadExecutionStep (stepId : String) (outcome : Outcome) (s : EncryptedStore) :
    Except StoreError (Option ExecutionStep) :=
  queryRow outcome (s.executionSteps.find stepId) (readStep lib key stepId)

/-- `insert or ignore`. -/
def insertNonce (hash : List UInt8) (requestId : String) (s : EncryptedStore) : EncryptedStore :=
  if (s.consumedAuthorizationNonces.find hash).isSome then s
  else { s with
    consumedAuthorizationNonces := s.consumedAuthorizationNonces.set hash (some requestId) }

def consumeNonce (nonce requestId : String) (outcome : Outcome) (s : EncryptedStore) :
    Except AuthorizationError Unit × EncryptedStore :=
  let nonceHash := (lib.sha256 (utf8 nonce)).val
  match outcome with
  | .done =>
    (if (s.consumedAuthorizationNonces.find nonceHash).isSome then
      .error .authorizationAlreadyConsumed else .ok (), s.insertNonce nonceHash requestId)
  | .failed applied =>
    (.error .invalidClaims, if applied then s.insertNonce nonceHash requestId else s)
  | .poisoned => (.error .invalidClaims, s)

end EncryptedStore

/-! ## Calls -/

inductive StoreCall where
  | saveSubject (requestId subject : String)
  | loadSubject (requestId : String)
  | saveExecutionStep (step : ExecutionStep)
  | loadExecutionStep (stepId : String)
  | consumeNonce (nonce requestId : String)

def StoreCall.Answer : StoreCall → Type
  | .saveSubject _ _ => Except StoreError Unit
  | .loadSubject _ => Except StoreError (Option String)
  | .saveExecutionStep _ => Except StoreError Unit
  | .loadExecutionStep _ => Except StoreError (Option ExecutionStep)
  | .consumeNonce _ _ => Except AuthorizationError Unit

/-- What the encrypted store may answer, for any nonces and outcomes. -/
def EncryptedStore.environment (lib : StoreLibraries) (key : Key) :
    Env StoreCall StoreCall.Answer EncryptedStore
  | s, .saveSubject requestId subject, r, s' =>
    ∃ nonce outcome, (r, s') = s.saveSubject lib key requestId subject nonce outcome
  | s, .loadSubject requestId, r, s' =>
    s' = s ∧ ∃ outcome, r = s.loadSubject lib key requestId outcome
  | s, .saveExecutionStep step, r, s' =>
    ∃ nonce outcome, (r, s') = s.saveExecutionStep lib key step nonce outcome
  | s, .loadExecutionStep stepId, r, s' =>
    s' = s ∧ ∃ outcome, r = s.loadExecutionStep lib key stepId outcome
  | s, .consumeNonce nonce requestId, r, s' =>
    ∃ outcome, (r, s') = s.consumeNonce lib nonce requestId outcome

/-! ## What the store is for -/

/-- A subject for each request, a step for each identifier, and the nonces that are used up. -/
structure AgentState where
  subjects : String → Option String
  steps : String → Option ExecutionStep
  consumed : Set (List UInt8)

/-- Any call may fail. One that saves and fails may have saved; a nonce is consumed once. -/
def AgentState.environment (sha256 : List UInt8 → Digest) :
    Env StoreCall StoreCall.Answer AgentState
  | a, .saveSubject requestId subject, r, a' =>
    (requestId ≠ "" ∧ a' = { a with subjects := Function.update a.subjects requestId (some subject) }) ∨
      (a' = a ∧ ∃ e, r = .error e)
  | a, .loadSubject requestId, r, a' => a' = a ∧ (r = .ok (a.subjects requestId) ∨ ∃ e, r = .error e)
  | a, .saveExecutionStep step, r, a' =>
    a' = { a with steps := Function.update a.steps step.id (some step) } ∨
      (a' = a ∧ ∃ e, r = .error e)
  | a, .loadExecutionStep stepId, r, a' => a' = a ∧ (r = .ok (a.steps stepId) ∨ ∃ e, r = .error e)
  | a, .consumeNonce nonce _, r, a' =>
    let hash := (sha256 (utf8 nonce)).val
    (r = .ok () ∧ hash ∉ a.consumed ∧ a' = { a with consumed := insert hash a.consumed }) ∨
      (r = .error .authorizationAlreadyConsumed ∧ hash ∈ a.consumed ∧ a' = a) ∨
      (r = .error .invalidClaims ∧
        (a' = a ∨ a' = { a with consumed := insert hash a.consumed }))

/-- The tables hold this state. -/
structure Represents (lib : StoreLibraries) (key : Key) (s : EncryptedStore) (a : AgentState) :
    Prop where
  subjects : ∀ requestId, s.loadSubject lib key requestId .done = .ok (a.subjects requestId)
  steps : ∀ stepId, s.loadExecutionStep lib key stepId .done = .ok (a.steps stepId)
  consumed : ∀ hash,
    hash ∈ a.consumed ↔ (s.consumedAuthorizationNonces.find hash).isSome = true

/-! ## Reading back -/

theorem asStepAction_name (a : StepAction) : asStepAction (text a.name) = some a :=
  asName_text (by cases a <;> rfl)

theorem asStepStatus_name (s : StepStatus) : asStepStatus (text s.name) = some s :=
  asName_text (by cases s <;> rfl)

theorem asExpectation_name (e : VerificationExpectation) : asExpectation (text e.name) = some e :=
  asName_text (by cases e <;> rfl)

theorem asArray_texts (items : List String) :
    Json.asArray asText (.array (items.map text)) = some items := by
  have h : Json.asArray asText (.array (items.map text)) = some (items.map id) :=
    Json.asArray_map fun s _ => asText_text s
  rwa [List.map_id] at h

/-- A step is read as it was written. -/
theorem asStep_json (step : ExecutionStep) : asStep step.json = some step := by
  obtain ⟨id, operationKey, connector, action, dependencies, status, attempts, desiredState,
    blockReason⟩ := step
  have hattempts : Json.asUnsigned 32 (.number attempts.toNat : Json JsString) =
      some attempts.toNat := Json.asUnsigned_iff.mpr ⟨attempts.toNat_lt, rfl⟩
  have hback : UInt32.ofNat attempts.toNat = attempts := UInt32.ofNat_toNat
  unfold ExecutionStep.json asStep Json.asObject Json.required
  simp only [Json.named_cons, Json.named_nil, String.reduceEq, if_true, if_false, asText_text,
    asStepAction_name, asArray_texts, asStepStatus_name, hattempts, asExpectation_name,
    Option.bind_eq_bind, Option.bind_some, hback]
  unfold Json.optional
  simp only [Json.named_cons, Json.named_nil, String.reduceEq, if_true, if_false]
  cases blockReason with
  | none => rfl
  | some reason =>
    show ((asText (text reason)).map some).bind _ = _
    rw [asText_text]
    rfl

namespace EncryptedStore

variable {lib : StoreLibraries} {key : Key} {s : EncryptedStore} {a : AgentState}

theorem decrypt_encrypt (hlib : lib.Documented) {aad plaintext bytes : List UInt8}
    {nonce : GcmNonce} (h : encrypt lib key aad plaintext nonce = .ok bytes) :
    decrypt lib key aad bytes = .ok plaintext := by
  obtain ⟨ciphertext, hciphertext, h⟩ := bind_ok.mp h
  obtain rfl := pure_ok.mp h
  have hencrypts := okOr_ok.mp hciphertext
  have hlength := hlib.length _ _ _ _ _ hencrypts
  have hopens := hlib.opens _ _ _ _ _ hencrypts
  have hnonce : nonce.val.length = 12 := nonce.property
  have htake : (nonce.val ++ ciphertext).take 12 = nonce.val := by
    rw [List.take_left' hnonce]
  have hdrop : (nonce.val ++ ciphertext).drop 12 = ciphertext := by
    rw [List.drop_left' hnonce]
  have htoNonce : toGcmNonce nonce.val = some nonce := dif_pos nonce.property
  refine refuse_bind_ok.mpr ⟨?_, bind_ok.mpr ⟨nonce, ?_, ?_⟩⟩
  · rw [List.length_append, hnonce, hlength]
    omega
  · rw [htake]
    exact okOr_ok.mpr htoNonce
  · rw [hdrop]
    exact okOr_ok.mpr hopens

end EncryptedStore

theorem fromUtf8_utf8 (s : String) : fromUtf8 (utf8 s) = some s := by
  unfold fromUtf8 utf8
  rw [Array.toArray_toList]
  exact dif_pos s.isValidUTF8

namespace EncryptedStore

variable {lib : StoreLibraries} {key : Key} {s : EncryptedStore} {a : AgentState}

theorem readSubject_encrypt (hlib : lib.Documented) {requestId subject : String}
    {bytes : List UInt8} {nonce : GcmNonce}
    (h : encrypt lib key (utf8 requestId) (utf8 subject) nonce = .ok bytes) :
    readSubject lib key requestId bytes = .ok subject :=
  bind_ok.mpr ⟨_, decrypt_encrypt hlib h, okOr_ok.mpr (fromUtf8_utf8 subject)⟩

theorem readStep_encrypt (hlib : lib.Documented) {step : ExecutionStep} {bytes : List UInt8}
    {nonce : GcmNonce}
    (h : encrypt lib key (utf8 step.id) (Json.encode step.json) nonce = .ok bytes) :
    readStep lib key step.id bytes = .ok step := by
  refine bind_ok.mpr ⟨_, decrypt_encrypt hlib h, okOr_ok.mpr ?_⟩
  rw [hlib.reads, Option.bind_some, asStep_json]

/-- A table with one more row reads as the state with one more value. -/
theorem queryRow_set {α : Type} {table : Table String (List UInt8)}
    {values : String → Option α} {read : String → List UInt8 → Except StoreError α}
    (h : ∀ id, queryRow .done (table.find id) (read id) = .ok (values id)) {id : String}
    {bytes : List UInt8} {value : α} (hread : read id bytes = .ok value) (id' : String) :
    queryRow .done ((table.set id (some bytes)).find id') (read id') =
      .ok (Function.update values id (some value) id') := by
  by_cases heq : id' = id
  · subst heq
    rw [Table.find_set_self, Function.update_self]
    show (some bytes).mapM (read id') = .ok (some value)
    rw [Option.mapM_some, hread]
    rfl
  · rw [Table.find_set_of_ne _ _ heq, Function.update_of_ne heq]
    exact h id'

theorem find_insertNonce (s : EncryptedStore) (hash hash' : List UInt8) (requestId : String) :
    (((s.insertNonce hash requestId).consumedAuthorizationNonces.find hash').isSome = true ↔
      hash' = hash ∨ (s.consumedAuthorizationNonces.find hash').isSome = true) := by
  unfold insertNonce
  split
  · next hfound =>
    constructor
    · exact .inr
    · rintro (rfl | h)
      · exact hfound
      · exact h
  · by_cases heq : hash' = hash
    · subst heq
      simp
    · show ((s.consumedAuthorizationNonces.set hash (some requestId)).find hash').isSome = true ↔ _
      rw [Table.find_set_of_ne _ _ heq]
      simp [heq]

theorem represents_insertNonce (h : Represents lib key s a) (hash : List UInt8)
    (requestId : String) :
    Represents lib key (s.insertNonce hash requestId)
      { a with consumed := insert hash a.consumed } where
  subjects id := by
    unfold EncryptedStore.insertNonce
    split
    · exact h.subjects id
    · exact h.subjects id
  steps id := by
    unfold EncryptedStore.insertNonce
    split
    · exact h.steps id
    · exact h.steps id
  consumed hash' := by
    rw [find_insertNonce, ← h.consumed]
    rfl

/-- A query answers the value or an error. -/
theorem queryRow_cases {α : Type} {row : Option (List UInt8)} {value : Option α}
    {read : List UInt8 → Except StoreError α} (h : queryRow .done row read = .ok value)
    (outcome : Outcome) :
    queryRow outcome row read = .ok value ∨ ∃ e, queryRow outcome row read = .error e := by
  cases outcome with
  | done => exact .inl h
  | failed => exact .inr ⟨_, rfl⟩
  | poisoned => exact .inr ⟨_, rfl⟩

/-- A statement that writes leaves what it wrote, or fails and changes nothing. -/
theorem execute_cases {outcome : Outcome} {written s' : EncryptedStore} {r : Except StoreError Unit}
    (h : (r, s') = execute outcome s written) : s' = written ∨ (s' = s ∧ ∃ e, r = .error e) := by
  cases outcome with
  | done => exact .inl (Prod.mk.inj h).2
  | poisoned => exact .inr ⟨(Prod.mk.inj h).2, _, (Prod.mk.inj h).1⟩
  | failed applied =>
    cases applied with
    | true => exact .inl (Prod.mk.inj h).2
    | false => exact .inr ⟨(Prod.mk.inj h).2, _, (Prod.mk.inj h).1⟩

theorem represents_setSubject (hlib : lib.Documented) (h : Represents lib key s a)
    {requestId subject : String} {bytes : List UInt8} {nonce : GcmNonce}
    (hbytes : encrypt lib key (utf8 requestId) (utf8 subject) nonce = .ok bytes) :
    Represents lib key
      { s with encryptedSubjects := s.encryptedSubjects.set requestId (some bytes) }
      { a with subjects := Function.update a.subjects requestId (some subject) } where
  subjects := queryRow_set h.subjects (readSubject_encrypt hlib hbytes)
  steps := h.steps
  consumed := h.consumed

theorem represents_setStep (hlib : lib.Documented) (h : Represents lib key s a)
    {step : ExecutionStep} {bytes : List UInt8} {nonce : GcmNonce}
    (hbytes : encrypt lib key (utf8 step.id) (Json.encode step.json) nonce = .ok bytes) :
    Represents lib key { s with executionSteps := s.executionSteps.set step.id (some bytes) }
      { a with steps := Function.update a.steps step.id (some step) } where
  subjects := h.subjects
  steps := queryRow_set h.steps (readStep_encrypt hlib hbytes)
  consumed := h.consumed

/-- **The tables serve for the state.** -/
theorem store_simulates (hlib : lib.Documented) :
    Simulates (Represents lib key) (environment lib key) (AgentState.environment lib.sha256) := by
  intro s a call r s' h hanswer
  cases call with
  | loadSubject requestId =>
    obtain ⟨rfl, outcome, rfl⟩ := hanswer
    exact ⟨a, ⟨rfl, queryRow_cases (h.subjects requestId) outcome⟩, h⟩
  | loadExecutionStep stepId =>
    obtain ⟨rfl, outcome, rfl⟩ := hanswer
    exact ⟨a, ⟨rfl, queryRow_cases (h.steps stepId) outcome⟩, h⟩
  | saveSubject requestId subject =>
    obtain ⟨nonce, outcome, hanswer⟩ := hanswer
    unfold saveSubject at hanswer
    split at hanswer
    · obtain ⟨rfl, rfl⟩ := Prod.mk.inj hanswer
      exact ⟨a, .inr ⟨rfl, _, rfl⟩, h⟩
    · next hne =>
      split at hanswer
      · next e _ =>
        obtain ⟨rfl, rfl⟩ := Prod.mk.inj hanswer
        exact ⟨a, .inr ⟨rfl, e, rfl⟩, h⟩
      · next bytes hbytes =>
        obtain rfl | ⟨rfl, herror⟩ := execute_cases hanswer
        · exact ⟨_, .inl ⟨hne, rfl⟩, represents_setSubject hlib h hbytes⟩
        · exact ⟨a, .inr ⟨rfl, herror⟩, h⟩
  | saveExecutionStep step =>
    obtain ⟨nonce, outcome, hanswer⟩ := hanswer
    unfold saveExecutionStep at hanswer
    split at hanswer
    · next e _ =>
      obtain ⟨rfl, rfl⟩ := Prod.mk.inj hanswer
      exact ⟨a, .inr ⟨rfl, e, rfl⟩, h⟩
    · next bytes hbytes =>
      obtain rfl | ⟨rfl, herror⟩ := execute_cases hanswer
      · exact ⟨_, .inl rfl, represents_setStep hlib h hbytes⟩
      · exact ⟨a, .inr ⟨rfl, herror⟩, h⟩
  | consumeNonce nonce requestId =>
    obtain ⟨outcome, hanswer⟩ := hanswer
    have hinserted := represents_insertNonce h (lib.sha256 (utf8 nonce)).val requestId
    cases outcome with
    | poisoned =>
      obtain ⟨rfl, rfl⟩ := Prod.mk.inj hanswer
      exact ⟨a, .inr (.inr ⟨rfl, .inl rfl⟩), h⟩
    | failed applied =>
      obtain ⟨rfl, rfl⟩ := Prod.mk.inj hanswer
      cases applied with
      | true => exact ⟨_, .inr (.inr ⟨rfl, .inr rfl⟩), hinserted⟩
      | false => exact ⟨a, .inr (.inr ⟨rfl, .inl rfl⟩), h⟩
    | done =>
      obtain ⟨rfl, rfl⟩ := Prod.mk.inj hanswer
      by_cases hfound :
          (s.consumedAuthorizationNonces.find (lib.sha256 (utf8 nonce)).val).isSome = true
      · refine ⟨a, .inr (.inl ⟨if_pos hfound, (h.consumed _).mpr hfound, rfl⟩), ?_⟩
        rw [insertNonce, if_pos hfound]
        exact h
      · exact ⟨_, .inl ⟨if_neg hfound, fun hmem => hfound ((h.consumed _).mp hmem), rfl⟩, hinserted⟩

/-- The tables of a database that was just opened. -/
def empty : EncryptedStore := ⟨.empty, .empty, .empty⟩

theorem represents_empty : Represents lib key empty ⟨fun _ => none, fun _ => none, ∅⟩ where
  subjects _ := rfl
  steps _ := rfl
  consumed hash := by
    show hash ∈ ∅ ↔ false = true
    simp

/-- **Refinement.** Clients that share the encrypted tables, side by side and killed anywhere, return
    what they could have returned on the plain state, which the tables still hold. -/
theorem encrypted_store_refines {α : Type} (hlib : lib.Documented) (h : Represents lib key s a)
    {starts : Prog StoreCall StoreCall.Answer α → Prop}
    {p : Pool StoreCall StoreCall.Answer α EncryptedStore}
    (hsteps : Relation.ReflTransGen (PoolStep (fun _ => environment lib key) starts)
      (.initial s) p) :
    ∃ q, Relation.ReflTransGen (PoolStep (fun _ => AgentState.environment lib.sha256) starts)
        (.initial a) q ∧
      Represents lib key p.state q.state ∧ p.live = q.live ∧ p.returned = q.returned := by
  have hinitial : (Pool.initial s : Pool StoreCall StoreCall.Answer α EncryptedStore).Related
      (Represents lib key) (.initial a) := ⟨h, rfl, rfl⟩
  obtain ⟨q, hq, hstate, hlive, hreturned⟩ :=
    Simulates.pool (fun _ => store_simulates hlib) hsteps hinitial
  exact ⟨q, hq, hstate, hlive, hreturned⟩

/-! ## A client -/

def plainTag (aad : List UInt8) : List UInt8 := (aad ++ List.replicate 16 0).take 16

theorem length_plainTag (aad : List UInt8) : (plainTag aad).length = 16 := by
  unfold plainTag
  rw [List.length_take, List.length_append, List.length_replicate]
  omega

theorem length_plainDigest (bytes : List UInt8) :
    ((bytes ++ List.replicate 32 0).take 32).length = 32 := by
  rw [List.length_take, List.length_append, List.length_replicate]
  omega

/-- The tag is the associated data. -/
def plainStoreLibraries : StoreLibraries where
  encrypt _ _ msg aad := some (msg ++ plainTag aad)
  decrypt _ _ ciphertext aad :=
    if ciphertext.drop (ciphertext.length - 16) = plainTag aad then
      some (ciphertext.take (ciphertext.length - 16))
    else none
  sha256 bytes := ⟨(bytes ++ List.replicate 32 0).take 32, length_plainDigest bytes⟩
  fromSlice bytes := Json.parse (Utf8.decode bytes)

theorem plainStoreLibraries_documented : plainStoreLibraries.Documented where
  opens := by
    intro key nonce msg aad ciphertext h
    obtain rfl := Option.some.inj h
    have hlength : (msg ++ plainTag aad).length - 16 = msg.length := by
      rw [List.length_append, length_plainTag]
      omega
    show (if (msg ++ plainTag aad).drop ((msg ++ plainTag aad).length - 16) = plainTag aad then
      some ((msg ++ plainTag aad).take ((msg ++ plainTag aad).length - 16)) else none) = some msg
    rw [hlength, List.drop_left, if_pos rfl, List.take_left]
  length := by
    intro key nonce msg aad ciphertext h
    obtain rfl := Option.some.inj h
    rw [List.length_append, length_plainTag]
  reads v := by
    show Json.parse (Utf8.decode ((Json.stringify v).flatMap String.utf8EncodeChar)) = some v
    rw [Utf8.decode_encode]
    exact Json.parse_stringify v

def plainKey : Key := ⟨List.replicate 32 5, List.length_replicate⟩

def plainNonce : GcmNonce := ⟨List.replicate 12 3, List.length_replicate⟩

/-- A client that saves a subject and reads it back. -/
def rememberSubject : Prog StoreCall StoreCall.Answer (Except StoreError (Option String)) := do
  let _ ← Prog.effect (.saveSubject "request" "subject")
  Prog.effect (R := StoreCall.Answer) (.loadSubject "request")

/-- The client reads what it saved, from the tables as from the state. -/
theorem encrypted_store_refines_remembered :
    ∃ s, Relation.ReflTransGen
        (PoolStep (fun _ => environment plainStoreLibraries plainKey) (· = rememberSubject))
        (.initial empty) ⟨s, fun _ => none, [.ok (some "subject")]⟩ ∧
      ∃ q : Pool StoreCall StoreCall.Answer (Except StoreError (Option String)) AgentState,
        Relation.ReflTransGen
          (PoolStep (fun _ => AgentState.environment plainStoreLibraries.sha256)
            (· = rememberSubject)) (.initial ⟨fun _ => none, fun _ => none, ∅⟩) q ∧
        Represents plainStoreLibraries plainKey s q.state ∧ (fun _ => none) = q.live ∧
        [.ok (some "subject")] = q.returned := by
  have hempty : Represents plainStoreLibraries plainKey empty
      ⟨fun _ => none, fun _ => none, ∅⟩ := represents_empty
  obtain ⟨bytes, hbytes⟩ : ∃ bytes, encrypt plainStoreLibraries plainKey (utf8 "request")
      (utf8 "subject") plainNonce = .ok bytes := ⟨_, rfl⟩
  let remembered : EncryptedStore :=
    { empty with encryptedSubjects := Table.empty.set "request" (some bytes) }
  have hload : .ok (some "subject") =
      remembered.loadSubject plainStoreLibraries plainKey "request" .done := by
    have hsaved := represents_setSubject plainStoreLibraries_documented hempty hbytes
    exact (hsaved.subjects "request").symm
  have hsave : (.ok (), remembered) =
      saveSubject plainStoreLibraries plainKey "request" "subject" plainNonce .done empty := by
    unfold saveSubject
    rw [if_neg (by decide), hbytes]
    rfl
  have hrun : Run (environment plainStoreLibraries plainKey) rememberSubject empty
      (some (.ok (some "subject"))) remembered :=
    .perform ⟨plainNonce, .done, hsave⟩ (Run.effect ⟨rfl, .done, hload⟩)
  have hsteps : Relation.ReflTransGen
      (PoolStep (fun _ => environment plainStoreLibraries plainKey) (· = rememberSubject))
      (.initial empty) ⟨remembered, fun _ => none, [.ok (some "subject")]⟩ :=
    pool_call (i := 0) hrun rfl
  exact ⟨_, hsteps, encrypted_store_refines plainStoreLibraries_documented hempty hsteps⟩

end EncryptedStore

end ForgetOps.Agent
