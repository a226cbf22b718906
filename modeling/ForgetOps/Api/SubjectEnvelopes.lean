import ForgetOps.Api.Pairing
import ForgetOps.Api.SubjectBinding

/-
  The life of a subject envelope: `storeEnvelope` and `bindSubject`
  (`apps/api/src/modules/privacy-requests/subject-envelope-service.ts`), each in a transaction of its
  own that is rolled back where it throws.

  The checks of the service before the transaction are left out: they refuse calls and change
  nothing.
-/

namespace ForgetOps.Api.SubjectEnvelopes

open Domain Database
open Pairing (isActive selectKeys)
open ReadCommitted (Script)

/-- The environment is one of the tenant's projects. -/
def ofTenant (tenantId : String) (environments : Table String EnvironmentRow)
    (environmentId : String) : Prop :=
  (environments.find environmentId).map (·.tenantId) = some tenantId

instance (tenantId : String) (environments : Table String EnvironmentRow) :
    DecidablePred (ofTenant tenantId environments) :=
  fun _ => inferInstanceAs (Decidable (_ = _))

structure StoreSubjectEnvelopeInput where
  tenantId : String
  environmentId : String
  requestId : String
  ciphertext : String
  encryptionKeyId : String
  expiresAt : Timestamp
  deriving DecidableEq, Repr

/-- The conditions on the agent an envelope is encrypted for. -/
def isRecipient (input : StoreSubjectEnvelopeInput) (row : AgentRow) : Prop :=
  isActive input.environmentId row ∧ row.encryptionKeyId = some input.encryptionKeyId

instance (input : StoreSubjectEnvelopeInput) : DecidablePred (isRecipient input) :=
  fun _ => inferInstanceAs (Decidable (_ ∧ _))

def newEnvelope (input : StoreSubjectEnvelopeInput) : EnvelopeRow where
  tenantId := input.tenantId
  environmentId := input.environmentId
  ciphertext := input.ciphertext
  encryptionKeyId := input.encryptionKeyId
  expiresAt := input.expiresAt
  consumedAt := none

/-- `select … for update of r, a`: the request and the agents of the snapshot, each locked as it
    is now. -/
def lockRecipients (input : StoreSubjectEnvelopeInput) :
    Transaction (List (String × AgentRow)) := do
  let environments ← Script.read fun (w : World) => w.environments
  let ids ← selectKeys (·.agents) fun _ => isRecipient input
  let request ← Script.update (.request input.requestId) (lockRow fun (row : RequestRow) =>
    row.tenantId = input.tenantId ∧ row.environmentId = input.environmentId ∧
      ofTenant input.tenantId environments row.environmentId)
  match request with
  | none => return []
  | some _ => onRows (fun id => Script.update (.agent id) (lockRow (isRecipient input))) ids

/-- `storeEnvelope` of the repository. -/
def storeEnvelope (input : StoreSubjectEnvelopeInput) : Transaction Unit := do
  let rows ← lockRecipients input
  match rows with
  | [] => .fail "SUBJECT_ENVELOPE_SCOPE_INVALID"
  | (_, agent) :: _ => do
    Script.failIf (agent.encryptionKeyId ≠ some input.encryptionKeyId)
      "SUBJECT_ENVELOPE_KEY_ID_MISMATCH"
    let _ ← Script.update (.envelope input.requestId) fun _ =>
      some ((), some (newEnvelope input))
    return ()

/-! ## The system -/

inductive EnvelopeRequest where
  | storeEnvelope (input : StoreSubjectEnvelopeInput)
  | bindSubject (input : BindSubjectRequest)

def EnvelopeRequest.script (rt : Runtime) :
    EnvelopeRequest → Transaction (Option SubjectBindingResult)
  | .storeEnvelope input => do
    SubjectEnvelopes.storeEnvelope input
    return none
  | .bindSubject input => do
    let result ← SubjectBinding.bindSubjectInTransaction rt input
    return some result

abbrev Configuration :=
  ReadCommitted.Conf World Row EnvelopeRequest (Option SubjectBindingResult)

/-- Nothing is running. -/
def idle (w : World) : Configuration := ⟨w, fun _ => none⟩

/-- The configuration after the transaction `i` has committed these writes. -/
def committed (c : Configuration) (i : ℕ) (log : ReadCommitted.Log Row) : Configuration :=
  { c.set i none with world := ReadCommitted.view c.world log }

/-! ## Destroyed once used -/

/-- The request is neither bound nor completed nor cancelled. -/
def IsOpen (row : RequestRow) : Prop := row.subjectHash = none ∧ ¬ finished row.status

/-- The request is bound. -/
def IsBound (w : World) (requestId : String) : Prop :=
  ∃ row, w.requests.find requestId = some row ∧ row.subjectHash ≠ none

/-- Only open requests have an envelope. -/
def Settled (w : World) : Prop :=
  ∀ id envelope row, w.envelopes.find id = some envelope → w.requests.find id = some row →
    IsOpen row

/-- A new envelope for the request is committed. -/
def Stores (requestId : String) (c c' : Configuration) : Prop :=
  ∃ i input a log, c.live i = some ⟨.storeEnvelope input, .done a, log⟩ ∧
    input.requestId = requestId ∧ c' = committed c i log

/-- An envelope is only stored for an open request. -/
def EnvelopeRequest.Opens (w : World) : EnvelopeRequest → Prop
  | .storeEnvelope input => ∀ row, w.requests.find input.requestId = some row → IsOpen row
  | .bindSubject _ => True

end ForgetOps.Api.SubjectEnvelopes
