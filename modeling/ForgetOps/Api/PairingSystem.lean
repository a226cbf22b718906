import ForgetOps.Api.PairingEffect
import ForgetOps.Api.SubjectEnvelopes

/-
  The transactions around a pairing: `issueToken` and `revokeAgent`
  (`apps/api/src/modules/agents/pairing-service.ts`), `storeEnvelope`
  (`apps/api/src/modules/privacy-requests/subject-envelope-service.ts`), and the system they make up
  with `consumeAndPair`.

  Of the unique constraints the one on token hashes is enforced at the commit. The partial unique
  index on active agents is left out: it would only abort more transactions.
-/

namespace ForgetOps.Api.Pairing

open Domain Database
open ReadCommitted (Script)
open SubjectEnvelopes (StoreSubjectEnvelopeInput ofTenant)

structure PersistPairingTokenInput where
  id : String
  tenantId : String
  environmentId : String
  tokenHash : String
  replacementMode : ReplacementMode
  expiresAt : Timestamp
  deriving DecidableEq, Repr

def newToken (input : PersistPairingTokenInput) : TokenRow where
  tenantId := input.tenantId
  environmentId := input.environmentId
  tokenHash := input.tokenHash
  replacementMode := input.replacementMode
  expiresAt := input.expiresAt
  consumedAt := none

def issueToken (input : PersistPairingTokenInput) : Transaction Unit := do
  let environments ← Script.read fun (w : World) => w.environments
  Script.failIf (¬ ofTenant input.tenantId environments input.environmentId)
    "PAIRING_RESOURCE_NOT_FOUND"
  let inserted ← Script.update (.token input.id) (whenAbsent (newToken input))
  Script.failIf (inserted = none) "unique_violation"

/-- `update agents set status = 'revoked' where …`, and the look-up where it affects no row. -/
def revokeAgent (tenantId agentId : String) : Transaction Unit := do
  let environments ← Script.read fun (w : World) => w.environments
  let result ← Script.update (.agent agentId)
    (whenRow (fun (row : AgentRow) =>
      ofTenant tenantId environments row.environmentId ∧ row.status ≠ .revoked)
      fun row => { row with status := .revoked })
  match result with
  | some _ => return ()
  | none => do
    let existing ← Script.read fun (w : World) => (w.agents.find agentId).filter fun row =>
      ofTenant tenantId w.environments row.environmentId
    Script.failIf (existing = none) "AGENT_NOT_FOUND"

/-! ## The system -/

inductive PairingRequest where
  | issueToken (input : PersistPairingTokenInput)
  | consumeAndPair (input : ConsumeAndPairInput)
  | revokeAgent (tenantId agentId : String)
  | storeEnvelope (input : StoreSubjectEnvelopeInput)

def PairingRequest.script : PairingRequest → Transaction Unit
  | .issueToken input => Pairing.issueToken input
  | .consumeAndPair input => do
    let _ ← Pairing.consumeAndPair input
    return ()
  | .revokeAgent tenantId agentId => Pairing.revokeAgent tenantId agentId
  | .storeEnvelope input => SubjectEnvelopes.storeEnvelope input

/-- The unique index on token hashes. -/
def PairingRequest.Commits (w : World) : PairingRequest → Prop
  | .issueToken input => ∀ id token, w.tokens.find id = some token →
      token.tokenHash ≠ input.tokenHash
  | _ => True

def pairingSystem : ReadCommitted.System World Row PairingRequest Unit where
  starts _ _ := True
  body request := request.script
  commits w request := request.Commits w
  settle _ _ w := w
  environment _ _ _ := False

end ForgetOps.Api.Pairing
