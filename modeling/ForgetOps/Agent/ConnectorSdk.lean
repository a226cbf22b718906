import ForgetOps.Agent.DestructiveErase
import ForgetOps.Library.Guards

/-
  What a connector is asked and what it answers (`agent/crates/connector-sdk/src/lib.rs`), beyond
  the erase: health, discovery, export and verification. And calls of a connector that ask nothing
  remote, by their result alone.
-/

namespace ForgetOps.Connector

structure HealthCheck where
  name : String
  healthy : Bool
  code : Option String
  deriving DecidableEq, Repr

structure HealthStatus where
  healthy : Bool
  checks : List HealthCheck
  deriving DecidableEq, Repr

structure DiscoveryRequest where
  requestId : String
  requestType : String
  deriving DecidableEq, Repr

inductive RiskLevel where
  | low
  | medium
  | high
  deriving DecidableEq, Repr

structure DiscoveryItem where
  localReference : String
  resourceType : String
  proposedAction : ProposedAction
  estimatedCount : Nat
  risk : RiskLevel
  dependencies : List String
  retentionReason : Option String
  deriving DecidableEq, Repr

structure DiscoveryResult where
  items : List DiscoveryItem
  deriving DecidableEq, Repr

structure ExportSelection where
  resources : List String
  deriving DecidableEq, Repr

structure VerificationExpectation where
  resource : String
  state : LifecycleOutcome
  deriving DecidableEq, Repr

structure VerificationResult where
  satisfied : Bool
  remainingCount : Nat
  reason : Option String
  deriving DecidableEq, Repr

/-! ## Calls without the remote -/

/-- What the call returns or throws, nothing remote being asked. -/
def Connecting.result {α : Type} (x : Connecting α) : Except ConnectorError α :=
  (x.outcome false).1

theorem result_okOr {α : Type} (o : Option α) (e : ConnectorError) :
    (okOr o e).result = Guards.okOr o e := by
  cases o <;> rfl

theorem outcome_okOr {α : Type} (o : Option α) (e : ConnectorError) (mutated : Bool) :
    (okOr o e).outcome mutated = (Guards.okOr o e, mutated) := by
  cases o <;> rfl

theorem outcome_failIf (p : Prop) [Decidable p] (e : ConnectorError) (mutated : Bool) :
    (failIf p e).outcome mutated = (Guards.refuse p e, mutated) := by
  unfold failIf Guards.refuse
  split_ifs <;> rfl

end ForgetOps.Connector
