import ForgetOps.Library.JsonStringify
import ForgetOps.Sdk.Contracts

/-
  The answers of the TypeScript adapter to health, discover, erase and verify
  (`sdk/typescript/src/create-adapter.ts`), and how `AdapterHttpConnector` reads them
  (`agent/crates/adapter-http/src/lib.rs`, `agent/crates/connector-sdk/src/lib.rs`).

  The results of the resources are copied member by member, an absent one staying absent; their
  strings are JavaScript's. The derived deserializers take a missing or null member for an optional
  field only, and a string only where all its units pair up.
-/

namespace ForgetOps.AdapterSdk

open Connector (ProposedAction RiskLevel LifecycleOutcome)
open Json

/-- A safe integer that is not negative. -/
abbrev Count := { n : Nat // n < 2 ^ 53 }

structure HealthCheckResult where
  healthy : Bool
  code : Option JsString
  deriving DecidableEq, Repr

structure DiscoveryResult where
  estimatedCount : Count
  proposedAction : ProposedAction
  risk : RiskLevel
  dependencies : Option (List JsString)
  retentionReason : Option JsString
  localReference : Option JsString
  deriving DecidableEq, Repr

structure EraseResult where
  operationKey : JsString
  affectedCount : Count
  outcome : LifecycleOutcome
  reason : Option JsString
  deriving DecidableEq, Repr

structure VerificationResult where
  satisfied : Bool
  remainingCount : Count
  reason : Option JsString
  deriving DecidableEq, Repr

/-- What the resources answer to a request; a resource without `healthCheck` answers nothing. -/
inductive AdapterAnswer where
  | health (checks : List (String × Option HealthCheckResult))
  | discover (items : List (String × DiscoveryResult))
  | erase (result : EraseResult)
  | verify (result : VerificationResult)
  deriving DecidableEq, Repr

/-! ## Writing -/

def text (s : String) : Json JsString := .string (jsString s)

/-- `(await resource.healthCheck?.(…)) ?? { healthy: true }`. -/
def checked (result : Option HealthCheckResult) : HealthCheckResult := result.getD ⟨true, none⟩

def healthCheckObject (check : String × Option HealthCheckResult) : Json JsString :=
  .object ([("name", text check.1), ("healthy", .bool (checked check.2).healthy)] ++
    memberIf "code" .string (checked check.2).code)

/-- `discovered.localReference ?? resource.name`. -/
def localReference (item : String × DiscoveryResult) : JsString :=
  item.2.localReference.getD (jsString item.1)

def discoveryItemObject (item : String × DiscoveryResult) : Json JsString :=
  .object ([("resourceType", text item.1), ("estimatedCount", .number item.2.estimatedCount.val),
      ("proposedAction", text (actionName item.2.proposedAction)),
      ("risk", text (riskName item.2.risk)), ("localReference", .string (localReference item))] ++
    (memberIf "dependencies" (fun ds => .array (ds.map .string)) item.2.dependencies ++
      memberIf "retentionReason" .string item.2.retentionReason))

def AdapterAnswer.response : AdapterAnswer → Json JsString
  | .health checks =>
    .object [("healthy", .bool (checks.all fun check => (checked check.2).healthy)),
      ("checks", .array (checks.map healthCheckObject))]
  | .discover items => .object [("items", .array (items.map discoveryItemObject))]
  | .erase result =>
    .object ([("operationKey", .string result.operationKey),
        ("affectedCount", .number result.affectedCount.val),
        ("outcome", text (outcomeName result.outcome))] ++
      memberIf "reason" .string result.reason)
  | .verify result =>
    .object ([("satisfied", .bool result.satisfied),
        ("remainingCount", .number result.remainingCount.val)] ++
      memberIf "reason" .string result.reason)

/-- The body of `Response.json(…)`. -/
def AdapterAnswer.body (answer : AdapterAnswer) : List UInt8 := encode answer.response

end ForgetOps.AdapterSdk

namespace ForgetOps.AdapterHttp

open Connector AdapterSdk Json

/-! ## Reading -/

/-- A `String`. -/
def asText (v : Json JsString) : Option String :=
  v.asString.bind fun us => (Utf16.text us).map String.ofList

theorem asText_iff {us : JsString} {s : String} :
    asText (.string us) = some s ↔ jsString s = us := by
  unfold asText asString jsString
  rw [Option.bind_some, Option.map_eq_some_iff]
  constructor
  · rintro ⟨cs, hcs, rfl⟩
    rw [String.toList_ofList]
    exact Utf16.text_iff.mp hcs
  · intro h
    exact ⟨s.toList, Utf16.text_iff.mpr h, String.ofList_toList⟩

theorem jsString_injective {s t : String} (h : jsString s = jsString t) : s = t := by
  have hs := asText_iff.mpr h
  rw [asText_iff.mpr rfl] at hs
  exact (Option.some.inj hs).symm

theorem asText_text (s : String) : asText (text s) = some s := asText_iff.mpr rfl

/-- An enumeration of these values, by its names. -/
def asName {α : Type} (name : α → String) (values : List α) (v : Json JsString) : Option α :=
  (asText v).bind fun s => values.find? fun a => name a = s

def asAction : Json JsString → Option ProposedAction :=
  asName actionName [.delete, .anonymize, .export, .retainByPolicy, .unsupported, .needsReview]

def asOutcome : Json JsString → Option LifecycleOutcome :=
  asName outcomeName [.deleted, .anonymized, .retainedByPolicy, .unsupported, .needsReview]

def asRisk : Json JsString → Option RiskLevel := asName riskName [.low, .medium, .high]

def asHealthCheck : Json JsString → Option HealthCheck :=
  asObject fun members => do
    let name ← required asText "name" members
    let healthy ← required asBool "healthy" members
    let code ← optional asText "code" members
    return ⟨name, healthy, code⟩

def asHealthStatus : Json JsString → Option HealthStatus :=
  asObject fun members => do
    let healthy ← required asBool "healthy" members
    let checks ← required (asArray asHealthCheck) "checks" members
    return ⟨healthy, checks⟩

def asDiscoveryItem : Json JsString → Option DiscoveryItem :=
  asObject fun members => do
    let localReference ← required asText "localReference" members
    let resourceType ← required asText "resourceType" members
    let proposedAction ← required asAction "proposedAction" members
    let estimatedCount ← required (asUnsigned 64) "estimatedCount" members
    let risk ← required asRisk "risk" members
    let dependencies ← required (asArray asText) "dependencies" members
    let retentionReason ← optional asText "retentionReason" members
    return ⟨localReference, resourceType, proposedAction, estimatedCount, risk, dependencies,
      retentionReason⟩

def asDiscoveryResult : Json JsString → Option Connector.DiscoveryResult :=
  asObject fun members => do
    let items ← required (asArray asDiscoveryItem) "items" members
    return ⟨items⟩

def asEraseResult : Json JsString → Option Connector.EraseResult :=
  asObject fun members => do
    let operationKey ← required asText "operationKey" members
    let outcome ← required asOutcome "outcome" members
    let affectedCount ← required (asUnsigned 64) "affectedCount" members
    let reason ← optional asText "reason" members
    return ⟨operationKey, outcome, affectedCount, reason⟩

def asVerificationResult : Json JsString → Option Connector.VerificationResult :=
  asObject fun members => do
    let satisfied ← required asBool "satisfied" members
    let remainingCount ← required (asUnsigned 64) "remainingCount" members
    let reason ← optional asText "reason" members
    return ⟨satisfied, remainingCount, reason⟩

/-- What a response is read as. -/
inductive Received where
  | health (status : HealthStatus)
  | discover (result : Connector.DiscoveryResult)
  | erase (result : Connector.EraseResult)
  | verify (result : Connector.VerificationResult)
  deriving DecidableEq, Repr

/-- The deserializer of the route that gave the answer. -/
def readAnswer : AdapterAnswer → Json JsString → Option Received
  | .health _, v => (asHealthStatus v).map .health
  | .discover _, v => (asDiscoveryResult v).map .discover
  | .erase _, v => (asEraseResult v).map .erase
  | .verify _, v => (asVerificationResult v).map .verify

/-- `post_json`, from the chunks of the body on. -/
def receive (maxResponseBytes : Nat) (fromSlice : List UInt8 → Option (Json JsString))
    (answer : AdapterAnswer) (chunks : List (List UInt8)) : Except ConnectorError Received := do
  let body ← (readBounded maxResponseBytes [] (chunks.map some)).result
  Guards.okOr ((fromSlice body).bind (readAnswer answer))
    (.invalidResponse "ADAPTER_RESPONSE_INVALID")

end ForgetOps.AdapterHttp
