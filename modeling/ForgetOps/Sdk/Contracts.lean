import ForgetOps.Agent.ConnectorSdk
import ForgetOps.Library.Json

/-
  The request schemas of the TypeScript SDK (`sdk/typescript/src/contracts.ts`).

  A schema reads a value or refuses it; its objects take no other members. The strings come from a
  well-formed JSON text, so that they are strings of characters; their length is counted in the
  units of UTF-16, and `trim` takes away the white space of ECMAScript, in which U+FEFF is and
  U+0085 is not.
-/

namespace ForgetOps.AdapterSdk

open Connector

/-! ## Strings -/

/-- `string.length`. -/
def utf16Length (s : String) : Nat :=
  (s.toList.map fun c => if c.toNat < 0x10000 then 1 else 2).sum

/-- White space and line terminators of ECMAScript. -/
def isEcmaWhitespace (c : Char) : Bool :=
  (9 ≤ c.toNat ∧ c.toNat ≤ 13) ∨ (8192 ≤ c.toNat ∧ c.toNat ≤ 8202) ∨
    c.toNat ∈ [32, 160, 5760, 8232, 8233, 8239, 8287, 12288, 65279]

/-- `string.trim()`. -/
def ecmaTrim (s : String) : String :=
  String.ofList
    ((s.toList.dropWhile isEcmaWhitespace).reverse.dropWhile isEcmaWhitespace).reverse

/-- `z.string().trim().min(1).max(max)`. -/
def trimmedText (max : Nat) (v : Json String) : Option String :=
  v.asString.bind fun s =>
    if 1 ≤ utf16Length (ecmaTrim s) ∧ utf16Length (ecmaTrim s) ≤ max then some (ecmaTrim s)
    else none

/-- `/^[A-Za-z][A-Za-z0-9_-]*$/`. -/
def isResourceName (s : String) : Bool :=
  s.toList.head?.any Char.isAlpha ∧ s.toList.all fun c => c.isAlphanum ∨ c = '_' ∨ c = '-'

def resourceNameSchema (v : Json String) : Option String :=
  v.asString.filter fun s => 1 ≤ utf16Length s ∧ utf16Length s ≤ 128 ∧ isResourceName s

/-- `z.enum(…)`, of the values with these names. -/
def enumSchema {α : Type} (name : α → String) (values : List α) (v : Json String) : Option α :=
  v.asString.bind fun s => values.find? fun a => name a = s

/-- `z.array(item).min(1).max(max)`. -/
def arraySchema {α : Type} (item : Json String → Option α) (max : Nat) (v : Json String) :
    Option (List α) :=
  (v.asArray item).filter fun items => 1 ≤ items.length ∧ items.length ≤ max

/-! ## Names on the wire -/

def actionName : ProposedAction → String
  | .delete => "delete"
  | .anonymize => "anonymize"
  | .export => "export"
  | .retainByPolicy => "retain_by_policy"
  | .unsupported => "unsupported"
  | .needsReview => "needs_review"

def outcomeName : LifecycleOutcome → String
  | .deleted => "deleted"
  | .anonymized => "anonymized"
  | .retainedByPolicy => "retained_by_policy"
  | .unsupported => "unsupported"
  | .needsReview => "needs_review"

def riskName : RiskLevel → String
  | .low => "low"
  | .medium => "medium"
  | .high => "high"

/-! ## Requests -/

structure SubjectIdentity where
  userId : Option String
  email : Option String
  deriving DecidableEq, Repr

structure EraseStep where
  operationKey : String
  action : ProposedAction
  deriving DecidableEq, Repr

/-- What a request means to the adapter. -/
inductive AdapterRequestBody where
  | health
  | discover (subject : SubjectIdentity) (request : DiscoveryRequest)
  | export (subject : SubjectIdentity) (resources : List String)
  | erase (subject : SubjectIdentity) (resource : String) (plan : EraseStep)
      (context : ExecutionContext)
  | verify (subject : SubjectIdentity) (resource : String) (state : LifecycleOutcome)
  deriving DecidableEq, Repr

open Json

def subjectIdentitySchema : Json String → Option SubjectIdentity :=
  strict ["userId", "email"] fun members => do
    let userId ← present (trimmedText 512) "userId" members
    let email ← present (trimmedText 512) "email" members
    if userId.isSome ∨ email.isSome then some ⟨userId, email⟩ else none

def requestIdSchema : Json String → Option String := trimmedText 256

def healthRequestSchema : Json String → Option AdapterRequestBody :=
  strict [] fun _ => some .health

def discoverRequestSchema : Json String → Option AdapterRequestBody :=
  strict ["subject", "request"] fun members => do
    let subject ← required subjectIdentitySchema "subject" members
    let request ← required (strict ["requestId", "requestType"] fun request => do
      let requestId ← required requestIdSchema "requestId" request
      let requestType ← required (enumSchema id ["access", "delete"]) "requestType" request
      return DiscoveryRequest.mk requestId requestType) "request" members
    return .discover subject request

def exportRequestSchema : Json String → Option AdapterRequestBody :=
  strict ["subject", "selection"] fun members => do
    let subject ← required subjectIdentitySchema "subject" members
    let resources ← required (strict ["resources"] fun selection =>
      required (arraySchema resourceNameSchema 128) "resources" selection) "selection" members
    return .export subject resources

def eraseStepSchema : Json String → Option EraseStep :=
  strict ["operationKey", "action"] fun plan => do
    let operationKey ← required (trimmedText 512) "operationKey" plan
    let action ← required (enumSchema actionName
      [.delete, .anonymize, .retainByPolicy, .unsupported, .needsReview]) "action" plan
    return ⟨operationKey, action⟩

def executionContextSchema : Json String → Option ExecutionContext :=
  strict ["requestId", "attemptId", "stepId", "idempotencyKey", "dryRun"] fun context => do
    let requestId ← required requestIdSchema "requestId" context
    let attemptId ← required requestIdSchema "attemptId" context
    let stepId ← required requestIdSchema "stepId" context
    let idempotencyKey ← required (trimmedText 512) "idempotencyKey" context
    let dryRun ← required asBool "dryRun" context
    return ⟨requestId, attemptId, stepId, idempotencyKey, dryRun⟩

def eraseRequestSchema : Json String → Option AdapterRequestBody :=
  strict ["subject", "resource", "plan", "context"] fun members => do
    let subject ← required subjectIdentitySchema "subject" members
    let resource ← required resourceNameSchema "resource" members
    let plan ← required eraseStepSchema "plan" members
    let context ← required executionContextSchema "context" members
    return .erase subject resource plan context

def verifyRequestSchema : Json String → Option AdapterRequestBody :=
  strict ["subject", "resource", "expectation"] fun members => do
    let subject ← required subjectIdentitySchema "subject" members
    let resource ← required resourceNameSchema "resource" members
    let state ← required (strict ["state"] fun expectation =>
      required (enumSchema outcomeName
        [.deleted, .anonymized, .retainedByPolicy, .unsupported, .needsReview]) "state"
        expectation) "expectation" members
    return .verify subject resource state

end ForgetOps.AdapterSdk
