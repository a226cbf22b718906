import Mathlib.Tactic

/-
  Destructive erases: `AdapterHttpConnector` (`agent/crates/adapter-http/src/lib.rs`) and the
  Supabase connector (`agent/crates/connector-supabase/src/{erase,config,lib}.rs`), with the errors
  of `agent/crates/connector-sdk/src/lib.rs`.

  What the remote does is an argument: whether it applied the change it was sent, and what of its
  answer arrived. `Connecting` carries one bit of state, whether anything remote has been mutated.
  JSON, URLs and the MAC are functions of `Libraries`; the texts of queries, which only the remote
  reads, are left out. A transaction that was not committed has changed nothing.
-/

namespace ForgetOps.Connector

/-! ## Errors and plans -/

inductive ConnectorErrorKind where
  | invalidConfig
  | permissionDenied
  | rateLimited
  | unsupported
  | remote
  | uncertain
  | invalidResponse
  deriving DecidableEq, Repr

structure ConnectorError where
  kind : ConnectorErrorKind
  code : String
  deriving DecidableEq, Repr

namespace ConnectorError

def invalidConfig (code : String) : ConnectorError := ⟨.invalidConfig, code⟩

def invalidResponse (code : String) : ConnectorError := ⟨.invalidResponse, code⟩

def isUncertain (e : ConnectorError) : Bool := e.kind = .uncertain

end ConnectorError

inductive ProposedAction where
  | delete
  | anonymize
  | export
  | retainByPolicy
  | unsupported
  | needsReview
  deriving DecidableEq, Repr

inductive LifecycleOutcome where
  | deleted
  | anonymized
  | retainedByPolicy
  | unsupported
  | needsReview
  deriving DecidableEq, Repr

structure SubjectIdentity where
  applicationUserId : Option String
  email : Option String
  deriving DecidableEq, Repr

structure ErasePlan where
  resource : String
  operationKey : String
  action : ProposedAction
  deriving DecidableEq, Repr

structure ExecutionContext where
  requestId : String
  attemptId : String
  stepId : String
  idempotencyKey : String
  dryRun : Bool
  deriving DecidableEq, Repr

structure EraseResult where
  operationKey : String
  outcome : LifecycleOutcome
  affectedCount : Nat
  reason : Option String
  deriving DecidableEq, Repr

/-- A call that may throw and that keeps whether anything remote has been mutated. -/
abbrev Connecting (α : Type) := ExceptT ConnectorError (StateM Bool) α

/-- What the call returns or throws, and whether it mutated anything. -/
def Connecting.outcome {α : Type} (x : Connecting α) (mutated : Bool) :
    Except ConnectorError α × Bool :=
  x.run.run mutated

/-- `if (c) return Err(e);`. -/
def failIf (c : Prop) [Decidable c] (e : ConnectorError) : Connecting Unit :=
  if c then throw e else pure ()

/-- `option.ok_or(e)?`. -/
def okOr {α : Type} (o : Option α) (e : ConnectorError) : Connecting α :=
  match o with
  | some a => return a
  | none => throw e

/-- The remote has the request, and applies it or not. -/
def deliver (applied : Bool) : Connecting Unit := modify (· || applied)

/-! ## HTTP -/

/-- `status.is_success()`. -/
def isSuccess (status : Nat) : Bool := 200 ≤ status ∧ status ≤ 299

/-- `status.is_server_error()`. -/
def isServerError (status : Nat) : Bool := 500 ≤ status ∧ status ≤ 599

structure HttpResponse where
  status : Nat
  /-- The chunks of the body; `none` is a chunk that fails to arrive. -/
  body : List (Option (List UInt8))
  deriving DecidableEq, Repr

/-- One request: whether the remote applied it, and its response, if the head of one arrived. -/
structure Exchange where
  applied : Bool
  response : Option HttpResponse
  deriving DecidableEq, Repr

/-! ## The HTTP adapter -/

structure AdapterSubject where
  userId : Option String
  email : Option String
  deriving DecidableEq, Repr

structure EraseRequest where
  subject : AdapterSubject
  resource : String
  plan : ErasePlan
  context : ExecutionContext
  deriving DecidableEq, Repr

structure SignatureEnvelope where
  bodyDigest : String
  contentType : String
  method : String
  nonce : String
  path : String
  timestamp : String
  messageType : String
  version : Nat
  deriving DecidableEq, Repr

/-- The functions of other crates; they answer nothing where the source has an error. -/
structure Libraries where
  toVec : EraseRequest → Option (List UInt8)
  fromSlice : List UInt8 → Option EraseResult
  /-- `base_url.join(path)`. -/
  joinUrl : String → Option String
  /-- The canonical form of the envelope under the MAC, encoded. -/
  mac : List UInt8 → SignatureEnvelope → Option String
  hexDigest : List UInt8 → String

/-- A connector as its constructors leave it. -/
structure AdapterHttpConnector where
  libraries : Libraries
  secret : List UInt8
  maxResponseBytes : Nat
  secret_length : 32 ≤ secret.length
  maxResponseBytes_pos : 0 < maxResponseBytes

def signAdapterRequest (libraries : Libraries) (secret : List UInt8)
    (method normalizedPath timestamp nonce contentType : String) (body : List UInt8) :
    Connecting String := do
  failIf (secret.length < 32 ∨ method ≠ method.toUpper ∨ normalizedPath.toList.head? ≠ some '/' ∨
    nonce.utf8ByteSize < 16) (.invalidConfig "ADAPTER_SIGNATURE_INPUT_INVALID")
  let envelope : SignatureEnvelope :=
    { bodyDigest := "sha256:" ++ libraries.hexDigest body, contentType, method, nonce,
      path := normalizedPath, timestamp, messageType := "forgetops.adapter-request", version := 1 }
  okOr (libraries.mac secret envelope) (.invalidConfig "ADAPTER_SIGNATURE_CANONICALIZATION_FAILED")

def classifyStatus (status : Nat) : Connecting Unit :=
  if isSuccess status then return ()
  else
    let kind : ConnectorErrorKind :=
      if status = 401 ∨ status = 403 then .permissionDenied
      else if status = 429 then .rateLimited
      else if status = 501 then .unsupported
      else if isServerError status then .remote
      else .invalidResponse
    throw ⟨kind, "ADAPTER_HTTP_ERROR"⟩

/-- What `send` does before the request leaves. -/
def AdapterHttpConnector.prepare (c : AdapterHttpConnector) (path timestamp nonce : String)
    (payload : EraseRequest) : Connecting Unit := do
  let body ← okOr (c.libraries.toVec payload) (.invalidConfig "ADAPTER_REQUEST_INVALID")
  failIf (body.length > c.maxResponseBytes) (.invalidConfig "ADAPTER_REQUEST_TOO_LARGE")
  let _signature ← signAdapterRequest c.libraries c.secret "POST" path timestamp nonce
    "application/json" body
  let _url ← okOr (c.libraries.joinUrl path) (.invalidConfig "ADAPTER_URL_INVALID")
  return ()

def AdapterHttpConnector.send (c : AdapterHttpConnector) (path timestamp nonce : String)
    (payload : EraseRequest) (destructive : Bool) (exchange : Exchange) :
    Connecting HttpResponse := do
  c.prepare path timestamp nonce payload
  deliver exchange.applied
  let response ← okOr exchange.response
    ⟨if destructive then .uncertain else .remote, "ADAPTER_REQUEST_FAILED"⟩
  classifyStatus response.status
  return response

/-- The body, read chunk by chunk up to the limit. -/
def readBounded (maxBytes : Nat) : List UInt8 → List (Option (List UInt8)) → Connecting (List UInt8)
  | bytes, [] => return bytes
  | _, none :: _ => throw (.invalidResponse "ADAPTER_RESPONSE_STREAM_FAILED")
  | bytes, some chunk :: chunks => do
    failIf (bytes.length + chunk.length > maxBytes) (.invalidResponse "ADAPTER_RESPONSE_TOO_LARGE")
    readBounded maxBytes (bytes ++ chunk) chunks

def AdapterHttpConnector.postJson (c : AdapterHttpConnector) (path timestamp nonce : String)
    (payload : EraseRequest) (destructive : Bool) (exchange : Exchange) :
    Connecting EraseResult := do
  let response ← c.send path timestamp nonce payload destructive exchange
  let body ← readBounded c.maxResponseBytes [] response.body
  okOr (c.libraries.fromSlice body) (.invalidResponse "ADAPTER_RESPONSE_INVALID")

/-- The request of an erase. -/
def eraseRequest (subject : SubjectIdentity) (plan : ErasePlan) (context : ExecutionContext) :
    EraseRequest where
  subject := { userId := subject.applicationUserId, email := subject.email }
  resource := plan.resource
  plan := plan
  context := context

def AdapterHttpConnector.erase (c : AdapterHttpConnector) (timestamp nonce : String)
    (subject : SubjectIdentity) (plan : ErasePlan) (context : ExecutionContext)
    (exchange : Exchange) : Connecting EraseResult :=
  c.postJson "/forgetops/v1/erase" timestamp nonce (eraseRequest subject plan context) true exchange

/-! ## The Supabase connector -/

inductive SubjectField where
  | applicationUserId
  | email
  deriving DecidableEq, Repr

inductive TableAction where
  | delete
  | anonymize
  deriving DecidableEq, Repr

structure TableMapping where
  schema : String
  table : String
  identityColumn : String
  subjectField : SubjectField
  action : TableAction
  fields : List String
  deriving DecidableEq, Repr

structure StorageMapping where
  bucket : String
  templatePrefix : String
  deriving DecidableEq, Repr

/-- The API client: the URL of a path, nothing where it has none. -/
structure SupabaseApi where
  url : List String → Option String

structure SupabaseConnector where
  tables : List TableMapping
  storage : List StorageMapping
  deleteAuthUser : Bool
  api : Option SupabaseApi

/-- The white space of Unicode. -/
def isWhitespace (c : Char) : Bool :=
  (9 ≤ c.toNat ∧ c.toNat ≤ 13) ∨ (8192 ≤ c.toNat ∧ c.toNat ≤ 8202) ∨
    c.toNat ∈ [32, 133, 160, 5760, 8232, 8233, 8239, 8287, 12288]

/-- `s.trim()`. -/
def trim (s : String) : String :=
  String.ofList ((s.toList.dropWhile isWhitespace).reverse.dropWhile isWhitespace).reverse

/-- `value.map(str::trim).filter(|value| !value.is_empty())`. -/
def nonEmpty (value : Option String) : Option String := (value.map trim).filter (· ≠ "")

def TableMapping.localReference (t : TableMapping) : String :=
  "supabase:table:" ++ t.schema ++ "." ++ t.table

def TableMapping.proposedAction (t : TableMapping) : ProposedAction :=
  match t.action with
  | .delete => .delete
  | .anonymize => .anonymize

def TableMapping.subjectValue (t : TableMapping) (subject : SubjectIdentity) : Connecting String :=
  okOr (nonEmpty (match t.subjectField with
    | .applicationUserId => subject.applicationUserId
    | .email => subject.email)) (.invalidConfig "SUPABASE_SUBJECT_FIELD_REQUIRED")

def StorageMapping.localReference (s : StorageMapping) : String := "supabase:storage:" ++ s.bucket

def stableUserId (subject : SubjectIdentity) : Connecting String :=
  okOr (nonEmpty subject.applicationUserId) (.invalidConfig "SUPABASE_STABLE_USER_ID_REQUIRED")

namespace SupabaseConnector

def tableForResource (c : SupabaseConnector) (resource : String) : Connecting TableMapping :=
  okOr (c.tables.find? (·.localReference = resource))
    (.invalidConfig "SUPABASE_RESOURCE_NOT_MAPPED")

def storageForResource (c : SupabaseConnector) (resource : String) : Connecting StorageMapping :=
  okOr (c.storage.find? (·.localReference = resource))
    (.invalidConfig "SUPABASE_RESOURCE_NOT_MAPPED")

/-- `self.api()?.url(segments)?`. -/
def apiUrl (c : SupabaseConnector) (segments : List String) : Connecting String := do
  let api ← okOr c.api (.invalidConfig "SUPABASE_API_CREDENTIALS_REQUIRED")
  okOr (api.url segments) (.invalidConfig "SUPABASE_API_URL_INVALID")

end SupabaseConnector

def uncertain (code : String) : ConnectorError := ⟨.uncertain, code⟩

def remote (code : String) : ConnectorError := ⟨.remote, code⟩

def destructiveHttpError (status : Nat) (code : String) : ConnectorError :=
  let kind : ConnectorErrorKind :=
    if status = 401 ∨ status = 403 then .permissionDenied
    else if status = 429 then .rateLimited
    else if isServerError status then .uncertain
    else .invalidResponse
  ⟨kind, code⟩

/-- A transaction on the database: whether it begins, the rows its statement affects, whether the
    commit is answered, and whether an unanswered commit took effect. -/
structure TableRemote where
  begins : Bool
  affected : Option Nat
  commitAnswered : Bool
  commitApplied : Bool
  deriving DecidableEq, Repr

/-- One round of the loop over a bucket: the names the database answers, and the deletion. -/
structure Page where
  names : Option (List String)
  deletion : Exchange
  deriving DecidableEq, Repr

/-- What the remote does during one erase. -/
structure SupabaseRemote where
  table : TableRemote
  pages : List Page
  user : Exchange
  deriving DecidableEq, Repr

def storageDeleteBatch : Nat := 1000

/-- `n.saturating_add(k)` of `u64`. -/
def saturatingAdd (n k : Nat) : Nat := min (n + k) (2 ^ 64 - 1)

namespace SupabaseConnector

def eraseTable (c : SupabaseConnector) (subject : SubjectIdentity) (plan : ErasePlan)
    (database : TableRemote) : Connecting EraseResult := do
  let table ← c.tableForResource plan.resource
  failIf (plan.action ≠ table.proposedAction) (.invalidConfig "SUPABASE_PLAN_ACTION_MISMATCH")
  let _value ← table.subjectValue subject
  failIf (database.begins = false) (remote "SUPABASE_ERASE_TRANSACTION_FAILED")
  let outcome : LifecycleOutcome :=
    match table.action with
    | .delete => .deleted
    | .anonymize => .anonymized
  let affectedCount ← okOr database.affected (remote "SUPABASE_ERASE_QUERY_FAILED")
  deliver (database.commitAnswered || database.commitApplied)
  failIf (database.commitAnswered = false) (uncertain "SUPABASE_ERASE_COMMIT_UNCERTAIN")
  return { operationKey := plan.operationKey, outcome, affectedCount, reason := none }

/-- The loop, over the rounds the remote has answered; nothing is returned while it goes on. -/
def eraseBucket (c : SupabaseConnector) (bucket : String) (plan : ErasePlan) :
    Nat → List Page → Connecting (Option EraseResult)
  | _, [] => return none
  | affectedCount, page :: pages => do
    let names ← okOr page.names (remote "SUPABASE_STORAGE_DISCOVERY_FAILED")
    if names = [] then
      return some { operationKey := plan.operationKey, outcome := .deleted, affectedCount,
                    reason := none }
    else
      let _url ← c.apiUrl ["storage", "v1", "object", bucket]
      deliver page.deletion.applied
      let response ← okOr page.deletion.response (uncertain "SUPABASE_STORAGE_DELETE_UNCERTAIN")
      failIf (isSuccess response.status = false ∧ response.status ≠ 404)
        (destructiveHttpError response.status "SUPABASE_STORAGE_DELETE_FAILED")
      let affectedCount := saturatingAdd affectedCount names.length
      if names.length < storageDeleteBatch then
        return some { operationKey := plan.operationKey, outcome := .deleted, affectedCount,
                      reason := none }
      else
        c.eraseBucket bucket plan affectedCount pages

def eraseStorage (c : SupabaseConnector) (subject : SubjectIdentity) (plan : ErasePlan)
    (pages : List Page) : Connecting (Option EraseResult) := do
  let storage ← c.storageForResource plan.resource
  failIf (plan.action ≠ .delete) (.invalidConfig "SUPABASE_PLAN_ACTION_MISMATCH")
  let _userId ← stableUserId subject
  c.eraseBucket storage.bucket plan 0 pages

def eraseAuthUser (c : SupabaseConnector) (subject : SubjectIdentity) (plan : ErasePlan)
    (exchange : Exchange) : Connecting EraseResult := do
  failIf (c.deleteAuthUser = false ∨ plan.action ≠ .delete)
    (.invalidConfig "SUPABASE_RESOURCE_NOT_MAPPED")
  let userId ← stableUserId subject
  let _url ← c.apiUrl ["auth", "v1", "admin", "users", userId]
  deliver exchange.applied
  let response ← okOr exchange.response (uncertain "SUPABASE_AUTH_DELETE_UNCERTAIN")
  let affectedCount ←
    if isSuccess response.status then pure 1
    else if response.status = 404 then pure 0
    else throw (destructiveHttpError response.status "SUPABASE_AUTH_DELETE_FAILED")
  return { operationKey := plan.operationKey, outcome := .deleted, affectedCount, reason := none }

def eraseSubject (c : SupabaseConnector) (subject : SubjectIdentity) (plan : ErasePlan)
    (context : ExecutionContext) (remote : SupabaseRemote) : Connecting (Option EraseResult) := do
  failIf (context.dryRun = true ∨ trim context.idempotencyKey = "" ∨ trim plan.operationKey = "")
    (.invalidConfig "SUPABASE_EXECUTION_CONTEXT_INVALID")
  if plan.resource = "supabase:auth:user" then
    some <$> c.eraseAuthUser subject plan remote.user
  else if "supabase:storage:".toList.isPrefixOf plan.resource.toList then
    c.eraseStorage subject plan remote.pages
  else
    some <$> c.eraseTable subject plan remote.table

end SupabaseConnector

end ForgetOps.Connector
