import ForgetOps.Library.Interference
import ForgetOps.Supabase.KeysetPagination
import ForgetOps.Supabase.TableErase

/-
  `erase` and `verify` of the Supabase connector on a project that others use as well
  (`agent/crates/connector-supabase/src/{erase,verify}.rs`).

  The awaits are effects. A transaction on a table takes effect at one instant. A deletion of objects
  that fails may have taken some of them; one that is answered by a success or by 404 leaves none,
  and the same holds of a deletion of the user. Between two awaits anybody may change the project.
-/

namespace ForgetOps.Connector

open CrashLogic
open Guards (refuse)

/-- The tables, the stored objects and the identifiers of the users. -/
structure Project where
  database : Database
  objects : List StorageObject
  users : List String

/-! ## Effects -/

/-- Where a transaction failed. -/
inductive TransactionFailure where
  | begin
  | query
  | commit
  deriving DecidableEq, Repr

/-- What the connector awaits, and the activity of others. -/
inductive RemoteCall where
  | eraseRows (table : TableMapping) (value : String)
  | countRows (table : TableMapping) (value : String)
  | listObjects (bucket : String) (pre : List Char) (after : String)
  | deleteObjects (bucket : String) (names : List String)
  | countObjects (bucket : String) (pre : List Char)
  | deleteUser (userId : String)
  | getUser (userId : String)
  | others

/-- An answer about objects or users is nothing where the request failed, else a status. -/
def RemoteCall.Answer : RemoteCall → Type
  | .eraseRows _ _ => Except TransactionFailure Nat
  | .countRows _ _ => Option Nat
  | .listObjects _ _ _ => Option (List String)
  | .deleteObjects _ _ => Option Nat
  | .countObjects _ _ => Option Nat
  | .deleteUser _ => Option Nat
  | .getUser _ => Option Nat
  | .others => Unit

/-- The statuses at which a deletion is taken to be done. -/
def isGone (status : Nat) : Bool := isSuccess status ∨ status = 404

namespace Project

variable (s : Project)

/-- A transaction that runs the statement of an erase. -/
def eraseRows (table : TableMapping) (value : String) (link : Link) :
    Except TransactionFailure Nat × Project :=
  if link.begins = false then (.error .begin, s)
  else
    match (table.statement value s.database).1.filter fun _ => link.answers with
    | none => (.error .query, s)
    | some (affected, left) =>
      if link.commitAnswered then (.ok affected, { s with database := left })
      else (.error .commit, if link.commitApplied then { s with database := left } else s)

def takeObjects (bucket : String) (names : List String) : Project :=
  { s with objects := Connector.deleteObjects s.objects bucket names }

def takeUser (userId : String) : Project := { s with users := s.users.filter (· ≠ userId) }

end Project

/-- What the project may answer, its names ordered by `before`; `others` says what else may
    happen. -/
def Project.environment (before : String → String → Bool) (others : Project → Project → Prop) :
    Env RemoteCall RemoteCall.Answer Project
  | s, .eraseRows table value, r, s' => ∃ link, (r, s') = s.eraseRows table value link
  | s, .countRows table value, r, s' => s' = s ∧
    (r = none ∨ r = s.database.countWhere table.name table.identityColumn value)
  | s, .listObjects bucket pre after, r, s' => s' = s ∧
    (r = none ∨ r = pageObjects before s.objects bucket pre after storageDeleteBatch)
  | s, .deleteObjects bucket names, r, s' =>
    (r.any isGone = true ∧ s' = s.takeObjects bucket names) ∨
      (r.any isGone = false ∧ ∃ taken ⊆ names, s' = s.takeObjects bucket taken)
  | s, .countObjects bucket pre, r, s' => s' = s ∧
    (r = none ∨ r = (selectObjects s.objects bucket pre).map List.length)
  | s, .deleteUser userId, r, s' => s' = s.takeUser userId ∨ (s' = s ∧ r.any isGone = false)
  | s, .getUser userId, r, s' => s' = s ∧ (r.any isSuccess = true → userId ∈ s.users) ∧
    (r = some 404 → userId ∉ s.users)
  | s, .others, _, s' => others s s'

abbrev Remote (α : Type) := ExceptT ConnectorError (Prog RemoteCall RemoteCall.Answer) α

def check {α : Type} (x : Except ConnectorError α) : Remote α := ExceptT.mk (pure x)

def ask (call : RemoteCall) : Remote call.Answer := ExceptT.lift (Prog.effect call)

/-! ## Erase -/

def TransactionFailure.toError : TransactionFailure → ConnectorError
  | .begin => remote "SUPABASE_ERASE_TRANSACTION_FAILED"
  | .query => remote "SUPABASE_ERASE_QUERY_FAILED"
  | .commit => uncertain "SUPABASE_ERASE_COMMIT_UNCERTAIN"

namespace SupabaseConnector

variable (c : SupabaseConnector) (subject : SubjectIdentity)

section Erase

variable (plan : ErasePlan)

def eraseTableAwait : Remote EraseResult := do
  let table ← check (c.tableForResource plan.resource).result
  check (refuse (plan.action ≠ table.proposedAction)
    (.invalidConfig "SUPABASE_PLAN_ACTION_MISMATCH"))
  let value ← check (table.subjectValue subject).result
  let executed ← ask (.eraseRows table value)
  let affectedCount ← check (executed.mapError TransactionFailure.toError)
  return { operationKey := plan.operationKey, outcome := table.outcome, affectedCount,
           reason := none }

def erasedObjects (affectedCount : Nat) : EraseResult where
  operationKey := plan.operationKey
  outcome := .deleted
  affectedCount := affectedCount
  reason := none

/-- The loop, for so many rounds; nothing is returned while it goes on. -/
def eraseBucketAwait (bucket : String) (pre : List Char) :
    Nat → String → Nat → Remote (Option EraseResult)
  | 0, _, _ => return none
  | rounds + 1, after, affectedCount => do
    let listed ← ask (.listObjects bucket pre after)
    let names ← check (Guards.okOr listed (remote "SUPABASE_STORAGE_DISCOVERY_FAILED"))
    if names = [] then
      return some (erasedObjects plan affectedCount)
    else
      let _url ← check (c.apiUrl ["storage", "v1", "object", bucket]).result
      let sent ← ask (.deleteObjects bucket names)
      let status ← check (Guards.okOr sent (uncertain "SUPABASE_STORAGE_DELETE_UNCERTAIN"))
      check (refuse (isSuccess status = false ∧ status ≠ 404)
        (destructiveHttpError status "SUPABASE_STORAGE_DELETE_FAILED"))
      let affectedCount := saturatingAdd affectedCount names.length
      if names.length < storageDeleteBatch then
        return some (erasedObjects plan affectedCount)
      else
        eraseBucketAwait bucket pre rounds (names.getLastD after) affectedCount

def eraseStorageAwait (rounds : Nat) : Remote (Option EraseResult) := do
  let storage ← check (c.storageForResource plan.resource).result
  check (refuse (plan.action ≠ .delete) (.invalidConfig "SUPABASE_PLAN_ACTION_MISMATCH"))
  let pre ← check (storage.subjectPrefix subject)
  eraseBucketAwait c plan storage.bucket pre rounds "" 0

def eraseAuthUserAwait : Remote EraseResult := do
  check (refuse (c.deleteAuthUser = false ∨ plan.action ≠ .delete)
    (.invalidConfig "SUPABASE_RESOURCE_NOT_MAPPED"))
  let userId ← check (stableUserId subject).result
  let _url ← check (c.apiUrl ["auth", "v1", "admin", "users", userId]).result
  let sent ← ask (.deleteUser userId)
  let status ← check (Guards.okOr sent (uncertain "SUPABASE_AUTH_DELETE_UNCERTAIN"))
  let affectedCount ← check (if isSuccess status then pure 1 else if status = 404 then pure 0
    else throw (destructiveHttpError status "SUPABASE_AUTH_DELETE_FAILED"))
  return erasedObjects plan affectedCount

def eraseSubjectAwait (context : ExecutionContext) (rounds : Nat) :
    Remote (Option EraseResult) := do
  check (refuse (context.dryRun = true ∨ trim context.idempotencyKey = "" ∨
    trim plan.operationKey = "") (.invalidConfig "SUPABASE_EXECUTION_CONTEXT_INVALID"))
  if plan.resource = "supabase:auth:user" then
    let result ← c.eraseAuthUserAwait subject plan
    return some result
  else if "supabase:storage:".toList.isPrefixOf plan.resource.toList then
    c.eraseStorageAwait subject plan rounds
  else
    let result ← c.eraseTableAwait subject plan
    return some result

end Erase

/-! ## Verification -/

section Verify

variable (expectation : VerificationExpectation)

def expectationMismatch : ConnectorError :=
  .invalidConfig "SUPABASE_VERIFICATION_EXPECTATION_MISMATCH"

def verifyTableAwait : Remote VerificationResult := do
  let table ← check (c.tableForResource expectation.resource).result
  check (refuse (expectation.state ≠ table.outcome) expectationMismatch)
  let value ← check (table.subjectValue subject).result
  let counted ← ask (.countRows table value)
  let remaining ← check (Guards.okOr counted (remote "SUPABASE_VERIFY_QUERY_FAILED"))
  return verificationResult remaining

def verifyStorageAwait : Remote VerificationResult := do
  check (refuse (expectation.state ≠ .deleted) expectationMismatch)
  let storage ← check (c.storageForResource expectation.resource).result
  let pre ← check (storage.subjectPrefix subject)
  let counted ← ask (.countObjects storage.bucket pre)
  let remaining ← check (Guards.okOr counted (remote "SUPABASE_STORAGE_VERIFY_FAILED"))
  return verificationResult remaining

def verifyAuthUserAwait : Remote VerificationResult := do
  check (refuse (c.deleteAuthUser = false ∨ expectation.state ≠ .deleted) expectationMismatch)
  let userId ← check (stableUserId subject).result
  let _url ← check (c.apiUrl ["auth", "v1", "admin", "users", userId]).result
  let answered ← ask (.getUser userId)
  let status ← check (Guards.okOr answered (remote "SUPABASE_AUTH_VERIFY_FAILED"))
  check (if status = 404 then pure (verificationResult 0)
    else if isSuccess status then pure (verificationResult 1)
    else throw (httpError status "SUPABASE_AUTH_VERIFY_FAILED"))

def verifySubjectAwait : Remote VerificationResult :=
  if expectation.resource = "supabase:auth:user" then
    c.verifyAuthUserAwait subject expectation
  else if "supabase:storage:".toList.isPrefixOf expectation.resource.toList then
    c.verifyStorageAwait subject expectation
  else
    c.verifyTableAwait subject expectation

end Verify

end SupabaseConnector

end ForgetOps.Connector
