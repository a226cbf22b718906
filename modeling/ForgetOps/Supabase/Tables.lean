import ForgetOps.Supabase.Storage
import ForgetOps.Library.Rows

/-
  The tables of a subject (`agent/crates/connector-supabase/src/{discover,erase,verify}.rs`).

  A database is its tables under schema and name, a row the texts of its columns. A statement is
  refused where a table or a column is missing, where it sets no column or one twice, where it
  would null a column that may not be, and where the value is no text of the database. Nothing else
  changes a row: there are no triggers and no cascades.
-/

namespace ForgetOps.Connector

open Guards

/-! ## The database -/

/-- The text of each column's value, nothing where the value is null. -/
abbrev Row := String → Option String

structure Relation where
  columns : List String
  notNull : List String
  rows : List Row

abbrev Database := String × String → Option Relation

/-- `where column::text = $1`. -/
def hasText (column value : String) (row : Row) : Bool := row column = some value

/-- `set field = null, …`. -/
def setNull (fields : List String) (row : Row) : Row :=
  fun column => if column ∈ fields then none else row column

namespace Database

/-- The table a statement selects rows of by a text. -/
def relation (db : Database) (name : String × String) (column value : String) : Option Relation :=
  ((textParameter value.toList).bind fun _ => db name).filter fun r => column ∈ r.columns

/-- `select count(*)::bigint from name where column::text = $1`. -/
def countWhere (db : Database) (name : String × String) (column value : String) : Option Nat :=
  (db.relation name column value).map fun r => r.rows.countP (hasText column value)

def setRows (db : Database) (name : String × String) (r : Relation) (rows : List Row) : Database :=
  Function.update db name (some { r with rows })

/-- `delete from name where column::text = $1`: the rows it took and what it leaves. -/
def deleteWhere (db : Database) (name : String × String) (column value : String) :
    Option (Nat × Database) :=
  (db.relation name column value).map fun r =>
    (r.rows.countP (hasText column value),
      db.setRows name r (Rows.deleteWhere (hasText column value) r.rows))

/-- `update name set field = null, … where column::text = $1`. -/
def nullWhere (db : Database) (name : String × String) (fields : List String)
    (column value : String) : Option (Nat × Database) :=
  ((db.relation name column value).filter fun r =>
    fields ≠ [] ∧ fields.Nodup ∧ (∀ field ∈ fields, field ∈ r.columns) ∧
      (r.rows.countP (hasText column value) = 0 ∨ ∀ field ∈ fields, field ∉ r.notNull)).map fun r =>
    (r.rows.countP (hasText column value),
      db.setRows name r (Rows.updateWhere (hasText column value) (setNull fields) r.rows))

end Database

def TableMapping.name (t : TableMapping) : String × String := (t.schema, t.table)

def TableMapping.qualifiedName (t : TableMapping) : String := t.schema ++ "." ++ t.table

def TableMapping.outcome (t : TableMapping) : LifecycleOutcome :=
  match t.action with
  | .delete => .deleted
  | .anonymize => .anonymized

/-! ## Erase and verification -/

/-- What the connection does with a transaction: whether it begins, whether its statement is
    answered, and of the commit whether it is answered and, if not, whether it took effect. -/
structure Link where
  begins : Bool
  answers : Bool
  commitAnswered : Bool
  commitApplied : Bool
  deriving DecidableEq, Repr

/-- The statement of an erase, run on a database, and the outcome it stands for. -/
def TableMapping.statement (t : TableMapping) (value : String) (db : Database) :
    Option (Nat × Database) × LifecycleOutcome :=
  match t.action with
  | .delete => (db.deleteWhere t.name t.identityColumn value, .deleted)
  | .anonymize => (db.nullWhere t.name t.fields t.identityColumn value, .anonymized)

namespace SupabaseConnector

/-- `erase_table` up to its commit: what it will return, and the database as it sees it. -/
def eraseTransaction (c : SupabaseConnector) (subject : SubjectIdentity) (plan : ErasePlan)
    (link : Link) (db : Database) : Except ConnectorError (EraseResult × Database) := do
  let table ← (c.tableForResource plan.resource).result
  refuse (plan.action ≠ table.proposedAction) (.invalidConfig "SUPABASE_PLAN_ACTION_MISMATCH")
  let value ← (table.subjectValue subject).result
  refuse (link.begins = false) (remote "SUPABASE_ERASE_TRANSACTION_FAILED")
  let statement := table.statement value db
  let executed ← Guards.okOr (statement.1.filter fun _ => link.answers)
    (remote "SUPABASE_ERASE_QUERY_FAILED")
  return ({ operationKey := plan.operationKey, outcome := statement.2, affectedCount := executed.1,
            reason := none }, executed.2)

def eraseTableOn (c : SupabaseConnector) (subject : SubjectIdentity) (plan : ErasePlan)
    (link : Link) (db : Database) : Except ConnectorError EraseResult × Database :=
  match c.eraseTransaction subject plan link db with
  | .error e => (.error e, db)
  | .ok (result, left) =>
    if link.commitAnswered then (.ok result, left)
    else (.error (uncertain "SUPABASE_ERASE_COMMIT_UNCERTAIN"),
      if link.commitApplied then left else db)

end SupabaseConnector

def verificationResult (remaining : Nat) : VerificationResult where
  satisfied := remaining = 0
  remainingCount := remaining
  reason := if 0 < remaining then some "SUPABASE_RESOURCE_REMAINS" else none

def SupabaseConnector.verifyTable (c : SupabaseConnector) (subject : SubjectIdentity)
    (expectation : VerificationExpectation) (answers : Bool) (db : Database) :
    Except ConnectorError VerificationResult := do
  let table ← (c.tableForResource expectation.resource).result
  refuse (expectation.state ≠ table.outcome)
    (.invalidConfig "SUPABASE_VERIFICATION_EXPECTATION_MISMATCH")
  let value ← (table.subjectValue subject).result
  let remaining ← Guards.okOr
    ((db.countWhere table.name table.identityColumn value).filter fun _ => answers)
    (remote "SUPABASE_VERIFY_QUERY_FAILED")
  return verificationResult remaining

/-! ## Discovery -/

def httpError (status : Nat) (code : String) : ConnectorError :=
  let kind : ConnectorErrorKind :=
    if status = 401 ∨ status = 403 then .permissionDenied
    else if status = 429 then .rateLimited
    else if isServerError status then .remote
    else .invalidResponse
  ⟨kind, code⟩

/-- What is answered to a discovery: whether the transaction begins and commits, whether the count
    of a table is answered, whether its rows cascade, the objects of a bucket, and the status of the
    answer about the user. -/
structure DiscoveryRemote where
  begins : Bool
  counts : String → Bool
  cascades : String → Option Bool
  stored : String → Option (List StorageObject)
  commits : Bool
  user : Option Nat

namespace SupabaseConnector

def discoverTable (subject : SubjectIdentity) (answer : DiscoveryRemote) (db : Database)
    (table : TableMapping) : Except ConnectorError DiscoveryItem := do
  let value ← (table.subjectValue subject).result
  let estimatedCount ← Guards.okOr
    ((db.countWhere table.name table.identityColumn value).filter fun _ =>
      answer.counts table.qualifiedName) (remote "SUPABASE_DISCOVERY_FAILED")
  let cascade ← Guards.okOr (answer.cascades table.qualifiedName)
    (remote "SUPABASE_DISCOVERY_FAILED")
  return { localReference := table.localReference, resourceType := "supabase_table",
           proposedAction := table.proposedAction, estimatedCount,
           risk := if cascade then .high else .medium, dependencies := [],
           retentionReason := none }

def discoverStorage (subject : SubjectIdentity) (answer : DiscoveryRemote)
    (storage : StorageMapping) : Except ConnectorError DiscoveryItem := do
  let pre ← storage.subjectPrefix subject
  let names ← Guards.okOr
    ((answer.stored storage.bucket).bind fun objects => selectObjects objects storage.bucket pre)
    (remote "SUPABASE_DISCOVERY_FAILED")
  return { localReference := storage.localReference, resourceType := "supabase_storage",
           proposedAction := .delete, estimatedCount := names.length, risk := .medium,
           dependencies := [], retentionReason := none }

/-- Whether the user exists, from the status of the answer about it. -/
def userCount (status : Nat) : Except ConnectorError Nat :=
  if isSuccess status then pure 1
  else if status = 404 then pure 0
  else throw (httpError status "SUPABASE_AUTH_DISCOVERY_FAILED")

/-- The item of the user, which depends on all the others. -/
def discoverAuthUser (c : SupabaseConnector) (subject : SubjectIdentity) (answer : DiscoveryRemote)
    (references : List String) : Except ConnectorError (List DiscoveryItem) :=
  if c.deleteAuthUser then do
    let userId ← (stableUserId subject).result
    let _url ← (c.apiUrl ["auth", "v1", "admin", "users", userId]).result
    let status ← Guards.okOr answer.user (remote "SUPABASE_AUTH_DISCOVERY_FAILED")
    let estimatedCount ← userCount status
    return [{ localReference := "supabase:auth:user", resourceType := "supabase_auth_user",
              proposedAction := .delete, estimatedCount, risk := .high,
              dependencies := references, retentionReason := none }]
  else
    return []

def discoverSubject (c : SupabaseConnector) (subject : SubjectIdentity) (answer : DiscoveryRemote)
    (db : Database) : Except ConnectorError DiscoveryResult := do
  refuse (answer.begins = false) (remote "SUPABASE_DISCOVERY_FAILED")
  let tables ← c.tables.mapM (discoverTable subject answer db)
  let storage ← c.storage.mapM (discoverStorage subject answer)
  refuse (answer.commits = false) (remote "SUPABASE_DISCOVERY_FAILED")
  let user ← c.discoverAuthUser subject answer ((tables ++ storage).map (·.localReference))
  return ⟨tables ++ storage ++ user⟩

end SupabaseConnector

end ForgetOps.Connector
