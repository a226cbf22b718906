import ForgetOps.Agent.ExportReader
import ForgetOps.Supabase.Storage
import ForgetOps.Supabase.Tables

/-
  `export_subject` (`agent/crates/connector-supabase/src/export.rs`).

  What the remote does is an argument: the rows of a table, what each query of a bucket finds, the
  answers to downloads and the one about the user. The sink is another one. A run returns or throws
  together with the writes it performed; nothing is returned while a loop over a bucket goes on.
-/

namespace ForgetOps.Connector

open AdapterHttp (Write Reading)
open Guards

/-! ## The remote -/

/-- A transaction that reads a table: its rows as JSON texts, `none` for one that does not
    arrive. -/
structure TableRead where
  begins : Bool
  queries : Bool
  rows : List (Option (List UInt8))
  commits : Bool
  deriving DecidableEq, Repr

/-- An answer with a body; the content type is the one of its header, if that is a text. -/
structure Download where
  status : Nat
  contentLength : Option Nat
  contentType : Option String
  body : List (Option (List UInt8))
  deriving DecidableEq, Repr

structure ExportRemote where
  /-- The rows of a table with this value in its identity column. -/
  table : TableMapping → String → TableRead
  /-- What the queries of a bucket find, one after the other. -/
  stores : String → List (Option (List StorageObject))
  /-- The answer to the download of an object, the one with this number. -/
  object : String → String → Nat → Option Download
  user : Option Download

/-! ## Writing -/

abbrev Sink := List Write → Write → Except ConnectorError Unit

/-- What has been exported so far. -/
structure Exported where
  exportedCount : Nat := 0
  writes : List Write := []
  deriving DecidableEq, Repr

namespace Exported

def failed (s : Exported) (e : ConnectorError) : ConnectorError × List Write := (e, s.writes)

/-- `sink.write(path, content_type, bytes)`. -/
def write (s : Exported) (sink : Sink) (path contentType : String) (bytes : List UInt8) :
    Reading Exported := do
  let write : Write := ⟨path, contentType, bytes⟩
  let writes := s.writes ++ [write]
  (sink s.writes write).mapError fun e => (e, writes)
  return { s with writes }

def counted (s : Exported) : Exported := { s with exportedCount := saturatingAdd s.exportedCount 1 }

end Exported

/-! ## Tables -/

def maxRecordBytes : Nat := 1024 * 1024

def TableMapping.exportPath (t : TableMapping) : String :=
  if t.schema = "public" then "supabase/" ++ t.table ++ "/records.json"
  else "supabase/" ++ t.schema ++ "/" ++ t.table ++ "/records.json"

/-- The loop over the rows; the first one has no comma before it. -/
def exportRows (sink : Sink) (path : String) :
    Bool → List (Option (List UInt8)) → Exported → Reading Exported
  | _, [], s => return s
  | _, none :: _, s => throw (s.failed (remote "SUPABASE_EXPORT_QUERY_FAILED"))
  | first, some record :: rows, s => do
    refuse (record.length > maxRecordBytes)
      (s.failed (.invalidResponse "SUPABASE_EXPORT_RECORD_TOO_LARGE"))
    let s ← if first then pure s else s.write sink path "application/json" [0x2c]
    let s ← s.write sink path "application/json" record
    exportRows sink path false rows s.counted

def exportTable (sink : Sink) (subject : SubjectIdentity) (answer : ExportRemote)
    (t : TableMapping) (s : Exported) : Reading Exported := do
  let value ← (t.subjectValue subject).result.mapError s.failed
  let read := answer.table t value
  refuse (read.begins = false) (s.failed (remote "SUPABASE_EXPORT_QUERY_FAILED"))
  refuse (read.queries = false) (s.failed (remote "SUPABASE_EXPORT_QUERY_FAILED"))
  let s ← s.write sink t.exportPath "application/json" [0x5b]
  let s ← exportRows sink t.exportPath true read.rows s
  let s ← s.write sink t.exportPath "application/json" [0x5d]
  refuse (read.commits = false) (s.failed (remote "SUPABASE_EXPORT_QUERY_FAILED"))
  return s

/-! ## Objects -/

def maxObjectBytes : Nat := 100 * 1024 * 1024

/-- `format!("{index:06}")`. -/
def fileNumber (index : Nat) : String := String.ofList ((Nat.toDigits 10 index).leftpad 6 '0')

def objectPath (bucket : String) (index : Nat) : String :=
  "supabase/storage/" ++ bucket ++ "/files/" ++ fileNumber index ++ ".bin"

def validObjectName (name : String) : Bool :=
  name ≠ "" ∧ '\\' ∉ name.toList ∧
    ∀ segment ∈ segments '/' name.toList, segment ≠ [] ∧ segment ≠ ['.'] ∧ segment ≠ ['.', '.']

/-- The loop over the chunks of an object, with the bytes so far. -/
def exportChunks (sink : Sink) (path contentType : String) :
    Nat → List (Option (List UInt8)) → Exported → Reading Exported
  | _, [], s => return s
  | _, none :: _, s => throw (s.failed (remote "SUPABASE_STORAGE_DOWNLOAD_FAILED"))
  | total, some chunk :: chunks, s => do
    let total := saturatingAdd total chunk.length
    refuse (total > maxObjectBytes)
      (s.failed (.invalidResponse "SUPABASE_STORAGE_OBJECT_TOO_LARGE"))
    let s ← s.write sink path contentType chunk
    exportChunks sink path contentType total chunks s

/-- The content type an object is written with. -/
def Download.objectType (d : Download) : String :=
  (d.contentType.filter (·.utf8ByteSize ≤ 128)).getD "application/octet-stream"

def SupabaseConnector.downloadStorageObject (c : SupabaseConnector) (sink : Sink)
    (answer : ExportRemote) (bucket name : String) (index : Nat) (s : Exported) :
    Reading Exported := do
  refuse (validObjectName name = false)
    (s.failed (.invalidResponse "SUPABASE_STORAGE_OBJECT_PATH_INVALID"))
  let _url ← (c.apiUrl (["storage", "v1", "object", bucket] ++
    (segments '/' name.toList).map String.ofList)).result.mapError s.failed
  let response ← Guards.okOr (answer.object bucket name index)
    (s.failed (remote "SUPABASE_STORAGE_DOWNLOAD_FAILED"))
  refuse (isSuccess response.status = false)
    (s.failed (httpError response.status "SUPABASE_STORAGE_DOWNLOAD_FAILED"))
  refuse (response.contentLength.any (· > maxObjectBytes) = true)
    (s.failed (.invalidResponse "SUPABASE_STORAGE_OBJECT_TOO_LARGE"))
  exportChunks sink (objectPath bucket index) response.objectType 0 response.body s

/-- The objects of one page, with the number of the last one before them. -/
def SupabaseConnector.exportObjects (c : SupabaseConnector) (sink : Sink) (answer : ExportRemote)
    (bucket : String) : Nat → List String → Exported → Reading (Nat × Exported)
  | index, [], s => return (index, s)
  | index, name :: names, s => do
    let index := saturatingAdd index 1
    let s ← c.downloadStorageObject sink answer bucket name index s
    c.exportObjects sink answer bucket index names s.counted

/-- The loop over a bucket, on what its queries find. -/
def SupabaseConnector.exportPages (c : SupabaseConnector) (sink : Sink)
    (before : String → String → Bool) (answer : ExportRemote) (limit : Nat) (bucket : String)
    (pre : List Char) :
    String → Nat → List (Option (List StorageObject)) → Exported → Reading (Option Exported)
  | _, _, [], _ => return none
  | after, index, store :: stores, s => do
    let names ← Guards.okOr (store.bind fun objects => pageObjects before objects bucket pre after limit)
      (s.failed (remote "SUPABASE_STORAGE_DISCOVERY_FAILED"))
    if names = [] then
      return some s
    else
      let (index, s) ← c.exportObjects sink answer bucket index names s
      if names.length < limit then
        return some s
      else
        c.exportPages sink before answer limit bucket pre (names.getLastD after) index stores s

def SupabaseConnector.exportStorage (c : SupabaseConnector) (sink : Sink)
    (before : String → String → Bool) (subject : SubjectIdentity) (answer : ExportRemote)
    (storage : StorageMapping) (s : Exported) : Reading (Option Exported) := do
  let pre ← (storage.subjectPrefix subject).mapError s.failed
  c.exportPages sink before answer storagePageSize storage.bucket pre "" 0
    (answer.stores storage.bucket) s

/-! ## The user -/

def authUserReference : String := "supabase:auth:user"

def authUserPath : String := "supabase/auth/user.json"

/-- The body, read chunk by chunk up to the limit. -/
def boundedBody (limit : Nat) :
    List UInt8 → List (Option (List UInt8)) → Except ConnectorError (List UInt8)
  | bytes, [] => return bytes
  | _, none :: _ => throw (remote "SUPABASE_RESPONSE_FAILED")
  | bytes, some chunk :: chunks => do
    refuse (saturatingAdd bytes.length chunk.length > limit)
      (.invalidResponse "SUPABASE_RESPONSE_TOO_LARGE")
    boundedBody limit (bytes ++ chunk) chunks

def boundedResponse (response : Download) (limit : Nat) : Except ConnectorError (List UInt8) := do
  refuse (response.contentLength.any (· > limit) = true)
    (.invalidResponse "SUPABASE_RESPONSE_TOO_LARGE")
  boundedBody limit [] response.body

def SupabaseConnector.exportAuthUser (c : SupabaseConnector) (sink : Sink)
    (subject : SubjectIdentity) (answer : ExportRemote) (s : Exported) : Reading Exported := do
  let userId ← (stableUserId subject).result.mapError s.failed
  let _url ← (c.apiUrl ["auth", "v1", "admin", "users", userId]).result.mapError s.failed
  let response ← Guards.okOr answer.user (s.failed (remote "SUPABASE_AUTH_EXPORT_FAILED"))
  if isSuccess response.status then
    let bytes ← (boundedResponse response maxRecordBytes).mapError s.failed
    let s ← s.write sink authUserPath "application/json" bytes
    return s.counted
  else if response.status = 404 then
    return s
  else
    throw (s.failed (httpError response.status "SUPABASE_AUTH_EXPORT_FAILED"))

/-! ## The export -/

def SupabaseConnector.knownResources (c : SupabaseConnector) : List String :=
  c.tables.map (·.localReference) ++ c.storage.map (·.localReference) ++
    if c.deleteAuthUser then [authUserReference] else []

/-- The loop over the tables. -/
def exportTables (sink : Sink) (subject : SubjectIdentity) (answer : ExportRemote)
    (selected : List String) (tables : List TableMapping) (s : Exported) : Reading Exported :=
  (tables.filter (·.localReference ∈ selected)).foldlM
    (fun s t => exportTable sink subject answer t s) s

/-- The loop over the buckets. -/
def SupabaseConnector.exportBuckets (c : SupabaseConnector) (sink : Sink)
    (before : String → String → Bool) (subject : SubjectIdentity) (answer : ExportRemote) :
    List StorageMapping → Exported → Reading (Option Exported)
  | [], s => return some s
  | storage :: rest, s => do
    match ← c.exportStorage sink before subject answer storage s with
    | none => return none
    | some s => c.exportBuckets sink before subject answer rest s

def SupabaseConnector.exportSubject (c : SupabaseConnector) (sink : Sink)
    (before : String → String → Bool) (subject : SubjectIdentity) (selection : ExportSelection)
    (answer : ExportRemote) : Reading (Option Exported) := do
  let start : Exported := {}
  refuse (selection.resources = [] ∨ ¬ selection.resources.Nodup)
    (start.failed (.invalidConfig "SUPABASE_EXPORT_SELECTION_INVALID"))
  refuse (∃ resource ∈ selection.resources, resource ∉ c.knownResources)
    (start.failed (.invalidConfig "SUPABASE_RESOURCE_NOT_MAPPED"))
  let s ← exportTables sink subject answer selection.resources c.tables start
  match ← c.exportBuckets sink before subject answer
      (c.storage.filter (·.localReference ∈ selection.resources)) s with
  | none => return none
  | some s =>
    if authUserReference ∈ selection.resources then
      let s ← c.exportAuthUser sink subject answer s
      return some s
    else
      return some s

end ForgetOps.Connector
