import ForgetOps.Database.Statements

/-
  `IdempotencyRepository`
  (`packages/database/src/repositories/idempotency-repository.ts`).

  `claim` inserts the record of the key or reads what is there; `complete` stores the response. The
  store keeps, besides the records, what the transactions have returned so far, in the order of
  their commits. JSON goes through `JSON.stringify`, the `jsonb` column and `JSON.parse`
  (`JsonColumn`).
-/

namespace ForgetOps.Database.Idempotency

open ReadCommitted (Script RowStore)

/-- What a value becomes on its way into a `jsonb` column and back. -/
structure JsonColumn (Value : Type) where
  /-- `JSON.stringify`; `none` stands for `undefined`. -/
  stringify : Value → Option String
  /-- What the column keeps of the text; `none` if it refuses it. -/
  jsonb : String → Option String
  parse : String → Value
  /-- What the driver makes of an SQL `null`. -/
  null : Value

/-- What is read back of a value that was stored. -/
def JsonColumn.reread {Value : Type} (json : JsonColumn Value) (v : Value) : Value :=
  (((json.stringify v).bind json.jsonb).map json.parse).getD json.null

/-- The columns of `idempotency_records_scope_actor_key_uq`. -/
structure RecordKey where
  tenantId : String
  scope : String
  actorId : String
  idempotencyKey : String
  deriving DecidableEq, Repr

structure IdempotencyRow where
  requestHash : String
  responseStatus : Option Int
  responseBody : Option String
  createdAt : Int
  expiresAt : Int
  deriving DecidableEq, Repr

structure IdempotencyCommand where
  scope : String
  actorId : String
  idempotencyKey : String
  requestHash : String
  expiresAt : Int
  deriving DecidableEq, Repr

structure IdempotencyCompletion (Value : Type) extends IdempotencyCommand where
  responseStatus : Int
  responseBody : Value

inductive IdempotencyClaim (Value : Type) where
  | claimed
  | inProgress
  | replay (responseStatus : Int) (responseBody : Value)
  deriving DecidableEq, Repr

def IdempotencyCommand.key (command : IdempotencyCommand) (tenantId : String) : RecordKey :=
  { command with tenantId }

/-- A call of the repository of a tenant. `now` is the time its transaction starts at, and `since`
    how many transactions had returned by then. -/
inductive Request (Value : Type) where
  | claim (tenantId : String) (command : IdempotencyCommand) (now : Int) (since : Nat)
  | complete (tenantId : String) (command : IdempotencyCompletion Value)

/-- A transaction that has returned, and its answer: a claim, or nothing. -/
structure Entry (Value : Type) where
  request : Request Value
  answer : Option (IdempotencyClaim Value)

structure Store (Value : Type) where
  records : Table RecordKey IdempotencyRow
  history : List (Entry Value)

def Store.initial {Value : Type} : Store Value := ⟨.empty, []⟩

instance {Value : Type} : RowStore (Store Value) RecordKey fun _ => Option IdempotencyRow where
  row w k := w.records.find k
  write w k v := { w with records := w.records.set k v }
  row_write_self _ _ _ := Table.find_set_self _ _ _
  row_write_of_ne _ _ _ _ h := Table.find_set_of_ne _ _ h
  write_row w k := congrArg (fun records => { w with records }) (Table.set_find w.records k)

abbrev Transaction (Value α : Type) :=
  Script (Store Value) (fun _ : RecordKey => Option IdempotencyRow) α

section Repository

variable {Value : Type}

/-- The `check`s of `idempotency_records` on a new record. They come before the conflict. -/
def recordChecks (command : IdempotencyCommand) (now : Int) : Prop :=
  command.scope ≠ "" ∧ command.actorId ≠ "" ∧ command.idempotencyKey ≠ "" ∧
    command.requestHash ≠ "" ∧ now < command.expiresAt

instance (command : IdempotencyCommand) (now : Int) : Decidable (recordChecks command now) := by
  unfold recordChecks
  infer_instance

def newRecord (command : IdempotencyCommand) (now : Int) : IdempotencyRow where
  requestHash := command.requestHash
  responseStatus := none
  responseBody := none
  createdAt := now
  expiresAt := command.expiresAt

/-- What `claim` makes of the record it finds. -/
def answerOf (json : JsonColumn Value) (command : IdempotencyCommand) :
    Option IdempotencyRow → Transaction Value (IdempotencyClaim Value)
  | none => .fail "IDEMPOTENCY_KEY_REUSED"
  | some row =>
    if row.requestHash ≠ command.requestHash then .fail "IDEMPOTENCY_KEY_REUSED"
    else match row.responseStatus with
      | none => .done .inProgress
      | some status => .done (.replay status ((row.responseBody.map json.parse).getD json.null))

def claim (json : JsonColumn Value) (tenantId : String) (command : IdempotencyCommand)
    (now : Int) : Transaction Value (IdempotencyClaim Value) := do
  Script.failIf (¬ recordChecks command now) "23514"
  let inserted ← Script.update (command.key tenantId) (whenAbsent (newRecord command now))
  match inserted with
  | some _ => .done .claimed
  | none => do
    let row ← Script.read fun (w : Store Value) => w.records.find (command.key tenantId)
    answerOf json command row

/-- The `where` of the update, behind the key. -/
def isOpen (requestHash : String) (row : IdempotencyRow) : Prop :=
  row.requestHash = requestHash ∧ row.responseStatus = none

instance (requestHash : String) : DecidablePred (isOpen requestHash) := fun row => by
  unfold isOpen
  infer_instance

def completedRow (status : Int) (body : String) (row : IdempotencyRow) : IdempotencyRow :=
  { row with responseStatus := some status, responseBody := some body }

/-- The update looks for the record as it is committed, and once more under its lock. -/
def updateRecord (k : RecordKey) (requestHash : String) (status : Int) (body : String) :
    Transaction Value (Option IdempotencyRow) := do
  let found ← Script.read fun (w : Store Value) => (w.records.find k).any fun row =>
    decide (isOpen requestHash row)
  if found then Script.update k (whenRow (isOpen requestHash) (completedRow status body))
  else return none

def complete (json : JsonColumn Value) (tenantId : String)
    (command : IdempotencyCompletion Value) : Transaction Value Unit :=
  match json.stringify command.responseBody with
  | none => .fail "IDEMPOTENCY_RESPONSE_NOT_JSON"
  | some responseBody =>
    match json.jsonb responseBody with
    | none => .fail "22P02"
    | some body => do
      let rows ← updateRecord (command.key tenantId) command.requestHash command.responseStatus body
      Script.failIf (rows = none) "IDEMPOTENCY_RECORD_NOT_FOUND"
      Script.failIf (¬ (100 ≤ command.responseStatus ∧ command.responseStatus ≤ 599)) "23514"

end Repository

/-! ## The system -/

section System

variable {Value : Type}

def Request.key : Request Value → RecordKey
  | .claim tenantId command _ _ => command.key tenantId
  | .complete tenantId command => command.key tenantId

def Request.script (json : JsonColumn Value) :
    Request Value → Transaction Value (Option (IdempotencyClaim Value))
  | .claim tenantId command now _ => do
    let answer ← Idempotency.claim json tenantId command now
    return some answer
  | .complete tenantId command => do
    Idempotency.complete json tenantId command
    return none

def Request.Starts (w : Store Value) : Request Value → Prop
  | .claim _ _ _ since => since = w.history.length
  | .complete _ _ => True

/-- Any calls of any clients, in all interleavings, each of which can be rolled back at any
    time. Nothing else writes the table. -/
def system (json : JsonColumn Value) :
    ReadCommitted.System (Store Value) (fun _ : RecordKey => Option IdempotencyRow)
      (Request Value) (Option (IdempotencyClaim Value)) where
  starts w request := request.Starts w
  body request := request.script json
  commits _ _ := True
  settle request answer w := { w with history := w.history ++ [⟨request, answer⟩] }
  environment _ _ _ := False

abbrev Configuration (Value : Type) :=
  ReadCommitted.Conf (Store Value) (fun _ : RecordKey => Option IdempotencyRow) (Request Value)
    (Option (IdempotencyClaim Value))

def Reachable (json : JsonColumn Value) (c : Configuration Value) : Prop :=
  ReadCommitted.Reachable (system json) Store.initial c

end System

end ForgetOps.Database.Idempotency
