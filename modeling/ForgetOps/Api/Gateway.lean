import ForgetOps.Database.Statements

/-
  The store of the agent gateway (`apps/api/src/modules/agent-gateway`): the tables its
  transactions work on, and what they have answered.

  The rows of agents and environments are those of `Database.World`. Jobs have their timestamps in
  milliseconds, which is how the gateway writes and compares them. `messages` and `answers` keep
  what was answered, in the order of the commits, and `clock` is the greatest `now` of a
  transaction on jobs that was committed; no statement writes them.
-/

namespace ForgetOps.Api.Gateway

open Database

structure ReceiptKey where
  agentId : String
  messageId : String
  deriving DecidableEq, Repr

/-- A row of `agent_message_receipts`. -/
structure ReceiptRow where
  sequence : String
  receivedAt : Timestamp
  deriving DecidableEq, Repr

/-- A message that was accepted from an agent, or the revocation of the agent. -/
inductive MessageEvent where
  | accepted (agentId messageId : String) (sequence : Nat)
  | revoked (agentId : String)
  deriving DecidableEq, Repr

inductive AgentJobKind where
  | bindSubject
  | plan
  | execute
  | leaseExecution
  | wrapExportKey
  | cancel
  | healthCheck
  deriving DecidableEq, Repr

/-- A row of `agent_jobs`. -/
structure AgentJobRow where
  tenantId : String
  requestId : String
  environmentId : String
  kind : AgentJobKind
  planVersion : Option Int
  payloadCiphertext : Option String
  payloadEncryptionKeyId : Option String
  authorization : Option String
  availableAt : Int
  expiresAt : Int
  leasedByAgentId : Option String
  leaseExpiresAt : Option Int
  attempt : Nat
  completedAt : Option Int
  deriving DecidableEq, Repr

/-- The scope of a privacy request. -/
structure RequestScope where
  tenantId : String
  environmentId : String
  deriving DecidableEq, Repr

/-- A job as it was answered to an agent. -/
structure JobAnswer where
  id : String
  agentId : String
  now : Int
  job : AgentJobRow
  deriving DecidableEq, Repr

/-- A lease is granted, answered once more to its holder, or renewed by a heartbeat. -/
inductive LeaseKind where
  | granted
  | repeated
  | renewed
  deriving DecidableEq, Repr

/-- What a transaction on jobs has answered, or which jobs it has completed. `seen` is how many
    answers there were when the offer was looked up. -/
inductive JobEvent where
  | offered (answer : JobAnswer) (seen : Nat)
  | leased (kind : LeaseKind) (answer : JobAnswer)
  | completed (ids : List String)
  deriving DecidableEq, Repr

inductive GatewayKey where
  | environment (id : String)
  | agent (id : String)
  | receipt (key : ReceiptKey)
  | request (id : String)
  | job (id : String)
  deriving DecidableEq, Repr

abbrev GatewayRow : GatewayKey → Type
  | .environment _ => Option EnvironmentRow
  | .agent _ => Option AgentRow
  | .receipt _ => Option ReceiptRow
  | .request _ => Option RequestScope
  | .job _ => Option AgentJobRow

structure Store where
  environments : Table String EnvironmentRow
  agents : Table String AgentRow
  receipts : Table ReceiptKey ReceiptRow
  requests : Table String RequestScope
  jobs : Table String AgentJobRow
  messages : List MessageEvent
  answers : List JobEvent
  clock : Int

namespace Store

def row (w : Store) : (k : GatewayKey) → GatewayRow k
  | .environment id => w.environments.find id
  | .agent id => w.agents.find id
  | .receipt key => w.receipts.find key
  | .request id => w.requests.find id
  | .job id => w.jobs.find id

def write (w : Store) : (k : GatewayKey) → GatewayRow k → Store
  | .environment id, v => { w with environments := w.environments.set id v }
  | .agent id, v => { w with agents := w.agents.set id v }
  | .receipt key, v => { w with receipts := w.receipts.set key v }
  | .request id, v => { w with requests := w.requests.set id v }
  | .job id, v => { w with jobs := w.jobs.set id v }

theorem row_write_self (w : Store) (k : GatewayKey) (v : GatewayRow k) :
    (w.write k v).row k = v := by
  cases k <;> exact Table.find_set_self _ _ _

theorem row_write_of_ne (w : Store) (k : GatewayKey) (v : GatewayRow k) (k' : GatewayKey)
    (h : k' ≠ k) : (w.write k v).row k' = w.row k' := by
  cases k <;> cases k' <;> first
    | rfl
    | exact Table.find_set_of_ne _ _ fun heq => h (by rw [heq])

theorem write_row (w : Store) (k : GatewayKey) : w.write k (w.row k) = w := by
  cases k <;> simp only [write, row, Table.set_find]

instance : ReadCommitted.RowStore Store GatewayKey GatewayRow where
  row := row
  write := write
  write_row := write_row
  row_write_self := row_write_self
  row_write_of_ne := row_write_of_ne

end Store

/-- A transaction of the gateway that returns an `α`. -/
abbrev GatewayTransaction (α : Type) := ReadCommitted.Script Store GatewayRow α

/-- The tenant of the project of the environment, if there is one. -/
def tenantOf (environments : Table String EnvironmentRow) (environmentId : String) :
    Option String :=
  (environments.find environmentId).map (·.tenantId)

/-- One agent and one request in one environment. -/
def firstAgents : Store where
  environments := Table.empty.set "env_1" (some
    { tenantId := "ten_1", subjectHashKeyVersion := 1, subjectCanonicalizationVersion := 1 })
  agents := Table.empty.set "agt_1" (some
    { environmentId := "env_1", publicSigningKey := "key", publicEncryptionKey := "key",
      signingKeyId := none, encryptionKeyId := none, version := "1.0.0",
      protocolVersion := "1.0", instanceFingerprint := "host", status := .online,
      lastSequence := "0" })
  receipts := .empty
  requests := Table.empty.set "req_1" (some { tenantId := "ten_1", environmentId := "env_1" })
  jobs := .empty
  messages := []
  answers := []
  clock := 0

/-- The last element of a list stands behind every other one. -/
theorem concat_eq_append_cons {α : Type} {l before after : List α} {x y : α}
    (h : l ++ [x] = before ++ y :: after) :
    (after = [] ∧ l = before ∧ x = y) ∨
      ∃ after', after = after' ++ [x] ∧ l = before ++ y :: after' := by
  rcases List.eq_nil_or_concat after with rfl | ⟨after', z, rfl⟩
  · obtain ⟨front, last⟩ := List.append_inj' h rfl
    cases last
    exact Or.inl ⟨rfl, front, rfl⟩
  · rw [List.concat_eq_append] at h ⊢
    rw [← List.cons_append, ← List.append_assoc] at h
    obtain ⟨front, last⟩ := List.append_inj' h rfl
    cases last
    exact Or.inr ⟨after', rfl, front⟩

/-! ## Logs -/

open ReadCommitted

section Frames

variable {w : Store} {log : Log GatewayRow}

@[simp] theorem view_messages (w : Store) (log : Log GatewayRow) :
    (view w log).messages = w.messages :=
  view_frame (K := fun _ => True) Store.messages (fun w k v _ => by cases k <;> rfl)
    fun _ _ => trivial

end Frames

/-- The rows a transaction holds stay as they are until its commit. -/
def SameRows (held : List GatewayKey) (w w' : Store) : Prop :=
  ∀ k ∈ held, RowStore.row w k = RowStore.row w' k

theorem rely_sameRows : Rely SameRows where
  refl _ _ _ _ := rfl
  trans h h' k hk := (h k hk).trans (h' k hk)
  mono hsub h k hk := h k (hsub hk)
  agree h hk := h _ hk

/-- What a transaction has not locked it has not written. -/
theorem sameRows_view {held : List GatewayKey} {w : Store} {log : Log GatewayRow}
    (h : ∀ k ∈ held, k ∉ keys log) : SameRows held w (view w log) :=
  fun k hk => (row_view_of_notMem (h k hk)).symm

end ForgetOps.Api.Gateway
