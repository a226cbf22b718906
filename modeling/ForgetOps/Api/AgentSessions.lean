import ForgetOps.Api.JobRepository
import ForgetOps.Api.MessageAuthentication
import ForgetOps.Library.StoreProducts

/-
  The sessions of the agent gateway: `claimTransport`, `isTransportActive`, `releaseTransport` and
  `nextControlSequence` (`agent-gateway/job-repository.ts`), and the routes that call them
  (`agent-gateway/polling-routes.ts`, `agent-gateway/websocket.ts`).

  Their tables stand beside the store of the gateway; the column `last_control_sequence` of the
  agents is a table of its own. A route is a thread of the process: it makes its calls one after the
  other, each a transaction, and any number of threads is at work. `events` and `handovers` keep
  which claims and releases took effect and which jobs were handed out; no statement writes them.
-/

namespace ForgetOps.Api.Gateway

open Database ReadCommitted
open ReadCommitted (Script)

inductive AgentTransport where
  | websocket
  | polling
  deriving DecidableEq, Repr

/-- A session of an agent: `AgentTransportInput` without its time. -/
structure AgentSession where
  tenantId : String
  agentId : String
  environmentId : String
  transport : AgentTransport
  sessionId : String
  deriving DecidableEq, Repr

/-- A row of `agent_transport_sessions`. -/
structure TransportRow where
  tenantId : String
  environmentId : String
  transport : AgentTransport
  sessionId : String
  startedAt : Int
  lastSeenAt : Int
  deriving DecidableEq, Repr

/-! ## Threads -/

/-- What a thread was started for: the polling routes, the hello of a socket, a scan of its timer,
    and its close event. -/
inductive Route where
  | poll (waitMs : Nat)
  | lease (jobId : String)
  | heartbeat (jobId : String)
  | hello
  | scan
  | close
  deriving DecidableEq, Repr

/-- The next call of a thread. Behind a claim come one check or, for a hello, two; `checks` says how
    many are left after the next. `seen` is how many claims and releases had taken effect on the
    agent when the last check read the table. -/
inductive Stage where
  | claiming
  | checking (checks : Nat)
  | working (seen : Nat)
  | releasing
  | finished
  deriving DecidableEq, Repr

/-- `rounds` is how often a poll that finds nothing is still repeated. -/
structure Thread where
  session : AgentSession
  route : Route
  rounds : Nat
  stage : Stage
  deriving DecidableEq, Repr

def Route.transport : Route → AgentTransport
  | .poll _ | .lease _ | .heartbeat _ => .polling
  | .hello | .scan | .close => .websocket

def Route.rounds : Route → Nat
  | .poll waitMs => if 0 < waitMs then 1 else 0
  | _ => 0

def Route.firstStage : Route → Stage
  | .poll _ | .lease _ | .heartbeat _ | .hello => .claiming
  | .scan => .checking 0
  | .close => .releasing

def Thread.start (route : Route) (session : AgentSession) : Thread where
  session := session
  route := route
  rounds := route.rounds
  stage := route.firstStage

/-! ## The tables -/

inductive ChannelKey where
  | session (agentId : String)
  | controlSequence (agentId : String)
  | token (id : String)
  deriving DecidableEq, Repr

abbrev ChannelRow : ChannelKey → Type
  | .session _ => Option TransportRow
  | .controlSequence _ => Option Nat
  | .token _ => Option TokenRow

/-- A claim or a release that took effect. -/
inductive TransportEvent where
  | claimed (session : AgentSession)
  | released (session : AgentSession)
  deriving DecidableEq, Repr

def TransportEvent.agentId : TransportEvent → String
  | .claimed session | .released session => session.agentId

/-- A job that was handed out or extended: on behalf of which session, what row the agent had at the
    commit, and how many claims and releases had taken effect at the check and at the commit. -/
structure Handover where
  session : AgentSession
  named : Option TransportRow
  seen : Nat
  changes : Nat
  deriving DecidableEq, Repr

structure Channels where
  sessions : Table String TransportRow
  controlSequences : Table String Nat
  tokens : Table String TokenRow
  threads : List Thread
  events : List TransportEvent
  handovers : List Handover

namespace Channels

def row (w : Channels) : (k : ChannelKey) → ChannelRow k
  | .session id => w.sessions.find id
  | .controlSequence id => w.controlSequences.find id
  | .token id => w.tokens.find id

def write (w : Channels) : (k : ChannelKey) → ChannelRow k → Channels
  | .session id, v => { w with sessions := w.sessions.set id v }
  | .controlSequence id, v => { w with controlSequences := w.controlSequences.set id v }
  | .token id, v => { w with tokens := w.tokens.set id v }

theorem row_write_self (w : Channels) (k : ChannelKey) (v : ChannelRow k) :
    (w.write k v).row k = v := by
  cases k <;> exact Table.find_set_self _ _ _

theorem row_write_of_ne (w : Channels) (k : ChannelKey) (v : ChannelRow k) (k' : ChannelKey)
    (h : k' ≠ k) : (w.write k v).row k' = w.row k' := by
  cases k <;> cases k' <;> first
    | rfl
    | exact Table.find_set_of_ne _ _ fun heq => h (by rw [heq])

theorem write_row (w : Channels) (k : ChannelKey) : w.write k (w.row k) = w := by
  cases k <;> simp only [write, row, Table.set_find]

instance : RowStore Channels ChannelKey ChannelRow where
  row := row
  write := write
  write_row := write_row
  row_write_self := row_write_self
  row_write_of_ne := row_write_of_ne

end Channels

abbrev GatewayWorld := Store × Channels

abbrev GatewayWorldRow := SideBySide GatewayRow ChannelRow

/-- A transaction on both. -/
abbrev SessionTransaction (α : Type) := Script GatewayWorld GatewayWorldRow α

/-- The claims and releases that took effect on an agent. -/
def eventsOf (agentId : String) (events : List TransportEvent) : List TransportEvent :=
  events.filter fun event => event.agentId = agentId

/-! ## The transactions -/

/-- The row is of the session. -/
def TransportRow.Of (row : TransportRow) (session : AgentSession) : Prop :=
  row.tenantId = session.tenantId ∧ row.environmentId = session.environmentId ∧
    row.transport = session.transport ∧ row.sessionId = session.sessionId

instance (row : TransportRow) (session : AgentSession) : Decidable (row.Of session) :=
  inferInstanceAs (Decidable (_ ∧ _))

def newSession (session : AgentSession) (now : Int) : TransportRow where
  tenantId := session.tenantId
  environmentId := session.environmentId
  transport := session.transport
  sessionId := session.sessionId
  startedAt := now
  lastSeenAt := now

/-- `insert … on conflict (agent_id) do update set …`, refused where row security hides the row. -/
def upsertSession (session : AgentSession) (now : Int) :
    Option TransportRow → Option (Unit × Option TransportRow)
  | none => some ((), some (newSession session now))
  | some row =>
    if row.tenantId = session.tenantId then
      some ((), some { newSession session now with startedAt := row.startedAt })
    else none

/-- Locks the agent, if row security shows it. -/
def lockAgentRow (tenantId agentId : String) : GatewayTransaction (Option AgentRow) := do
  let environments ← Script.read (·.environments)
  Script.update (.agent agentId)
    (lockRow fun (row : AgentRow) => tenantOf environments row.environmentId = some tenantId)

/-- The session before, if there was one; `none` where the claim is refused, which the callers do
    not tell from no session before. -/
def claimTransport (session : AgentSession) (now : Int) :
    SessionTransaction (Option (Option String)) := do
  let agent ← (lockAgentRow session.tenantId session.agentId).first
  match agent with
  | none => return none
  | some agent =>
    if agent.environmentId ≠ session.environmentId ∨ agent.status = .revoked then return none
    else do
      let current ← Script.second (Script.update (.session session.agentId)
        (lockRow fun (row : TransportRow) => row.tenantId = session.tenantId))
      let upserted ← Script.second (Script.update (.session session.agentId)
        (upsertSession session now))
      Script.failIf (upserted = none) "42501"
      return some (current.map (·.sessionId))

/-- Whether the row of the agent is of the session, and how many claims and releases had taken effect
    on the agent before the snapshot. -/
def isTransportActive (session : AgentSession) : SessionTransaction (Bool × Nat) :=
  Script.read fun (w : GatewayWorld) =>
    ((w.2.sessions.find session.agentId).any fun row => row.Of session,
      (eventsOf session.agentId w.2.events).length)

/-- Whether there was a row to delete. -/
def releaseTransport (session : AgentSession) : SessionTransaction Bool := do
  let deleted ← Script.second (Script.update (.session session.agentId)
    (deleteRow fun (row : TransportRow) => row.Of session))
  return deleted.isSome

def nextControlSequence (tenantId agentId : String) : SessionTransaction String := do
  let environments ← Script.first (Script.read (·.environments))
  let agent ← Script.first (Script.update (.agent agentId) (lockRow fun (row : AgentRow) =>
    tenantOf environments row.environmentId = some tenantId ∧ works row.status))
  Script.failIf (agent = none) "Agent is unavailable"
  let sequence ← Script.second (Script.update (.controlSequence agentId) fun (last : Option Nat) =>
    some (last.getD 0 + 1, some (last.getD 0 + 1)))
  return toString (sequence.getD 0)

/-! ## Pairing -/

/-- `openWork` is what the transaction finds of requests with an unconsumed envelope or an open
    attempt, whose tables are not in this store. -/
structure PairAgentInput where
  tokenHash : String
  registration : AgentRegistration
  now : Int
  agentId : String
  openWork : List String
  deriving DecidableEq, Repr

def lockToken (input : PairAgentInput) (bootstrap : String × TokenRow) :
    SessionTransaction TokenRow := do
  let token ← Script.second (Script.update (.token bootstrap.1)
    (lockRow fun (row : TokenRow) => row.tenantId = bootstrap.2.tenantId))
  match token with
  | none => .fail "PAIRING_TOKEN_INVALID"
  | some token => do
    Script.failIf (token.consumedAt ≠ none ∨
      token.expiresAt ≤ IsoTimestamp.toISOString input.now) "PAIRING_TOKEN_INVALID"
    Script.failIf (token.environmentId ≠ input.registration.environmentId) "PAIRING_TOKEN_INVALID"
    return token

def lockEnvironment (input : PairAgentInput) (token : TokenRow) : SessionTransaction Unit := do
  let environment ← Script.first (Script.update (.environment token.environmentId)
    (lockRow fun (row : EnvironmentRow) => row.tenantId = token.tenantId))
  match environment with
  | none => .fail "PAIRING_TOKEN_INVALID"
  | some environment =>
    Script.failIf (environment.subjectHashKeyVersion ≠ input.registration.subjectHmacKeyVersion)
      "INVALID_AGENT_KEY"

def PairAgentInput.forced (input : PairAgentInput) (token : TokenRow) : ForceReplacement where
  tenantId := token.tenantId
  environmentId := token.environmentId
  registration := input.registration
  agentId := input.agentId
  now := input.now

/-- The jobs of an agent that is replaced by force. -/
def completeForced (input : PairAgentInput) (token : TokenRow) : SessionTransaction Unit :=
  if token.replacementMode = .force then do
    let _ ← (completeJobs (input.forced token)).first
    return ()
  else return ()

/-- What happens to the active agent. -/
def replaceAgent (input : PairAgentInput) (token : TokenRow) :
    Option (String × AgentRow) → SessionTransaction Unit
  | none => return ()
  | some (activeId, active) => do
    Script.failIf (active.publicSigningKey = input.registration.publicSigningKey)
      "AGENT_ALREADY_ACTIVE"
    Script.failIf (token.replacementMode = .none) "AGENT_REPLACEMENT_REQUIRES_OWNER_CONFIRMATION"
    Script.failIf (token.replacementMode = .drain ∧ input.openWork.length > 0)
      "AGENT_REPLACEMENT_BLOCKED_ACTIVE_WORK"
    completeForced input token
    let _ ← Script.first (Script.update (.agent activeId)
      (whenRow (fun (row : AgentRow) => row.environmentId = token.environmentId) fun row =>
        { row with status := .revoked }))
    return ()

def consumeAndPair (input : PairAgentInput) : SessionTransaction AgentRow := do
  let bootstrap ← Script.second (Script.read fun (w : Channels) =>
    w.tokens.entries.find? fun entry => entry.2.tokenHash = input.tokenHash)
  match bootstrap with
  | none => .fail "PAIRING_TOKEN_INVALID"
  | some bootstrap => do
    let token ← lockToken input bootstrap
    lockEnvironment input token
    let active ← (lockActiveAgents token.environmentId).first
    replaceAgent input token active.head?
    let agent := Pairing.newAgent input.registration token.environmentId
    let inserted ← Script.first (Script.update (.agent input.agentId) (whenAbsent agent))
    Script.failIf (inserted = none) "unique_violation"
    let consumed ← Script.second (Script.update (.token bootstrap.1)
      (whenRow (fun (row : TokenRow) => row.consumedAt = none) fun row =>
        { row with consumedAt := some (IsoTimestamp.toISOString input.now) }))
    Script.failIf (consumed = none) "PAIRING_TOKEN_INVALID"
    return agent

/-! ## The system -/

inductive GatewayReply where
  | claimed (previous : Option (Option String))
  | checked (active : Bool) (seen : Nat)
  | polled (offer : Option (String × AgentJobRow))
  | leased (lease : Option (LeaseKind × AgentJobRow))
  | renewed (job : Option AgentJobRow)
  | released (deleted : Bool)
  | done

/-- A job is handed out or extended. -/
def GatewayReply.handsOut : GatewayReply → Bool
  | .polled offer => offer.isSome
  | .leased lease => lease.isSome
  | .renewed job => job.isSome
  | _ => false

namespace Thread

def lookup (thread : Thread) (now : Int) : AgentJobLookup where
  tenantId := thread.session.tenantId
  agentId := thread.session.agentId
  environmentId := thread.session.environmentId
  now := now

/-- What a thread does once it has seen its session active. -/
def work (thread : Thread) (now : Int) : SessionTransaction GatewayReply :=
  match thread.route with
  | .lease jobId => do
    let lease ← (Gateway.lease { thread.lookup now with jobId }).first
    return .leased lease
  | .heartbeat jobId => do
    let job ← (Gateway.heartbeat { thread.lookup now with jobId }).first
    return .renewed job
  | .poll _ | .hello | .scan | .close => do
    let offer ← (Gateway.poll (thread.lookup now)).first
    return .polled offer.1

/-- The next call of a thread. -/
def call (thread : Thread) (now : Int) : SessionTransaction GatewayReply :=
  match thread.stage with
  | .claiming => do
    let previous ← claimTransport thread.session now
    return .claimed previous
  | .checking _ => do
    let active ← isTransportActive thread.session
    return .checked active.1 active.2
  | .working _ => thread.work now
  | .releasing => do
    let deleted ← releaseTransport thread.session
    return .released deleted
  | .finished => .fail "finished"

/-- The stage behind a call that was answered. -/
def nextStage (thread : Thread) : GatewayReply → Stage
  | .claimed _ => .checking (if thread.route = .hello then 1 else 0)
  | .checked true seen =>
    match thread.stage with
    | .checking (checks + 1) => .checking checks
    | _ => .working seen
  | .polled none => if 0 < thread.rounds then .checking 0 else .finished
  | _ => .finished

def after (thread : Thread) (reply : GatewayReply) : Thread :=
  { thread with
    rounds := match reply with
      | .polled none => thread.rounds - 1
      | _ => thread.rounds
    stage := thread.nextStage reply }

/-- What a call has changed about the session. -/
def event (thread : Thread) : GatewayReply → Option TransportEvent
  | .claimed (some _) => some (.claimed thread.session)
  | .released true => some (.released thread.session)
  | _ => none

/-- What the commit of a call has handed out. -/
def handover (thread : Thread) (reply : GatewayReply) (w : Channels) : Option Handover :=
  match thread.stage with
  | .working seen =>
    if reply.handsOut then
      some { session := thread.session
             named := w.sessions.find thread.session.agentId
             seen
             changes := (eventsOf thread.session.agentId w.events).length }
    else none
  | _ => none

end Thread

inductive GatewayRequest where
  /-- The next call of a thread, which is known with its state. -/
  | call (index : Nat) (thread : Thread) (now : Int)
  | authenticate (message : AgentMessage) (receivedAt : Int)
  | pair (input : PairAgentInput)
  | revoke (tenantId agentId : String)
  | enqueue (input : EnqueueAgentJobInput)
  | control (tenantId agentId : String)

namespace GatewayRequest

def script (libraries : MessageLibraries) : GatewayRequest → SessionTransaction GatewayReply
  | .call _ thread now => thread.call now
  | .authenticate message receivedAt => do
    let _ ← (Gateway.authenticate libraries message receivedAt).first
    return .done
  | .pair input => do
    let _ ← consumeAndPair input
    return .done
  | .revoke tenantId agentId => do
    (revokeAgent tenantId agentId).first
    return .done
  | .enqueue input => do
    let _ ← (Gateway.enqueue input).first
    return .done
  | .control tenantId agentId => do
    let _ ← nextControlSequence tenantId agentId
    return .done

/-- A thread makes the call it has come to. -/
def Current (w : GatewayWorld) : GatewayRequest → Prop
  | .call index thread _ => w.2.threads[index]? = some thread
  | _ => True

/-- Behind a call its thread goes on. -/
def settle (request : GatewayRequest) (reply : GatewayReply) (w : GatewayWorld) : GatewayWorld :=
  match request with
  | .call index thread _ =>
    (w.1, { w.2 with
      threads := w.2.threads.set index (thread.after reply)
      events := w.2.events ++ (thread.event reply).toList
      handovers := w.2.handovers ++ (thread.handover reply w.2).toList })
  | _ => w

end GatewayRequest

/-- Another thread is started. The one that claims a session is alone with its identifier: that of a
    message is accepted once, and a challenge is random. -/
def Opens (w w' : GatewayWorld) : Prop :=
  ∃ route session, session.transport = route.transport ∧
    (route.firstStage = .claiming →
      (∀ thread ∈ w.2.threads, thread.session ≠ session) ∧ .claimed session ∉ w.2.events) ∧
    w' = (w.1, { w.2 with threads := w.2.threads ++ [Thread.start route session] })

def gatewaySystem (libraries : MessageLibraries) :
    System GatewayWorld GatewayWorldRow GatewayRequest GatewayReply where
  starts w request := request.Current w
  body request := request.script libraries
  commits w request := request.Current w
  settle request reply w := request.settle reply w
  environment _ w w' := Opens w w'

theorem row_settle (request : GatewayRequest) (reply : GatewayReply) (w : GatewayWorld)
    (k : GatewayKey ⊕ ChannelKey) : RowStore.row (request.settle reply w) k = RowStore.row w k := by
  cases request with
  | call => rcases k with k | k <;> cases k <;> rfl
  | authenticate | pair | revoke | enqueue | control => rfl

theorem row_opens {w w' : GatewayWorld} (h : Opens w w') (k : GatewayKey ⊕ ChannelKey) :
    RowStore.row w' k = RowStore.row w k := by
  obtain ⟨route, session, -, -, rfl⟩ := h
  rcases k with k | k <;> cases k <;> rfl

end ForgetOps.Api.Gateway
