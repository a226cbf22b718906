import ForgetOps.Api.TransportExclusivity

/-
  The life of one socket of the agent gateway (`agent-gateway/websocket.ts`): its `message` and
  `close` handlers and the suspended steps of `authenticateHello`, between which anything may happen.

  A transaction on the sessions takes effect at one instant, which is an event of its own beside the
  step that goes on with its answer (`claimTransport_step`, `releaseTransport_step`). What only sends
  to the socket or asks it to close is left out: the close may come at any time as it is. A socket
  leaves nothing behind exactly when its claim does not take effect behind its release, and its hello
  does not come to its end behind its close (`cleanup`).
-/

namespace ForgetOps.Api.Gateway

open Database ReadCommitted

/-- `GatewayAgent`, as far as the socket reads it. -/
structure SocketAgent where
  tenantId : String
  agentId : String
  environmentId : String
  deriving DecidableEq, Repr

/-- The session of an agent on the socket with this challenge. -/
def SocketAgent.session (agent : SocketAgent) (challenge : String) : AgentSession where
  tenantId := agent.tenantId
  agentId := agent.agentId
  environmentId := agent.environmentId
  transport := .websocket
  sessionId := challenge

/-- Where `authenticateHello` is suspended. `settled` says that the transaction of the claim is over,
    and `answer` is what the check has read. -/
inductive HelloPoint where
  | authenticating
  | claiming (session : AgentSession) (settled : Bool)
  | checking (session : AgentSession) (answer : Option Bool)
  | sendingJob (session : AgentSession)
  deriving DecidableEq, Repr

/-- The variables of a socket, what it is waiting for, and the table of the sessions. -/
structure SocketState where
  closed : Bool
  authenticated : Option AgentSession
  challengeConsumed : Bool
  heartbeatTimer : Bool
  scanTimer : Bool
  hello : Option HelloPoint
  /-- A release that the close handler has started. -/
  releasing : Option AgentSession
  sessions : Table String TransportRow

/-- A hello that has not come back. -/
def SocketState.helloProcessing (s : SocketState) : Bool := s.hello.isSome

/-- The socket as it is opened. -/
def SocketState.opened (sessions : Table String TransportRow) : SocketState where
  closed := false
  authenticated := none
  challengeConsumed := false
  heartbeatTimer := true
  scanTimer := false
  hello := none
  releasing := none
  sessions := sessions

inductive SocketEvent (challenge : String) where
  /-- Whether the message passes the checks of `authenticateHello` before its first `await`. -/
  | message (accepted : Bool)
  /-- `authenticate` returns the agent, or throws. -/
  | authenticated (agent : Option SocketAgent)
  /-- The transaction of the claim is over; it is not granted to an agent that is revoked or not
      there. -/
  | claimSettles (granted : Bool) (now : Int)
  | claimReturns
  | claimThrows
  | checkReads
  | checkReturns
  | checkThrows
  | jobSent
  | jobThrows
  | close
  | releaseSettles
  /-- Another session is claimed or released. -/
  | otherClaimed (session : AgentSession) (other : session.sessionId ≠ challenge) (now : Int)
  | otherReleased (session : AgentSession) (other : session.sessionId ≠ challenge)

/-! ## The tables -/

/-- A claim that takes effect; row security refuses it where the row is of another tenant. -/
def claimIn (sessions : Table String TransportRow) (session : AgentSession) (now : Int) :
    Option (Table String TransportRow) :=
  (upsertSession session now (sessions.find session.agentId)).map fun answer =>
    sessions.set session.agentId answer.2

def releaseIn (sessions : Table String TransportRow) (session : AgentSession) :
    Table String TransportRow :=
  match deleteRow (fun (row : TransportRow) => row.Of session) (sessions.find session.agentId) with
  | some (_, row) => sessions.set session.agentId row
  | none => sessions

def activeIn (sessions : Table String TransportRow) (session : AgentSession) : Bool :=
  (sessions.find session.agentId).any fun row => row.Of session

/-! ## The handlers -/

variable {challenge : String}

namespace SocketState

variable (s : SocketState)

def onMessage (accepted : Bool) : SocketState :=
  if s.closed then s
  else if s.helloProcessing ∨ s.authenticated.isSome then s
  else if s.challengeConsumed ∨ ¬ accepted then s
  else { s with hello := some .authenticating }

def onClose : SocketState :=
  if s.closed then s
  else
    { s with
      closed := true
      heartbeatTimer := false
      scanTimer := false
      releasing := s.authenticated }

/-- The next step of the hello, if it waits for this event. -/
def onHello (e : SocketEvent challenge) : HelloPoint → SocketState
  | .authenticating =>
    match e with
    | .authenticated none => { s with hello := none }
    | .authenticated (some agent) =>
      { s with
        challengeConsumed := true
        authenticated := some (agent.session challenge)
        hello := some (.claiming (agent.session challenge) false) }
    | _ => s
  | .claiming session false =>
    match e with
    | .claimSettles true now =>
      match claimIn s.sessions session now with
      | some sessions => { s with sessions, hello := some (.claiming session true) }
      | none => s
    | .claimSettles false _ => { s with hello := some (.claiming session true) }
    | .claimThrows => { s with hello := none }
    | _ => s
  | .claiming session true =>
    match e with
    | .claimReturns => { s with hello := some (.checking session none) }
    | .claimThrows => { s with hello := none }
    | _ => s
  | .checking session none =>
    match e with
    | .checkReads =>
      { s with hello := some (.checking session (some (activeIn s.sessions session))) }
    | .checkThrows => { s with hello := none }
    | _ => s
  | .checking session (some active) =>
    match e with
    | .checkReturns => { s with hello := if active then some (.sendingJob session) else none }
    | .checkThrows => { s with hello := none }
    | _ => s
  | .sendingJob _ =>
    match e with
    | .jobSent => { s with scanTimer := true, hello := none }
    | .jobThrows => { s with hello := none }
    | _ => s

def step (s : SocketState) : SocketEvent challenge → SocketState
  | .message accepted => s.onMessage accepted
  | .close => s.onClose
  | .releaseSettles =>
    match s.releasing with
    | some session => { s with sessions := releaseIn s.sessions session, releasing := none }
    | none => s
  | .otherClaimed session _ now =>
    match claimIn s.sessions session now with
    | some sessions => { s with sessions }
    | none => s
  | .otherReleased session _ => { s with sessions := releaseIn s.sessions session }
  | e =>
    match s.hello with
    | some point => s.onHello e point
    | none => s

def run (s : SocketState) (events : List (SocketEvent challenge)) : SocketState :=
  events.foldl step s

/-! ## Cleaning up -/

/-- Closed, and nothing of it is to come. -/
def AtRest : Prop := s.closed ∧ s.hello = none ∧ s.releasing = none

/-- No row has this session identifier. -/
def Unnamed (challenge : String) (sessions : Table String TransportRow) : Prop :=
  ∀ agentId row, sessions.find agentId = some row → row.sessionId ≠ challenge

/-- No row is of the session of the socket, and none of its timers runs. -/
structure Clean (challenge : String) (s : SocketState) : Prop where
  sessions : Unnamed challenge s.sessions
  scanTimer : s.scanTimer = false
  heartbeatTimer : s.heartbeatTimer = false

/-- The claim does not take effect on a closed socket whose release is not to come, and the hello
    does not come to its end on a closed socket. -/
def Orderly (s : SocketState) : SocketEvent challenge → Prop
  | .claimSettles true now => ∀ session, s.hello = some (.claiming session false) →
      (claimIn s.sessions session now).isSome → s.closed → s.releasing ≠ none
  | .jobSent => ∀ session, s.hello = some (.sendingJob session) → ¬ s.closed
  | _ => True

/-! ## What a step does -/

end SocketState

/-- The session that a suspended hello is about. -/
def HelloPoint.session : HelloPoint → Option AgentSession
  | .authenticating => none
  | .claiming session _ | .checking session _ | .sendingJob session => some session

namespace SocketState

inductive Stepped (s : SocketState) : SocketEvent challenge → SocketState → Prop
  | unchanged {e} : Stepped s e s
  | greeted {e} (hopen : ¬ s.closed) (hfirst : s.authenticated = none) :
      Stepped s e { s with hello := some .authenticating }
  | authenticated {e} {agent : SocketAgent} (hhello : s.hello = some .authenticating) :
      Stepped s e
        { s with
          challengeConsumed := true
          authenticated := some (agent.session challenge)
          hello := some (.claiming (agent.session challenge) false) }
  | advanced {e} {point point' : HelloPoint} (hhello : s.hello = some point)
      (hsame : point'.session = point.session) : Stepped s e { s with hello := some point' }
  | ended {e} : Stepped s e { s with hello := none }
  | claimed {session : AgentSession} {now : Int} {sessions : Table String TransportRow}
      (hhello : s.hello = some (.claiming session false))
      (hclaim : claimIn s.sessions session now = some sessions) :
      Stepped s (.claimSettles true now)
        { s with sessions, hello := some (.claiming session true) }
  | jobSent {session : AgentSession} (hhello : s.hello = some (.sendingJob session)) :
      Stepped s .jobSent { s with scanTimer := true, hello := none }
  | closed {e} (hopen : ¬ s.closed) :
      Stepped s e
        { s with
          closed := true
          heartbeatTimer := false
          scanTimer := false
          releasing := s.authenticated }
  | released {e} {session : AgentSession} (hreleasing : s.releasing = some session) :
      Stepped s e { s with sessions := releaseIn s.sessions session, releasing := none }
  | otherClaimed {session : AgentSession} {now : Int} {sessions : Table String TransportRow}
      (other : session.sessionId ≠ challenge)
      (hclaim : claimIn s.sessions session now = some sessions) :
      Stepped s (.otherClaimed session other now) { s with sessions }
  | otherReleased {session : AgentSession} (other : session.sessionId ≠ challenge) :
      Stepped s (.otherReleased session other) { s with sessions := releaseIn s.sessions session }

variable {s : SocketState}

theorem onHello_cases (e : SocketEvent challenge) {point : HelloPoint}
    (hhello : s.hello = some point) : Stepped s e (s.onHello e point) := by
  unfold onHello
  split
  · split
    · exact .ended
    · exact .authenticated hhello
    · exact .unchanged
  · split
    · split
      · next hclaim => exact .claimed hhello hclaim
      · exact .unchanged
    · exact .advanced hhello rfl
    · exact .ended
    · exact .unchanged
  · split
    · exact .advanced hhello rfl
    · exact .ended
    · exact .unchanged
  · split
    · exact .advanced hhello rfl
    · exact .ended
    · exact .unchanged
  · split
    · split
      · exact .advanced hhello rfl
      · exact .ended
    · exact .ended
    · exact .unchanged
  · split
    · exact .jobSent hhello
    · exact .ended
    · exact .unchanged

theorem step_cases (s : SocketState) (e : SocketEvent challenge) : Stepped s e (s.step e) := by
  unfold step
  split
  · unfold onMessage
    split_ifs with hclosed hbusy hrefused
    · exact .unchanged
    · exact .unchanged
    · exact .unchanged
    · exact .greeted hclosed (Option.not_isSome_iff_eq_none.mp fun h => hbusy (.inr h))
  · unfold onClose
    split_ifs with hclosed
    · exact .unchanged
    · exact .closed hclosed
  · split
    · next hreleasing => exact .released hreleasing
    · exact .unchanged
  · split
    · next hclaim => exact .otherClaimed _ hclaim
    · exact .unchanged
  · exact .otherReleased _
  · split
    · next hhello => exact onHello_cases _ hhello
    · exact .unchanged

/-! ## The rows -/

/-- Behind a claim the row of its agent is of it, and the others are what they were. -/
theorem find_claimIn {sessions sessions' : Table String TransportRow} {session : AgentSession}
    {now : Int} (h : claimIn sessions session now = some sessions') :
    (∃ r, sessions'.find session.agentId = some r ∧ r.Of session) ∧
      ∀ agentId, agentId ≠ session.agentId → sessions'.find agentId = sessions.find agentId := by
  obtain ⟨answer, hupsert, rfl⟩ := Option.map_eq_some_iff.mp h
  obtain ⟨r, hr, hof⟩ := upsertSession_some hupsert
  refine ⟨⟨r, ?_, hof⟩, fun agentId hne => Table.find_set_of_ne _ _ hne⟩
  rw [Table.find_set_self, hr]

/-- A release takes the row of its session away, and no other. -/
theorem find_releaseIn {sessions : Table String TransportRow} {session : AgentSession}
    {agentId : String} {row : TransportRow} :
    (releaseIn sessions session).find agentId = some row ↔
      sessions.find agentId = some row ∧ ¬ (agentId = session.agentId ∧ row.Of session) := by
  unfold releaseIn
  cases hfind : sessions.find session.agentId with
  | none =>
    change sessions.find agentId = some row ↔ _
    refine (and_iff_left_of_imp ?_).symm
    rintro hrow ⟨rfl, -⟩
    rw [hfind] at hrow
    cases hrow
  | some current =>
    unfold deleteRow
    dsimp only
    by_cases hof : current.Of session
    · rw [if_pos hof]
      by_cases hagent : agentId = session.agentId
      · subst hagent
        rw [Table.find_set_self, hfind]
        refine iff_of_false (fun h => by cases h) ?_
        rintro ⟨⟨⟩, hnot⟩
        exact hnot ⟨rfl, hof⟩
      · rw [Table.find_set_of_ne _ _ hagent]
        exact (and_iff_left fun h => hagent h.1).symm
    · rw [if_neg hof]
      change sessions.find agentId = some row ↔ _
      refine (and_iff_left_of_imp ?_).symm
      rintro hrow ⟨rfl, hrowOf⟩
      rw [hfind] at hrow
      cases hrow
      exact hof hrowOf

/-! ## What holds of every socket -/

/-- The rows with this session identifier are of the session of the socket. -/
def Rows (challenge : String) (s : SocketState) : Prop :=
  ∀ agentId row, s.sessions.find agentId = some row → row.sessionId = challenge →
    ∃ session, s.authenticated = some session ∧ agentId = session.agentId ∧ row.Of session

structure Consistent (challenge : String) (s : SocketState) : Prop where
  rows : Rows challenge s
  hello : ∀ point, s.hello = some point → point.session = s.authenticated
  releasing : ∀ session, s.releasing = some session → s.authenticated = some session
  identified : ∀ session, s.authenticated = some session → session.sessionId = challenge
  heartbeatTimer : s.closed → s.heartbeatTimer = false

theorem Rows.otherClaimed (h : Rows challenge s) {session : AgentSession} {now : Int}
    {sessions : Table String TransportRow} (other : session.sessionId ≠ challenge)
    (hclaim : claimIn s.sessions session now = some sessions) :
    Rows challenge { s with sessions } := by
  obtain ⟨⟨r, hr, hof⟩, hframe⟩ := find_claimIn hclaim
  intro agentId row hrow hnamed
  by_cases hagent : agentId = session.agentId
  · subst hagent
    rw [show sessions.find session.agentId = some row from hrow] at hr
    cases hr
    exact absurd (hof.2.2.2.symm.trans hnamed) other
  · exact h agentId row ((hframe agentId hagent).symm.trans hrow) hnamed

theorem Rows.claimed (h : Rows challenge s) {session : AgentSession} {now : Int}
    {sessions : Table String TransportRow} {hello : Option HelloPoint}
    (hauthenticated : s.authenticated = some session)
    (hclaim : claimIn s.sessions session now = some sessions) :
    Rows challenge { s with sessions, hello } := by
  obtain ⟨⟨r, hr, hof⟩, hframe⟩ := find_claimIn hclaim
  intro agentId row hrow hnamed
  by_cases hagent : agentId = session.agentId
  · subst hagent
    rw [show sessions.find session.agentId = some row from hrow] at hr
    cases hr
    exact ⟨session, hauthenticated, rfl, hof⟩
  · exact h agentId row ((hframe agentId hagent).symm.trans hrow) hnamed

theorem Rows.released (h : Rows challenge s) (session : AgentSession)
    {releasing : Option AgentSession} :
    Rows challenge { s with sessions := releaseIn s.sessions session, releasing } :=
  fun agentId row hrow hnamed => h agentId row (find_releaseIn.mp hrow).1 hnamed

theorem Consistent.step (h : Consistent challenge s) (e : SocketEvent challenge) :
    Consistent challenge (s.step e) := by
  have hstep := step_cases s e
  generalize s.step e = s' at hstep
  cases hstep with
  | unchanged => exact h
  | greeted hopen hfirst =>
    refine ⟨h.rows, ?_, h.releasing, h.identified, h.heartbeatTimer⟩
    rintro point ⟨⟩
    exact hfirst.symm
  | authenticated hhello =>
    have hnone : s.authenticated = none := (h.hello _ hhello).symm
    refine ⟨?_, ?_, ?_, ?_, h.heartbeatTimer⟩
    · intro agentId row hrow hnamed
      obtain ⟨session, hsome, -⟩ := h.rows agentId row hrow hnamed
      rw [hnone] at hsome
      cases hsome
    · rintro point ⟨⟩
      rfl
    · intro session hreleasing
      rw [h.releasing session hreleasing] at hnone
      cases hnone
    · rintro session ⟨⟩
      rfl
  | advanced hhello hsame =>
    refine ⟨h.rows, ?_, h.releasing, h.identified, h.heartbeatTimer⟩
    rintro point ⟨⟩
    exact hsame.trans (h.hello _ hhello)
  | ended => exact ⟨h.rows, fun point hpoint => (by cases hpoint), h.releasing, h.identified,
      h.heartbeatTimer⟩
  | claimed hhello hclaim =>
    refine ⟨h.rows.claimed (h.hello _ hhello).symm hclaim, ?_, h.releasing, h.identified,
      h.heartbeatTimer⟩
    have hsession := h.hello _ hhello
    rintro point ⟨⟩
    exact hsession
  | jobSent hhello => exact ⟨h.rows, fun point hpoint => (by cases hpoint), h.releasing,
      h.identified, h.heartbeatTimer⟩
  | closed hopen =>
    exact ⟨h.rows, h.hello, fun _ => id, h.identified, fun _ => rfl⟩
  | released hreleasing =>
    exact ⟨h.rows.released _, h.hello, fun session hnone => (by cases hnone), h.identified,
      h.heartbeatTimer⟩
  | otherClaimed other hclaim =>
    exact ⟨h.rows.otherClaimed other hclaim, h.hello, h.releasing, h.identified, h.heartbeatTimer⟩
  | otherReleased other =>
    exact ⟨h.rows.released _, h.hello, h.releasing, h.identified, h.heartbeatTimer⟩

theorem consistent_opened {sessions : Table String TransportRow}
    (hunnamed : Unnamed challenge sessions) : Consistent challenge (opened sessions) where
  rows agentId row hrow hnamed := absurd hnamed (hunnamed agentId row hrow)
  hello _ h := by cases h
  releasing _ h := by cases h
  identified _ h := by cases h
  heartbeatTimer h := by cases h

theorem consistent_run (h : Consistent challenge s) (events : List (SocketEvent challenge)) :
    Consistent challenge (s.run events) := by
  induction events generalizing s with
  | nil => exact h
  | cons e events ih => exact ih (h.step e)

/-! ## What is left behind -/

/-- On a closed socket no scan timer runs, and a row of it has a release to come. -/
def Tidy (challenge : String) (s : SocketState) : Prop :=
  s.closed → s.scanTimer = false ∧ (s.releasing = none → Unnamed challenge s.sessions)

theorem Unnamed.otherClaimed {sessions sessions' : Table String TransportRow}
    {session : AgentSession} {now : Int} (h : Unnamed challenge sessions)
    (other : session.sessionId ≠ challenge) (hclaim : claimIn sessions session now = some sessions') :
    Unnamed challenge sessions' := by
  obtain ⟨⟨r, hr, hof⟩, hframe⟩ := find_claimIn hclaim
  intro agentId row hrow
  by_cases hagent : agentId = session.agentId
  · subst hagent
    rw [hrow] at hr
    cases hr
    exact fun hnamed => other (hof.2.2.2.symm.trans hnamed)
  · rw [hframe agentId hagent] at hrow
    exact h agentId row hrow

theorem Tidy.step (h : Tidy challenge s) (hs : Consistent challenge s) {e : SocketEvent challenge}
    (horderly : s.Orderly e) : Tidy challenge (s.step e) := by
  have hstep := step_cases s e
  generalize s.step e = s' at hstep
  cases hstep with
  | unchanged | authenticated | advanced | ended => exact h
  | greeted hopen => exact fun hclosed => absurd hclosed hopen
  | claimed hhello hclaim =>
    intro hclosed
    have hpending := horderly _ hhello (by rw [hclaim]; rfl) hclosed
    exact ⟨(h hclosed).1, fun hnone => absurd hnone hpending⟩
  | jobSent hhello => exact fun hclosed => absurd hclosed (horderly _ hhello)
  | closed hopen =>
    refine fun _ => ⟨rfl, fun hnone agentId row hrow hnamed => ?_⟩
    obtain ⟨session, hsome, -⟩ := hs.rows agentId row hrow hnamed
    rw [show s.authenticated = none from hnone] at hsome
    cases hsome
  | released hreleasing =>
    refine fun hclosed => ⟨(h hclosed).1, fun _ agentId row hrow hnamed => ?_⟩
    obtain ⟨hrow, hkept⟩ := find_releaseIn.mp hrow
    obtain ⟨session, hsome, hagent, hof⟩ := hs.rows agentId row hrow hnamed
    rw [hs.releasing _ hreleasing] at hsome
    cases hsome
    exact hkept ⟨hagent, hof⟩
  | otherClaimed other hclaim =>
    exact fun hclosed => ⟨(h hclosed).1, fun hnone => ((h hclosed).2 hnone).otherClaimed other hclaim⟩
  | otherReleased other =>
    exact fun hclosed => ⟨(h hclosed).1, fun hnone agentId row hrow =>
      (h hclosed).2 hnone agentId row (find_releaseIn.mp hrow).1⟩

theorem Tidy.clean (h : Tidy challenge s) (hs : Consistent challenge s) (hrest : s.AtRest) :
    Clean challenge s := by
  obtain ⟨hclosed, -, hreleasing⟩ := hrest
  exact ⟨(h hclosed).2 hreleasing, (h hclosed).1, hs.heartbeatTimer hclosed⟩

/-- A timer runs on a closed socket, or a row of it has no release to come. -/
def Leaves (challenge : String) (s : SocketState) : Prop :=
  s.closed ∧ (s.scanTimer = true ∨ s.releasing = none ∧ ¬ Unnamed challenge s.sessions)

theorem Leaves.not_clean (h : Leaves challenge s) : ¬ Clean challenge s := by
  intro hclean
  obtain ⟨-, hscan | ⟨-, hnamed⟩⟩ := h
  · rw [hclean.scanTimer] at hscan
    cases hscan
  · exact hnamed hclean.sessions

/-- A claim of the socket names it in the table. -/
theorem not_unnamed_of_claim (hs : Consistent challenge s) {session : AgentSession} {now : Int}
    {sessions : Table String TransportRow} (hhello : s.hello = some (.claiming session false))
    (hclaim : claimIn s.sessions session now = some sessions) : ¬ Unnamed challenge sessions := by
  obtain ⟨⟨r, hr, hof⟩, -⟩ := find_claimIn hclaim
  have hidentified := hs.identified session (hs.hello _ hhello).symm
  exact fun h => h _ r hr (hof.2.2.2.trans hidentified)

/-- Nothing but a claim of another session takes back what is left. -/
theorem Leaves.step (h : Leaves challenge s) (hs : Consistent challenge s)
    {e : SocketEvent challenge} (hown : ∀ session other now, e ≠ .otherClaimed session other now) :
    Leaves challenge (s.step e) := by
  obtain ⟨hclosed, hleft⟩ := h
  have hstep := step_cases s e
  generalize s.step e = s' at hstep
  cases hstep with
  | unchanged | authenticated | advanced | ended => exact ⟨hclosed, hleft⟩
  | greeted hopen | closed hopen => exact absurd hclosed hopen
  | claimed hhello hclaim =>
    refine ⟨hclosed, hleft.imp_right fun hrow => ⟨hrow.1, not_unnamed_of_claim hs hhello hclaim⟩⟩
  | jobSent hhello => exact ⟨hclosed, .inl rfl⟩
  | released hreleasing =>
    rcases hleft with hscan | ⟨hnone, -⟩
    · exact ⟨hclosed, .inl hscan⟩
    · rw [hnone] at hreleasing
      cases hreleasing
  | otherClaimed other hclaim => exact absurd rfl (hown _ other _)
  | otherReleased other =>
    refine ⟨hclosed, hleft.imp_right fun hrow => ⟨hrow.1, fun hunnamed => hrow.2 ?_⟩⟩
    intro agentId row hfind hnamed
    refine hunnamed agentId row (find_releaseIn.mpr ⟨hfind, ?_⟩) hnamed
    rintro ⟨-, hof⟩
    exact other (hof.2.2.2.symm.trans hnamed)

/-- A step out of order leaves something behind. -/
theorem leaves_of_not_orderly (hs : Consistent challenge s) {e : SocketEvent challenge}
    (h : ¬ s.Orderly e) : Leaves challenge (s.step e) := by
  unfold Orderly at h
  split at h
  · next now =>
    push Not at h
    obtain ⟨session, hhello, hsome, hclosed, hnone⟩ := h
    obtain ⟨sessions, hclaim⟩ := Option.isSome_iff_exists.mp hsome
    have hstep : s.step (.claimSettles true now : SocketEvent challenge) =
        { s with sessions, hello := some (.claiming session true) } := by
      simp only [step, hhello, onHello, hclaim]
    rw [hstep]
    exact ⟨hclosed, .inr ⟨hnone, not_unnamed_of_claim hs hhello hclaim⟩⟩
  · push Not at h
    obtain ⟨session, hhello, hclosed⟩ := h
    have hstep : s.step (.jobSent : SocketEvent challenge) =
        { s with scanTimer := true, hello := none } := by
      simp only [step, hhello, onHello]
    rw [hstep]
    exact ⟨hclosed, .inl rfl⟩
  · exact absurd trivial h

theorem run_append (events rest : List (SocketEvent challenge)) :
    s.run (events ++ rest) = (s.run events).run rest := List.foldl_append

theorem leaves_run (h : Leaves challenge s) (hs : Consistent challenge s)
    {rest : List (SocketEvent challenge)}
    (hown : ∀ session other now, .otherClaimed session other now ∉ rest) :
    Leaves challenge (s.run rest) := by
  induction rest generalizing s with
  | nil => exact h
  | cons e rest ih =>
    have hfirst : ∀ session other now, e ≠ .otherClaimed session other now := by
      rintro session other now rfl
      exact hown session other now List.mem_cons_self
    exact ih (h.step hs hfirst) (hs.step e) fun session other now hmem =>
      hown session other now (List.mem_cons_of_mem _ hmem)

theorem tidy_run (hs : Consistent challenge s) (h : Tidy challenge s)
    {events : List (SocketEvent challenge)}
    (horderly : ∀ before e, before ++ [e] <+: events → (s.run before).Orderly e) :
    Tidy challenge (s.run events) := by
  induction events using List.reverseRecOn with
  | nil => exact h
  | append_singleton events e ih =>
    rw [run_append]
    exact (ih fun before e' hbefore => horderly before e' (hbefore.trans (List.prefix_append _ _))).step
      (consistent_run hs events) (horderly events e List.prefix_rfl)

end SocketState

open SocketState

/-- A socket whose steps are in order leaves nothing behind. One step out of order does, unless
    another session is claimed later. -/
theorem cleanup {sessions : Table String TransportRow} (hunnamed : Unnamed challenge sessions)
    (events : List (SocketEvent challenge)) :
    ((∀ before e, before ++ [e] <+: events → ((opened sessions).run before).Orderly e) →
      ∀ before, before <+: events → ((opened sessions).run before).AtRest →
        Clean challenge ((opened sessions).run before)) ∧
    ∀ before e rest, before ++ e :: rest = events → ¬ ((opened sessions).run before).Orderly e →
      (∀ session other now, .otherClaimed session other now ∉ rest) →
      ¬ Clean challenge ((opened sessions).run events) := by
  have hopened := consistent_opened hunnamed
  constructor
  · intro horderly before hbefore hrest
    have htidy : Tidy challenge (opened sessions) := fun hclosed => by cases hclosed
    exact (tidy_run hopened htidy fun before' e hshorter =>
      horderly before' e (hshorter.trans hbefore)).clean (consistent_run hopened before) hrest
  · rintro before e rest rfl hdisorder hown
    have hbefore := consistent_run hopened before
    rw [run_append]
    exact (leaves_run (leaves_of_not_orderly hbefore hdisorder) (hbefore.step e) hown).not_clean

def firstSocketAgent : SocketAgent := ⟨"ten_1", "agt_1", "env_1"⟩

theorem unnamed_empty (challenge : String) : Unnamed challenge .empty := by
  intro agentId row hrow
  rw [Table.find_empty] at hrow
  cases hrow

/-- A hello up to the job that it sends, with the close before that. -/
def closedWhileSending : List (SocketEvent "chl_1") :=
  [.message true, .authenticated (some firstSocketAgent), .claimSettles true 0, .claimReturns,
    .checkReads, .checkReturns, .close, .releaseSettles]

/-- A socket that is closed at once, and one that is closed while its hello sends a job. -/
theorem cleanup_of_two_sockets :
    Clean "chl_1" ((opened .empty).run ([.close] : List (SocketEvent "chl_1"))) ∧
      ¬ Clean "chl_1" ((opened .empty).run (closedWhileSending ++ [.jobSent])) := by
  constructor
  · refine (cleanup (unnamed_empty "chl_1") [.close]).1 ?_ _ List.prefix_rfl ⟨rfl, rfl, rfl⟩
    intro before e hbefore
    have hmem : e ∈ ([.close] : List (SocketEvent "chl_1")) := hbefore.subset (by simp)
    rw [List.mem_singleton.mp hmem]
    trivial
  · refine (cleanup (unnamed_empty "chl_1") _).2 closedWhileSending .jobSent [] rfl ?_ ?_
    · exact fun horderly => horderly (firstSocketAgent.session "chl_1") rfl rfl
    · exact fun _ _ _ => List.not_mem_nil

/-- A socket that is closed while `authenticate` is suspended. -/
theorem closed_while_authenticating :
    ∃ s, s = (opened .empty).run ([.message true, .close, .authenticated (some firstSocketAgent),
        .claimSettles true 0, .claimReturns, .checkReads, .checkReturns, .jobSent] :
          List (SocketEvent "chl_1")) ∧
      s.AtRest ∧ s.scanTimer = true ∧ ¬ Unnamed "chl_1" s.sessions := by
  refine ⟨_, rfl, ⟨rfl, rfl, rfl⟩, rfl, ?_⟩
  exact fun hunnamed => hunnamed "agt_1" (newSession (firstSocketAgent.session "chl_1") 0) rfl rfl

end ForgetOps.Api.Gateway
