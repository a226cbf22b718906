import ForgetOps.Database.System
import ForgetOps.Library.SequentialRuns
import ForgetOps.Domain.AuditTamper

/-
  Runs in which one transaction follows the other.

  `play` computes where such a run ends, and `play_reachable` says that the end is reachable. It is
  how concrete states of the system are reached here.
-/

namespace ForgetOps.Database

open Domain Api
open ReadCommitted RowStore

/-- One step of a run without concurrency. -/
inductive Move where
  | act (action : ProcessAction)
  | transact (request : World → TransactionRequest)

/-- `save(aggregate, expectedVersion)` of the aggregate at the index `i`. -/
def callSave (i : Nat) (tenantId : String) (expectedVersion : Int) (persistedAt : Timestamp)
    (stamps : Nat → Stamp) (w : World) : TransactionRequest :=
  match w.aggregates[i]? with
  | some a => .save
      { aggregate := i, tenantId, snapshot := a.snapshot, pendingEvents := a.pendingEvents,
        expectedVersion, persistedAt, stamps }
  | none => .other (.job "" none)

instance (w : World) : (request : TransactionRequest) → Decidable (request.Starts w)
  | .save input =>
    match h : w.aggregates[input.aggregate]? with
    | some a => decidable_of_iff (input.snapshot = a.snapshot ∧ input.pendingEvents = a.pendingEvents)
        ⟨fun heq => ⟨a, h, heq⟩, fun ⟨a', h', heq⟩ => by
          rwa [Option.some.inj (h.symm.trans h')]⟩
    | none => isFalse fun ⟨_, h', _⟩ => nomatch h.symm.trans h'
  | .bindSubject _ => isTrue trivial
  | .consumeAndPair _ => isTrue trivial
  | .other _ => isTrue trivial

instance (w : World) : (action : ProcessAction) → Decidable (w.Enabled action)
  | .create _ => isTrue trivial
  | .command _ _ => isTrue trivial
  | .acknowledge ack => inferInstanceAs (Decidable (ack ∈ w.acknowledgements))
  | .lose ack => inferInstanceAs (Decidable (ack ∈ w.acknowledgements))

/-- The moves one after the other, as long as `ok` lets them; `none` where one is not possible. -/
def play (rt : Runtime) (ok : World → Move → Bool) : World → List Move → Option World
  | w, [] => some w
  | w, .act action :: moves =>
    if ok w (.act action) = true ∧ w.Enabled action then play rt ok (w.act action) moves else none
  | w, .transact request :: moves =>
    if ok w (.transact request) = true ∧ (request w).Starts w then
      match ((request w).script rt).run w [] [] with
      | .ok o => play rt ok ((request w).settle (view w o.log)) moves
      | .error _ => none
    else none

/-- What `ok` lets pass, the discipline allows. -/
structure Obeys (ok : World → Move → Bool) (d : Discipline) : Prop where
  acts : ∀ w action, ok w (.act action) = true → d.acts (fun _ => False) w action
  commits : ∀ w request, ok w (.transact request) = true → d.commits w (request w)

variable {rt : Runtime} {d : Discipline}

theorem play_steps {ok : World → Move → Bool} (hok : Obeys ok d) {w w' : World}
    {moves : List Move} (h : play rt ok w moves = some w') :
    Relation.ReflTransGen (Step (system rt d)) ⟨w, fun _ => none⟩ ⟨w', fun _ => none⟩ := by
  induction moves generalizing w with
  | nil =>
    cases h
    exact .refl
  | cons move moves ih =>
    cases move with
    | act action =>
      rw [play] at h
      split at h
      · next hmove =>
        refine .head (steps_idle ?_) (ih h)
        exact ⟨action, hmove.2, hok.acts w action hmove.1, rfl⟩
      · cases h
    | transact request =>
      rw [play] at h
      split at h
      swap
      · cases h
      next hmove =>
      split at h
      · next o hrun =>
        have hworld := run_world hrun
        have hsteps := steps_transaction (S := system rt d) (allowed_nil _) hmove.2 hrun
          (by rw [hworld]; exact hok.commits w request hmove.1)
        rw [hworld] at hsteps
        exact hsteps.trans (ih h)
      · cases h

/-- Where such a run ends is reachable. -/
theorem play_reachable {ok : World → Move → Bool} (hok : Obeys ok d) {w : World}
    {moves : List Move} (h : play rt ok World.initial moves = some w) :
    Reachable rt d ⟨w, fun _ => none⟩ :=
  play_steps hok h

/-- What may be played under a stricter rule ends at the same store under this one. -/
theorem play_weaken {ok ok' : World → Move → Bool} (hok : ∀ w m, ok w m = true → ok' w m = true)
    {w w' : World} {moves : List Move} (h : play rt ok w moves = some w') :
    play rt ok' w moves = some w' := by
  induction moves generalizing w with
  | nil => exact h
  | cons move moves ih =>
    cases move with
    | act action =>
      rw [play] at h ⊢
      split at h
      · next hmove =>
        rw [if_pos ⟨hok _ _ hmove.1, hmove.2⟩]
        exact ih h
      · cases h
    | transact request =>
      rw [play] at h ⊢
      split at h
      swap
      · cases h
      next hmove =>
      rw [if_pos ⟨hok _ _ hmove.1, hmove.2⟩]
      split at h
      · exact ih h
      · cases h

theorem play_append {ok : World → Move → Bool} (w : World) (moves moves' : List Move) :
    play rt ok w (moves ++ moves') = (play rt ok w moves).bind fun w => play rt ok w moves' := by
  induction moves generalizing w with
  | nil => rfl
  | cons move moves ih =>
    cases move with
    | act action =>
      rw [List.cons_append, play, play]
      split
      · exact ih _
      · rfl
    | transact request =>
      rw [List.cons_append, play, play]
      split
      · split
        · exact ih _
        · rfl
      · rfl

/-- A run that has been played from the initial store, and where it ends. -/
structure Replay (rt : Runtime) (ok : World → Move → Bool) where
  moves : List Move
  world : World
  played : play rt ok World.initial moves = some world

/-! ## A first request

A request that is created, verified, planned and authorized, and then saved with its five events.
The runtime writes JSON that needs no escapes, and knows the SHA-256 digests of these events. -/

def quoted (s : String) : String := "\"" ++ s ++ "\""

def plainJson : EventValue → String
  | .string s => quoted s
  | .number n => toString n
  | .boolean b => toString b
  | .null => "null"
  | .strings xs => "[" ++ ",".intercalate (xs.map quoted) ++ "]"

def plainObject (fields : List (String × String)) : String :=
  "\x7b" ++ ",".intercalate (fields.map fun field => quoted field.1 ++ ":" ++ field.2) ++ "\x7d"

/-- The canonical JSON of an event whose strings need no escapes. -/
def plainCanonicalize (event : AuditEventWithoutHashes Payload) : String :=
  let metadata := event.metadata.insertionSort fun a b => a.1 ≤ b.1
  plainObject [
    ("action", quoted event.action), ("actorId", quoted event.actorId),
    ("actorType", quoted (match event.actorType with
      | .user => "user"
      | .agent => "agent"
      | .system => "system")),
    ("createdAt", quoted event.createdAt), ("environmentId", quoted event.environmentId),
    ("id", quoted event.id),
    ("metadata", plainObject (metadata.map fun field => (field.1, plainJson field.2))),
    ("requestId", (event.requestId.map quoted).getD "null"),
    ("sequence", quoted event.sequence), ("tenantId", quoted event.tenantId)]

/-- The digests of the inputs hashed here, by the lengths of the inputs. -/
def firstHashes : List (Nat × String) := [
  (328, "0f5ebd6cfd58887ce2080a8fe060f57807896305c6980668703ebb3bce485d9e"),
  (279, "68dfb1223527fee63ddafdd2dfc1222b5400d3e956973691344a5cbafea5c27b"),
  (293, "0a345167e9190fbc4f267ddd5519554e51f161bb8dfaa5124be2c42989aef7bc"),
  (365, "1818bc569f355c67e28632ee5f93fe04a2c26dcf126f73658df604fb5c89acbc"),
  (431, "a88e9826a99804dbaf9df1e84c74bc6078ded230e29f7f048fadc2effee8944d")]

def firstRuntime : Runtime where
  sha256 input := digestOf ((firstHashes.lookup input.length).getD "")
  canonicalize event := some (plainCanonicalize event)
  localeCompare a b := compare a b

def noon : Timestamp := "2026-07-21T12:00:00.000Z"

def firstStamps (i : Nat) : Stamp := ⟨"e" ++ toString i, noon⟩

def firstBinding : PlanBinding := { planId := "plan", planVersion := 1, planFingerprint := "f" }

def firstCalls : List Call := [
  ⟨some noon, .markIdentityVerified "u"⟩,
  ⟨some noon, .beginPlanning "agent-1"⟩,
  ⟨some noon, .attachPlan { firstBinding with requiresApproval := false }⟩,
  ⟨some noon, .authorizeExecution { firstBinding with
    agentId := "agent-1", attemptId := "attempt-1", allowedStepIds := ["step-1"] }⟩]

def firstRequest : CreatePrivacyRequest where
  id := "r"
  environmentId := "env"
  type := .delete
  source := .admin
  policyVersion := 1
  createdByActorId := "u"
  deadlineAt := "2026-08-20T12:00:00.000Z"

/-- Up to the creation of the request. -/
def firstMoves : List Move := [
  .transact fun _ => .other (.environment "env" (some ⟨"t", 1, 1⟩)),
  .act (.create firstRequest)]

/-- Up to the acknowledgement of its first save. -/
def savedMoves : List Move :=
  firstMoves ++ firstCalls.map (fun call => .act (.command 0 call)) ++ [
    .transact (callSave 0 "t" 0 noon firstStamps),
    .act (.acknowledge ⟨0, 5⟩)]

/-- A forced replacement of the agent, after the save. -/
def firstPairing : ConsumeAndPairInput where
  tokenHash := "hash"
  registration :=
    { environmentId := "env", publicSigningKey := "key-2", publicEncryptionKey := "box-2",
      signingKeyId := "s2", encryptionKeyId := "b2", subjectHmacKeyVersion := 1, version := "1.0.0",
      protocolVersion := "1", instanceFingerprint := "host" }
  now := "2026-07-21T13:00:00.000Z"
  agentId := "agent-2"

def firstAgent : AgentRow where
  environmentId := "env"
  publicSigningKey := "key-1"
  publicEncryptionKey := "box-1"
  signingKeyId := some "s1"
  encryptionKeyId := some "b1"
  version := "1.0.0"
  protocolVersion := "1"
  instanceFingerprint := "host"
  status := .online
  lastSequence := "0"

def forceToken : TokenRow where
  tenantId := "t"
  environmentId := "env"
  tokenHash := "hash"
  replacementMode := .force
  expiresAt := "2026-07-22T12:00:00.000Z"
  consumedAt := none

/-- Up to where the forced replacement may start. -/
def tokenMoves : List Move :=
  savedMoves ++ [
    .transact fun _ => .other (.agent "agent-1" (some firstAgent)),
    .transact fun _ => .other (.token "token" forceToken)]

/-- Whatever is played may be played without a discipline. -/
theorem obeys_anyRun (ok : World → Move → Bool) : Obeys ok anyRun :=
  ⟨fun _ _ _ => trivial, fun _ _ _ => trivial⟩

/-- Where the moves end, from the initial store. -/
@[irreducible] def playedWorld (ok : World → Move → Bool) (moves : List Move) : World :=
  (play firstRuntime ok World.initial moves).getD World.initial

/-- Nothing is bound and no agent is paired. -/
def onlySaves (w : World) : Move → Bool
  | .act _ => true
  | .transact request =>
    match request w with
    | .save _ | .other _ => true
    | _ => false

/-- A single aggregate, and no command on it before its save is acknowledged. -/
def oneAggregate (w : World) : Move → Bool
  | .act action => decide ((w.act action).aggregates.length ≤ 1) && match action with
    | .command _ _ => w.acknowledgements.isEmpty
    | _ => true
  | .transact _ => true

/-! ### Where the first request ends -/

def savedAggregate : PrivacyRequestAggregate :=
  { after (PrivacyRequestAggregate.create firstRequest) firstCalls with events := [] }

def savedRequest : RequestRow where
  tenantId := "t"
  environmentId := "env"
  type := .delete
  source := .admin
  subjectHash := none
  subjectHashKeyVersion := none
  subjectCanonicalizationVersion := none
  duplicateOverride := false
  duplicateOfRequestId := none
  currentAttemptId := some "attempt-1"
  status := .executionAuthorized
  policyVersion := 1
  deadlineAt := "2026-08-20T12:00:00.000Z"
  createdByActorId := "u"
  createdAt := noon
  completedAt := none
  version := 5

def savedAttempt : AttemptRow :=
  { firstBinding with
    tenantId := "t"
    environmentId := "env"
    requestId := "r"
    attemptNumber := 1
    kind := .initial
    allowedStepIds := ["step-1"]
    status := .authorized
    createdAt := noon
    completedAt := none }

def firstEvents : List DomainEvent :=
  (after (PrivacyRequestAggregate.create firstRequest) firstCalls).events

/-- Who did it, and the hash of the event. -/
def firstRecords : List (ActorType × String × String) := [
  (.system, "forgetops-domain",
    "0f5ebd6cfd58887ce2080a8fe060f57807896305c6980668703ebb3bce485d9e"),
  (.user, "u", "68dfb1223527fee63ddafdd2dfc1222b5400d3e956973691344a5cbafea5c27b"),
  (.agent, "agent-1", "0a345167e9190fbc4f267ddd5519554e51f161bb8dfaa5124be2c42989aef7bc"),
  (.system, "forgetops-domain",
    "1818bc569f355c67e28632ee5f93fe04a2c26dcf126f73658df604fb5c89acbc"),
  (.agent, "agent-1", "a88e9826a99804dbaf9df1e84c74bc6078ded230e29f7f048fadc2effee8944d")]

def firstHash (i : Nat) : Option String := (firstRecords[i]?).map (·.2.2)

def savedAuditRow (i : Nat) (event : DomainEvent) (record : ActorType × String × String) :
    AuditRow where
  tenantId := "t"
  environmentId := "env"
  sequence := i + 1
  requestId := some "r"
  actorType := record.1
  actorId := record.2.1
  action := event.type
  metadata := event.payload
  previousEventHash := if i = 0 then none else firstHash (i - 1)
  eventHash := record.2.2
  createdAt := noon

def savedOutboxRow (event : DomainEvent) : OutboxRow where
  tenantId := "t"
  environmentId := "env"
  aggregateId := "r"
  type := event.type
  payload := event.payload
  occurredAt := noon

def savedWorld : World :=
  { World.initial with
    requests := ⟨[("r", savedRequest)], by decide⟩
    attempts := ⟨[("attempt-1", savedAttempt)], by decide⟩
    auditEvents := ⟨(firstEvents.zip firstRecords).mapIdx fun i e =>
      ((firstStamps i).id, savedAuditRow i e.1 e.2), by decide⟩
    outboxEvents := ⟨firstEvents.mapIdx fun i event =>
      ((firstStamps i).id, savedOutboxRow event), by decide⟩
    chainHeads := ⟨[("env", ⟨"t", 5, firstHash 4⟩)], by decide⟩
    environments := ⟨[("env", ⟨"t", 1, 1⟩)], by decide⟩
    aggregates := [savedAggregate] }

deriving instance DecidableEq for Table, World

/-- The first request up to the acknowledgement of its save. -/
def savedRun : Replay firstRuntime fun w move => onlySaves w move && oneAggregate w move where
  moves := savedMoves
  world := savedWorld
  played := by decide +kernel

theorem savedMoves_played {ok : World → Move → Bool}
    (hok : ∀ w move, (onlySaves w move && oneAggregate w move) = true → ok w move = true) :
    play firstRuntime ok World.initial savedMoves = some savedWorld :=
  play_weaken hok savedRun.played

theorem playedWorld_eq {ok : World → Move → Bool} {moves : List Move} {w : World}
    (h : play firstRuntime ok World.initial moves = some w) : playedWorld ok moves = w := by
  rw [playedWorld, h, Option.getD_some]

/-- The store before the forced replacement. -/
def tokenWorld : World :=
  { savedWorld with
    agents := ⟨[("agent-1", firstAgent)], by decide⟩
    tokens := ⟨[("token", forceToken)], by decide⟩ }

/-- The store after the forced replacement. -/
def forcedWorld : World :=
  { tokenWorld with
    requests := ⟨[("r", { savedRequest with status := .needsReview, version := 6 })], by decide⟩
    attempts := ⟨[("attempt-1", { savedAttempt with
      status := .needsReview, completedAt := some firstPairing.now })], by decide⟩
    agents := ⟨[("agent-1", { firstAgent with status := .revoked }),
      ("agent-2", Pairing.newAgent firstPairing.registration "env")], by decide⟩
    tokens := ⟨[("token", { forceToken with consumedAt := some firstPairing.now })], by decide⟩ }

theorem tokenMoves_played :
    play firstRuntime (fun _ _ => true) World.initial tokenMoves = some tokenWorld := by
  rw [tokenMoves, play_append, savedMoves_played fun _ _ _ => rfl, Option.bind_some]
  rfl

theorem forcedMoves_played :
    play firstRuntime (fun _ _ => true) tokenWorld
      [.transact fun _ => .consumeAndPair firstPairing] = some forcedWorld := by
  rfl

theorem played_playedWorld {ok : World → Move → Bool} {moves : List Move}
    (h : (play firstRuntime ok World.initial moves).isSome = true) :
    play firstRuntime ok World.initial moves = some (playedWorld ok moves) := by
  obtain ⟨w, hw⟩ := Option.isSome_iff_exists.mp h
  rw [playedWorld_eq hw, hw]

end ForgetOps.Database
