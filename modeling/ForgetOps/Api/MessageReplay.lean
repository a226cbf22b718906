import ForgetOps.Api.MessageAuthentication
import ForgetOps.Library.SequentialRuns

/-
  Replay protection, under all interleavings of authentications, claims and revocations.

  A claim that is accepted has locked its agent, so that it sees the last sequence as it is at the
  commit (`claimAgentMessage_effect`). The sequences accepted from an agent are therefore
  increasing and the last of them stands in the row (`ReplayFree`); the primary key of the
  receipts keeps the message identifiers apart, and a revoked row accepts nothing.
-/

namespace ForgetOps.Api.Gateway

open Database ReadCommitted RowStore Calendar

/-! ## The system -/

inductive MessageRequest where
  | authenticate (message : AgentMessage) (receivedAt : Int)
  | claim (input : ClaimAgentMessageInput)
  | revoke (tenantId agentId : String)

inductive MessageReply where
  | authenticated (result : Except AgentGatewayAuthError GatewayAgentIdentity)
  | claimed (result : AgentMessageClaimResult)
  | revoked

namespace MessageRequest

def script (libraries : MessageLibraries) : MessageRequest → GatewayTransaction MessageReply
  | .authenticate message receivedAt => do
    let result ← Gateway.authenticate libraries message receivedAt
    return .authenticated result
  | .claim input => do
    let result ← claimAgentMessage input
    return .claimed result
  | .revoke tenantId agentId => do
    revokeAgent tenantId agentId
    return .revoked

/-- Sequences are parsed before they are claimed. -/
def Starts : MessageRequest → Prop
  | .claim input => ∃ value sequence, parseSequence value = .ok sequence ∧
      input.sequence = toString sequence
  | _ => True

/-- What the commit of a transaction that answered this means for the agent. -/
def event : MessageRequest → MessageReply → Option MessageEvent
  | .authenticate message _, .authenticated (.ok _) =>
    some (.accepted message.agentId message.messageId ((bigInt message.sequence).getD 0))
  | .claim input, .claimed .accepted =>
    some (.accepted input.agentId input.messageId ((bigInt input.sequence).getD 0))
  | .revoke _ agentId, .revoked => some (.revoked agentId)
  | _, _ => none

end MessageRequest

/-- `w` with what a commit means added. -/
def Store.record (w : Store) (event : Option MessageEvent) : Store :=
  { w with messages := w.messages ++ event.toList }

def messageSystem (libraries : MessageLibraries) :
    System Store GatewayRow MessageRequest MessageReply where
  starts _ request := request.Starts
  body request := request.script libraries
  commits _ _ := True
  settle request reply w := w.record (request.event reply)
  environment _ _ _ := False

/-! ## What is claimed -/

/-- The messages accepted from an agent: their identifiers and sequences. -/
def acceptedFrom (agentId : String) (messages : List MessageEvent) : List (String × Nat) :=
  messages.filterMap fun
    | .accepted id messageId sequence => if id = agentId then some (messageId, sequence) else none
    | .revoked _ => none

/-- The greatest sequence, 0 without one. -/
def greatest (accepted : List (String × Nat)) : Nat := (accepted.map Prod.snd).foldr max 0

structure ReplayFree (w : Store) : Prop where
  increasing : ∀ agentId, ((acceptedFrom agentId w.messages).map Prod.snd).Pairwise (· < ·)
  bounded : ∀ agentId, ∀ m ∈ acceptedFrom agentId w.messages, m.2 ≤ 2 ^ 64 - 1
  messageIds : ∀ agentId, ((acceptedFrom agentId w.messages).map Prod.fst).Nodup
  sequences : ∀ agentId, ((acceptedFrom agentId w.messages).map Prod.snd).Nodup
  afterRevocation : ∀ agentId before after, w.messages = before ++ .revoked agentId :: after →
    acceptedFrom agentId after = []
  lastSequence : ∀ agentId row, w.agents.find agentId = some row →
    row.lastSequence = toString (greatest (acceptedFrom agentId w.messages))

/-- Nothing has been received yet. -/
structure Store.Unheard (w : Store) : Prop where
  messages : w.messages = []
  receipts : w.receipts = .empty
  lastSequence : ∀ agentId row, w.agents.find agentId = some row → row.lastSequence = "0"

/-! ## Sequences -/

theorem bigInt_toString (n : Nat) : bigInt (toString n) = some n := by
  have digits : (toString n).toList = Nat.toDigits 10 n := Nat.toList_repr
  unfold bigInt
  rw [digits]
  induction n using Nat.strongRecOn with
  | _ n ih =>
    rcases Nat.lt_or_ge n 10 with small | large
    · rw [Nat.toDigits_of_lt_base small]
      have := Decimal.value_concat [] (Nat.digitChar n)
      rw [List.nil_append] at this
      rw [this, Decimal.digitValue_digitChar small]
      simp [Decimal.value]
    · have digit : n % 10 < 10 := Nat.mod_lt _ (by decide)
      have shorter := ih (n / 10) (by omega) Nat.toList_repr
      rw [Nat.toDigits_of_base_le (by decide) large, Decimal.value_concat, shorter,
        Option.bind_some, Decimal.digitValue_digitChar digit, Option.map_some]
      congr 1
      omega

theorem parseSequence_ok {value : String} {n : Nat} (h : parseSequence value = .ok n) :
    bigInt value = some n ∧ n ≤ 2 ^ 64 - 1 := by
  unfold parseSequence at h
  split at h
  · split at h
    · next sequence parsed =>
      split at h
      · cases h
      · next bounded =>
        cases h
        refine ⟨parsed, ?_⟩
        unfold maxU64 at bounded
        omega
    · cases h
  · cases h

/-! ## What a claim does -/

section Effect

variable {R : List GatewayKey → Store → Store → Prop} {w : Store} {p p' : Point Store GatewayRow}

/-- The store with an accepted message. -/
def Store.accept (w : Store) (input : ClaimAgentMessageInput) (agent : AgentRow) : Store :=
  { w with
    agents := w.agents.set input.agentId (some { agent with lastSequence := input.sequence })
    receipts := w.receipts.set ⟨input.agentId, input.messageId⟩
      (some { sequence := input.sequence, receivedAt := input.receivedAt }) }

/-- A claim that is accepted when it is committed on `w`. -/
structure Accepts (w : Store) (input : ClaimAgentMessageInput) (agent : AgentRow)
    (sequence lastSequence : Nat) : Prop where
  stored : w.agents.find input.agentId = some agent
  active : agent.status ≠ .revoked
  bound : agent.environmentId = input.environmentId
  claimed : bigInt input.sequence = some sequence
  last : bigInt agent.lastSequence = some lastSequence
  later : lastSequence < sequence
  fresh : w.receipts.find ⟨input.agentId, input.messageId⟩ = none

theorem leads_lockAgent {tenantId agentId : String} {found : Option (String × AgentRow)}
    (hR : Rely R) (locks : Locks w p.log) (h : Leads R w (lockAgent tenantId agentId) p found p') :
    Locks w p'.log ∧ ∀ tenant agent, found = some (tenant, agent) →
      w.agents.find agentId = some agent ∧ .agent agentId ∈ keys p'.log := by
  obtain ⟨environments, p₁, read, h⟩ := leads_bind hR h
  obtain ⟨row, p₂, lock, h⟩ := leads_bind hR h
  obtain ⟨returned, log⟩ := leads_pure hR h
  have locks₁ : Locks w p₁.log := (leads_read hR read).1 ▸ locks
  obtain ⟨locks₂, taken⟩ := leads_lock hR locks₁ lockRow_locks lock
  rw [log]
  refine ⟨locks₂, ?_⟩
  intro tenant agent hfound
  rw [← returned] at hfound
  rcases taken with ⟨b, rfl, take, held⟩ | ⟨rfl, -⟩
  · obtain ⟨stored, -, -⟩ := lockRow_eq_some.mp take
    rw [Option.bind_some, Option.map_eq_some_iff] at hfound
    obtain ⟨_, -, same⟩ := hfound
    cases same
    exact ⟨stored, held⟩
  · cases hfound

theorem leads_recordMessage {input : ClaimAgentMessageInput} {agent : AgentRow} {a : Unit}
    (hR : Rely R) (locks : Locks w p.log) (stored : w.agents.find input.agentId = some agent)
    (held : .agent input.agentId ∈ keys p.log)
    (h : Leads R w (recordMessage input) p a p') :
    w.receipts.find ⟨input.agentId, input.messageId⟩ = none ∧
      view w p'.log = w.accept input agent := by
  obtain ⟨inserted, p₁, insert, h⟩ := leads_bind hR h
  obtain ⟨_, p₂, check, h⟩ := leads_bind hR h
  obtain ⟨answer, p₃, update, h⟩ := leads_bind hR h
  obtain ⟨-, log₃⟩ := leads_pure hR h
  obtain ⟨some_inserted, log₂⟩ := leads_failIf hR check
  rcases leads_update hR insert with ⟨_, v, -, take, log₁⟩ | ⟨rfl, -⟩
  · rw [locks.view_eq] at take
    obtain ⟨fresh, rfl⟩ := whenAbsent_eq_some.mp take
    refine ⟨fresh, ?_⟩
    have before : view w p₂.log = write w (.receipt ⟨input.agentId, input.messageId⟩)
        (some { sequence := input.sequence, receivedAt := input.receivedAt : ReceiptRow }) := by
      rw [log₂, log₁, view_concat, locks.view_eq]
    have current : row (view w p₂.log) (.agent input.agentId) = some agent := by
      rw [before, row_write_of_ne _ _ _ _ (by simp)]
      exact stored
    have held₂ : .agent input.agentId ∈ keys p₂.log := by
      rw [log₂, log₁, keys_concat]
      exact List.mem_append_left _ held
    rcases leads_update_held hR held₂ update with ⟨b, v, -, take, log⟩ | ⟨-, -, skip⟩
    · rw [current] at take
      obtain ⟨same, -, rfl⟩ := whenRow_eq_some.mp take
      cases same
      rw [log₃, log, view_concat, before]
      rfl
    · rw [current] at skip
      exact absurd trivial (whenRow_eq_none.mp skip agent rfl)
  · exact absurd rfl some_inserted

/-- An answer that is not an acceptance, with rows only locked before it. -/
theorem leads_refusal {answer result : AgentMessageClaimResult} (hR : Rely R)
    (locks : Locks w p.log) (h : Leads R w (pure answer) p result p')
    (notAccepted : answer ≠ .accepted) : result ≠ .accepted ∧ view w p'.log = w := by
  obtain ⟨rfl, log⟩ := leads_pure hR h
  exact ⟨notAccepted, log ▸ locks.view_eq⟩

/-- A claim is accepted by the row as it is at the commit, or it has changed nothing. -/
theorem leads_claimAgentMessage {input : ClaimAgentMessageInput} {result : AgentMessageClaimResult}
    (hR : Rely R) (locks : Locks w p.log)
    (h : Leads R w (claimAgentMessage input) p result p') :
    (result = .accepted ∧ ∃ agent n last, Accepts w input agent n last ∧
        view w p'.log = w.accept input agent) ∨
      (result ≠ .accepted ∧ view w p'.log = w) := by
  obtain ⟨found, p₁, lock, h⟩ := leads_bind hR h
  obtain ⟨locks₁, current⟩ := leads_lockAgent hR locks lock
  cases found with
  | none => exact Or.inr (leads_refusal hR locks₁ h (by decide))
  | some found =>
    obtain ⟨tenantId, agent⟩ := found
    obtain ⟨stored, held⟩ := current tenantId agent rfl
    dsimp only at h
    split at h
    · exact Or.inr (leads_refusal hR locks₁ h (by decide))
    · next scope =>
      rw [not_or, not_not, not_not] at scope
      split at h
      · exact Or.inr (leads_refusal hR locks₁ h (by decide))
      · next active =>
        unfold claimSequence at h
        split at h
        · next n last claimed lastSequence =>
          split at h
          · exact Or.inr (leads_refusal hR locks₁ h (by decide))
          · next later =>
            obtain ⟨duplicate, p₂, read, h⟩ := leads_bind hR h
            have log₂ := (leads_read hR read).1
            split at h
            · exact Or.inr (leads_refusal hR (log₂ ▸ locks₁) h (by decide))
            · obtain ⟨_, p₃, recorded, h⟩ := leads_bind hR h
              obtain ⟨rfl, log⟩ := leads_pure hR h
              obtain ⟨fresh, after⟩ :=
                leads_recordMessage hR (log₂ ▸ locks₁) stored (log₂ ▸ held) recorded
              refine Or.inl ⟨rfl, agent, n, last, ?_, log ▸ after⟩
              exact ⟨stored, active, scope.2, claimed, lastSequence, by omega, fresh⟩
        · exact (leads_fail h).elim

/-- The store with an agent revoked. -/
def Store.revoke (w : Store) (agentId : String) (agent : AgentRow) : Store :=
  { w with agents := w.agents.set agentId (some { agent with status := .revoked }) }

/-- What a commit has done to the store, and what it means for the agent. -/
inductive MessageStep (w : Store) : Store → Option MessageEvent → Prop
  | accept {input agent n last} (accepts : Accepts w input agent n last)
      (written : input.sequence = toString n) (bounded : n ≤ 2 ^ 64 - 1) :
      MessageStep w (w.accept input agent) (some (.accepted input.agentId input.messageId n))
  | revoke {agentId agent} (stored : w.agents.find agentId = some agent) :
      MessageStep w (w.revoke agentId agent) (some (.revoked agentId))
  | revoked {agentId agent} (stored : w.agents.find agentId = some agent)
      (status : agent.status = .revoked) : MessageStep w w (some (.revoked agentId))
  | idle : MessageStep w w none

theorem claim_step {input : ClaimAgentMessageInput}
    {result : AgentMessageClaimResult} {value : String} {n : Nat} (hR : Rely R)
    (locks : Locks w p.log) (parsed : parseSequence value = .ok n)
    (written : input.sequence = toString n)
    (h : Leads R w (claimAgentMessage input) p result p') :
    MessageStep w (view w p'.log)
      (if result = .accepted then some (.accepted input.agentId input.messageId n) else none) := by
  rcases leads_claimAgentMessage hR locks h with ⟨rfl, agent, n', last, accepts, after⟩ |
    ⟨refused, after⟩
  · have same : n = n' := by
      have claimed := accepts.claimed
      rw [written, bigInt_toString] at claimed
      exact Option.some.inj claimed
    subst same
    rw [if_pos rfl, after]
    exact .accept accepts written (parseSequence_ok parsed).2
  · rw [if_neg refused, after]
    exact .idle

theorem checkMessage_ok {message : AgentMessage} {receivedAt : Int} {n : Nat}
    (h : checkMessage message receivedAt = .ok n) : parseSequence message.sequence = .ok n := by
  unfold checkMessage at h
  split at h
  · cases h
  · split at h
    · cases h
    · split at h
      · cases h
      · exact h

theorem authenticate_step {libraries : MessageLibraries} {message : AgentMessage}
    {receivedAt : Int} {result : Except AgentGatewayAuthError GatewayAgentIdentity} (hR : Rely R)
    (locks : Locks w p.log)
    (h : Leads R w (authenticate libraries message receivedAt) p result p') :
    MessageStep w (view w p'.log)
      ((MessageRequest.authenticate message receivedAt).event (.authenticated result)) := by
  -- a rejection without a write
  have rejected : ∀ {q : Point Store GatewayRow} {e : AgentGatewayAuthError}, Locks w q.log →
      Leads R w (pure (.error e)) q result p' → MessageStep w (view w p'.log)
        ((MessageRequest.authenticate message receivedAt).event (.authenticated result)) := by
    intro q e hq hreturn
    obtain ⟨rfl, log⟩ := leads_pure hR hreturn
    rw [log, hq.view_eq]
    exact .idle
  unfold authenticate at h
  split at h
  · exact rejected locks h
  · next n checked =>
    have parsed := checkMessage_ok checked
    obtain ⟨identity, p₁, read, h⟩ := leads_bind hR h
    have locks₁ : Locks w p₁.log := (leads_read hR read).1 ▸ locks
    split at h
    · exact rejected locks₁ h
    · next agent _ =>
      obtain ⟨claim, p₂, claimed, h⟩ := leads_bind hR h
      obtain ⟨rfl, log⟩ := leads_pure hR h
      have hstep := claim_step hR locks₁ parsed rfl claimed
      rw [log]
      convert hstep using 1
      cases claim with
      | accepted =>
        simp [MessageRequest.event, claimAnswer, claimOf, (parseSequence_ok parsed).1]
      | notFound | environmentMismatch | revoked | replay => rfl

/-- What the others leave alone: environments, the environment of an agent, and revocations. -/
structure Undisturbed (held : List GatewayKey) (w w' : Store) : Prop where
  rows : SameRows held w w'
  environments : w'.environments = w.environments
  bound : ∀ agentId, (w'.agents.find agentId).map (·.environmentId) =
    (w.agents.find agentId).map (·.environmentId)
  revoked : ∀ agentId agent, w.agents.find agentId = some agent → agent.status = .revoked →
    ∃ agent', w'.agents.find agentId = some agent' ∧ agent'.status = .revoked

theorem rely_undisturbed : Rely Undisturbed where
  refl held w := ⟨rely_sameRows.refl _ _, rfl, fun _ => rfl, fun _ agent h hs => ⟨agent, h, hs⟩⟩
  trans h h' :=
    { rows := rely_sameRows.trans h.rows h'.rows
      environments := h'.environments.trans h.environments
      bound := fun id => (h'.bound id).trans (h.bound id)
      revoked := by
        intro id agent stored status
        obtain ⟨agent', stored', status'⟩ := h.revoked id agent stored status
        exact h'.revoked id agent' stored' status' }
  mono hsub h := ⟨rely_sameRows.mono hsub h.rows, h.environments, h.bound, h.revoked⟩
  agree h hk := h.rows _ hk

/-- A revocation that is answered has left its agent revoked. -/
theorem revoke_step {tenantId agentId : String} {a : Unit} {Inv : Store → Prop}
    (locks : Locks w p.log)
    (h : Leads (Within Inv Undisturbed) w (revokeAgent tenantId agentId) p a p') :
    MessageStep w (view w p'.log) (some (.revoked agentId)) := by
  have hR := rely_undisturbed.within Inv
  obtain ⟨environments, p₁, read, h⟩ := leads_bind hR h
  obtain ⟨result, p₂, update, h⟩ := leads_bind hR h
  obtain ⟨log₁, u₁, rfl, -, before⟩ := leads_read hR read
  have locks₁ : Locks w p₁.log := log₁ ▸ locks
  rw [(locks.at hR before).view_eq, ← before.1.environments] at update
  rcases leads_update hR update with ⟨agent, v, rfl, take, log₂⟩ |
    ⟨rfl, log₂, u, skip, -, later⟩
  · obtain ⟨-, log⟩ := leads_pure hR h
    rw [locks₁.view_eq] at take
    obtain ⟨stored, -, rfl⟩ := whenRow_eq_some.mp take
    rw [log, log₂, view_concat, locks₁.view_eq]
    exact .revoke stored
  · obtain ⟨existing, p₃, lookup, h⟩ := leads_bind hR h
    obtain ⟨log₃, u₃, rfl, start₃, later₃⟩ := leads_read hR lookup
    obtain ⟨found, log⟩ := leads_failIf hR h
    have locks₂ : Locks w p₂.log := log₂ ▸ locks₁
    rw [log, log₃, locks₂.view_eq]
    rw [(locks₁.at hR later).view_eq] at skip
    rw [(locks₂.at hR later₃).view_eq] at found
    obtain ⟨agent₃, found⟩ := Option.ne_none_iff_exists'.mp found
    obtain ⟨stored₃, visible⟩ := Option.filter_eq_some_iff.mp found
    -- the same agent was there when the statement left it alone
    have bound : (u.agents.find agentId).map (·.environmentId) = some agent₃.environmentId := by
      rw [← later.1.bound agentId, later₃.1.bound agentId, stored₃]
      rfl
    obtain ⟨agent, stored, same⟩ := Option.map_eq_some_iff.mp bound
    have status : agent.status = .revoked := by
      by_contra active
      refine whenRow_eq_none.mp skip agent stored ⟨?_, active⟩
      rw [same, later₃.1.environments]
      exact of_decide_eq_true visible
    obtain ⟨agent', stored', status'⟩ := later.1.revoked agentId agent stored status
    exact .revoked stored' status'

theorem script_step {libraries : MessageLibraries} {request : MessageRequest}
    {reply : MessageReply} {Inv : Store → Prop} (starts : request.Starts)
    (h : Leads (Within Inv Undisturbed) w (request.script libraries) p reply p')
    (locks : Locks w p.log) : MessageStep w (view w p'.log) (request.event reply) := by
  have hR := rely_undisturbed.within Inv
  cases request with
  | authenticate message receivedAt =>
    obtain ⟨result, p₁, authenticated, h⟩ := leads_bind hR h
    obtain ⟨rfl, log⟩ := leads_pure hR h
    rw [log]
    exact authenticate_step hR locks authenticated
  | claim input =>
    obtain ⟨value, n, parsed, written⟩ := starts
    obtain ⟨result, p₁, claimed, h⟩ := leads_bind hR h
    obtain ⟨rfl, log⟩ := leads_pure hR h
    rw [log]
    have hstep := claim_step hR locks parsed written claimed
    convert hstep using 1
    cases result with
    | accepted =>
      rw [MessageRequest.event, written, bigInt_toString]
      rfl
    | notFound | environmentMismatch | revoked | replay => rfl
  | revoke tenantId agentId =>
    obtain ⟨_, p₁, revoked, h⟩ := leads_bind hR h
    obtain ⟨rfl, log⟩ := leads_pure hR h
    rw [log]
    exact revoke_step locks revoked

end Effect

/-! ## Runs -/

@[simp] theorem acceptedFrom_append (agentId : String) (messages messages' : List MessageEvent) :
    acceptedFrom agentId (messages ++ messages') =
      acceptedFrom agentId messages ++ acceptedFrom agentId messages' :=
  List.filterMap_append

theorem greatest_concat (accepted : List (String × Nat)) (m : String × Nat) :
    greatest (accepted ++ [m]) = max (greatest accepted) m.2 := by
  unfold greatest
  induction accepted with
  | nil => simp
  | cons m' accepted ih =>
    rw [List.cons_append, List.map_cons, List.foldr_cons, ih, List.map_cons, List.foldr_cons,
      max_assoc]

theorem le_greatest {accepted : List (String × Nat)} {n : Nat}
    (h : n ∈ accepted.map Prod.snd) : n ≤ greatest accepted := by
  unfold greatest
  generalize accepted.map Prod.snd = sequences at h
  induction sequences with
  | nil => cases h
  | cons n' sequences ih =>
    rw [List.foldr_cons]
    rcases List.mem_cons.mp h with rfl | h
    · exact le_max_left _ _
    · exact (ih h).trans (le_max_right _ _)

/-- What every commit keeps. -/
structure Received (w : Store) : Prop where
  replayFree : ReplayFree w
  receipts : ∀ agentId, ∀ m ∈ acceptedFrom agentId w.messages,
    ∃ receipt, w.receipts.find ⟨agentId, m.1⟩ = some receipt
  revoked : ∀ agentId, .revoked agentId ∈ w.messages →
    ∃ agent, w.agents.find agentId = some agent ∧ agent.status = .revoked

theorem Store.Unheard.received {w : Store} (h : w.Unheard) : Received w where
  replayFree :=
    { increasing := by simp [h.messages, acceptedFrom]
      bounded := by simp [h.messages, acceptedFrom]
      messageIds := by simp [h.messages, acceptedFrom]
      sequences := by simp [h.messages, acceptedFrom]
      afterRevocation := by simp [h.messages]
      lastSequence := by
        intro agentId row stored
        rw [h.lastSequence agentId row stored, h.messages]
        have none_yet : greatest (acceptedFrom agentId []) = 0 := rfl
        rw [none_yet]
        decide }
  receipts := by simp [h.messages, acceptedFrom]
  revoked := by simp [h.messages]

/-- Replacing the row of an agent in its environment. -/
theorem undisturbed_set {w w' : Store} {held : List GatewayKey} {agentId : String}
    {agent agent' : AgentRow} (rows : SameRows held w w')
    (environments : w'.environments = w.environments)
    (agents : w'.agents = w.agents.set agentId (some agent'))
    (stored : w.agents.find agentId = some agent)
    (bound : agent'.environmentId = agent.environmentId)
    (revoked : agent.status = .revoked → agent'.status = .revoked) : Undisturbed held w w' := by
  refine ⟨rows, environments, ?_, ?_⟩
  · intro id
    by_cases same : id = agentId
    · subst same
      simp [agents, stored, bound]
    · rw [agents, Table.find_set_of_ne _ _ same]
  · intro id row found status
    by_cases same : id = agentId
    · subst same
      rw [stored] at found
      cases found
      exact ⟨agent', by rw [agents, Table.find_set_self], revoked status⟩
    · exact ⟨row, by rw [agents, Table.find_set_of_ne _ _ same, found], status⟩

theorem MessageStep.undisturbed {w w' : Store} {event : Option MessageEvent}
    (h : MessageStep w w' event) {held : List GatewayKey} (rows : SameRows held w w') :
    Undisturbed held w w' := by
  cases h with
  | accept accepts _ _ => exact undisturbed_set rows rfl rfl accepts.stored rfl id
  | revoke stored => exact undisturbed_set rows rfl rfl stored rfl fun _ => rfl
  | revoked _ _ => exact rely_undisturbed.refl _ _
  | idle => exact rely_undisturbed.refl _ _

/-- A revocation ends what is accepted from the agent. -/
theorem afterRevocation_record {w : Store} {event : MessageEvent} (h : ReplayFree w)
    (silent : ∀ agentId, .revoked agentId ∈ w.messages → acceptedFrom agentId [event] = []) :
    ∀ agentId before after, w.messages ++ [event] = before ++ .revoked agentId :: after →
      acceptedFrom agentId after = [] := by
  intro agentId before after split
  rcases concat_eq_append_cons split with ⟨rfl, -, -⟩ | ⟨after', rfl, earlier⟩
  · rfl
  · have mem : .revoked agentId ∈ w.messages := by
      rw [earlier]
      simp
    rw [acceptedFrom_append, h.afterRevocation agentId before after' earlier, silent agentId mem]
    rfl

theorem acceptedFrom_accepted (agentId id messageId : String) (sequence : Nat) :
    acceptedFrom agentId [.accepted id messageId sequence] =
      if id = agentId then [(messageId, sequence)] else [] := by
  unfold acceptedFrom
  by_cases same : id = agentId
  · simp [same]
  · simp [same]

theorem acceptedFrom_revoked (agentId id : String) : acceptedFrom agentId [.revoked id] = [] := rfl

/-- A revocation leaves everything that was accepted as it is. -/
theorem Received.record_revoked {w w' : Store} {agentId : String} (hw : Received w)
    (messages : w'.messages = w.messages) (receipts : w'.receipts = w.receipts)
    (agents : ∀ id agent', w'.agents.find id = some agent' →
      ∃ agent, w.agents.find id = some agent ∧ agent'.lastSequence = agent.lastSequence)
    (revoked : ∀ id, id = agentId ∨ .revoked id ∈ w.messages →
      ∃ agent, w'.agents.find id = some agent ∧ agent.status = .revoked) :
    Received (w'.record (some (.revoked agentId))) := by
  have after : (w'.record (some (.revoked agentId))).messages = w.messages ++ [.revoked agentId] := by
    rw [← messages]
    rfl
  have same : ∀ id, acceptedFrom id (w'.record (some (.revoked agentId))).messages =
      acceptedFrom id w.messages := by
    intro id
    rw [after, acceptedFrom_append, acceptedFrom_revoked, List.append_nil]
  refine ⟨⟨?_, ?_, ?_, ?_, ?_, ?_⟩, ?_, ?_⟩
  · intro id
    rw [same]
    exact hw.replayFree.increasing id
  · intro id
    rw [same]
    exact hw.replayFree.bounded id
  · intro id
    rw [same]
    exact hw.replayFree.messageIds id
  · intro id
    rw [same]
    exact hw.replayFree.sequences id
  · rw [after]
    exact afterRevocation_record hw.replayFree fun id _ => acceptedFrom_revoked id agentId
  · intro id row stored
    obtain ⟨agent, found, last⟩ := agents id row stored
    rw [same, last]
    exact hw.replayFree.lastSequence id agent found
  · intro id
    rw [same]
    show ∀ m ∈ _, ∃ receipt, w'.receipts.find _ = some receipt
    rw [receipts]
    exact hw.receipts id
  · intro id mem
    rw [after, List.mem_append, List.mem_singleton, MessageEvent.revoked.injEq] at mem
    exact revoked id mem.symm

/-- An accepted message goes behind all that were accepted from its agent. -/
theorem Received.record_accepted {w : Store} {input : ClaimAgentMessageInput} {agent : AgentRow}
    {n last : Nat} (hw : Received w) (accepts : Accepts w input agent n last)
    (written : input.sequence = toString n) (bounded : n ≤ 2 ^ 64 - 1) :
    Received ((w.accept input agent).record
      (some (.accepted input.agentId input.messageId n))) := by
  have split : ∀ id, acceptedFrom id ((w.accept input agent).record
      (some (.accepted input.agentId input.messageId n))).messages =
        acceptedFrom id w.messages ++
          if input.agentId = id then [(input.messageId, n)] else [] := by
    intro id
    rw [← acceptedFrom_accepted, ← acceptedFrom_append]
    rfl
  have last_eq : last = greatest (acceptedFrom input.agentId w.messages) := by
    have row := hw.replayFree.lastSequence input.agentId agent accepts.stored
    have parsed := accepts.last
    rw [row, bigInt_toString] at parsed
    exact (Option.some.inj parsed).symm
  have later : ∀ s ∈ (acceptedFrom input.agentId w.messages).map Prod.snd, s < n := by
    intro s mem
    have := le_greatest mem
    have := accepts.later
    omega
  have unseen : input.messageId ∉ (acceptedFrom input.agentId w.messages).map Prod.fst := by
    intro mem
    obtain ⟨m, mem, same⟩ := List.mem_map.mp mem
    obtain ⟨receipt, stored⟩ := hw.receipts input.agentId m mem
    rw [same, accepts.fresh] at stored
    cases stored
  have increasing : ∀ id, ((acceptedFrom id w.messages ++
      if input.agentId = id then [(input.messageId, n)] else []).map Prod.snd).Pairwise
        (· < ·) := by
    intro id
    by_cases same : input.agentId = id
    · subst same
      rw [if_pos rfl, List.map_append, List.pairwise_append]
      refine ⟨hw.replayFree.increasing _, by simp, ?_⟩
      intro s mem s' mem'
      rw [List.map_singleton, List.mem_singleton] at mem'
      exact mem' ▸ later s mem
    · rw [if_neg same, List.append_nil]
      exact hw.replayFree.increasing id
  refine ⟨⟨?_, ?_, ?_, ?_, ?_, ?_⟩, ?_, ?_⟩
  · intro id
    rw [split]
    exact increasing id
  · intro id m mem
    rw [split, List.mem_append] at mem
    rcases mem with mem | mem
    · exact hw.replayFree.bounded id m mem
    · split_ifs at mem
      · rw [List.mem_singleton.mp mem]
        exact bounded
      · cases mem
  · intro id
    rw [split, List.map_append]
    by_cases same : input.agentId = id
    · subst same
      rw [if_pos rfl, List.nodup_append]
      refine ⟨hw.replayFree.messageIds _, by simp, ?_⟩
      intro m mem m' mem' equal
      rw [List.map_singleton, List.mem_singleton] at mem'
      rw [equal, mem'] at mem
      exact unseen mem
    · rw [if_neg same, List.map_nil, List.append_nil]
      exact hw.replayFree.messageIds id
  · intro id
    rw [split]
    exact (increasing id).imp fun h => Nat.ne_of_lt h
  · refine afterRevocation_record (w := w) hw.replayFree ?_
    intro id mem
    rw [acceptedFrom_accepted]
    refine if_neg ?_
    rintro rfl
    obtain ⟨agent', stored, status⟩ := hw.revoked _ mem
    rw [accepts.stored] at stored
    cases stored
    exact accepts.active status
  · intro id row stored
    rw [split]
    have agents : (w.agents.set input.agentId
        (some { agent with lastSequence := input.sequence })).find id = some row := stored
    by_cases same : input.agentId = id
    · subst same
      rw [Table.find_set_self] at agents
      cases agents
      rw [if_pos rfl, greatest_concat, ← last_eq]
      have : max last n = n := by
        have := accepts.later
        omega
      rw [this]
      exact written
    · rw [Table.find_set_of_ne _ _ (Ne.symm same)] at agents
      rw [if_neg same, List.append_nil]
      exact hw.replayFree.lastSequence id row agents
  · intro id m mem
    rw [split, List.mem_append] at mem
    show ∃ receipt, (w.receipts.set ⟨input.agentId, input.messageId⟩ _).find ⟨id, m.1⟩ =
      some receipt
    by_cases same : (⟨id, m.1⟩ : ReceiptKey) = ⟨input.agentId, input.messageId⟩
    · rw [same, Table.find_set_self]
      exact ⟨_, rfl⟩
    · rw [Table.find_set_of_ne _ _ same]
      rcases mem with mem | mem
      · exact hw.receipts id m mem
      · split_ifs at mem with equal
        · rw [List.mem_singleton.mp mem, equal] at same
          exact absurd rfl same
        · cases mem
  · intro id mem
    have mem : MessageEvent.revoked id ∈
        w.messages ++ [.accepted input.agentId input.messageId n] := mem
    rw [List.mem_append, List.mem_singleton] at mem
    rcases mem with mem | mem
    · obtain ⟨row, stored, status⟩ := hw.revoked id mem
      have other : id ≠ input.agentId := by
        rintro rfl
        rw [accepts.stored] at stored
        cases stored
        exact accepts.active status
      refine ⟨row, ?_, status⟩
      exact (Table.find_set_of_ne _ _ other).trans stored
    · cases mem

theorem MessageStep.received {w w' : Store} {event : Option MessageEvent}
    (h : MessageStep w w' event) (hw : Received w) : Received (w'.record event) := by
  cases h with
  | accept accepts written bounded => exact hw.record_accepted accepts written bounded
  | @revoke agentId agent stored =>
    refine hw.record_revoked rfl rfl ?_ ?_
    · intro id agent' found
      by_cases same : id = agentId
      · subst same
        have found : (w.agents.set id (some { agent with status := .revoked })).find id =
          some agent' := found
        rw [Table.find_set_self] at found
        cases found
        exact ⟨agent, stored, rfl⟩
      · exact ⟨agent', (Table.find_set_of_ne _ _ same).symm.trans found, rfl⟩
    · intro id reason
      by_cases same : id = agentId
      · subst same
        exact ⟨_, Table.find_set_self _ _ _, rfl⟩
      · obtain ⟨row, found, status⟩ := hw.revoked id (reason.resolve_left same)
        exact ⟨row, (Table.find_set_of_ne _ _ same).trans found, status⟩
  | revoked stored status =>
    refine hw.record_revoked rfl rfl (fun id agent' found => ⟨agent', found, rfl⟩) ?_
    rintro id (rfl | mem)
    · exact ⟨_, stored, status⟩
    · exact hw.revoked id mem
  | idle =>
    have same : w.record none = w := by
      simp [Store.record]
    rw [same]
    exact hw

theorem messages_guarantee (libraries : MessageLibraries) :
    Guarantee (messageSystem libraries) Received fun _ => Undisturbed where
  rely _ := rely_undisturbed
  environment _ h := h.elim
  commit := by
    intro w u request reply log hw _ starts _ completes
    have hR := rely_undisturbed.within Received
    have hstep := script_step starts (completes.leads hR) (locks_nil w)
    refine ⟨hstep.received hw, ?_⟩
    intro _ held disjoint
    have undisturbed := hstep.undisturbed (sameRows_view disjoint)
    exact ⟨undisturbed.rows, undisturbed.environments, undisturbed.bound, undisturbed.revoked⟩

theorem messages_replay_free (libraries : MessageLibraries) {w : Store} (unheard : w.Unheard)
    {c : Conf Store GatewayRow MessageRequest MessageReply}
    (hc : Reachable (messageSystem libraries) w c) : ReplayFree c.world :=
  (hc.invariant (messages_guarantee libraries) unheard.received).replayFree

def firstClaim : ClaimAgentMessageInput where
  tenantId := "ten_1"
  agentId := "agt_1"
  environmentId := "env_1"
  messageId := "msg_1"
  sequence := "7"
  receivedAt := "2026-01-01T00:00:00.000Z"

/-- The store after the first message of the agent. -/
def firstHeard : Store :=
  { firstAgents with
    agents := firstAgents.agents.set "agt_1" ((firstAgents.agents.find "agt_1").map fun agent =>
      { agent with lastSequence := "7" })
    receipts := Table.empty.set ⟨"agt_1", "msg_1"⟩ (some
      { sequence := "7", receivedAt := "2026-01-01T00:00:00.000Z" })
    messages := [.accepted "agt_1" "msg_1" 7] }

theorem messages_replay_free_of_first_claim : ReplayFree firstHeard := by
  let libraries : MessageLibraries :=
    { keyIdForPublicKey := fun key => key, decodeBase64Url := fun _ => [],
      encodeBase64Url := fun _ => "", agentMessageSigningBytes := fun _ => none,
      verify := fun _ _ _ => false }
  have unheard : firstAgents.Unheard := by
    refine ⟨rfl, rfl, ?_⟩
    intro agentId row stored
    by_cases same : agentId = "agt_1"
    · subst same
      cases stored
      rfl
    · rw [firstAgents, Table.find_set_of_ne _ _ same] at stored
      cases stored
  have starts : (messageSystem libraries).starts firstAgents (.claim firstClaim) :=
    ⟨"7", 7, rfl, by decide⟩
  have claimed := steps_transaction (allowed_nil _) starts rfl trivial
  exact messages_replay_free libraries unheard claimed

end ForgetOps.Api.Gateway
