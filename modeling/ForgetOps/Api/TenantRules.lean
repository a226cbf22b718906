import ForgetOps.Api.TenantHierarchy
import ForgetOps.Library.StableFacts

/-
  What the rows of a tenant rest on, and what a save learns of it.

  No foreign key ties tenant, environment and request together. But what a project, an environment,
  an agent, a request or a job belongs to never changes (`factOf`), and a row is good where the rows
  it names belong to what it says (`goodRow`). Each transaction learns what it needs from the rows it
  reads or locks before it writes.
-/

namespace ForgetOps.Api.Tenants

open Database ReadCommitted Gateway
open ReadCommitted (Script)

/-! ## What is never taken back -/

/-- What a row belongs to. -/
inductive Belonging where
  | project (tenantId : String)
  | environmentProject (projectId : String)
  | environment (tenantId : String)
  | agent (environmentId : String)
  | request (tenantId environmentId : String)
  | job (tenantId environmentId : String)
  deriving DecidableEq, Repr

abbrev TenantFacts := Facts (Key ⊕ TenancyKey) Belonging

def factOf : (k : Key ⊕ TenancyKey) → TenantWorldRow k → Option Belonging
  | .inl (.request _), r =>
    Option.map (fun row : RequestRow => .request row.tenantId row.environmentId) r
  | .inl (.environment _), r => Option.map (fun row : EnvironmentRow => .environment row.tenantId) r
  | .inl (.agent _), r => Option.map (fun row : AgentRow => .agent row.environmentId) r
  | .inr (.project _), r => Option.map (fun row : ProjectRow => .project row.tenantId) r
  | .inr (.environmentProject _), r =>
    Option.map (fun row : EnvironmentProjectRow => .environmentProject row.projectId) r
  | .inr (.job _), r => Option.map (fun row : AgentJobRow => .job row.tenantId row.environmentId) r
  | _, _ => none

/-- The environment is the tenant's. -/
def Owned (known : TenantFacts) (tenantId environmentId : String) : Prop :=
  known (.inl (.environment environmentId)) = some (.environment tenantId)

/-- The request is in the scope. -/
def InScope (known : TenantFacts) (requestId tenantId environmentId : String) : Prop :=
  known (.inl (.request requestId)) = some (.request tenantId environmentId)

def AgentOf (known : TenantFacts) (agentId environmentId : String) : Prop :=
  known (.inl (.agent agentId)) = some (.agent environmentId)

/-- The row names nothing that belongs elsewhere. -/
def goodRow (known : TenantFacts) : (k : Key ⊕ TenancyKey) → TenantWorldRow k → Prop
  | .inl (.request _), r => ∀ row : RequestRow, r = some row →
    Owned known row.tenantId row.environmentId ∧
      ∀ other ∈ row.duplicateOfRequestId, InScope known other row.tenantId row.environmentId
  | .inl (.attempt _), r => ∀ row : AttemptRow, r = some row →
    Owned known row.tenantId row.environmentId ∧
      InScope known row.requestId row.tenantId row.environmentId
  | .inl (.auditEvent _), r => ∀ row : AuditRow, r = some row →
    Owned known row.tenantId row.environmentId ∧
      ∀ requestId ∈ row.requestId, InScope known requestId row.tenantId row.environmentId
  | .inl (.outboxEvent _), r => ∀ row : OutboxRow, r = some row →
    Owned known row.tenantId row.environmentId ∧
      InScope known row.aggregateId row.tenantId row.environmentId
  | .inl (.chainHead environmentId), r => ∀ row : HeadRow, r = some row →
    Owned known row.tenantId environmentId
  | .inl (.environment environmentId), r => ∀ row : EnvironmentRow, r = some row →
    ∃ projectId,
      known (.inr (.environmentProject environmentId)) = some (.environmentProject projectId) ∧
        known (.inr (.project projectId)) = some (.project row.tenantId)
  | .inl (.envelope requestId), r => ∀ row : EnvelopeRow, r = some row →
    Owned known row.tenantId row.environmentId ∧
      InScope known requestId row.tenantId row.environmentId
  | .inr (.job _), r => ∀ row : AgentJobRow, r = some row →
    Owned known row.tenantId row.environmentId ∧
      InScope known row.requestId row.tenantId row.environmentId ∧
        ∀ agentId ∈ row.leasedByAgentId, AgentOf known agentId row.environmentId
  | .inr (.session agentId), r => ∀ row : TransportRow, r = some row →
    Owned known row.tenantId row.environmentId ∧ AgentOf known agentId row.environmentId
  | _, _ => True

theorem goodRow_mono {known known' : TenantFacts} (h : known.Le known') {k : Key ⊕ TenancyKey}
    {r : TenantWorldRow k} (hr : goodRow known k r) : goodRow known' k r := by
  rcases k with k | k
  · cases k with
    | request id =>
      exact fun row hrow => ⟨h _ _ (hr row hrow).1, fun other ho => h _ _ ((hr row hrow).2 other ho)⟩
    | attempt id => exact fun row hrow => ⟨h _ _ (hr row hrow).1, h _ _ (hr row hrow).2⟩
    | auditEvent id =>
      exact fun row hrow => ⟨h _ _ (hr row hrow).1, fun q hq => h _ _ ((hr row hrow).2 q hq)⟩
    | outboxEvent id => exact fun row hrow => ⟨h _ _ (hr row hrow).1, h _ _ (hr row hrow).2⟩
    | chainHead id => exact fun row hrow => h _ _ (hr row hrow)
    | environment id =>
      intro row hrow
      obtain ⟨projectId, hlink, hproject⟩ := hr row hrow
      exact ⟨projectId, h _ _ hlink, h _ _ hproject⟩
    | envelope id => exact fun row hrow => ⟨h _ _ (hr row hrow).1, h _ _ (hr row hrow).2⟩
    | agent | job | token | «alias» | advisory => trivial
  · cases k with
    | job id =>
      intro row hrow
      obtain ⟨howned, hscope, hlease⟩ := hr row hrow
      exact ⟨h _ _ howned, h _ _ hscope, fun a ha => h _ _ (hlease a ha)⟩
    | session id => exact fun row hrow => ⟨h _ _ (hr row hrow).1, h _ _ (hr row hrow).2⟩
    | tenant | project | environmentProject | receipt | controlSequence => trivial

def tenantRules : RowRules TenantWorldRow Belonging where
  fact := factOf
  good := goodRow
  mono h hr := goodRow_mono h hr

/-- A script on `World`, with what is known by its end. -/
abbrev Learns {α : Type} (s : Transaction α) (post : α → TenantFacts → Prop)
    (known : TenantFacts) : Prop :=
  s.first.Learns TenantWorld tenantRules post known

/-! ## Writes that need no fact -/

section Keeps

variable {id : String}

theorem keeps_request {row row' : RequestRow} (htenant : row'.tenantId = row.tenantId)
    (henvironment : row'.environmentId = row.environmentId)
    (hduplicate : row'.duplicateOfRequestId = row.duplicateOfRequestId) :
    tenantRules.Keeps (.inl (.request id)) (some row) (some row') := by
  constructor
  · intro f hf
    rw [← hf]
    show some (Belonging.request row'.tenantId row'.environmentId) =
      some (Belonging.request row.tenantId row.environmentId)
    rw [htenant, henvironment]
  · intro known _ hgood _ hrow'
    obtain rfl := Option.some.inj hrow'
    rw [htenant, henvironment, hduplicate]
    exact hgood row rfl

theorem keeps_attempt {row row' : AttemptRow} (htenant : row'.tenantId = row.tenantId)
    (henvironment : row'.environmentId = row.environmentId)
    (hrequest : row'.requestId = row.requestId) :
    tenantRules.Keeps (.inl (.attempt id)) (some row) (some row') := by
  refine ⟨nofun, fun known _ hgood _ hrow' => ?_⟩
  obtain rfl := Option.some.inj hrow'
  rw [htenant, henvironment, hrequest]
  exact hgood row rfl

theorem keeps_agent {row row' : AgentRow} (h : row'.environmentId = row.environmentId) :
    tenantRules.Keeps (.inl (.agent id)) (some row) (some row') := by
  refine ⟨fun f hf => ?_, fun _ _ _ => trivial⟩
  rw [← hf]
  show some (Belonging.agent row'.environmentId) = some (Belonging.agent row.environmentId)
  rw [h]

theorem keeps_newAgent (row : AgentRow) :
    tenantRules.Keeps (.inl (.agent id)) none (some row) :=
  ⟨nofun, fun _ _ _ => trivial⟩

theorem keeps_job {row row' : AgentJobRow} (htenant : row'.tenantId = row.tenantId)
    (henvironment : row'.environmentId = row.environmentId)
    (hrequest : row'.requestId = row.requestId)
    (hlease : ∀ agentId ∈ row'.leasedByAgentId, agentId ∈ row.leasedByAgentId) :
    tenantRules.Keeps (.inr (.job id)) (some row) (some row') := by
  constructor
  · intro f hf
    rw [← hf]
    show some (Belonging.job row'.tenantId row'.environmentId) =
      some (Belonging.job row.tenantId row.environmentId)
    rw [htenant, henvironment]
  · intro known _ hgood _ hrow'
    obtain rfl := Option.some.inj hrow'
    rw [htenant, henvironment, hrequest]
    obtain ⟨howned, hscope, hleased⟩ := hgood row rfl
    exact ⟨howned, hscope, fun agentId ha => hleased agentId (hlease agentId ha)⟩

theorem keeps_noEnvelope (r : Option EnvelopeRow) :
    tenantRules.Keeps (.inl (.envelope id)) r none :=
  ⟨nofun, fun _ _ _ => nofun⟩

theorem keeps_token (r v : Option TokenRow) : tenantRules.Keeps (.inl (.token id)) r v :=
  ⟨nofun, fun _ _ _ => trivial⟩

theorem keeps_alias {key : AliasKey} (r v : Option AliasRow) :
    tenantRules.Keeps (.inl (.alias key)) r v :=
  ⟨nofun, fun _ _ _ => trivial⟩

theorem keeps_receipt {key : ReceiptKey} (r v : Option ReceiptRow) :
    tenantRules.Keeps (.inr (.receipt key)) r v :=
  ⟨nofun, fun _ _ _ => trivial⟩

theorem keeps_project {r : Option ProjectRow} {row : ProjectRow} (h : r = none) :
    tenantRules.Keeps (.inr (.project id)) r (some row) := by
  subst h
  exact ⟨nofun, fun _ _ _ => trivial⟩

theorem keeps_head {row row' : HeadRow} (h : row'.tenantId = row.tenantId) :
    tenantRules.Keeps (.inl (.chainHead id)) (some row) (some row') := by
  refine ⟨nofun, fun known _ hgood _ hrow' => ?_⟩
  obtain rfl := Option.some.inj hrow'
  rw [h]
  exact hgood row rfl

end Keeps

/-! ## Saves -/

section Save

variable {known known' : TenantFacts} {tenantId environmentId requestId : String}

theorem Owned.mono (h : Owned known tenantId environmentId) (hle : known.Le known') :
    Owned known' tenantId environmentId :=
  hle _ _ h

theorem InScope.mono (h : InScope known requestId tenantId environmentId)
    (hle : known.Le known') : InScope known' requestId tenantId environmentId :=
  hle _ _ h

/-- What a request that was found shows. -/
def FoundInScope (known : TenantFacts) (requestId tenantId environmentId : String) : Prop :=
  InScope known requestId tenantId environmentId ∧ Owned known tenantId environmentId

theorem FoundInScope.mono (h : FoundInScope known requestId tenantId environmentId)
    (hle : known.Le known') : FoundInScope known' requestId tenantId environmentId :=
  ⟨h.1.mono hle, h.2.mono hle⟩

/-- What a row of an environment shows. -/
theorem owned_of_find {w : TenantWorld} {row : EnvironmentRow}
    (h : w.1.environments.find environmentId = some row) :
    Owned (tenantRules.facts w) row.tenantId environmentId := by
  show Option.map (fun row : EnvironmentRow => Belonging.environment row.tenantId)
    (w.1.environments.find environmentId) = _
  rw [h]
  rfl

theorem inScope_of_find {w : TenantWorld} {row : RequestRow}
    (h : w.1.requests.find requestId = some row) :
    InScope (tenantRules.facts w) requestId row.tenantId row.environmentId := by
  show Option.map (fun row : RequestRow => Belonging.request row.tenantId row.environmentId)
    (w.1.requests.find requestId) = _
  rw [h]
  rfl

theorem learns_assertEnvironmentOwnership :
    Learns (PrivacyRequestRepository.assertEnvironmentOwnership tenantId environmentId)
      (fun _ known => Owned known tenantId environmentId) known := by
  unfold PrivacyRequestRepository.assertEnvironmentOwnership
  refine learns_first_bind (P := fun row known => ∀ r : EnvironmentRow, row = some r →
    Owned known r.tenantId environmentId) (learns_read ?_) ?_
  · intro w _ _ r hr
    exact owned_of_find hr
  · intro row known' _ hrow
    refine learns_first_failIf fun hsome => ?_
    rw [not_not, Option.map_eq_some_iff] at hsome
    obtain ⟨r, rfl, rfl⟩ := hsome
    exact hrow r rfl

theorem learns_persistSnapshot {snapshot : Domain.PrivacyRequestSnapshot} {expectedVersion : Int}
    {persistedAt : Timestamp} (h : Owned known tenantId snapshot.environmentId) :
    Learns (PrivacyRequestRepository.persistSnapshot tenantId snapshot expectedVersion persistedAt)
      (fun _ known => InScope known snapshot.id tenantId snapshot.environmentId) known := by
  unfold PrivacyRequestRepository.persistSnapshot
  split
  · refine learns_first_bind (P := fun rows known => rows ≠ none →
      InScope known snapshot.id tenantId snapshot.environmentId) (learns_update ?_ ?_) ?_
    · intro known₁ r b v hle _ _ htaken
      obtain ⟨rfl, rfl⟩ := whenAbsent_eq_some.mp htaken
      refine ⟨fun _ h => (by cases h), fun known₂ hle' hk => ⟨fun row hrow => ?_, fun _ => hk⟩⟩
      obtain rfl := Option.some.inj hrow
      exact ⟨h.mono (hle.trans hle'), fun _ h => (by cases h)⟩
    · intro _ _ _ _ _ _ hrows
      exact absurd rfl hrows
    · intro rows known' _ hrows
      exact learns_first_failIf hrows
  · refine learns_first_bind (P := fun rows known => rows ≠ none →
      InScope known snapshot.id tenantId snapshot.environmentId)
      (learns_update_keeps ?_ ?_ fun _ _ hrows => absurd rfl hrows) ?_
    · intro r b v htaken
      obtain ⟨rfl, -, rfl⟩ := whenRow_eq_some.mp htaken
      exact keeps_request rfl rfl rfl
    · intro known₂ r b v _ htaken hk _
      obtain ⟨rfl, ⟨rfl, henvironment, -⟩, rfl⟩ := whenRow_eq_some.mp htaken
      rw [← henvironment]
      exact hk
    · intro rows known' _ hrows
      exact learns_first_failIf hrows

theorem learns_persistAttempts {snapshot : Domain.PrivacyRequestSnapshot}
    (attempts : List Domain.ExecutionAttempt) (h : Owned known tenantId snapshot.environmentId)
    (hscope : InScope known snapshot.id tenantId snapshot.environmentId) :
    Learns (PrivacyRequestRepository.persistAttempts tenantId snapshot attempts)
      (fun _ _ => True) known := by
  induction attempts generalizing known with
  | nil => trivial
  | cons attempt attempts ih =>
    unfold PrivacyRequestRepository.persistAttempts
    refine learns_first_bind (P := fun _ _ => True) (learns_update ?_ fun _ _ _ _ _ _ => trivial) ?_
    · intro known₁ r b v hle _ hgood htaken
      refine ⟨nofun, fun known₂ hle' _ => ⟨?_, trivial⟩⟩
      cases r with
      | none =>
        cases htaken
        intro row hrow
        obtain rfl := Option.some.inj hrow
        exact ⟨h.mono (hle.trans hle'), hscope.mono (hle.trans hle')⟩
      | some row =>
        have hkept := tenantRules.mono hle' hgood
        unfold PrivacyRequestRepository.upsertAttempt at htaken
        dsimp only at htaken
        split_ifs at htaken
        · cases htaken
          exact hkept
        · cases htaken
          intro row' hrow'
          obtain rfl := Option.some.inj hrow'
          exact hkept row rfl
    · intro answer known' hle _
      refine learns_first_bind (P := fun _ _ => True) (learns_first_failIf fun _ => trivial) ?_
      intro _ known'' hle' _
      exact ih (h.mono (hle.trans hle')) (hscope.mono (hle.trans hle'))

theorem learns_lockChainHead {missing : String} (h : Owned known tenantId environmentId) :
    Learns (lockChainHead tenantId environmentId missing) (fun _ _ => True) known := by
  unfold lockChainHead
  refine learns_first_bind (P := fun _ _ => True) (learns_update ?_ fun _ _ _ _ _ _ => trivial) ?_
  · intro known₁ r b v hle _ _ htaken
    obtain ⟨rfl, rfl⟩ := whenAbsent_eq_some.mp htaken
    refine ⟨nofun, fun known₂ hle' _ => ⟨fun row hrow => ?_, trivial⟩⟩
    obtain rfl := Option.some.inj hrow
    exact h.mono (hle.trans hle')
  · intro _ known' _ _
    refine learns_first_bind (P := fun _ _ => True)
      (learns_lock lockRow_locks (fun _ _ _ _ _ _ _ => trivial) fun _ _ => trivial) ?_
    intro head known'' _ _
    cases head <;> trivial

theorem learns_recordEvent {event : Domain.AuditEventWithoutHashes Payload} {sequence : Nat}
    {previousHash : Option String} {eventHash : String}
    (h : Owned known event.tenantId event.environmentId)
    (hscope : InScope known requestId event.tenantId event.environmentId)
    (hrequest : event.requestId = some requestId) :
    Learns (recordEvent event sequence requestId previousHash eventHash) (fun _ _ => True)
      known := by
  unfold recordEvent
  refine learns_first_bind (P := fun _ _ => True) (learns_update ?_ fun _ _ _ _ _ _ => trivial) ?_
  · intro known₁ r b v hle _ _ htaken
    obtain ⟨rfl, rfl⟩ := whenAbsent_eq_some.mp htaken
    refine ⟨nofun, fun known₂ hle' _ => ⟨fun row hrow => ?_, trivial⟩⟩
    obtain rfl := Option.some.inj hrow
    refine ⟨h.mono (hle.trans hle'), fun other hother => ?_⟩
    change other ∈ event.requestId at hother
    rw [hrequest, Option.mem_some] at hother
    subst hother
    exact hscope.mono (hle.trans hle')
  intro _ known' hle _
  refine learns_first_bind (P := fun _ _ => True) (learns_first_failIf fun _ => trivial) ?_
  intro _ known'' hle' _
  refine learns_first_bind (P := fun _ _ => True)
    (learns_update_keeps ?_ (fun _ _ _ _ _ _ _ => trivial) fun _ _ => trivial) ?_
  · intro r b v htaken
    obtain ⟨rfl, -, rfl⟩ := whenRow_eq_some.mp htaken
    exact keeps_head rfl
  intro _ known₃ hle₃ _
  have howned := h.mono (hle.trans (hle'.trans hle₃))
  have hinScope := hscope.mono (hle.trans (hle'.trans hle₃))
  refine learns_first_bind (P := fun _ _ => True) (learns_update ?_ fun _ _ _ _ _ _ => trivial) ?_
  · intro known₁ r b v hle _ _ htaken
    obtain ⟨rfl, rfl⟩ := whenAbsent_eq_some.mp htaken
    refine ⟨nofun, fun known₂ hle' _ => ⟨fun row hrow => ?_, trivial⟩⟩
    obtain rfl := Option.some.inj hrow
    exact ⟨howned.mono (hle.trans hle'), hinScope.mono (hle.trans hle')⟩
  · intro _ known₄ _ _
    exact learns_first_failIf fun _ => trivial

theorem learns_orFail {α : Type} (x : Except String α) :
    Learns (orFail x) (fun _ _ => True) known := by
  cases x <;> trivial

theorem learns_persistEventsFrom {rt : Runtime} {snapshot : Domain.PrivacyRequestSnapshot}
    {stamps : Nat → Stamp} (events : List Domain.DomainEvent) {i sequence : Nat}
    {previousHash : Option String} (h : Owned known tenantId snapshot.environmentId)
    (hscope : InScope known snapshot.id tenantId snapshot.environmentId) :
    Learns (PrivacyRequestRepository.persistEventsFrom rt tenantId snapshot stamps i sequence
      previousHash events) (fun _ _ => True) known := by
  induction events generalizing known i sequence previousHash with
  | nil => trivial
  | cons event events ih =>
    unfold PrivacyRequestRepository.persistEventsFrom
    refine learns_first_bind (learns_orFail _) fun hash known' hle _ => ?_
    refine learns_first_bind
      (learns_recordEvent (h.mono hle) (hscope.mono hle) rfl) fun _ known'' hle' _ => ?_
    exact ih (h.mono (hle.trans hle')) (hscope.mono (hle.trans hle'))

/-- A save writes for the tenant that owns the environment of its snapshot. -/
theorem learns_save (rt : Runtime) (input : SaveRequest) :
    Learns (PrivacyRequestRepository.save rt input) (fun _ _ => True) known := by
  unfold PrivacyRequestRepository.save
  refine learns_first_bind (P := fun _ _ => True) (learns_first_failIf fun _ => trivial)
    fun _ known₁ _ _ => ?_
  refine learns_first_bind learns_assertEnvironmentOwnership fun _ known₂ _ howned => ?_
  refine learns_first_bind (learns_persistSnapshot howned) fun _ known₃ hle₃ hscope => ?_
  refine learns_first_bind (P := fun _ _ => True) (learns_read fun _ _ _ => trivial)
    fun attempts known₄ hle₄ _ => ?_
  have howned₄ := howned.mono (hle₃.trans hle₄)
  refine learns_first_bind (learns_persistAttempts attempts howned₄ (hscope.mono hle₄))
    fun _ known₅ hle₅ _ => ?_
  unfold PrivacyRequestRepository.persistEvents
  refine learns_first_bind (learns_lockChainHead (howned₄.mono hle₅)) fun head known₆ hle₆ _ => ?_
  exact learns_persistEventsFrom _ (howned₄.mono (hle₅.trans hle₆))
    (hscope.mono (hle₄.trans (hle₅.trans hle₆)))

end Save

end ForgetOps.Api.Tenants
