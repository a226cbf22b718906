import ForgetOps.Api.TenantRules

/-
  What the transactions of the agent gateway, and those on projects and environments, learn of the
  tenant they write for.
-/

namespace ForgetOps.Api.Tenants

open Database ReadCommitted Gateway
open ReadCommitted (Script)

/-! ## The gateway -/

section Gateway

variable {known : TenantFacts} {α β : Type} {id : String}

theorem ofGateway_bind (s : GatewayTransaction β) (f : β → GatewayTransaction α) :
    ofGateway (s >>= f) = ofGateway s >>= fun b => ofGateway (f b) := by
  unfold ofGateway
  rw [Script.first_bind, Script.along_bind]

theorem learns_ofGateway_bind {s : GatewayTransaction β} {f : β → GatewayTransaction α}
    {P : β → TenantFacts → Prop} {post : α → TenantFacts → Prop}
    (hs : (ofGateway s).Learns TenantWorld tenantRules P known)
    (hf : ∀ b known', known.Le known' → P b known' →
      (ofGateway (f b)).Learns TenantWorld tenantRules post known') :
    (ofGateway (s >>= f)).Learns TenantWorld tenantRules post known := by
  rw [ofGateway_bind]
  exact learns_bind hs hf

theorem learns_ofGateway_failIf {post : Unit → TenantFacts → Prop} {c : Prop} [Decidable c]
    {code : String} (h : ¬ c → post () known) :
    (ofGateway (Script.failIf c code)).Learns TenantWorld tenantRules post known := by
  unfold Script.failIf
  split
  · trivial
  · next hc => exact h hc

theorem putGatewayRow_get (k : GatewayKey ⊕ ChannelKey) (r : TenantWorldRow (gatewayKey k)) :
    putGatewayRow k r (getGatewayRow k r) = r := by
  rcases k with k | k <;> cases k <;> rfl

/-- A write of the gateway that needs no fact. -/
def KeepsGateway (k : GatewayKey) (r v : GatewayRow k) : Prop :=
  ∀ r', getGatewayRow (.inl k) r' = r →
    tenantRules.Keeps (gatewayKey (.inl k)) r' (putGatewayRow (.inl k) r' v)

theorem keepsGateway_agent {row row' : AgentRow} (h : row'.environmentId = row.environmentId) :
    KeepsGateway (.agent id) (some row) (some row') := by
  intro r' hr'
  change r' = some row at hr'
  subst hr'
  exact keeps_agent h

theorem keepsGateway_job {row row' : AgentJobRow} (htenant : row'.tenantId = row.tenantId)
    (henvironment : row'.environmentId = row.environmentId)
    (hrequest : row'.requestId = row.requestId)
    (hlease : ∀ agentId ∈ row'.leasedByAgentId, agentId ∈ row.leasedByAgentId) :
    KeepsGateway (.job id) (some row) (some row') := by
  intro r' hr'
  change r' = some row at hr'
  subst hr'
  exact keeps_job htenant henvironment hrequest hlease

theorem writes_lockGateway {k : GatewayKey} {q : GatewayRow k → Option (α × GatewayRow k)}
    (hq : ∀ r b v, q r = some (b, v) → v = r) :
    (Script.update k q : GatewayTransaction (Option α)).Writes KeepsGateway := by
  refine (Script.writes_update k q).mpr fun r b v htaken => ?_
  obtain rfl := hq r b v htaken
  intro r' hr'
  subst hr'
  rw [putGatewayRow_get]
  exact RowRules.Keeps.refl _

theorem writes_ofGateway {s : GatewayTransaction α} (h : s.Writes KeepsGateway) :
    (ofGateway s).Writes tenantRules.Keeps :=
  Script.writes_along (Script.writes_first h)

theorem writes_completeJobs (input : ForceReplacement) :
    (completeJobs input).Writes KeepsGateway := by
  refine (Script.writes_read _).bind fun ids => ?_
  refine (Script.writes_forRows (fun id => ?_) ids).bind fun _ => Script.writes_pure _
  refine (Script.writes_update _ _).mpr fun r b v htaken => ?_
  obtain ⟨rfl, -, rfl⟩ := whenRow_eq_some.mp htaken
  exact keepsGateway_job rfl rfl rfl nofun

theorem writes_heartbeat (input : AgentJobMutation) : (heartbeat input).Writes KeepsGateway := by
  refine (Script.writes_read _).bind fun works => ?_
  refine Script.Writes.bind ((Script.writes_update _ _).mpr fun r b v htaken => ?_) fun _ => trivial
  obtain ⟨rfl, -, rfl⟩ := whenRow_eq_some.mp htaken
  exact keepsGateway_job rfl rfl rfl fun _ => id

theorem writes_claimAgentMessage (input : ClaimAgentMessageInput) :
    (claimAgentMessage input).Writes KeepsGateway := by
  unfold claimAgentMessage lockAgent
  refine Script.Writes.bind ((Script.writes_read _).bind fun _ =>
    (writes_lockGateway lockRow_locks).bind fun _ => Script.writes_pure _) fun agent => ?_
  cases agent with
  | none => trivial
  | some agent =>
    dsimp only
    split
    · trivial
    split
    · trivial
    unfold claimSequence
    split
    · split
      · trivial
      refine (Script.writes_read _).bind fun duplicate => ?_
      split
      · trivial
      refine Script.Writes.bind ?_ fun _ => Script.writes_pure _
      unfold recordMessage
      refine Script.Writes.bind ((Script.writes_update _ _).mpr fun r _ v _ r' _ =>
        keeps_receipt r' v) fun _ => ?_
      refine (Script.writes_failIf _ _).bind fun _ => ?_
      refine Script.Writes.bind ((Script.writes_update _ _).mpr fun r b v htaken => ?_)
        fun _ => Script.writes_pure _
      obtain ⟨rfl, -, rfl⟩ := whenRow_eq_some.mp htaken
      exact keepsGateway_agent rfl
    · trivial

/-- A lock on a row of the gateway. -/
theorem learns_lockGateway {k : GatewayKey} {q : GatewayRow k → Option (α × GatewayRow k)}
    {post : Option α → TenantFacts → Prop} (hq : ∀ r b v, q r = some (b, v) → v = r)
    (htake : ∀ known₁ r b, known.Le known₁ →
      known₁ (gatewayKey (.inl k)) = factOf (gatewayKey (.inl k)) r →
        q (getGatewayRow (.inl k) r) = some (b, getGatewayRow (.inl k) r) → post (some b) known₁)
    (hskip : ∀ known₁, known.Le known₁ → post none known₁) :
    (ofGateway (Script.update k q)).Learns TenantWorld tenantRules post known := by
  have hlocks : ∀ r b v, gatewayPart.statement (.inl k) q r = some (b, v) →
      v = r ∧ q (getGatewayRow (.inl k) r) = some (b, getGatewayRow (.inl k) r) := by
    intro r b v htaken
    obtain ⟨v', hanswer, rfl⟩ := StoreLens.statement_eq_some htaken
    obtain rfl := hq _ _ _ hanswer
    exact ⟨putGatewayRow_get _ r, hanswer⟩
  refine learns_lock (fun r b v htaken => (hlocks r b v htaken).1) ?_ hskip
  intro known₁ r b hle hk _ htaken
  exact htake known₁ r b hle hk (hlocks r b r htaken).2

theorem learns_enqueue (input : EnqueueAgentJobInput) :
    (ofGateway (enqueue input)).Learns TenantWorld tenantRules (fun _ _ => True) known := by
  unfold enqueue
  refine learns_ofGateway_bind (P := fun scope known => ∀ s : RequestScope, scope = some s →
    FoundInScope known input.requestId s.tenantId s.environmentId) (learns_read ?_)
    fun scope known₁ _ hscope => ?_
  · intro w hw _ s hs
    change (w.1.requests.mapValues scopeOf).find input.requestId = some s at hs
    rw [Table.find_mapValues] at hs
    obtain ⟨row, hrow, rfl⟩ := Option.map_eq_some_iff.mp hs
    exact ⟨inScope_of_find hrow, (hw (.inl (.request input.requestId)) row hrow).1⟩
  refine learns_ofGateway_bind (P := fun _ known =>
    FoundInScope known input.requestId input.tenantId input.environmentId)
    (learns_ofGateway_failIf fun hfound => ?_) fun _ known₂ _ h => ?_
  · exact hscope _ (not_not.mp hfound)
  refine learns_ofGateway_bind (P := fun _ _ => True) ?_ fun _ _ _ _ => ?_
  · refine learns_update ?_ fun _ _ _ _ _ _ => trivial
    intro known₃ r b v hle _ _ htaken
    obtain ⟨v', hanswer, rfl⟩ := StoreLens.statement_eq_some htaken
    obtain ⟨habsent, rfl⟩ := whenAbsent_eq_some.mp hanswer
    change r = none at habsent
    subst habsent
    refine ⟨nofun, fun known₄ hle' _ => ⟨fun row hrow => ?_, trivial⟩⟩
    obtain rfl := Option.some.inj hrow
    have h' := h.mono (hle.trans hle')
    exact ⟨h'.2, h'.1, nofun⟩
  · exact learns_ofGateway_bind (P := fun _ _ => True) (learns_ofGateway_failIf fun _ => trivial)
      fun _ _ _ _ => trivial

theorem learns_leaseRow {input : AgentJobMutation} {row : AgentJobRow}
    (hagent : AgentOf known input.agentId input.environmentId)
    (hjob : known (.inr (.job input.jobId)) =
      some (.job input.tenantId input.environmentId)) :
    (ofGateway (leaseRow input row)).Learns TenantWorld tenantRules (fun _ _ => True) known := by
  unfold leaseRow
  split
  · trivial
  split
  · trivial
  split
  · trivial
  refine learns_ofGateway_bind (P := fun _ _ => True) ?_ fun leased _ _ _ => ?_
  · refine learns_update ?_ fun _ _ _ _ _ _ => trivial
    intro known₁ r b v hle hk hgood htaken
    obtain ⟨v', hanswer, rfl⟩ := StoreLens.statement_eq_some htaken
    obtain ⟨hfound, -, rfl⟩ := whenRow_eq_some.mp hanswer
    change r = some b at hfound
    subst hfound
    have hfact : some (Belonging.job b.tenantId b.environmentId) =
        some (.job input.tenantId input.environmentId) := hk.symm.trans (hle _ _ hjob)
    obtain ⟨-, henvironment⟩ := Belonging.job.inj (Option.some.inj hfact)
    refine ⟨fun _ => id, fun known₂ hle' _ => ⟨fun row' hrow' => ?_, trivial⟩⟩
    obtain rfl := Option.some.inj hrow'
    obtain ⟨howned, hscope, -⟩ := hgood b rfl
    refine ⟨howned.mono hle', hscope.mono hle', fun agentId ha => ?_⟩
    obtain rfl := Option.mem_some.mp ha
    have hof := hle' _ _ (hle _ _ hagent)
    rwa [← henvironment] at hof
  · cases leased <;> trivial

/-- A job is leased to an agent of its environment. -/
theorem learns_lease (input : AgentJobMutation) :
    (ofGateway (lease input)).Learns TenantWorld tenantRules (fun _ _ => True) known := by
  unfold lease
  refine learns_ofGateway_bind (P := fun _ _ => True) (learns_read fun _ _ _ => trivial)
    fun environments known₁ _ _ => ?_
  refine learns_ofGateway_bind (P := fun agent known => agent ≠ none →
    AgentOf known input.agentId input.environmentId)
    (learns_lockGateway lockRow_locks ?_ fun _ _ hagent => absurd rfl hagent)
    fun agent known₂ _ hagent => ?_
  · intro known₂ r b _ hk htaken _
    obtain ⟨hfound, ⟨-, henvironment, -⟩, -⟩ := lockRow_eq_some.mp htaken
    change r = some b at hfound
    subst hfound
    rw [← henvironment]
    exact hk
  cases agent with
  | none => trivial
  | some agent =>
    have hof := hagent nofun
    refine learns_ofGateway_bind (P := fun row known => row ≠ none →
      known (.inr (.job input.jobId)) = some (.job input.tenantId input.environmentId))
      (learns_lockGateway lockRow_locks ?_ fun _ _ hrow => absurd rfl hrow)
      fun row known₃ hle₃ hrow => ?_
    · intro known₃ r b _ hk htaken _
      obtain ⟨hfound, ⟨htenant, henvironment⟩, -⟩ := lockRow_eq_some.mp htaken
      change r = some b at hfound
      subst hfound
      rw [← htenant, ← henvironment]
      exact hk
    cases row with
    | none => trivial
    | some row => exact learns_leaseRow (hle₃ _ _ hof) (hrow nofun)

/-- What the lock on the agent of a session shows. -/
theorem learns_lockAgentRow {tenantId agentId : String} :
    (ofGateway (lockAgentRow tenantId agentId)).Learns TenantWorld tenantRules
      (fun agent known => ∀ row : AgentRow, agent = some row →
        Owned known tenantId row.environmentId ∧ AgentOf known agentId row.environmentId)
      known := by
  unfold lockAgentRow
  refine learns_ofGateway_bind (P := fun environments known => ∀ environmentId,
    tenantOf environments environmentId = some tenantId → Owned known tenantId environmentId)
    (learns_read ?_) fun environments known₁ _ hread => ?_
  · intro w _ _ environmentId htenant
    obtain ⟨row, hrow, rfl⟩ := Option.map_eq_some_iff.mp htenant
    exact owned_of_find hrow
  · refine learns_lockGateway lockRow_locks ?_ fun _ _ => nofun
    intro known₂ r b hle hk htaken row hrow
    obtain rfl := Option.some.inj hrow
    obtain ⟨hfound, htenant, -⟩ := lockRow_eq_some.mp htaken
    change r = some b at hfound
    subst hfound
    exact ⟨(hread _ htenant).mono hle, hk⟩

/-- The row of a session is the session's. -/
theorem upsertSession_scope {session : AgentSession} {now : Int} {r v : Option TransportRow}
    {b : Unit} {row : TransportRow} (h : upsertSession session now r = some (b, v))
    (hrow : v = some row) :
    row.tenantId = session.tenantId ∧ row.environmentId = session.environmentId := by
  subst hrow
  cases r with
  | none =>
    obtain ⟨-, hnew⟩ := Prod.mk.inj (Option.some.inj h)
    obtain rfl := Option.some.inj hnew
    exact ⟨rfl, rfl⟩
  | some current =>
    unfold upsertSession at h
    dsimp only at h
    split_ifs at h
    obtain ⟨-, hnew⟩ := Prod.mk.inj (Option.some.inj h)
    obtain rfl := Option.some.inj hnew
    exact ⟨rfl, rfl⟩

theorem learns_claimTransport (session : AgentSession) (now : Int) :
    ((claimTransport session now).along gatewayPart).Learns TenantWorld tenantRules
      (fun _ _ => True) known := by
  unfold claimTransport
  refine learns_along_bind learns_lockAgentRow fun agent known₁ _ hagent => ?_
  cases agent with
  | none => trivial
  | some agent =>
    obtain ⟨howned, hof⟩ := hagent agent rfl
    dsimp only
    split
    · trivial
    next henvironment =>
    rw [not_or, not_not] at henvironment
    rw [henvironment.1] at howned hof
    refine learns_along_bind (P := fun _ _ => True) ?_ fun current known₂ hle₂ _ => ?_
    · refine learns_lock (fun r b v htaken => ?_) (fun _ _ _ _ _ _ _ => trivial) fun _ _ => trivial
      obtain ⟨v', hanswer, rfl⟩ := StoreLens.statement_eq_some htaken
      exact lockRow_locks _ _ _ hanswer
    refine learns_along_bind (P := fun _ _ => True) ?_ fun _ _ _ _ => ?_
    · refine learns_update ?_ fun _ _ _ _ _ _ => trivial
      intro known₃ r b v hle₃ _ _ htaken
      obtain ⟨v', hanswer, rfl⟩ := StoreLens.statement_eq_some htaken
      refine ⟨fun _ h => (by cases h), fun known₄ hle₄ _ => ⟨fun row hrow => ?_, trivial⟩⟩
      have hle := hle₂.trans (hle₃.trans hle₄)
      obtain ⟨htenant, henv⟩ := upsertSession_scope hanswer hrow
      rw [htenant, henv]
      exact ⟨howned.mono hle, hle _ _ hof⟩
    · refine learns_along_bind (P := fun _ _ => True) (learns_along_failIf fun _ => trivial)
        fun _ _ _ _ => trivial

end Gateway

/-! ## Projects and environments -/

section Projects

variable {known : TenantFacts}

theorem writes_createProjectWithinLimit (tenantId : String) (input : CreateProjectInput)
    (maxProjects : Nat) (projectId : String) :
    (Tenants.createProjectWithinLimit tenantId input maxProjects projectId).Writes
      tenantRules.Keeps := by
  unfold Tenants.createProjectWithinLimit
  refine Script.Writes.bind (Script.writes_second ?_) fun tenant => ?_
  · refine (Script.writes_update _ _).mpr fun r b v htaken => ?_
    obtain rfl := lockRow_locks r b v htaken
    exact RowRules.Keeps.refl _
  refine (Script.writes_failIf _ _).bind fun _ => ?_
  refine Script.Writes.bind (Script.writes_second (Script.writes_read _)) fun count => ?_
  refine (Script.writes_failIf _ _).bind fun _ => ?_
  refine Script.Writes.bind (Script.writes_second ?_) fun inserted => ?_
  · refine (Script.writes_update _ _).mpr fun r b v htaken => ?_
    obtain ⟨habsent, rfl⟩ := whenAbsent_eq_some.mp htaken
    exact keeps_project habsent
  · exact (Script.writes_failIf _ _).bind fun _ => Script.writes_pure _

/-- The environment has the tenant of its project. -/
theorem learns_createEnvironment (tenantId projectId : String) (kind : EnvironmentKind)
    (environmentId : String) :
    (createEnvironment tenantId projectId kind environmentId).Learns TenantWorld tenantRules
      (fun _ _ => True) known := by
  unfold createEnvironment
  refine learns_bind (P := fun project known => ∀ row : ProjectRow, project = some row →
    known (.inr (.project projectId)) = some (.project row.tenantId)) (learns_read ?_)
    fun project known₁ _ hproject => ?_
  · intro w _ _ row hrow
    change w.2.projects.find projectId = some row at hrow
    show Option.map (fun row : ProjectRow => Belonging.project row.tenantId)
      (w.2.projects.find projectId) = _
    rw [hrow]
    rfl
  refine learns_bind (P := fun _ known =>
    known (.inr (.project projectId)) = some (.project tenantId))
    (learns_failIf fun howner => ?_) fun _ known₂ _ howner => ?_
  · rw [not_not, Option.map_eq_some_iff] at howner
    obtain ⟨row, hrow, rfl⟩ := howner
    exact hproject row hrow
  refine learns_bind (P := fun inserted known => inserted ≠ none →
    known (.inr (.environmentProject environmentId)) = some (.environmentProject projectId))
    (learns_update ?_ fun _ _ _ _ _ _ hinserted => absurd rfl hinserted)
    fun inserted known₃ hle₃ hinserted => ?_
  · intro known₃ r b v _ _ _ htaken
    obtain ⟨rfl, rfl⟩ := whenAbsent_eq_some.mp htaken
    exact ⟨nofun, fun known₄ _ hk => ⟨trivial, fun _ => hk⟩⟩
  refine learns_bind (P := fun _ known =>
    known (.inr (.environmentProject environmentId)) = some (.environmentProject projectId))
    (learns_failIf hinserted) fun _ known₄ hle₄ hlink => ?_
  refine learns_bind (P := fun _ _ => True) (learns_update ?_ fun _ _ _ _ _ _ => trivial)
    fun _ _ _ _ => learns_failIf fun _ => trivial
  intro known₅ r b v hle₅ _ _ htaken
  obtain ⟨rfl, rfl⟩ := whenAbsent_eq_some.mp htaken
  refine ⟨nofun, fun known₆ hle₆ _ => ⟨fun row hrow => ?_, trivial⟩⟩
  obtain rfl := Option.some.inj hrow
  have hle := hle₅.trans hle₆
  exact ⟨projectId, hle _ _ hlink, (hle₃.trans (hle₄.trans hle)) _ _ howner⟩

end Projects

end ForgetOps.Api.Tenants
