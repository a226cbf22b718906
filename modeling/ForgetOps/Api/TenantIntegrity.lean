import ForgetOps.Api.TenantBindings
import ForgetOps.Api.TenantGateway
import ForgetOps.Database.Sequential

/-
  No row of one tenant points at another's.

  Every row carries the tenant that owns the project of its environment, what refers to a request is
  in its tenant and environment, and a lease names an agent of the environment of its job. The rules
  of the rows say no more (`holds_iff`), and every transaction keeps them (`learns_request`).
-/

namespace ForgetOps.Api.Tenants

open Database ReadCommitted Gateway
open ReadCommitted (Script)

/-! ## The transactions -/

section Transactions

open Pairing

variable {known : TenantFacts}

theorem writes_forceReplacement (pair : PairAgent) (token : TokenRow)
    (affectedRequestIds : List String) :
    (Tenants.forceReplacement pair token affectedRequestIds).Writes tenantRules.Keeps := by
  unfold Tenants.forceReplacement
  refine (Script.writes_first (writes_reviewWork affectedRequestIds _)).bind fun _ => ?_
  refine (Script.writes_first writes_deleteEnvelopes).bind fun _ => ?_
  exact (writes_ofGateway (writes_completeJobs _)).bind fun _ => Script.writes_pure _

theorem writes_replaceWork (pair : PairAgent) (token : TokenRow) :
    (Tenants.replaceWork pair token).Writes tenantRules.Keeps := by
  unfold Tenants.replaceWork
  refine (Script.writes_first writes_unconsumedEnvelopes).bind fun envelopeRows => ?_
  refine (Script.writes_first writes_openAttempts).bind fun attemptRows => ?_
  refine (Script.writes_failIf _ _).bind fun _ => ?_
  split
  · exact writes_forceReplacement pair token _
  · exact Script.writes_pure _

theorem writes_replaceActive (pair : PairAgent) (token : TokenRow)
    (active : Option (String × AgentRow)) :
    (Tenants.replaceActive pair token active).Writes tenantRules.Keeps := by
  cases active with
  | none => exact Script.writes_pure _
  | some active =>
    unfold Tenants.replaceActive
    refine (Script.writes_failIf _ _).bind fun _ => ?_
    refine (Script.writes_failIf _ _).bind fun _ => ?_
    refine (writes_replaceWork pair token).bind fun _ => ?_
    refine Script.Writes.bind (Script.writes_first ?_) fun _ => Script.writes_pure _
    refine (Script.writes_update _ _).mpr fun r b v htaken => ?_
    obtain ⟨rfl, -, rfl⟩ := whenRow_eq_some.mp htaken
    exact keeps_agent rfl

/-- A pairing moves no row to another environment. -/
theorem writes_consumeAndPair (pair : PairAgent) :
    (Tenants.consumeAndPair pair).Writes tenantRules.Keeps := by
  unfold Tenants.consumeAndPair
  refine Script.Writes.bind (Script.writes_first (Script.writes_read _)) fun bootstrap => ?_
  cases bootstrap with
  | none => trivial
  | some bootstrap =>
    refine (Script.writes_first writes_lockToken).bind fun token => ?_
    refine (Script.writes_first writes_lockEnvironment).bind fun _ => ?_
    refine (Script.writes_first (writes_activeAgents _)).bind fun active => ?_
    refine (writes_replaceActive pair token _).bind fun _ => ?_
    exact Script.writes_first (writes_insertAgent bootstrap.1)

theorem learns_request (rt : Runtime) (request : TenantRequest) :
    (request.script rt).Learns TenantWorld tenantRules (fun _ _ => True) known := by
  cases request with
  | createProjectWithinLimit tenantId input maxProjects projectId =>
    exact learns_bind (learns_of_writes
      (writes_createProjectWithinLimit tenantId input maxProjects projectId) _) fun _ _ _ _ => trivial
  | createEnvironment tenantId projectId kind environmentId =>
    exact learns_createEnvironment tenantId projectId kind environmentId
  | issueToken input => exact learns_first_of_writes (writes_issueToken input) _
  | consumeAndPair pair =>
    exact learns_bind (learns_of_writes (writes_consumeAndPair pair) _) fun _ _ _ _ => trivial
  | storeEnvelope input => exact learns_storeEnvelope
  | bindSubject input => exact learns_bind learns_bindSubjectInTransaction fun _ _ _ _ => trivial
  | save input => exact learns_save rt input
  | enqueue input => exact learns_bind (learns_enqueue input) fun _ _ _ _ => trivial
  | claimTransport session now =>
    exact learns_bind (learns_claimTransport session now) fun _ _ _ _ => trivial
  | claimAgentMessage input =>
    exact learns_bind (learns_of_writes (writes_ofGateway (writes_claimAgentMessage input)) _)
      fun _ _ _ _ => trivial
  | lease input => exact learns_bind (learns_lease input) fun _ _ _ _ => trivial
  | heartbeat input =>
    exact learns_bind (learns_of_writes (writes_ofGateway (writes_heartbeat input)) _)
      fun _ _ _ _ => trivial

end Transactions

/-! ## Integrity -/

/-- The tenant that owns the project of the environment. -/
def owner (w : TenantWorld) (environmentId : String) : Option String := do
  let _ ← w.1.environments.find environmentId
  let environment ← w.2.environmentProjects.find environmentId
  let project ← w.2.projects.find environment.projectId
  return project.tenantId

/-- The request is there, in this tenant and environment. -/
def RequestIn (w : TenantWorld) (requestId tenantId environmentId : String) : Prop :=
  ∃ row, w.1.requests.find requestId = some row ∧ row.tenantId = tenantId ∧
    row.environmentId = environmentId

def AgentIn (w : TenantWorld) (agentId environmentId : String) : Prop :=
  ∃ row, w.1.agents.find agentId = some row ∧ row.environmentId = environmentId

structure TenantIntegrity (w : TenantWorld) : Prop where
  environments : ∀ id row, w.1.environments.find id = some row → owner w id = some row.tenantId
  requests : ∀ id row, w.1.requests.find id = some row →
    owner w row.environmentId = some row.tenantId
  duplicates : ∀ id row, w.1.requests.find id = some row → ∀ other ∈ row.duplicateOfRequestId,
    RequestIn w other row.tenantId row.environmentId
  attempts : ∀ id row, w.1.attempts.find id = some row →
    owner w row.environmentId = some row.tenantId ∧
      RequestIn w row.requestId row.tenantId row.environmentId
  jobs : ∀ id row, w.2.jobs.find id = some row →
    owner w row.environmentId = some row.tenantId ∧
      RequestIn w row.requestId row.tenantId row.environmentId
  leases : ∀ id row, w.2.jobs.find id = some row → ∀ agentId ∈ row.leasedByAgentId,
    AgentIn w agentId row.environmentId
  envelopes : ∀ requestId row, w.1.envelopes.find requestId = some row →
    owner w row.environmentId = some row.tenantId ∧
      RequestIn w requestId row.tenantId row.environmentId
  sessions : ∀ agentId row, w.2.sessions.find agentId = some row →
    owner w row.environmentId = some row.tenantId ∧ AgentIn w agentId row.environmentId
  chainHeads : ∀ environmentId row, w.1.chainHeads.find environmentId = some row →
    owner w environmentId = some row.tenantId
  auditEvents : ∀ id row, w.1.auditEvents.find id = some row →
    owner w row.environmentId = some row.tenantId ∧
      ∀ requestId ∈ row.requestId, RequestIn w requestId row.tenantId row.environmentId
  outboxEvents : ∀ id row, w.1.outboxEvents.find id = some row →
    owner w row.environmentId = some row.tenantId ∧
      RequestIn w row.aggregateId row.tenantId row.environmentId

section Rules

variable {w : TenantWorld} {tenantId environmentId : String}

theorem inScope_iff {requestId : String} :
    InScope (tenantRules.facts w) requestId tenantId environmentId ↔
      RequestIn w requestId tenantId environmentId := by
  show Option.map (fun row : RequestRow => Belonging.request row.tenantId row.environmentId)
    (w.1.requests.find requestId) = some (.request tenantId environmentId) ↔ _
  unfold RequestIn
  simp only [Option.map_eq_some_iff, Belonging.request.injEq]

theorem agentOf_iff {agentId : String} :
    AgentOf (tenantRules.facts w) agentId environmentId ↔ AgentIn w agentId environmentId := by
  show Option.map (fun row : AgentRow => Belonging.agent row.environmentId)
    (w.1.agents.find agentId) = some (.agent environmentId) ↔ _
  unfold AgentIn
  simp only [Option.map_eq_some_iff, Belonging.agent.injEq]

theorem owned_iff_find : Owned (tenantRules.facts w) tenantId environmentId ↔
    ∃ row, w.1.environments.find environmentId = some row ∧ row.tenantId = tenantId := by
  show Option.map (fun row : EnvironmentRow => Belonging.environment row.tenantId)
    (w.1.environments.find environmentId) = some (.environment tenantId) ↔ _
  simp only [Option.map_eq_some_iff, Belonging.environment.injEq]

theorem owner_eq_some : owner w environmentId = some tenantId ↔
    (∃ row, w.1.environments.find environmentId = some row) ∧
      ∃ environment project, w.2.environmentProjects.find environmentId = some environment ∧
        w.2.projects.find environment.projectId = some project ∧ project.tenantId = tenantId := by
  unfold owner
  simp only [Option.bind_eq_bind, Option.bind_eq_some_iff, Option.pure_def, Option.some.injEq]
  constructor
  · rintro ⟨row, hrow, environment, henvironment, project, hproject, htenant⟩
    exact ⟨⟨row, hrow⟩, environment, project, henvironment, hproject, htenant⟩
  · rintro ⟨⟨row, hrow⟩, environment, project, henvironment, hproject, htenant⟩
    exact ⟨row, hrow, environment, henvironment, project, hproject, htenant⟩

/-- The row of an environment is good where its tenant owns it. -/
theorem good_environment {row : EnvironmentRow}
    (hrow : w.1.environments.find environmentId = some row) :
    (∃ projectId, tenantRules.facts w (.inr (.environmentProject environmentId)) =
        some (.environmentProject projectId) ∧
      tenantRules.facts w (.inr (.project projectId)) = some (.project row.tenantId)) ↔
      owner w environmentId = some row.tenantId := by
  rw [owner_eq_some]
  show (∃ projectId, Option.map
      (fun row : EnvironmentProjectRow => Belonging.environmentProject row.projectId)
      (w.2.environmentProjects.find environmentId) = some (.environmentProject projectId) ∧
    Option.map (fun row : ProjectRow => Belonging.project row.tenantId)
      (w.2.projects.find projectId) = some (.project row.tenantId)) ↔ _
  simp only [Option.map_eq_some_iff, Belonging.environmentProject.injEq, Belonging.project.injEq]
  constructor
  · rintro ⟨projectId, ⟨environment, henvironment, rfl⟩, project, hproject, htenant⟩
    exact ⟨⟨row, hrow⟩, environment, project, henvironment, hproject, htenant⟩
  · rintro ⟨-, environment, project, henvironment, hproject, htenant⟩
    exact ⟨environment.projectId, ⟨environment, henvironment, rfl⟩, project, hproject, htenant⟩

/-- Where the rows of the environments are good, they say who owns them. -/
theorem owned_iff (h : ∀ id row, w.1.environments.find id = some row →
      owner w id = some row.tenantId) :
    Owned (tenantRules.facts w) tenantId environmentId ↔
      owner w environmentId = some tenantId := by
  rw [owned_iff_find]
  constructor
  · rintro ⟨row, hrow, rfl⟩
    exact h environmentId row hrow
  · intro howner
    obtain ⟨⟨row, hrow⟩, -⟩ := owner_eq_some.mp howner
    have hsame := (h environmentId row hrow).symm.trans howner
    exact ⟨row, hrow, Option.some.inj hsame⟩

/-- The rules of the rows say what integrity says. -/
theorem holds_iff : tenantRules.Holds w ↔ TenantIntegrity w := by
  constructor
  · intro h
    have environments : ∀ id row, w.1.environments.find id = some row →
        owner w id = some row.tenantId :=
      fun id row hrow => (good_environment hrow).mp (h (.inl (.environment id)) row hrow)
    have howner {t e : String} : Owned (tenantRules.facts w) t e → owner w e = some t :=
      (owned_iff environments).mp
    refine ⟨environments, fun id row hrow => ?_, fun id row hrow other ho => ?_,
      fun id row hrow => ?_, fun id row hrow => ?_, fun id row hrow agentId ha => ?_,
      fun id row hrow => ?_, fun id row hrow => ?_, fun id row hrow => ?_, fun id row hrow => ?_,
      fun id row hrow => ?_⟩
    · exact howner (h (.inl (.request id)) row hrow).1
    · exact inScope_iff.mp ((h (.inl (.request id)) row hrow).2 other ho)
    · obtain ⟨howned, hscope⟩ := h (.inl (.attempt id)) row hrow
      exact ⟨howner howned, inScope_iff.mp hscope⟩
    · obtain ⟨howned, hscope, -⟩ := h (.inr (.job id)) row hrow
      exact ⟨howner howned, inScope_iff.mp hscope⟩
    · exact agentOf_iff.mp ((h (.inr (.job id)) row hrow).2.2 agentId ha)
    · obtain ⟨howned, hscope⟩ := h (.inl (.envelope id)) row hrow
      exact ⟨howner howned, inScope_iff.mp hscope⟩
    · obtain ⟨howned, hof⟩ := h (.inr (.session id)) row hrow
      exact ⟨howner howned, agentOf_iff.mp hof⟩
    · exact howner (h (.inl (.chainHead id)) row hrow)
    · obtain ⟨howned, hscope⟩ := h (.inl (.auditEvent id)) row hrow
      exact ⟨howner howned, fun requestId hr => inScope_iff.mp (hscope requestId hr)⟩
    · obtain ⟨howned, hscope⟩ := h (.inl (.outboxEvent id)) row hrow
      exact ⟨howner howned, inScope_iff.mp hscope⟩
  · intro h
    have howned {t e : String} : owner w e = some t → Owned (tenantRules.facts w) t e :=
      (owned_iff h.environments).mpr
    intro k
    rcases k with k | k
    · cases k with
      | request id =>
        exact fun row hrow => ⟨howned (h.requests id row hrow),
          fun other ho => inScope_iff.mpr (h.duplicates id row hrow other ho)⟩
      | attempt id =>
        intro row hrow
        obtain ⟨howner, hscope⟩ := h.attempts id row hrow
        exact ⟨howned howner, inScope_iff.mpr hscope⟩
      | auditEvent id =>
        intro row hrow
        obtain ⟨howner, hscope⟩ := h.auditEvents id row hrow
        exact ⟨howned howner, fun requestId hr => inScope_iff.mpr (hscope requestId hr)⟩
      | outboxEvent id =>
        intro row hrow
        obtain ⟨howner, hscope⟩ := h.outboxEvents id row hrow
        exact ⟨howned howner, inScope_iff.mpr hscope⟩
      | chainHead id => exact fun row hrow => howned (h.chainHeads id row hrow)
      | environment id =>
        exact fun row hrow => (good_environment hrow).mpr (h.environments id row hrow)
      | envelope id =>
        intro row hrow
        obtain ⟨howner, hscope⟩ := h.envelopes id row hrow
        exact ⟨howned howner, inScope_iff.mpr hscope⟩
      | agent | job | token | «alias» | advisory => trivial
    · cases k with
      | job id =>
        intro row hrow
        obtain ⟨howner, hscope⟩ := h.jobs id row hrow
        exact ⟨howned howner, inScope_iff.mpr hscope,
          fun agentId ha => agentOf_iff.mpr (h.leases id row hrow agentId ha)⟩
      | session id =>
        intro row hrow
        obtain ⟨howner, hof⟩ := h.sessions id row hrow
        exact ⟨howned howner, agentOf_iff.mpr hof⟩
      | tenant | project | environmentProject | receipt | controlSequence => trivial

end Rules

/-! ## Every reachable state -/

/-- The database as the migrations leave it, with these tenants. -/
def migrated (tenants : Table String Unit) : TenantWorld :=
  (World.initial, { Tenancy.empty with tenants })

theorem integrity_migrated (tenants : Table String Unit) : TenantIntegrity (migrated tenants) := by
  refine holds_iff.mp fun k => ?_
  rcases k with k | k
  · cases k <;> first | trivial | exact fun _ hrow => nomatch hrow
  · cases k <;> first | trivial | exact fun _ hrow => nomatch hrow

/-- However the transactions interleave, and whatever identifiers they are called with, no row points
    at what is another tenant's. -/
theorem tenant_integrity (rt : Runtime) :
    (∀ tenants, TenantIntegrity (migrated tenants)) ∧
      ∀ w c, TenantIntegrity w → Reachable (tenantSystem rt) w c → TenantIntegrity c.world := by
  refine ⟨integrity_migrated, fun w c hw hc => ?_⟩
  refine holds_iff.mp (Reachable.good (T := tenantRules) (fun request => learns_request rt request)
    (fun _ _ _ _ => rfl) ?_ (holds_iff.mpr hw) hc)
  rintro _ w w' ⟨aggregates, acknowledgements, rfl⟩ k
  rcases k with k | k
  · cases k <;> rfl
  · rfl

def firstTenant : TenantWorld := migrated (Table.empty.set "ten_1" (some ()))

def firstProject : TenantWorld :=
  (firstTenant.1,
   { firstTenant.2 with
     projects := Table.empty.set "prj_1"
       (some { tenantId := "ten_1", name := "Shop", slug := "shop" }) })

def firstEnvironment : TenantWorld :=
  ({ firstProject.1 with
     environments := Table.empty.set "env_1" (some
       { tenantId := "ten_1", subjectHashKeyVersion := 1, subjectCanonicalizationVersion := 1 }) },
   { firstProject.2 with
     environmentProjects := Table.empty.set "env_1"
       (some { projectId := "prj_1", kind := .production, status := .active }) })

/-- The first project and its environment. -/
theorem tenant_integrity_of_first_environment :
    owner firstEnvironment "env_1" = some "ten_1" ∧ TenantIntegrity firstEnvironment := by
  have project_starts : (tenantSystem firstRuntime).starts firstTenant
    (.createProjectWithinLimit "ten_1" ⟨"Shop", "shop"⟩ 3 "prj_1") := trivial
  have created :
      Reachable (tenantSystem firstRuntime) firstTenant ⟨firstProject, fun _ => none⟩ :=
    steps_transaction (allowed_nil _) project_starts rfl trivial
  have environment_starts : (tenantSystem firstRuntime).starts firstProject
    (.createEnvironment "ten_1" "prj_1" .production "env_1") := trivial
  have run : ((tenantSystem firstRuntime).body
      (.createEnvironment "ten_1" "prj_1" .production "env_1")).run firstProject [] [] =
        .ok ⟨(), firstProject,
          [⟨.inr (.environmentProject "env_1"), some ⟨"prj_1", .production, .active⟩⟩,
            ⟨.inl (.environment "env_1"), some ⟨"ten_1", 1, 1⟩⟩], []⟩ := rfl
  have opened :
      Reachable (tenantSystem firstRuntime) firstTenant ⟨firstEnvironment, fun _ => none⟩ :=
    created.trans (steps_transaction (allowed_nil _) environment_starts run trivial)
  exact ⟨rfl, (tenant_integrity firstRuntime).2 _ _ ((tenant_integrity firstRuntime).1 _) opened⟩

end ForgetOps.Api.Tenants
