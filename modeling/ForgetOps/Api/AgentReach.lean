import ForgetOps.Api.AgentSessions
import ForgetOps.Api.JobLease

/-
  Which agents get at the jobs of their environment.

  `poll`, `lease` and `nextControlSequence` ask for an agent that is online or outdated. No
  transaction of the API makes an agent one of these: a pairing inserts it as pairing, and the only
  status that is ever written behind that is revoked (`keepsStatus`). So an agent reaches its work
  just if it was online or outdated before the first transaction: `reachesWork_iff`.
-/

namespace ForgetOps.Api.Gateway

open Database ReadCommitted RowStore

/-! ## What is claimed -/

/-- The job is one of the agent's environment, available, unexpired, incomplete and not validly
    leased. -/
structure AvailableJob (w : Store) (input : AgentJobMutation) (job : AgentJobRow) : Prop where
  found : w.jobs.find input.jobId = some job
  tenant : job.tenantId = input.tenantId
  environment : job.environmentId = input.environmentId
  available : job.availableAt ≤ input.now
  unexpired : input.now < job.expiresAt
  incomplete : job.completedAt = none
  unleased : unleased input.now job

/-- A poll returns a job, the lease of the job succeeds, and so does `nextControlSequence`. -/
structure ReachesWork (w : GatewayWorld) (input : AgentJobMutation) : Prop where
  polled : ∃ o, (Gateway.poll input.toAgentJobLookup).run w.1 [] [] = .ok o ∧ o.answer.1 ≠ none
  leased : ∃ o, (Gateway.lease input).run w.1 [] [] = .ok o ∧ o.answer ≠ none
  sequenced : ∃ o, (nextControlSequence input.tenantId input.agentId).run w [] [] = .ok o

/-! ## One state -/

section State

variable {w : GatewayWorld} {input : AgentJobMutation} {agent : AgentRow} {job : AgentJobRow}

/-- The agent of a call, as its authentication has found it. -/
structure Authenticated (w : Store) (input : AgentJobLookup) (agent : AgentRow) : Prop where
  found : w.agents.find input.agentId = some agent
  tenant : tenantOf w.environments agent.environmentId = some input.tenantId
  environment : agent.environmentId = input.environmentId

theorem agentWorks_iff {environmentId : String}
    (hagent : Authenticated w.1 input.toAgentJobLookup agent) :
    agentWorks w.1 input.toAgentJobLookup environmentId = true ↔
      input.environmentId = environmentId ∧ works agent.status := by
  unfold agentWorks
  rw [hagent.found, Option.any_some, decide_eq_true_eq, worksIn, hagent.environment]
  have htenant := hagent.tenant
  rw [hagent.environment] at htenant
  exact ⟨fun h => h.2, fun h => ⟨htenant, h⟩⟩

theorem poll_run_iff (hagent : Authenticated w.1 input.toAgentJobLookup agent)
    (hjob : AvailableJob w.1 input job) :
    (∃ o, (Gateway.poll input.toAgentJobLookup).run w.1 [] [] = .ok o ∧ o.answer.1 ≠ none) ↔
      works agent.status := by
  constructor
  · rintro ⟨o, ho, hne⟩
    obtain rfl := Except.ok.inj ho
    obtain ⟨e, he⟩ := Option.ne_none_iff_exists'.mp hne
    have hmem := List.mem_of_mem_head? he
    rw [List.mem_mergeSort] at hmem
    have hoffer := of_decide_eq_true (List.mem_filter.mp hmem).2
    exact ((agentWorks_iff hagent).mp hoffer.2.2.2.2.2.2).2
  · intro hworks
    refine ⟨_, rfl, fun hnone => ?_⟩
    have hempty := List.head?_eq_none_iff.mp hnone
    have hoffered : isOffered w.1 input.toAgentJobLookup job :=
      ⟨hjob.tenant, hjob.environment, hjob.available, hjob.unexpired, hjob.incomplete,
        hjob.unleased, (agentWorks_iff hagent).mpr ⟨hjob.environment.symm, hworks⟩⟩
    have hmem : (input.jobId, job) ∈
        (w.1.jobs.entries.filter fun e => isOffered w.1 input.toAgentJobLookup e.2).mergeSort
          earlier := by
      rw [List.mem_mergeSort, List.mem_filter]
      exact ⟨Table.mem_entries_iff.mpr hjob.found, decide_eq_true hoffered⟩
    change List.mergeSort _ _ = [] at hempty
    exact List.ne_nil_of_mem hmem hempty

theorem lease_run_iff (hagent : Authenticated w.1 input.toAgentJobLookup agent)
    (hjob : AvailableJob w.1 input job) :
    (∃ o, (Gateway.lease input).run w.1 [] [] = .ok o ∧ o.answer ≠ none) ↔
      works agent.status := by
  have hworks : worksIn w.1.environments input.toAgentJobLookup input.environmentId agent ↔
      works agent.status := by
    have htenant := hagent.tenant
    exact ⟨fun h => h.2.2, fun h => ⟨htenant, hagent.environment, h⟩⟩
  have hrow : row w.1 (.agent input.agentId) = some agent := hagent.found
  unfold Gateway.lease
  rw [run_read, view_nil]
  constructor
  · rintro ⟨o, ho, hne⟩
    by_contra hidle
    rw [run_update_none _ (by rw [view_nil, hrow]; exact if_neg (mt hworks.mp hidle))] at ho
    obtain rfl := Except.ok.inj ho
    exact hne rfl
  · intro hagentWorks
    rw [run_update _ (by rw [view_nil, hrow]; exact if_pos (hworks.mpr hagentWorks))]
    have hjobRow : row (view w.1 ([⟨.agent input.agentId, some agent⟩] : Log GatewayRow))
        (.job input.jobId) = some job := by
      rw [row_view_of_notMem (by simp [keys])]
      exact hjob.found
    have hcan : ¬ ¬ canLease job input.now = true := by
      rw [not_not, canLease, decide_eq_true_eq]
      exact ⟨hjob.incomplete, hjob.available, hjob.unexpired⟩
    dsimp only
    rw [List.nil_append, run_update _ (by
      rw [id, hjobRow]
      exact if_pos ⟨hjob.tenant, hjob.environment⟩)]
    dsimp only
    unfold leaseRow
    rw [if_neg hcan, if_neg fun h => h.2 hjob.unleased, if_neg (not_not_intro hjob.unleased)]
    rw [run_update (v := some (leasedRow input job)) _ (by
      rw [view_concat, id, row_write_self]
      rfl)]
    exact ⟨_, rfl, Option.some_ne_none _⟩

theorem nextControlSequence_run_iff (hagent : Authenticated w.1 input.toAgentJobLookup agent) :
    (∃ o, (nextControlSequence input.tenantId input.agentId).run w [] [] = .ok o) ↔
      works agent.status := by
  have hrow : row w.1 (.agent input.agentId) = some agent := hagent.found
  unfold nextControlSequence
  rw [run_first_read, view_nil]
  constructor
  · rintro ⟨o, ho⟩
    by_contra hidle
    rw [run_first_update_none _ (by
      rw [view_nil, hrow]
      exact if_neg fun h => hidle h.2)] at ho
    cases ho
  · intro hworks
    rw [run_first_update _ (by
      rw [view_nil, hrow]
      exact if_pos ⟨hagent.tenant, hworks⟩)]
    exact ⟨_, rfl⟩

/-- In one state an agent reaches its work just if it works. -/
theorem reachesWork_iff_works (hagent : Authenticated w.1 input.toAgentJobLookup agent)
    (hjob : AvailableJob w.1 input job) : ReachesWork w input ↔ works agent.status := by
  constructor
  · intro h
    exact (lease_run_iff hagent hjob).mp h.leased
  · intro h
    exact ⟨(poll_run_iff hagent hjob).mpr h, (lease_run_iff hagent hjob).mpr h,
      (nextControlSequence_run_iff hagent).mpr h⟩

end State

/-! ## What transactions write of an agent -/

/-- A write on an agent: it inserts one that is pairing, or leaves its status but for a revocation. -/
inductive AgentStep : Option AgentRow → Option AgentRow → Prop
  | absent : AgentStep none none
  | insert {agent : AgentRow} (h : agent.status = .pairing) : AgentStep none (some agent)
  | keep {agent agent' : AgentRow} (h : agent'.status = agent.status) :
      AgentStep (some agent) (some agent')
  | revoke {agent agent' : AgentRow} (h : agent'.status = .revoked) :
      AgentStep (some agent) (some agent')

/-- What a write may do to a row of the gateway. -/
def KeepsStatus : (k : GatewayKey) → GatewayRow k → GatewayRow k → Prop
  | .agent _, row, row' => AgentStep row row'
  | _, _, _ => True

theorem agentStep_whenRow {p : AgentRow → Prop} [DecidablePred p] {f : AgentRow → AgentRow}
    (hf : ∀ agent, (f agent).status = agent.status ∨ (f agent).status = .revoked)
    (r : Option AgentRow) (b : AgentRow) (v : Option AgentRow) (h : whenRow p f r = some (b, v)) :
    AgentStep r v := by
  cases r with
  | none => cases h
  | some agent =>
    unfold whenRow at h
    dsimp only at h
    split_ifs at h
    cases h
    rcases hf _ with hkeep | hrevoke
    · exact .keep hkeep
    · exact .revoke hrevoke

theorem keepsStatus_updateAgent (id : String) (p : AgentRow → Prop) [DecidablePred p]
    {f : AgentRow → AgentRow}
    (hf : ∀ agent, (f agent).status = agent.status ∨ (f agent).status = .revoked) :
    (Script.update (.agent id) (whenRow p f) :
      GatewayTransaction (Option AgentRow)).Writes KeepsStatus :=
  (Script.writes_update _ _).mpr (agentStep_whenRow hf)

theorem keepsStatus_lockAgent (id : String) (p : AgentRow → Prop) [DecidablePred p] :
    (Script.update (.agent id) (lockRow p) :
      GatewayTransaction (Option AgentRow)).Writes KeepsStatus :=
  keepsStatus_updateAgent id p fun _ => .inl rfl

/-- A statement on a row of another table. -/
theorem keepsStatus_other {α : Type} {k : GatewayKey} (h : ∀ id, k ≠ .agent id)
    (q : GatewayRow k → Option (α × GatewayRow k)) :
    (Script.update k q : GatewayTransaction (Option α)).Writes KeepsStatus := by
  refine (Script.writes_update _ _).mpr fun _ _ _ _ => ?_
  cases k with
  | agent id => exact absurd rfl (h id)
  | environment | receipt | request | job => trivial

theorem keepsStatus_lockAgentRow (tenantId agentId : String) :
    (lockAgentRow tenantId agentId).Writes KeepsStatus :=
  (Script.writes_read _).bind fun _ => keepsStatus_lockAgent _ _

theorem keepsStatus_poll (input : AgentJobLookup) : (Gateway.poll input).Writes KeepsStatus :=
  Script.writes_read _

theorem keepsStatus_heartbeat (input : AgentJobMutation) :
    (Gateway.heartbeat input).Writes KeepsStatus :=
  (Script.writes_read _).bind fun _ =>
    (keepsStatus_other (by simp) _).bind fun _ => Script.writes_pure _

theorem keepsStatus_lease (input : AgentJobMutation) :
    (Gateway.lease input).Writes KeepsStatus := by
  refine (Script.writes_read _).bind fun _ => (keepsStatus_lockAgent _ _).bind fun agent => ?_
  cases agent with
  | none => trivial
  | some agent =>
    refine (keepsStatus_other (by simp) _).bind fun job => ?_
    cases job with
    | none => trivial
    | some job =>
      show (leaseRow input job).Writes KeepsStatus
      unfold leaseRow
      split
      · trivial
      · split
        · trivial
        · split
          · trivial
          · refine (keepsStatus_other (by simp) _).bind fun leased => ?_
            cases leased with
            | none => trivial
            | some _ => trivial

theorem keepsStatus_enqueue (input : EnqueueAgentJobInput) :
    (Gateway.enqueue input).Writes KeepsStatus :=
  (Script.writes_read _).bind fun _ => (Script.writes_failIf _ _).bind fun _ =>
    (keepsStatus_other (by simp) _).bind fun _ => (Script.writes_failIf _ _).bind fun _ =>
      Script.writes_pure _

theorem keepsStatus_revokeAgent (tenantId agentId : String) :
    (revokeAgent tenantId agentId).Writes KeepsStatus := by
  refine (Script.writes_read _).bind fun _ => ?_
  refine (keepsStatus_updateAgent _ _ fun _ => .inr rfl).bind fun result => ?_
  cases result with
  | some _ => trivial
  | none => exact (Script.writes_read _).bind fun _ => Script.writes_failIf _ _

theorem keepsStatus_claimAgentMessage (input : ClaimAgentMessageInput) :
    (claimAgentMessage input).Writes KeepsStatus := by
  have hlock : (lockAgent input.tenantId input.agentId).Writes KeepsStatus :=
    (Script.writes_read _).bind fun _ => (keepsStatus_lockAgent _ _).bind fun _ =>
      Script.writes_pure _
  have hrecord : (recordMessage input).Writes KeepsStatus :=
    (keepsStatus_other (by simp) _).bind fun _ => (Script.writes_failIf _ _).bind fun _ =>
      (keepsStatus_updateAgent (f := fun row => { row with lastSequence := input.sequence }) _ _
        fun _ => .inl rfl).bind fun _ => Script.writes_pure _
  refine hlock.bind fun found => ?_
  cases found with
  | none => trivial
  | some found =>
    show (if _ then _ else _ : GatewayTransaction _).Writes KeepsStatus
    split_ifs
    · trivial
    · trivial
    · unfold claimSequence
      split
      · split_ifs
        · trivial
        · refine (Script.writes_read _).bind fun duplicate => ?_
          split_ifs
          · trivial
          · exact hrecord.bind fun _ => Script.writes_pure _
      · trivial

theorem keepsStatus_authenticate (libraries : MessageLibraries) (message : AgentMessage)
    (receivedAt : Int) : (authenticate libraries message receivedAt).Writes KeepsStatus := by
  unfold authenticate
  split
  · trivial
  · refine (Script.writes_read _).bind fun identity => ?_
    split
    · trivial
    · exact (keepsStatus_claimAgentMessage _).bind fun _ => Script.writes_pure _

theorem keepsStatus_completeJobs (input : ForceReplacement) :
    (completeJobs input).Writes KeepsStatus :=
  (Script.writes_read _).bind fun _ =>
    (Script.writes_forRows (fun _ => keepsStatus_other (by simp) _) _).bind fun _ =>
      Script.writes_pure _

theorem keepsStatus_lockActiveAgents (environmentId : String) :
    (lockActiveAgents environmentId).Writes KeepsStatus :=
  (Script.writes_read _).bind fun _ =>
    Script.writes_forRows (fun _ => keepsStatus_lockAgent _ _) _

/-! ## What transactions write on both stores -/

def KeepsStatusBeside : (k : GatewayKey ⊕ ChannelKey) → GatewayWorldRow k → GatewayWorldRow k → Prop
  | .inl k, row, row' => KeepsStatus k row row'
  | .inr _, _, _ => True

section Beside

variable {α : Type}

theorem keepsStatus_first {s : GatewayTransaction α} (h : s.Writes KeepsStatus) :
    (s.first (τ := Channels) (π := ChannelRow)).Writes KeepsStatusBeside :=
  Script.writes_first h

theorem keepsStatus_second (s : Script Channels ChannelRow α) :
    (s.second (σ := Store) (ρ := GatewayRow)).Writes KeepsStatusBeside :=
  Script.writes_second (Script.touches_all s)

theorem keepsStatus_claimTransport (session : AgentSession) (now : Int) :
    (claimTransport session now).Writes KeepsStatusBeside := by
  refine (keepsStatus_first (keepsStatus_lockAgentRow _ _)).bind fun agent => ?_
  cases agent with
  | none => trivial
  | some agent =>
    show (if _ then _ else _ : SessionTransaction _).Writes KeepsStatusBeside
    split
    · trivial
    · exact (keepsStatus_second _).bind fun _ => (keepsStatus_second _).bind fun _ =>
        (Script.writes_failIf _ _).bind fun _ => Script.writes_pure _

theorem keepsStatus_nextControlSequence (tenantId agentId : String) :
    (nextControlSequence tenantId agentId).Writes KeepsStatusBeside :=
  (keepsStatus_first (Script.writes_read _)).bind fun _ =>
    (keepsStatus_first (keepsStatus_lockAgent _ _)).bind fun _ =>
      (Script.writes_failIf _ _).bind fun _ => (keepsStatus_second _).bind fun _ =>
        Script.writes_pure _

theorem keepsStatus_work (thread : Thread) (now : Int) :
    (thread.work now).Writes KeepsStatusBeside := by
  have hpoll : (do
      let offer ← (Gateway.poll (thread.lookup now)).first
      return .polled offer.1 : SessionTransaction GatewayReply).Writes KeepsStatusBeside :=
    (keepsStatus_first (keepsStatus_poll _)).bind fun _ => Script.writes_pure _
  unfold Thread.work
  cases thread.route with
  | lease jobId => exact (keepsStatus_first (keepsStatus_lease _)).bind fun _ => Script.writes_pure _
  | heartbeat jobId =>
    exact (keepsStatus_first (keepsStatus_heartbeat _)).bind fun _ => Script.writes_pure _
  | poll | hello | scan | close => exact hpoll

theorem keepsStatus_call (thread : Thread) (now : Int) :
    (thread.call now).Writes KeepsStatusBeside := by
  unfold Thread.call
  cases thread.stage with
  | claiming => exact (keepsStatus_claimTransport _ _).bind fun _ => Script.writes_pure _
  | checking checks => exact (Script.writes_read _).bind fun _ => Script.writes_pure _
  | working seen => exact keepsStatus_work thread now
  | releasing =>
    exact ((keepsStatus_second _).bind fun _ => Script.writes_pure _).bind fun _ =>
      Script.writes_pure _
  | finished => trivial

theorem keepsStatus_replaceAgent (input : PairAgentInput) (token : TokenRow)
    (active : Option (String × AgentRow)) :
    (replaceAgent input token active).Writes KeepsStatusBeside := by
  cases active with
  | none => trivial
  | some active =>
    refine (Script.writes_failIf _ _).bind fun _ => (Script.writes_failIf _ _).bind fun _ =>
      (Script.writes_failIf _ _).bind fun _ => Script.Writes.bind ?_ fun _ =>
        (keepsStatus_first (keepsStatus_updateAgent _ _ fun _ => .inr rfl)).bind fun _ =>
          Script.writes_pure _
    unfold completeForced
    split
    · exact (keepsStatus_first (keepsStatus_completeJobs _)).bind fun _ => Script.writes_pure _
    · trivial

theorem keepsStatus_consumeAndPair (input : PairAgentInput) :
    (consumeAndPair input).Writes KeepsStatusBeside := by
  have htoken : ∀ bootstrap, (lockToken input bootstrap).Writes KeepsStatusBeside := by
    intro bootstrap
    refine (keepsStatus_second _).bind fun token => ?_
    cases token with
    | none => trivial
    | some token =>
      exact (Script.writes_failIf _ _).bind fun _ => (Script.writes_failIf _ _).bind fun _ =>
        Script.writes_pure _
  have henvironment : ∀ token, (lockEnvironment input token).Writes KeepsStatusBeside := by
    intro token
    refine (keepsStatus_first (keepsStatus_other (by simp) _)).bind fun environment => ?_
    cases environment with
    | none => trivial
    | some environment => exact Script.writes_failIf _ _
  have hinsert : ∀ environmentId, (Script.update (.agent input.agentId)
      (whenAbsent (Pairing.newAgent input.registration environmentId)) :
        GatewayTransaction (Option Unit)).Writes KeepsStatus := by
    intro environmentId
    refine (Script.writes_update _ _).mpr fun r b v h => ?_
    cases r with
    | none =>
      cases h
      exact AgentStep.insert rfl
    | some agent => cases h
  refine (keepsStatus_second _).bind fun bootstrap => ?_
  cases bootstrap with
  | none => trivial
  | some bootstrap =>
    exact (htoken bootstrap).bind fun token => (henvironment token).bind fun _ =>
      (keepsStatus_first (keepsStatus_lockActiveAgents _)).bind fun active =>
        (keepsStatus_replaceAgent input token _).bind fun _ =>
          (keepsStatus_first (hinsert _)).bind fun _ => (Script.writes_failIf _ _).bind fun _ =>
            (keepsStatus_second _).bind fun _ => (Script.writes_failIf _ _).bind fun _ =>
              Script.writes_pure _

theorem keepsStatus_script (libraries : MessageLibraries) (request : GatewayRequest) :
    (request.script libraries).Writes KeepsStatusBeside := by
  cases request with
  | call index thread now => exact keepsStatus_call thread now
  | authenticate message receivedAt =>
    exact (keepsStatus_first (keepsStatus_authenticate _ _ _)).bind fun _ => Script.writes_pure _
  | pair input => exact (keepsStatus_consumeAndPair input).bind fun _ => Script.writes_pure _
  | revoke tenantId agentId =>
    exact (keepsStatus_first (keepsStatus_revokeAgent _ _)).bind fun _ => Script.writes_pure _
  | enqueue input =>
    exact (keepsStatus_first (keepsStatus_enqueue input)).bind fun _ => Script.writes_pure _
  | control tenantId agentId =>
    exact (keepsStatus_nextControlSequence _ _).bind fun _ => Script.writes_pure _

end Beside

/-! ## Runs -/

/-- What the row of an agent was at first still decides its status, unless it was revoked. -/
structure StatusSince (row₀ row : Option AgentRow) : Prop where
  before : ∀ agent₀, row₀ = some agent₀ →
    ∃ agent, row = some agent ∧ (agent.status = agent₀.status ∨ agent.status = .revoked)
  paired : row₀ = none →
    ∀ agent, row = some agent → agent.status = .pairing ∨ agent.status = .revoked

theorem StatusSince.step {row₀ row row' : Option AgentRow} (h : StatusSince row₀ row)
    (hstep : AgentStep row row') : StatusSince row₀ row' := by
  cases hstep with
  | absent => exact h
  | insert hstatus =>
    refine ⟨fun agent₀ h₀ => ?_, fun _ agent hagent => ?_⟩
    · obtain ⟨agent, hnone, -⟩ := h.before agent₀ h₀
      cases hnone
    · cases hagent
      exact .inl hstatus
  | keep hstatus =>
    refine ⟨fun agent₀ h₀ => ?_, fun h₀ agent hagent => ?_⟩
    · obtain ⟨agent, hagent, hsince⟩ := h.before agent₀ h₀
      cases hagent
      exact ⟨_, rfl, hstatus ▸ hsince⟩
    · cases hagent
      exact hstatus ▸ h.paired h₀ _ rfl
  | revoke hstatus =>
    refine ⟨fun agent₀ _ => ⟨_, rfl, .inr hstatus⟩, fun _ agent hagent => ?_⟩
    cases hagent
    exact .inr hstatus

section Runs

variable {libraries : MessageLibraries} {w : GatewayWorld}
  {c : Conf GatewayWorld GatewayWorldRow GatewayRequest GatewayReply}

/-- What holds of every row in a run from `w`. -/
def SinceStart (w : GatewayWorld) : (k : GatewayKey ⊕ ChannelKey) → GatewayWorldRow k → Prop
  | .inl (.agent id), agent => StatusSince (w.1.agents.find id) agent
  | _, _ => True

theorem sinceStart_of_keepsStatus {k : GatewayKey ⊕ ChannelKey} {r r' : GatewayWorldRow k}
    (hstep : KeepsStatusBeside k r r') (h : SinceStart w k r) : SinceStart w k r' := by
  cases k with
  | inr k => trivial
  | inl k =>
    cases k with
    | agent id => exact StatusSince.step h hstep
    | environment | receipt | request | job => trivial

theorem sinceStart_start (k : GatewayKey ⊕ ChannelKey) : SinceStart w k (row w k) := by
  cases k with
  | inr k => trivial
  | inl k =>
    cases k with
    | agent id =>
      refine ⟨fun agent₀ h₀ => ⟨agent₀, h₀, .inl rfl⟩, fun h₀ agent hagent => ?_⟩
      have hnone := hagent.symm.trans h₀
      cases hnone
    | environment | receipt | request | job => trivial

theorem statusSince_of_reachable (hc : Reachable (gatewaySystem libraries) w c) (id : String) :
    StatusSince (w.1.agents.find id) (c.world.1.agents.find id) := by
  have hbody : ∀ request, ((gatewaySystem libraries).body request).Writes
      fun k r r' => SinceStart w k r → SinceStart w k r' :=
    fun request => (keepsStatus_script libraries request).mono fun _ _ _ => sinceStart_of_keepsStatus
  exact hc.rows hbody row_settle (fun _ _ _ => row_opens) sinceStart_start (.inl (.agent id))

/-- An agent that was not revoked reaches an available job of its environment just if it was online
    or outdated in the database the run started from. -/
theorem reachesWork_iff (libraries : MessageLibraries) (w : GatewayWorld)
    (c : Conf GatewayWorld GatewayWorldRow GatewayRequest GatewayReply)
    (hc : Reachable (gatewaySystem libraries) w c) (input : AgentJobMutation) (agent : AgentRow)
    (job : AgentJobRow) (hagent : Authenticated c.world.1 input.toAgentJobLookup agent)
    (hrevoked : agent.status ≠ .revoked) (hjob : AvailableJob c.world.1 input job) :
    ReachesWork c.world input ↔
      ∃ agent₀, w.1.agents.find input.agentId = some agent₀ ∧ works agent₀.status := by
  have hsince := statusSince_of_reachable hc input.agentId
  rw [reachesWork_iff_works hagent hjob]
  constructor
  · intro hworks
    cases h₀ : w.1.agents.find input.agentId with
    | none =>
      rcases hsince.paired h₀ agent hagent.found with hpairing | hrev
      · rw [hpairing] at hworks
        exact absurd hworks (by decide)
      · exact absurd hrev hrevoked
    | some agent₀ =>
      obtain ⟨agent', hagent', hstatus⟩ := hsince.before agent₀ h₀
      rw [hagent.found] at hagent'
      cases hagent'
      exact ⟨agent₀, rfl, hstatus.resolve_right hrevoked ▸ hworks⟩
  · rintro ⟨agent₀, h₀, hworks⟩
    obtain ⟨agent', hagent', hstatus⟩ := hsince.before agent₀ h₀
    rw [hagent.found] at hagent'
    cases hagent'
    rw [hstatus.resolve_right hrevoked]
    exact hworks

end Runs

/-! ## An agent that was paired -/

/-- Texts are their own bytes, and every signature is good. -/
def plainLibraries : MessageLibraries where
  keyIdForPublicKey key := key
  decodeBase64Url text := text.toList.map fun c => UInt8.ofNat c.toNat
  encodeBase64Url bytes := String.ofList (bytes.map fun b => Char.ofNat b.toNat)
  agentMessageSigningBytes _ := some []
  verify _ _ _ := true

def firstPairing : PairAgentInput where
  tokenHash := "hash_1"
  registration :=
    { environmentId := "env_1", publicSigningKey := "AAAAAAAAAAAAAAAAAAAAAAAAAAAAAAAA",
      publicEncryptionKey := "key", signingKeyId := "key_1", encryptionKeyId := "key_2",
      subjectHmacKeyVersion := 1, version := "1.0.0", protocolVersion := "1.0",
      instanceFingerprint := "host" }
  now := 0
  agentId := "agt_1"
  openWork := []

def firstToken : TokenRow where
  tenantId := "ten_1"
  environmentId := "env_1"
  tokenHash := "hash_1"
  replacementMode := .none
  expiresAt := "1970-01-02T00:00:00.000Z"
  consumedAt := none

def firstMessage : AgentMessage where
  protocolVersion := "1.0"
  messageType := "agent.poll"
  messageId := "msg_1"
  keyId := "key_1"
  environmentId := "env_1"
  agentId := "agt_1"
  direction := .agentToControl
  sequence := "1"
  sentAt := "1970-01-01T00:00:00.000Z"
  payload := "\x7b\x22waitMs\x22:0\x7d"
  signature := "AAAAAAAAAAAAAAAAAAAAAAAAAAAAAAAAAAAAAAAAAAAAAAAAAAAAAAAAAAAAAAAA"

/-- No agent, and a token to pair one. -/
def unpaired : GatewayWorld :=
  ({ firstAgents with agents := .empty },
    { sessions := .empty, controlSequences := .empty,
      tokens := Table.empty.set "tok_1" (some firstToken), threads := [], events := [],
      handovers := [] })

/-- An online agent and a job of its environment. -/
def online : GatewayWorld := (firstEnqueued, unpaired.2)

theorem online_job : AvailableJob online.1 firstLease (newJob firstJob) where
  found := rfl
  tenant := rfl
  environment := rfl
  available := by decide
  unexpired := by decide
  incomplete := rfl
  unleased := nofun

/-- An agent that is online from the start reaches its work. -/
theorem reachesWork_of_online : ReachesWork online firstLease :=
  (reachesWork_iff plainLibraries online ⟨online, fun _ => none⟩ .refl firstLease _ _
    ⟨rfl, rfl, rfl⟩ (by decide) online_job).mpr ⟨_, rfl, .inl rfl⟩

def firstAgent : AgentRow := Pairing.newAgent firstPairing.registration "env_1"

/-- The store once the agent is paired, and then with a job for it. -/
def firstPaired : GatewayWorld :=
  ({ unpaired.1 with agents := Table.empty.set "agt_1" (some firstAgent) },
    { unpaired.2 with tokens := Table.empty.set "tok_1" (some
        { firstToken with consumedAt := some (IsoTimestamp.toISOString 0) }) })

def firstWaiting : GatewayWorld :=
  ({ firstPaired.1 with jobs := firstEnqueued.jobs }, firstPaired.2)

/-- And once the agent is authenticated. -/
def firstAuthenticated : GatewayWorld :=
  ({ firstWaiting.1 with
      receipts := Table.empty.set ⟨"agt_1", "msg_1"⟩ (some
        { sequence := "1", receivedAt := IsoTimestamp.toISOString 0 })
      agents := Table.empty.set "agt_1" (some { firstAgent with lastSequence := "1" }) },
    firstWaiting.2)

/-- An agent that was paired and has just been authenticated does not reach the job of its
    environment. -/
theorem paired_agent_idle :
    Reachable (gatewaySystem plainLibraries) unpaired ⟨firstAuthenticated, fun _ => none⟩ ∧
      Authenticated firstAuthenticated.1 firstLease.toAgentJobLookup
        { firstAgent with lastSequence := "1" } ∧
      firstAgent.status ≠ .revoked ∧
      AvailableJob firstAuthenticated.1 firstLease (newJob firstJob) ∧
      ¬ ReachesWork firstAuthenticated firstLease := by
  have hagent : Authenticated firstAuthenticated.1 firstLease.toAgentJobLookup
      { firstAgent with lastSequence := "1" } := ⟨rfl, rfl, rfl⟩
  have hjob : AvailableJob firstAuthenticated.1 firstLease (newJob firstJob) := { online_job with }
  refine ⟨?_, hagent, by decide, hjob, ?_⟩
  · have pair_starts : (gatewaySystem plainLibraries).starts unpaired (.pair firstPairing) :=
      trivial
    have paired : Reachable (gatewaySystem plainLibraries) unpaired ⟨firstPaired, fun _ => none⟩ :=
      steps_transaction (allowed_nil _) pair_starts rfl trivial
    have enqueue_starts : (gatewaySystem plainLibraries).starts firstPaired (.enqueue firstJob) :=
      trivial
    have waiting : Reachable (gatewaySystem plainLibraries) unpaired ⟨firstWaiting, fun _ => none⟩ :=
      paired.trans (steps_transaction (allowed_nil _) enqueue_starts rfl trivial)
    have message_starts : (gatewaySystem plainLibraries).starts firstWaiting
      (.authenticate firstMessage 0) := trivial
    exact waiting.trans (steps_transaction (allowed_nil _) message_starts rfl trivial)
  · rw [reachesWork_iff_works hagent hjob]
    decide

end ForgetOps.Api.Gateway
