import ForgetOps.Api.PairingRely

/-
  What a pairing does to the agent it replaces and to that agent's work.

  From the lock on the environment on no other agent appears there, and from the locks on its active
  agents on no envelope is stored for them. So what the later statements select is all there is at
  the commit: a drained replacement found nothing, and a forced one has closed what it found.
-/

namespace ForgetOps.Api.Pairing

open Domain Database
open ReadCommitted RowStore
open SubjectEnvelopes (ofTenant)

variable {w : World} {p p' : Point World Row} {environmentId : String}

/-! ## Holding an environment -/

/-- The transaction has only locked rows, the environment and its active agents among them. -/
structure Holds (w : World) (environmentId : String) (log : Log Row) : Prop where
  locks : Locks w log
  environment : .environment environmentId ∈ keys log
  agents : ∀ id, Active w environmentId id → .agent id ∈ keys log

theorem Holds.mono {log log' : Log Row} (h : Holds w environmentId log) (hsub : keys log ⊆ keys log')
    (hlocks : Locks w log') : Holds w environmentId log' :=
  ⟨hlocks, hsub h.environment, fun id hactive => hsub (h.agents id hactive)⟩

/-- Every active agent of the environment is locked and answered. -/
theorem leads_activeAgents {answers : List (String × AgentRow)} (hp : Locks w p.log)
    (he : .environment environmentId ∈ keys p.log)
    (h : Leads Guarded w (activeAgents environmentId) p answers p') :
    Holds w environmentId p'.log ∧
      (∀ e ∈ answers, w.agents.find e.1 = some e.2 ∧ isActive environmentId e.2) ∧
      ∀ id, Active w environmentId id → id ∈ answers.map Prod.fst := by
  obtain ⟨hlocks, htaken⟩ := leads_lockSelected rely_guarded hp (fun _ => lockRow_locks) h
  have hall : ∀ id, Active w environmentId id → id ∈ answers.map Prod.fst := by
    intro id hactive
    refine mem_lockSelected rely_guarded hp (fun _ => lockRow_locks) (fun u _ huw => ?_) h
    obtain ⟨row, hrow, hactive⟩ := huw.1.agents environmentId he id hactive
    exact ⟨row, hrow, hactive, fun hnone => lockRow_eq_none.mp hnone row hrow hactive⟩
  refine ⟨⟨hlocks, h.keys_subset he, fun id hactive => ?_⟩, fun e he => ?_, hall⟩
  · obtain ⟨e, he, rfl⟩ := List.mem_map.mp (hall id hactive)
    exact (htaken e he).2
  · obtain ⟨hrow, hactive, -⟩ := lockRow_eq_some.mp (htaken e he).1
    exact ⟨hrow, hactive⟩

/-- The envelopes that wait at the commit have waited since the locks. -/
theorem Holds.envelope {log : Log Row} (hheld : Holds w environmentId log) {agentId : String}
    (hactive : Active w environmentId agentId) {u : World} (huw : Guarded (keys log) u w)
    (hu : Consistent u) {id : String} {row : EnvelopeRow} (hrow : w.envelopes.find id = some row)
    (henvironment : row.environmentId = environmentId) (hopen : row.consumedAt = none) :
    u.envelopes.find id = some row := by
  refine huw.1.envelopes environmentId hheld.environment (fun id' hactive' => ?_) id row hrow
    henvironment hopen
  -- at that time the environment had the same agent
  have hbefore := huw.1.agents environmentId hheld.environment agentId hactive
  rw [← hu.agents environmentId agentId id' hbefore hactive']
  exact hheld.agents agentId hactive

/-! ## Open work -/

/-- No envelope of the environment waits, and none of its attempts is authorized or running. -/
structure WorkClosed (w : World) (environmentId : String) : Prop where
  envelopes : ∀ id row, w.envelopes.find id = some row → row.environmentId = environmentId →
    row.consumedAt ≠ none
  attempts : ∀ id row, w.attempts.find id = some row → row.environmentId = environmentId →
    ¬ openAttempt row.status

def JobsClosed (w : World) (environmentId : String) : Prop :=
  ∀ id row, w.jobs.find id = some row → row.environmentId = environmentId → row.completedAt ≠ none

theorem WorkClosed.congr {w' : World} (h : WorkClosed w environmentId)
    (henvelopes : w'.envelopes = w.envelopes) (hattempts : w'.attempts = w.attempts) :
    WorkClosed w' environmentId where
  envelopes := by
    rw [henvelopes]
    exact h.envelopes
  attempts := by
    rw [hattempts]
    exact h.attempts

theorem JobsClosed.congr {w' : World} (h : JobsClosed w environmentId) (hjobs : w'.jobs = w.jobs) :
    JobsClosed w' environmentId := by
  unfold JobsClosed
  rw [hjobs]
  exact h

theorem ofTenant_unique {tenantId tenantId' : String}
    (h : ofTenant tenantId w.environments environmentId)
    (h' : ofTenant tenantId' w.environments environmentId) : tenantId = tenantId' :=
  Option.some.inj (h.symm.trans h')

section Work

variable {token : TokenRow} {affected : List String} {now : Timestamp} {a : Unit}

/-- The review leaves none of the affected attempts open. -/
theorem leads_reviewWork (hp : Locks w p.log)
    (h : Leads Guarded w (reviewWork token affected now) p a p') {id : String} {row : AttemptRow}
    (hrow : (view w p'.log).attempts.find id = some row) (hopen : openAttempt row.status) :
    w.attempts.find id = some row ∧ (row.tenantId = token.tenantId → row.requestId ∉ affected) := by
  unfold reviewWork at h
  split at h
  · next hnone =>
    obtain ⟨-, hlog⟩ := leads_pure rely_guarded h
    rw [hlog, hp.view_eq] at hrow
    rw [hnone]
    exact ⟨hrow, fun _ => List.not_mem_nil⟩
  obtain ⟨_, mid, hrequests, hattempts⟩ := leads_bind rely_guarded h
  have hview : ∀ u, Guarded (keys mid.log) u w → (view u mid.log).attempts = u.attempts := by
    intro u hu
    have hup : Guarded (keys p.log) u w := rely_guarded.mono hrequests.keys_subset hu
    rw [frame_of_touches (K := .request) (writes_onSelected _ fun _ => by simp) hrequests _
      World.attempts (fun _ _ _ => rfl) u, (hp.at rely_guarded hup).view_eq]
  obtain ⟨row', -, -, hreviewed⟩ | ⟨hsame, u, hpassed, -, huw⟩ :=
    leads_reviewAttempts rely_guarded hview hattempts id
  · rw [hreviewed] at hrow
    cases hrow
    rcases hopen with h | h <;> cases h
  · rw [hsame] at hrow
    refine ⟨hrow, fun htenant hmem => ?_⟩
    exact hpassed row (huw.1.attempts id row hrow hopen) ⟨htenant, hmem, hopen⟩

/-- No envelope is left that waited since the locks. -/
theorem leads_deleteEnvelopes
    (hview : ∀ u, Guarded (keys p.log) u w → (view u p.log).envelopes = u.envelopes)
    (hlasting : ∀ u id row, Guarded (keys p.log) p.time u → Guarded (keys p.log) u w →
      w.envelopes.find id = some row → isUnconsumed token row → u.envelopes.find id = some row)
    (h : Leads Guarded w (deleteEnvelopes token) p a p') {id : String} {row : EnvelopeRow}
    (hrow : (view w p'.log).envelopes.find id = some row) :
    w.envelopes.find id = some row ∧ ¬ isUnconsumed token row := by
  obtain ⟨b, v, hdelete, hv, -⟩ | ⟨hsame, u, hpassed, hpu, huw⟩ :=
    leads_onSelected rely_guarded (fun _ _ => Key.envelope.inj) (fun _ _ => deleteRow_eq_none)
      (fun u hu => ⟨hview u hu, fun id => congrArg (·.find id) (hview u hu)⟩) h id
  · have hgone : (view w p'.log).envelopes.find id = none := hv.trans (deleteRow_deletes hdelete)
    rw [hgone] at hrow
    cases hrow
  · have hbefore : w.envelopes.find id = some row := hsame.symm.trans hrow
    exact ⟨hbefore, fun hopen => hpassed row (hlasting u id row hpu huw hbefore hopen) hopen⟩

theorem leads_revokeJobs
    (hview : ∀ u, Guarded (keys p.log) u w → (view u p.log).jobs = u.jobs)
    (h : Leads Guarded w (revokeJobs token now) p a p') {id : String} {row : JobRow}
    (hrow : (view w p'.log).jobs.find id = some row) (hopen : row.completedAt = none) :
    w.jobs.find id = some row ∧ ¬ isUncompletedJob token row := by
  obtain ⟨b, v, hrevoke, hv, -⟩ | ⟨hsame, u, hpassed, hpu, huw⟩ :=
    leads_onSelected rely_guarded (fun _ _ => Key.job.inj) (fun _ _ => whenRow_eq_none)
      (fun u hu => ⟨hview u hu, fun id => congrArg (·.find id) (hview u hu)⟩) h id
  · obtain ⟨-, -, hrevoked⟩ := whenRow_eq_some.mp hrevoke
    have hcompleted := hrow.symm.trans (hv.trans hrevoked)
    cases hcompleted
    cases hopen
  · have hbefore : w.jobs.find id = some row := hsame.symm.trans hrow
    exact ⟨hbefore, hpassed row (huw.1.jobs id row hbefore hopen)⟩

/-- Only requests, attempts, envelopes and jobs. -/
def isWork : Key → Prop
  | .request _ | .attempt _ | .envelope _ | .job _ => True
  | _ => False

theorem touches_reviewWork :
    (reviewWork token affected now).Touches fun k => (∃ id, k = .request id) ∨ ∃ id, k = .attempt id := by
  unfold reviewWork
  split
  · trivial
  · exact Script.Writes.bind (writes_onSelected _ fun _ => by simp) fun _ =>
      writes_onSelected _ fun _ => by simp

/-- What the review does not write is the same behind it. -/
theorem frame_reviewWork {γ : Type} (h : Leads Guarded w (reviewWork token affected now) p a p')
    (f : World → γ) (h₁ : ∀ v id x, f (write v (.request id) x) = f v)
    (h₂ : ∀ v id x, f (write v (.attempt id) x) = f v) (u : World) :
    f (view u p'.log) = f (view u p.log) := by
  refine frame_of_writes touches_reviewWork h f ?_ u
  rintro v k x (⟨id, rfl⟩ | ⟨id, rfl⟩)
  · exact h₁ v id x
  · exact h₂ v id x

variable (hw : Consistent w) (hscope : ofTenant token.tenantId w.environments token.environmentId)

include hw hscope

theorem isUnconsumed_of_open {id : String} {row : EnvelopeRow}
    (hrow : w.envelopes.find id = some row) (henvironment : row.environmentId = token.environmentId)
    (hopen : row.consumedAt = none) : isUnconsumed token row := by
  refine ⟨?_, henvironment, hopen⟩
  have htenant := hw.envelopes id row hrow hopen
  rw [henvironment] at htenant
  exact ofTenant_unique htenant hscope

theorem isOpen_of_open {id : String} {row : AttemptRow} (hrow : w.attempts.find id = some row)
    (henvironment : row.environmentId = token.environmentId) (hopen : openAttempt row.status) :
    isOpen token row := by
  refine ⟨?_, henvironment, hopen⟩
  have htenant := hw.attempts id row hrow hopen
  rw [henvironment] at htenant
  exact ofTenant_unique htenant hscope

theorem isUncompletedJob_of_open {id : String} {row : JobRow} (hrow : w.jobs.find id = some row)
    (henvironment : row.environmentId = token.environmentId) (hopen : row.completedAt = none) :
    isUncompletedJob token row := by
  refine ⟨?_, henvironment, hopen⟩
  have htenant := hw.jobs id row hrow hopen
  rw [henvironment] at htenant
  exact ofTenant_unique htenant hscope

/-- All the work of the environment that is open at the commit is found, and only locked. -/
theorem leads_findWork {envelopes : List (String × EnvelopeRow)}
    {attempts : List (String × AttemptRow)} {agentId : String} {p₁ : Point World Row}
    (hheld : Holds w token.environmentId p.log)
    (hactive : Active w token.environmentId agentId) (htime : Consistent p.time)
    (henvelopes : Leads Guarded w (unconsumedEnvelopes token) p envelopes p₁)
    (hattempts : Leads Guarded w (openAttempts token) p₁ attempts p') :
    Holds w token.environmentId p'.log ∧
      (∀ id row, w.envelopes.find id = some row → row.environmentId = token.environmentId →
        row.consumedAt = none → id ∈ envelopes.map Prod.fst) ∧
      ∀ id row, w.attempts.find id = some row → row.environmentId = token.environmentId →
        openAttempt row.status → row.requestId ∈ attempts.map (·.2.requestId) := by
  obtain ⟨hlocks₁, -⟩ :=
    leads_lockSelected rely_guarded hheld.locks (fun _ => lockRow_locks) henvelopes
  obtain ⟨hlocks, htaken⟩ :=
    leads_lockSelected rely_guarded hlocks₁ (fun _ => lockRow_locks) hattempts
  refine ⟨?_, ?_, ?_⟩
  · exact hheld.mono (List.Subset.trans henvelopes.keys_subset hattempts.keys_subset) hlocks
  · intro id row hrow henvironment hopen
    have hunconsumed := isUnconsumed_of_open hw hscope hrow henvironment hopen
    refine mem_lockSelected rely_guarded hheld.locks (fun _ => lockRow_locks) ?_ henvelopes
    intro u hpu huw
    have hbefore : u.envelopes.find id = some row :=
      hheld.envelope hactive huw (hpu.2 htime) hrow henvironment hopen
    exact ⟨row, hbefore, hunconsumed,
      fun hnone => lockRow_eq_none.mp hnone row hbefore hunconsumed⟩
  · intro id row hrow henvironment hopen
    have hisOpen := isOpen_of_open hw hscope hrow henvironment hopen
    have hmem : id ∈ attempts.map Prod.fst := by
      refine mem_lockSelected rely_guarded hlocks₁ (fun _ => lockRow_locks) ?_ hattempts
      intro u _ huw
      have hbefore := huw.1.attempts id row hrow hopen
      exact ⟨row, hbefore, hisOpen, fun hnone => lockRow_eq_none.mp hnone row hbefore hisOpen⟩
    obtain ⟨e, he, rfl⟩ := List.mem_map.mp hmem
    obtain ⟨hrow', -⟩ := lockRow_eq_some.mp (htaken e he).1
    obtain rfl := Option.some.inj (hrow'.symm.trans hrow)
    exact List.mem_map_of_mem he

/-- A forced replacement closes all the work of the environment that it found. -/
theorem leads_forceReplacement {agentId : String} (hheld : Holds w token.environmentId p.log)
    (hactive : Active w token.environmentId agentId) (htime : Consistent p.time)
    (hattempts : ∀ id row, w.attempts.find id = some row →
      row.environmentId = token.environmentId → openAttempt row.status → row.requestId ∈ affected)
    (h : Leads Guarded w (forceReplacement token affected now) p a p') :
    WorkClosed (view w p'.log) token.environmentId ∧
      JobsClosed (view w p'.log) token.environmentId := by
  obtain ⟨_, p₁, hreview, h⟩ := leads_bind rely_guarded h
  obtain ⟨_, p₂, hdelete, hrevoke⟩ := leads_bind rely_guarded h
  have hdeletes : (deleteEnvelopes token).Touches fun k => ∃ id, k = .envelope id :=
    writes_onSelected _ fun _ => by simp
  have hrevokes : (revokeJobs token now).Touches fun k => ∃ id, k = .job id :=
    writes_onSelected _ fun _ => by simp
  have hview₁ : ∀ u, Guarded (keys p₁.log) u w → (view u p₁.log).envelopes = u.envelopes := by
    intro u hu
    have hup : Guarded (keys p.log) u w := rely_guarded.mono hreview.keys_subset hu
    rw [frame_reviewWork hreview World.envelopes (fun _ _ _ => rfl) (fun _ _ _ => rfl) u,
      (hheld.locks.at rely_guarded hup).view_eq]
  have hview₂ : ∀ u, Guarded (keys p₂.log) u w → (view u p₂.log).jobs = u.jobs := by
    intro u hu
    have hup₁ : Guarded (keys p₁.log) u w := rely_guarded.mono hdelete.keys_subset hu
    have hup : Guarded (keys p.log) u w := rely_guarded.mono hreview.keys_subset hup₁
    rw [frame_of_touches hdeletes hdelete _ World.jobs (fun _ _ _ => rfl) u,
      frame_reviewWork hreview World.jobs (fun _ _ _ => rfl) (fun _ _ _ => rfl) u,
      (hheld.locks.at rely_guarded hup).view_eq]
  refine ⟨⟨?_, ?_⟩, ?_⟩
  · intro id row hrow henvironment hopen
    rw [frame_of_touches hrevokes hrevoke _ World.envelopes (fun _ _ _ => rfl) w] at hrow
    have hlasting : ∀ u id row, Guarded (keys p₁.log) p₁.time u → Guarded (keys p₁.log) u w →
        w.envelopes.find id = some row → isUnconsumed token row →
        u.envelopes.find id = some row := by
      intro u id row hpu huw hrow hunconsumed
      have hu : Consistent u := hpu.2 ((hreview.rely rely_guarded).2 htime)
      have huw' : Guarded (keys p.log) u w := rely_guarded.mono hreview.keys_subset huw
      exact hheld.envelope hactive huw' hu hrow hunconsumed.2.1 hunconsumed.2.2
    obtain ⟨hbefore, hclosed⟩ := leads_deleteEnvelopes hview₁ hlasting hdelete hrow
    exact hclosed (isUnconsumed_of_open hw hscope hbefore henvironment hopen)
  · intro id row hrow henvironment hopen
    rw [frame_of_touches hrevokes hrevoke _ World.attempts (fun _ _ _ => rfl) w,
      frame_of_touches hdeletes hdelete _ World.attempts (fun _ _ _ => rfl) w] at hrow
    obtain ⟨hbefore, hclosed⟩ := leads_reviewWork hheld.locks hreview hrow hopen
    have htenant := (isOpen_of_open hw hscope hbefore henvironment hopen).1
    exact hclosed htenant (hattempts id row hbefore henvironment hopen)
  · intro id row hrow henvironment hopen
    obtain ⟨hbefore, hclosed⟩ := leads_revokeJobs hview₂ hrevoke hrow hopen
    exact hclosed (isUncompletedJob_of_open hw hscope hbefore henvironment hopen)

/-- What a replacement finds open and leaves open, by its mode. -/
theorem leads_replaceWork_closes {agentId : String} (hheld : Holds w token.environmentId p.log)
    (hactive : Active w token.environmentId agentId) (htime : Consistent p.time)
    (h : Leads Guarded w (replaceWork token now) p a p') :
    (token.replacementMode = .drain → WorkClosed w token.environmentId) ∧
      (token.replacementMode = .force → WorkClosed (view w p'.log) token.environmentId ∧
        JobsClosed (view w p'.log) token.environmentId) := by
  obtain ⟨envelopes, p₁, henvelopes, h⟩ := leads_bind rely_guarded h
  obtain ⟨attempts, p₂, hattempts, h⟩ := leads_bind rely_guarded h
  obtain ⟨_, p₃, hdrain, h⟩ := leads_bind rely_guarded h
  obtain ⟨hheld₂, hallEnvelopes, hallAttempts⟩ :=
    leads_findWork hw hscope hheld hactive htime henvelopes hattempts
  obtain ⟨hnotBlocked, hlog₃⟩ := leads_failIf rely_guarded hdrain
  have htime₃ : Consistent p₃.time :=
    (hdrain.rely rely_guarded).2 ((hattempts.rely rely_guarded).2
      ((henvelopes.rely rely_guarded).2 htime))
  constructor
  · intro hmode
    have hnone : (envelopes.map (·.1) ++ attempts.map (·.2.requestId)).eraseDups = [] := by
      by_contra hsome
      exact hnotBlocked ⟨hmode, List.length_pos_of_ne_nil hsome⟩
    have hempty : ∀ id, id ∉ envelopes.map (·.1) ++ attempts.map (·.2.requestId) := by
      intro id hmem
      rw [← List.mem_eraseDups, hnone] at hmem
      exact List.not_mem_nil hmem
    constructor
    · intro id row hrow henvironment hopen
      exact hempty id (List.mem_append_left _ (hallEnvelopes id row hrow henvironment hopen))
    · intro id row hrow henvironment hopen
      exact hempty row.requestId
        (List.mem_append_right _ (hallAttempts id row hrow henvironment hopen))
  · intro hmode
    rw [if_pos hmode] at h
    refine leads_forceReplacement hw hscope (hlog₃ ▸ hheld₂) hactive htime₃ ?_ h
    intro id row hrow henvironment hopen
    rw [List.mem_eraseDups]
    exact List.mem_append_right _ (hallAttempts id row hrow henvironment hopen)

end Work

/-! ## The replaced agent -/

/-- The agent was replaced, as the mode of the token allows. -/
structure Replaces (token : TokenRow) (id : String) (w w' : World) : Prop where
  agent : ∃ row, w.agents.find id = some row ∧ isActive token.environmentId row ∧
    w'.agents.find id = some { row with status := .revoked }
  mode : token.replacementMode ≠ .none
  drain : token.replacementMode = .drain → WorkClosed w token.environmentId
  force : token.replacementMode = .force →
    WorkClosed w' token.environmentId ∧ JobsClosed w' token.environmentId

section Replacement

variable {input : ConsumeAndPairInput} {token : TokenRow} {a : Unit}

theorem touches_replaceWork (now : Timestamp) : (replaceWork token now).Touches isWork := by
  refine Script.Writes.bind ?_ fun _ => Script.Writes.bind ?_ fun _ =>
    (Script.writes_failIf _ _).bind fun _ => ?_
  · exact (Script.writes_read _).bind fun _ =>
      writes_onRows _ (fun _ => Script.touches_update trivial _) _
  · exact (Script.writes_read _).bind fun _ =>
      writes_onRows _ (fun _ => Script.touches_update trivial _) _
  split
  swap
  · trivial
  refine Script.Writes.bind ?_ fun _ => Script.Writes.bind ?_ fun _ => ?_
  · unfold reviewWork
    split
    · trivial
    · exact (writes_onSelected _ fun _ => Script.touches_update trivial _).bind fun _ =>
        writes_onSelected _ fun _ => Script.touches_update trivial _
  · exact writes_onSelected _ fun _ => Script.touches_update trivial _
  · exact writes_onSelected _ fun _ => Script.touches_update trivial _

/-- The active agent is revoked and no other agent changes. -/
theorem leads_replaceAgent {activeId : String} {active : AgentRow} (hw : Consistent w)
    (hscope : ofTenant token.tenantId w.environments token.environmentId)
    (hheld : Holds w token.environmentId p.log) (htime : Consistent p.time)
    (hrow : w.agents.find activeId = some active) (hactive : isActive token.environmentId active)
    (h : Leads Guarded w (replaceAgent token input.registration input.now activeId active) p a p') :
    Replaces token activeId w (view w p'.log) ∧ (view w p'.log).tokens = w.tokens ∧
      ∀ id, id ≠ activeId → (view w p'.log).agents.find id = w.agents.find id := by
  obtain ⟨_, q₁, hkey, h⟩ := leads_bind rely_guarded h
  obtain ⟨_, q₂, hmode, h⟩ := leads_bind rely_guarded h
  obtain ⟨_, q₃, hwork, h⟩ := leads_bind rely_guarded h
  obtain ⟨answer, q₄, hrevoke, h⟩ := leads_bind rely_guarded h
  obtain ⟨-, hlog₁⟩ := leads_failIf rely_guarded hkey
  obtain ⟨hmode', hlog₂⟩ := leads_failIf rely_guarded hmode
  obtain ⟨-, hlog⟩ := leads_pure rely_guarded h
  have hheld₂ : Holds w token.environmentId q₂.log := by
    rw [hlog₂, hlog₁]
    exact hheld
  have htime₂ : Consistent q₂.time :=
    (hmode.rely rely_guarded).2 ((hkey.rely rely_guarded).2 htime)
  obtain ⟨hdrain, hforce⟩ :=
    leads_replaceWork_closes hw hscope hheld₂ ⟨active, hrow, hactive⟩ htime₂ hwork
  have hframe {γ : Type} (f : World → γ) (hf : ∀ v k x, isWork k → f (write v k x) = f v) :
      f (view w q₃.log) = f w := by
    rw [frame_of_writes (touches_replaceWork _) hwork f hf, hheld₂.locks.view_eq]
  have hagents : (view w q₃.log).agents = w.agents :=
    hframe World.agents fun v k x hk => by cases k <;> first | rfl | exact hk.elim
  have htokens : (view w q₃.log).tokens = w.tokens :=
    hframe World.tokens fun v k x hk => by cases k <;> first | rfl | exact hk.elim
  have hkeys : .agent activeId ∈ keys q₃.log :=
    hwork.keys_subset (hheld₂.agents activeId ⟨active, hrow, hactive⟩)
  have hnow : row (view w q₃.log) (.agent activeId) = some active := by
    show (view w q₃.log).agents.find activeId = some active
    rw [hagents, hrow]
  have hlog₄ : q₄.log = q₃.log ++
      [⟨.agent activeId, some { active with status := AgentStatus.revoked }⟩] := by
    obtain ⟨b, v, -, htake, hlog₄⟩ | ⟨-, -, hskip⟩ :=
      leads_update_held rely_guarded hkeys hrevoke
    · rw [hnow] at htake
      obtain ⟨hb, -, rfl⟩ := whenRow_eq_some.mp htake
      obtain rfl := Option.some.inj hb
      exact hlog₄
    · exact absurd hactive.1 (whenRow_eq_none.mp hskip active hnow)
  rw [hlog, hlog₄, view_concat]
  have hself : (write (view w q₃.log) (.agent activeId)
      (some { active with status := AgentStatus.revoked })).agents.find activeId =
      some { active with status := .revoked } := Table.find_set_self _ _ _
  refine ⟨⟨⟨active, hrow, hactive, hself⟩, hmode', hdrain, fun hmode => ?_⟩, htokens,
    fun id hid => ?_⟩
  · exact ⟨(hforce hmode).1.congr rfl rfl, (hforce hmode).2.congr rfl⟩
  show (Table.set (view w q₃.log).agents activeId _).find id = _
  rw [Table.find_set_of_ne _ _ hid, hagents]

theorem Replaces.later {id : String} {w' w'' : World} (h : Replaces token id w w')
    (hagent : w''.agents.find id = w'.agents.find id) (henvelopes : w''.envelopes = w'.envelopes)
    (hattempts : w''.attempts = w'.attempts) (hjobs : w''.jobs = w'.jobs) :
    Replaces token id w w'' where
  agent := by
    rw [hagent]
    exact h.agent
  mode := h.mode
  drain := h.drain
  force hmode := ⟨(h.force hmode).1.congr henvelopes hattempts, (h.force hmode).2.congr hjobs⟩

/-- No agent of the environment is active any more, and the others are as they were. -/
theorem leads_replaceActive {agents : List (String × AgentRow)} (hw : Consistent w)
    (hscope : ofTenant token.tenantId w.environments token.environmentId)
    (hheld : Holds w token.environmentId p.log) (htime : Consistent p.time)
    (hfound : ∀ e ∈ agents, w.agents.find e.1 = some e.2 ∧ isActive token.environmentId e.2)
    (hall : ∀ id, Active w token.environmentId id → id ∈ agents.map Prod.fst)
    (h : Leads Guarded w (replaceActive input token agents.head?) p a p') :
    (view w p'.log).tokens = w.tokens ∧
      (∀ id, ¬ Active (view w p'.log) token.environmentId id) ∧
      ∀ id, (view w p'.log).agents.find id = w.agents.find id ∨
        Replaces token id w (view w p'.log) := by
  cases agents with
  | nil =>
    obtain ⟨-, hlog⟩ := leads_pure rely_guarded h
    rw [hlog, hheld.locks.view_eq]
    exact ⟨rfl, fun id hactive => List.not_mem_nil (hall id hactive), fun id => .inl rfl⟩
  | cons e agents =>
    obtain ⟨hrow, hactive⟩ := hfound e List.mem_cons_self
    obtain ⟨hreplaces, htokens, hothers⟩ :=
      leads_replaceAgent hw hscope hheld htime hrow hactive h
    obtain ⟨row, hrow', -, hrevoked⟩ := hreplaces.agent
    refine ⟨htokens, fun id hid => ?_, fun id => ?_⟩
    · by_cases heq : id = e.1
      · subst heq
        obtain ⟨row', hrow', -, hstatus⟩ := hid
        rw [hrevoked] at hrow'
        cases hrow'
        exact hstatus rfl
      · obtain ⟨row', hrow', hactive'⟩ := hid
        rw [hothers id heq] at hrow'
        exact heq (hw.agents _ id e.1 ⟨row', hrow', hactive'⟩ ⟨e.2, hrow, hactive⟩)
    · by_cases heq : id = e.1
      · subst heq
        exact .inr hreplaces
      · exact .inl (hothers id heq)

end Replacement

/-! ## A committed pairing -/

/-- What a committed pairing has done, with the token of this hash. -/
structure Paired (input : ConsumeAndPairInput) (tokenId : String) (token : TokenRow)
    (w w' : World) : Prop where
  found : w.tokens.find tokenId = some token
  hash : token.tokenHash = input.tokenHash
  unconsumed : token.consumedAt = none
  consumed : w'.tokens.find tokenId = some { token with consumedAt := some input.now }
  absent : w.agents.find input.agentId = none
  created : w'.agents.find input.agentId =
    some (newAgent input.registration token.environmentId)
  alone : ∀ id, Active w' token.environmentId id → id = input.agentId
  others : ∀ id, id ≠ input.agentId →
    w'.agents.find id = w.agents.find id ∨ Replaces token id w w'

section Pairing

variable {input : ConsumeAndPairInput} {token : TokenRow} {a : Unit}

theorem leads_lockToken_valid {bootstrap : String × TokenRow} (hp : Locks w p.log)
    (h : Leads Guarded w (lockToken input bootstrap) p token p') :
    token.consumedAt = none ∧ .token bootstrap.1 ∈ keys p'.log := by
  obtain ⟨found, mid, hlock, h⟩ := leads_bind rely_guarded h
  obtain ⟨-, htaken⟩ := leads_lock rely_guarded hp lockRow_locks hlock
  cases found with
  | none => exact (leads_fail h).elim
  | some row =>
    obtain ⟨_, mid₁, hused, h⟩ := leads_bind rely_guarded h
    obtain ⟨_, mid₂, hother, h⟩ := leads_bind rely_guarded h
    obtain ⟨hvalid, -⟩ := leads_failIf rely_guarded hused
    obtain ⟨rfl, hlog⟩ := leads_pure rely_guarded h
    rw [not_or, not_not] at hvalid
    obtain ⟨_, -, -, hkey⟩ | ⟨hnone, -⟩ := htaken
    · rw [hlog]
      exact ⟨hvalid.1, hother.keys_subset (hused.keys_subset hkey)⟩
    · cases hnone

theorem leads_lockEnvironment_owned (hp : Locks w p.log)
    (h : Leads Guarded w (lockEnvironment input token) p a p') :
    ofTenant token.tenantId w.environments token.environmentId ∧
      .environment token.environmentId ∈ keys p'.log := by
  obtain ⟨found, mid, hlock, h⟩ := leads_bind rely_guarded h
  obtain ⟨-, htaken⟩ := leads_lock rely_guarded hp lockRow_locks hlock
  cases found with
  | none => exact (leads_fail h).elim
  | some environment =>
    obtain ⟨-, hlog⟩ := leads_failIf rely_guarded h
    obtain ⟨_, hsome, htake, hkey⟩ | ⟨hnone, -⟩ := htaken
    · cases hsome
      obtain ⟨hrow, htenant, -⟩ := lockRow_eq_some.mp htake
      have hfind : w.environments.find token.environmentId = some environment := hrow
      rw [hlog]
      refine ⟨?_, hkey⟩
      show (w.environments.find token.environmentId).map (·.tenantId) = some token.tenantId
      rw [hfind, Option.map_some, htenant]
    · cases hnone

/-- The agent is inserted and the token consumed. -/
theorem leads_insertAgent {tokenId : String} {agent : AgentRow}
    (hkey : .token tokenId ∈ keys p.log)
    (htoken : (view w p.log).tokens.find tokenId = some token)
    (h : Leads Guarded w (insertAgent input tokenId token) p agent p') :
    (view w p.log).agents.find input.agentId = none ∧
      view w p'.log = write (write (view w p.log) (.agent input.agentId)
        (some (newAgent input.registration token.environmentId))) (.token tokenId)
        (some { token with consumedAt := some input.now }) := by
  obtain ⟨inserted, p₁, hinsert, h⟩ := leads_bind rely_guarded h
  obtain ⟨_, p₂, hunique, h⟩ := leads_bind rely_guarded h
  obtain ⟨consumed, p₃, hconsume, h⟩ := leads_bind rely_guarded h
  obtain ⟨_, p₄, hcount, h⟩ := leads_bind rely_guarded h
  obtain ⟨hnew, hlog₂⟩ := leads_failIf rely_guarded hunique
  obtain ⟨hone, hlog₄⟩ := leads_failIf rely_guarded hcount
  obtain ⟨-, hlog⟩ := leads_pure rely_guarded h
  obtain ⟨_, v, -, htake, hlog₁⟩ | ⟨hnone, -⟩ := leads_update rely_guarded hinsert
  swap
  · exact absurd hnone hnew
  obtain ⟨habsent, rfl⟩ := whenAbsent_eq_some.mp htake
  have hkey₂ : .token tokenId ∈ keys p₂.log := hunique.keys_subset (hinsert.keys_subset hkey)
  obtain ⟨b, v, -, htake, hlog₃⟩ | ⟨hnone, -⟩ :=
    leads_update_held rely_guarded hkey₂ hconsume
  swap
  · exact absurd hnone hone
  obtain ⟨hrow, -, rfl⟩ := whenRow_eq_some.mp htake
  rw [hlog₂, hlog₁, view_concat] at hrow
  have hsame : (view w p.log).tokens.find tokenId = some b := hrow
  obtain rfl := Option.some.inj (htoken.symm.trans hsame)
  refine ⟨habsent, ?_⟩
  rw [hlog, hlog₄, hlog₃, hlog₂, hlog₁, view_concat, view_concat]

/-- Every committed pairing has used up its token, and created the only active agent of the
    environment it holds. -/
theorem consumeAndPair_paired {u : World} {log : Log Row} {agent : AgentRow} (hw : Consistent w)
    (hu : Consistent u)
    (h : Completes Guarded w (consumeAndPair input) ⟨u, []⟩ agent ⟨w, log⟩) :
    ∃ tokenId token, Paired input tokenId token w (view w log) ∧
      .environment token.environmentId ∈ keys log := by
  obtain ⟨bootstrap, p₁, hlookup, h⟩ := leads_bind rely_guarded (h.leads rely_guarded)
  obtain ⟨hlog₁, u₁, hbootstrap, huu, huw⟩ := leads_read rely_guarded hlookup
  cases bootstrap with
  | none => exact (leads_fail h).elim
  | some bootstrap =>
    obtain ⟨token, p₂, htoken, h⟩ := leads_bind rely_guarded h
    obtain ⟨_, p₃, henvironment, h⟩ := leads_bind rely_guarded h
    obtain ⟨agents, p₄, hagents, h⟩ := leads_bind rely_guarded h
    obtain ⟨_, p₅, hreplace, hinsert⟩ := leads_bind rely_guarded h
    have hp₁ : Locks w p₁.log := hlog₁ ▸ locks_nil w
    obtain ⟨hp₂, hfound⟩ := leads_lockToken rely_guarded hp₁ htoken
    obtain ⟨hunconsumed, htokenKey⟩ := leads_lockToken_valid hp₁ htoken
    have hp₃ := leads_lockEnvironment rely_guarded hp₂ henvironment
    obtain ⟨hscope, henvironmentKey⟩ := leads_lockEnvironment_owned hp₂ henvironment
    obtain ⟨hheld, hactive, hall⟩ := leads_activeAgents hp₃ henvironmentKey hagents
    have htime₄ : Consistent p₄.time :=
      (hagents.rely rely_guarded).2 ((henvironment.rely rely_guarded).2
        ((htoken.rely rely_guarded).2 ((hlookup.rely rely_guarded).2 hu)))
    obtain ⟨htokens, hnone, hothers⟩ :=
      leads_replaceActive hw hscope hheld htime₄ hactive hall hreplace
    have hkey₅ : .token bootstrap.1 ∈ keys p₅.log :=
      hreplace.keys_subset (hagents.keys_subset (henvironment.keys_subset htokenKey))
    have hhash : token.tokenHash = input.tokenHash := by
      have hmem := List.mem_of_find?_eq_some hbootstrap.symm
      obtain ⟨t', ht', hspent⟩ := huw.1.tokens _ _ (Table.mem_entries_iff.mp hmem)
      obtain rfl := Option.some.inj (hfound.symm.trans ht')
      rw [hspent.1]
      simpa using List.find?_some hbootstrap.symm
    obtain ⟨habsent, hview⟩ := leads_insertAgent hkey₅ (by rw [htokens, hfound]) hinsert
    have hother : ∀ id, id ≠ input.agentId →
        (view w log).agents.find id = (view w p₅.log).agents.find id := by
      intro id hid
      rw [hview]
      exact Table.find_set_of_ne _ _ hid
    refine ⟨bootstrap.1, token, ?_, ?_⟩
    · constructor
      · exact hfound
      · exact hhash
      · exact hunconsumed
      · rw [hview]
        exact Table.find_set_self _ _ _
      · obtain hsame | hreplaced := hothers input.agentId
        · exact hsame.symm.trans habsent
        · obtain ⟨row, -, -, hrevoked⟩ := hreplaced.agent
          rw [habsent] at hrevoked
          cases hrevoked
      · rw [hview]
        exact Table.find_set_self _ _ _
      · intro id hid
        by_contra hne
        obtain ⟨row, hrow, hactive⟩ := hid
        rw [hother id hne] at hrow
        exact hnone id ⟨row, hrow, hactive⟩
      · intro id hid
        rw [hother id hid]
        obtain hsame | hreplaced := hothers id
        · exact .inl hsame
        · exact .inr (hreplaced.later (hother id hid) (by rw [hview]; rfl) (by rw [hview]; rfl)
            (by rw [hview]; rfl))
    · exact hinsert.keys_subset (hreplace.keys_subset (hagents.keys_subset henvironmentKey))

end Pairing

end ForgetOps.Api.Pairing
