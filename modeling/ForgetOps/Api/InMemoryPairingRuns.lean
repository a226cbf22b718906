import ForgetOps.Api.InMemoryPairing

/-
  What `InMemoryPairingRepository` guarantees (`apps/api/src/modules/agents/pairing-service.ts`).

  In every run an environment has one agent that is not revoked, and a call that is rejected changes
  nothing. A token pairs once exactly when no waiting call goes on whose token has been consumed
  since it looked: `singlePairing_iff`.
-/

namespace ForgetOps.Api.InMemoryPairing

open Awaiting Database InMemoryPairingRepository

abbrev Log := List (Entry ConsumeInput (Nat × ConsumeInput) (Option (Option Int)) Outcome)

abbrev Run := State InMemoryPairingRepository ConsumeInput (Nat × ConsumeInput)
  (Option (Option Int)) Outcome

abbrev Happening := Event ConsumeInput (Option (Option Int)) Other

/-- The repository after these events. -/
def after (hierarchy : Bool) (events : List Happening) : Run :=
  run (consumeAndPair hierarchy) (.initial .new) events

/-- The token that a call has created an agent with. -/
def paired (entry : Entry ConsumeInput (Nat × ConsumeInput) (Option (Option Int)) Outcome) :
    Option Nat :=
  match entry.result.result with
  | .ok _ => entry.result.token
  | .error _ => none

/-- No environment has two agents that are not revoked, and an agent is under its id. -/
structure Exclusive (s : InMemoryPairingRepository) : Prop where
  id_eq : ∀ id agent, s.agents.find id = some agent → agent.id = id
  one : ∀ id agent id' agent', s.agents.find id = some agent → s.agents.find id' = some agent' →
    agent.environmentId = agent'.environmentId → agent.status ≠ .revoked →
    agent'.status ≠ .revoked → id = id'

/-- What is promised of a run. -/
structure SinglePairing (hierarchy : Bool) (events : List Happening) : Prop where
  /-- A token creates one agent. -/
  once : ((after hierarchy events).log.filterMap paired).Nodup
  exclusive : ∀ before, before <+: events → Exclusive (after hierarchy before).store
  /-- No part of a call that is rejected changes anything. -/
  unchanged : ∀ before e, before ++ [e] <+: events → (∀ o, e ≠ .other o) →
    (∀ entry agent, added (consumeAndPair hierarchy) (after hierarchy before) e = some entry →
      entry.result.result ≠ .ok agent) →
    (after hierarchy (before ++ [e])).store = (after hierarchy before).store

/-- A waiting call that nothing else stops finds its token as it left it. -/
def Undisturbed (r : Run) : Happening → Prop
  | .answer n (some version) => ∀ input ref kept token,
      r.waiting[n]? = some (some (input, (ref, kept))) → r.store.objects[ref]? = some token →
      version = some kept.registration.subjectHmacKeyVersion →
      r.store.blocked token kept.registration = none → token.consumedAt = none
  | _ => True

/-! ## The parts of a call -/

/-- The rest of a call is rejected and changes nothing, or it pairs. -/
theorem finish_cases (s : InMemoryPairingRepository) (ref : Nat) (input : ConsumeInput)
    (version : Option Int) :
    (∃ failure, s.finish ref input version = (.error failure, s) ∧
      ∀ token, s.objects[ref]? = some token →
        version = some input.registration.subjectHmacKeyVersion →
        s.blocked token input.registration ≠ none) ∨
    ∃ token, s.objects[ref]? = some token ∧
      version = some input.registration.subjectHmacKeyVersion ∧
      s.blocked token input.registration = none ∧
      s.finish ref input version =
        (.ok (newAgent token input), (s.replaceActive token).insert ref token input) := by
  unfold InMemoryPairingRepository.finish
  split
  · next hobject =>
    refine .inl ⟨_, rfl, fun token htoken => ?_⟩
    rw [hobject] at htoken
    cases htoken
  · next token hobject =>
    split_ifs with hversion
    · refine .inl ⟨_, rfl, fun _ _ heq => absurd heq hversion⟩
    · split
      · next failure hblocked =>
        refine .inl ⟨_, rfl, fun token' htoken _ => ?_⟩
        cases hobject.symm.trans htoken
        rw [hblocked]
        exact Option.some_ne_none _
      · next hblocked => exact .inr ⟨token, hobject, not_not.mp hversion, hblocked, rfl⟩

theorem check_ok {s : InMemoryPairingRepository} {input : ConsumeInput} {ref : Nat}
    (h : s.check input = .ok ref) :
    ∃ token, s.objects[ref]? = some token ∧ token.consumedAt = none := by
  unfold InMemoryPairingRepository.check at h
  split at h
  · cases h
  · split at h
    · cases h
    · next ref' token hobject =>
      split_ifs at h with hconsumed henvironment
      cases h
      rw [not_or, not_not] at hconsumed
      exact ⟨token, hobject, hconsumed.1⟩

theorem objects_replaceActive (s : InMemoryPairingRepository) (token : PairingTokenRecord) :
    (s.replaceActive token).objects = s.objects := by
  unfold InMemoryPairingRepository.replaceActive
  split
  · rfl
  · dsimp only
    split_ifs <;> rfl

/-- What replacing leaves of the agents. -/
theorem agents_replaceActive (s : InMemoryPairingRepository) (token : PairingTokenRecord) :
    (s.active token.environmentId = none ∧ (s.replaceActive token).agents = s.agents) ∨
    ∃ agent, s.active token.environmentId = some agent ∧ (s.replaceActive token).agents =
      s.agents.set agent.id (some { agent with status := .revoked }) := by
  unfold InMemoryPairingRepository.replaceActive
  cases s.active token.environmentId with
  | none => exact .inl ⟨rfl, rfl⟩
  | some agent =>
    refine .inr ⟨agent, rfl, ?_⟩
    dsimp only
    split_ifs <;> rfl

/-! ## Agents -/

theorem active_none {s : InMemoryPairingRepository} {environmentId : String}
    (h : s.active environmentId = none) {id : String} {agent : AgentRecord}
    (hfind : s.agents.find id = some agent) (henvironment : agent.environmentId = environmentId) :
    agent.status = .revoked := by
  have hmem : agent ∈ s.agents.values := Table.mem_values_iff.mpr ⟨id, hfind⟩
  by_contra hstatus
  exact absurd (List.find?_eq_none.mp h agent hmem) (by simp [henvironment, hstatus])

theorem active_some {s : InMemoryPairingRepository} (hs : Exclusive s) {environmentId : String}
    {agent : AgentRecord} (h : s.active environmentId = some agent) :
    s.agents.find agent.id = some agent ∧ agent.environmentId = environmentId ∧
      agent.status ≠ .revoked := by
  obtain ⟨id, hfind⟩ := Table.mem_values_iff.mp (List.mem_of_find?_eq_some h)
  have hactive := List.find?_some h
  rw [hs.id_eq id agent hfind]
  exact ⟨hfind, by simpa using hactive⟩

/-- An agent that is replaced keeps its place, and only its status changes. -/
theorem Exclusive.revoke {s s' : InMemoryPairingRepository} (hs : Exclusive s) {id : String}
    {agent : AgentRecord} (hfind : s.agents.find id = some agent)
    (hagents : s'.agents = s.agents.set id (some { agent with status := .revoked })) :
    Exclusive s' := by
  have hcases : ∀ id' agent', s'.agents.find id' = some agent' →
      (id' = id ∧ agent' = { agent with status := .revoked }) ∨
        s.agents.find id' = some agent' := by
    intro id' agent' hfind'
    rw [hagents] at hfind'
    by_cases heq : id' = id
    · subst heq
      rw [Table.find_set_self] at hfind'
      exact .inl ⟨rfl, (Option.some.inj hfind').symm⟩
    · rw [Table.find_set_of_ne _ _ heq] at hfind'
      exact .inr hfind'
  refine ⟨?_, ?_⟩
  · intro id' agent' hfind'
    rcases hcases id' agent' hfind' with ⟨rfl, rfl⟩ | hfind'
    · exact hs.id_eq id' agent hfind
    · exact hs.id_eq id' agent' hfind'
  · intro id₁ agent₁ id₂ agent₂ h₁ h₂ henvironment hstatus₁ hstatus₂
    rcases hcases id₁ agent₁ h₁ with ⟨-, rfl⟩ | h₁
    · exact absurd rfl hstatus₁
    · rcases hcases id₂ agent₂ h₂ with ⟨-, rfl⟩ | h₂
      · exact absurd rfl hstatus₂
      · exact hs.one id₁ agent₁ id₂ agent₂ h₁ h₂ henvironment hstatus₁ hstatus₂

/-- After replacing, no agent of the environment is left that is not revoked. -/
theorem Exclusive.replaceActive {s : InMemoryPairingRepository} (hs : Exclusive s)
    (token : PairingTokenRecord) : Exclusive (s.replaceActive token) ∧
      ∀ id agent, (s.replaceActive token).agents.find id = some agent →
        agent.environmentId = token.environmentId → agent.status = .revoked := by
  rcases agents_replaceActive s token with ⟨hactive, hagents⟩ | ⟨active, hactive, hagents⟩
  · refine ⟨⟨?_, ?_⟩, ?_⟩
    · rw [hagents]
      exact hs.id_eq
    · rw [hagents]
      exact hs.one
    · rw [hagents]
      exact fun id agent hfind henvironment => active_none hactive hfind henvironment
  · obtain ⟨hfind, henvironment, hstatus⟩ := active_some hs hactive
    refine ⟨hs.revoke hfind hagents, ?_⟩
    intro id agent hagent hsame
    rw [hagents] at hagent
    by_cases heq : id = active.id
    · subst heq
      rw [Table.find_set_self] at hagent
      obtain rfl := Option.some.inj hagent
      rfl
    · rw [Table.find_set_of_ne _ _ heq] at hagent
      by_contra hnot
      exact heq (hs.one id agent active.id active hagent hfind
        (hsame.trans henvironment.symm) hnot hstatus)

/-- A new agent is the only one of its environment that is not revoked. -/
theorem Exclusive.insert {s : InMemoryPairingRepository} (hs : Exclusive s) {ref : Nat}
    {token : PairingTokenRecord} {input : ConsumeInput}
    (hrevoked : ∀ id agent, s.agents.find id = some agent →
      agent.environmentId = token.environmentId → agent.status = .revoked) :
    Exclusive (s.insert ref token input) := by
  have hcases : ∀ id agent, (s.insert ref token input).agents.find id = some agent →
      (id = input.agentId ∧ agent = newAgent token input) ∨ s.agents.find id = some agent := by
    intro id agent hfind
    have hfind : (s.agents.set input.agentId (some (newAgent token input))).find id = some agent :=
      hfind
    by_cases heq : id = input.agentId
    · subst heq
      rw [Table.find_set_self] at hfind
      exact .inl ⟨rfl, (Option.some.inj hfind).symm⟩
    · rw [Table.find_set_of_ne _ _ heq] at hfind
      exact .inr hfind
  refine ⟨?_, ?_⟩
  · intro id agent hfind
    rcases hcases id agent hfind with ⟨rfl, rfl⟩ | hfind
    · rfl
    · exact hs.id_eq id agent hfind
  · intro id₁ agent₁ id₂ agent₂ h₁ h₂ henvironment hstatus₁ hstatus₂
    rcases hcases id₁ agent₁ h₁ with ⟨rfl, rfl⟩ | h₁ <;>
      rcases hcases id₂ agent₂ h₂ with ⟨rfl, rfl⟩ | h₂
    · rfl
    · exact absurd (hrevoked id₂ agent₂ h₂ henvironment.symm) hstatus₂
    · exact absurd (hrevoked id₁ agent₁ h₁ henvironment) hstatus₁
    · exact hs.one id₁ agent₁ id₂ agent₂ h₁ h₂ henvironment hstatus₁ hstatus₂

/-- What the other methods do to the agents and to the tokens. -/
theorem apply_cases (s : InMemoryPairingRepository) (o : Other) :
    ((o.apply s).agents = s.agents ∨ ∃ id agent, s.agents.find id = some agent ∧
      (o.apply s).agents = s.agents.set id (some { agent with status := .revoked })) ∧
    ((o.apply s).objects = s.objects ∨ ∃ token, token.consumedAt = none ∧
      (o.apply s).objects = s.objects ++ [token]) := by
  cases o with
  | issueToken token => exact ⟨.inl rfl, .inr ⟨{ token with consumedAt := none }, rfl, rfl⟩⟩
  | markSubjectEnvelopeActive environmentId requestId => exact ⟨.inl rfl, .inl rfl⟩
  | markAttemptRunning environmentId requestId => exact ⟨.inl rfl, .inl rfl⟩
  | addPendingCiphertext agentId jobId ciphertext => exact ⟨.inl rfl, .inl rfl⟩
  | revokeAgent tenantId agentId =>
    unfold Other.apply
    dsimp only
    split_ifs with htenant
    · exact ⟨.inl rfl, .inl rfl⟩
    · split
      · exact ⟨.inl rfl, .inl rfl⟩
      · next agent hfind =>
        split_ifs with hstatus
        · exact ⟨.inl rfl, .inl rfl⟩
        · exact ⟨.inr ⟨agentId, agent, hfind, rfl⟩, .inl rfl⟩

/-- What a call does before it waits, or to its end. -/
theorem start_cases (hierarchy : Bool) (s : InMemoryPairingRepository) (input : ConsumeInput) :
    (∃ failure, (consumeAndPair hierarchy).start s input = .ended ⟨none, .error failure⟩ s) ∨
    ∃ ref, s.check input = .ok ref ∧
      (hierarchy = true ∧ (consumeAndPair hierarchy).start s input = .waits (ref, input) ∨
        hierarchy = false ∧ ∃ version, (consumeAndPair hierarchy).start s input =
          .ended ⟨some ref, (s.finish ref input version).1⟩ (s.finish ref input version).2) := by
  unfold consumeAndPair
  dsimp only
  split
  · next failure _ => exact .inl ⟨failure, rfl⟩
  · next ref hcheck =>
    refine .inr ⟨ref, hcheck, ?_⟩
    cases hierarchy with
    | true => exact .inl ⟨rfl, rfl⟩
    | false => exact .inr ⟨rfl, _, rfl⟩

/-! ## Runs -/

theorem Exclusive.finish {s : InMemoryPairingRepository} (hs : Exclusive s) (ref : Nat)
    (input : ConsumeInput) (version : Option Int) : Exclusive (s.finish ref input version).2 := by
  rcases finish_cases s ref input version with
    ⟨failure, hfinish, -⟩ | ⟨token, -, -, -, hfinish⟩
  · rw [hfinish]
    exact hs
  · rw [hfinish]
    obtain ⟨hreplaced, hrevoked⟩ := hs.replaceActive token
    exact hreplaced.insert hrevoked

theorem Exclusive.apply {s : InMemoryPairingRepository} (hs : Exclusive s) (o : Other) :
    Exclusive (o.apply s) := by
  rcases (apply_cases s o).1 with hagents | ⟨id, agent, hfind, hagents⟩
  · refine ⟨?_, ?_⟩
    · rw [hagents]
      exact hs.id_eq
    · rw [hagents]
      exact hs.one
  · exact hs.revoke hfind hagents

theorem exclusive_keeps (hierarchy : Bool) :
    Keeps (consumeAndPair hierarchy) (fun s _ => Exclusive s) (fun _ _ _ => True) where
  ended := by
    intro s log input result s' hs hstart
    refine ⟨?_, fun _ _ h => h⟩
    rcases start_cases hierarchy s input with ⟨failure, hended⟩ | ⟨ref, -, h⟩
    · rw [hstart] at hended
      cases hended
      exact hs
    · rcases h with ⟨-, hwaits⟩ | ⟨-, version, hended⟩
      · rw [hstart] at hwaits
        cases hwaits
      · rw [hstart] at hended
        cases hended
        exact hs.finish ref input version
  waits := fun _ _ => trivial
  resumed := by
    intro s log input kept answer hs _
    refine ⟨?_, fun _ _ h => h⟩
    cases answer with
    | none => exact hs
    | some version => exact hs.finish kept.1 kept.2 version
  other := fun o hs => ⟨hs.apply o, fun _ _ h => h⟩

theorem exclusive_after (hierarchy : Bool) (events : List Happening) :
    Exclusive (after hierarchy events).store := by
  refine ((exclusive_keeps hierarchy).run ?_ events).1
  have hempty : ∀ id agent, InMemoryPairingRepository.new.agents.find id ≠ some agent :=
    fun _ agent hfind => Option.some_ne_none agent hfind.symm
  exact ⟨fun id agent hfind => absurd hfind (hempty id agent),
    fun id agent _ _ hfind => absurd hfind (hempty id agent)⟩

/-- A call that goes on and is rejected, and one that throws, leaves the repository. -/
theorem unchanged_step {hierarchy : Bool} {r : Run} {e : Happening} (hcall : ∀ o, e ≠ .other o)
    (hrejected : ∀ entry agent, added (consumeAndPair hierarchy) r e = some entry →
      entry.result.result ≠ .ok agent) :
    (step (consumeAndPair hierarchy) r e).store = r.store := by
  cases e with
  | call input =>
    rcases start_cases hierarchy r.store input with ⟨failure, hended⟩ | ⟨ref, -, h⟩
    · rw [step_ended hended]
    · rcases h with ⟨-, hwaits⟩ | ⟨-, version, hended⟩
      · rw [step_waits hwaits]
      · rw [step_ended hended]
        rcases finish_cases r.store ref input version with
          ⟨failure, hfinish, -⟩ | ⟨token, -, -, -, hfinish⟩
        · rw [hfinish]
        · refine absurd ?_ (hrejected _ (newAgent token input) (added_ended hended))
          rw [hfinish]
  | answer n a =>
    by_cases hasked : ∃ input kept, r.waiting[n]? = some (some (input, kept))
    · obtain ⟨input, kept, hasked⟩ := hasked
      rw [step_answer hasked]
      cases a with
      | none => rfl
      | some version =>
        have hresume : (consumeAndPair hierarchy).resume r.store kept (some version) =
          (⟨some kept.1, (r.store.finish kept.1 kept.2 version).1⟩,
            (r.store.finish kept.1 kept.2 version).2) := rfl
        rcases finish_cases r.store kept.1 kept.2 version with
          ⟨failure, hfinish, -⟩ | ⟨token, -, -, -, hfinish⟩
        · rw [hresume, hfinish]
        · refine absurd ?_ (hrejected _ (newAgent token kept.2) (added_answer hasked))
          rw [hresume, hfinish]
    · rw [step_unasked fun input kept heq => hasked ⟨input, kept, heq⟩]
  | other o => exact absurd rfl (hcall o)

/-! ## Tokens -/

def Consumed (s : InMemoryPairingRepository) (ref : Nat) : Prop :=
  Has (fun token => token.consumedAt ≠ none) s.objects ref

theorem consumed_finish (s : InMemoryPairingRepository) (ref : Nat) (input : ConsumeInput)
    (version : Option Int) (w) (ref' : Nat) : Consumed (s.finish ref input version).2 ref' ↔
      Consumed s ref' ∨
        paired ⟨input, w, ⟨some ref, (s.finish ref input version).1⟩⟩ = some ref' := by
  rcases finish_cases s ref input version with
    ⟨failure, hfinish, -⟩ | ⟨token, hobject, -, -, hfinish⟩
  · rw [hfinish]
    exact (or_iff_left (by simp [paired])).symm
  · rw [hfinish]
    have hobjects : ((s.replaceActive token).insert ref token input).objects =
        s.objects.set ref { token with consumedAt := some input.now } :=
      congrArg (fun objects => objects.set ref { token with consumedAt := some input.now })
        (objects_replaceActive s token)
    unfold Consumed
    rw [hobjects]
    refine (has_set ?_ (List.getElem?_eq_some_iff.mp hobject).1 ref').trans ?_
    · exact Option.some_ne_none input.now
    · exact or_congr_right ⟨congrArg some, Option.some.inj⟩

theorem consumed_apply (s : InMemoryPairingRepository) (o : Other) (ref : Nat) :
    Consumed (o.apply s) ref ↔ Consumed s ref := by
  unfold Consumed
  rcases (apply_cases s o).2 with hobjects | ⟨token, hnew, hobjects⟩
  · rw [hobjects]
  · rw [hobjects]
    refine has_append ?_ ref
    exact not_not.mpr hnew

theorem marks (hierarchy : Bool) : Marks (consumeAndPair hierarchy) paired Consumed where
  ended := by
    intro s input result s' hstart ref'
    rcases start_cases hierarchy s input with ⟨failure, hended⟩ | ⟨ref, -, h⟩
    · rw [hstart] at hended
      cases hended
      exact (or_iff_left (by simp [paired])).symm
    · rcases h with ⟨-, hwaits⟩ | ⟨-, version, hended⟩
      · rw [hstart] at hwaits
        cases hwaits
      · rw [hstart] at hended
        cases hended
        exact consumed_finish s ref input version none ref'
  resumed := by
    intro s input kept answer ref'
    cases answer with
    | none => exact (or_iff_left (by simp [paired, consumeAndPair])).symm
    | some version => exact consumed_finish s kept.1 kept.2 version none ref'
  other := consumed_apply

/-- A step pairs a token that is not consumed exactly when it is undisturbed. -/
theorem fresh_iff (hierarchy : Bool) (r : Run) (e : Happening) :
    Fresh (consumeAndPair hierarchy) paired Consumed r e ↔ Undisturbed r e := by
  unfold Fresh
  cases e with
  | call input =>
    refine iff_of_true ?_ trivial
    intro ref' hpaired
    rcases start_cases hierarchy r.store input with ⟨failure, hended⟩ | ⟨ref, hcheck, h⟩
    · rw [added_ended hended] at hpaired
      cases hpaired
    · rcases h with ⟨-, hwaits⟩ | ⟨-, version, hended⟩
      · rw [added_waits hwaits] at hpaired
        cases hpaired
      · rw [added_ended hended] at hpaired
        have href : ref = ref' := by
          cases hfinish : (r.store.finish ref input version).1 with
          | ok agent =>
            rw [hfinish] at hpaired
            exact Option.some.inj hpaired
          | error failure =>
            rw [hfinish] at hpaired
            cases hpaired
        obtain ⟨token, hobject, hnone⟩ := check_ok hcheck
        rw [← href]
        exact fun hconsumed => (has_iff hobject).mp hconsumed hnone
  | answer n a =>
    by_cases hasked : ∃ input kept, r.waiting[n]? = some (some (input, kept))
    · obtain ⟨input, ⟨ref, kept⟩, hasked⟩ := hasked
      rw [added_answer hasked]
      cases a with
      | none => exact iff_of_true nofun trivial
      | some version =>
        have hresume : (consumeAndPair hierarchy).resume r.store (ref, kept) (some version) =
          (⟨some ref, (r.store.finish ref kept version).1⟩,
            (r.store.finish ref kept version).2) := rfl
        rw [hresume]
        rcases finish_cases r.store ref kept version with
          ⟨failure, hfinish, hstopped⟩ | ⟨token, hobject, hversion, hblocked, hfinish⟩
        · rw [hfinish]
          refine iff_of_true nofun ?_
          intro input' ref' kept' token hwaits hobject hversion hblocked
          rw [hasked] at hwaits
          cases hwaits
          exact absurd hblocked (hstopped token hobject hversion)
        · rw [hfinish]
          constructor
          · intro hfresh input' ref' kept' token' hwaits hobject' _ _
            rw [hasked] at hwaits
            cases hwaits
            by_contra hsome
            exact hfresh ref rfl ⟨token', hobject', hsome⟩
          · intro hundisturbed ref' href hconsumed
            obtain rfl : ref = ref' := Option.some.inj href
            exact (has_iff hobject).mp hconsumed
              (hundisturbed input ref kept token hasked hobject hversion hblocked)
    · have hnone : ∀ input kept, r.waiting[n]? ≠ some (some (input, kept)) :=
        fun input kept heq => hasked ⟨input, kept, heq⟩
      rw [added_unasked hnone]
      refine iff_of_true nofun ?_
      cases a with
      | none => trivial
      | some version => exact fun input ref kept token hwaits => absurd hwaits (hnone input _)
  | other o => exact iff_of_true nofun trivial

theorem nodup_iff (hierarchy : Bool) (events : List Happening) :
    ((after hierarchy events).log.filterMap paired).Nodup ↔
      ∀ before e, before ++ [e] <+: events → Undisturbed (after hierarchy before) e := by
  have hnew : ∀ ref, ¬ Consumed .new ref := by
    rintro ref ⟨token, hobject, -⟩
    exact absurd hobject (by simp [InMemoryPairingRepository.new])
  refine ((marks hierarchy).nodup_iff hnew events).trans ?_
  exact forall_congr' fun before => forall_congr' fun e => imp_congr_right fun _ =>
    fresh_iff hierarchy (after hierarchy before) e

/-- Tokens pair once exactly when no waiting call goes on whose token has been consumed. -/
theorem singlePairing_iff (hierarchy : Bool) (events : List Happening) :
    SinglePairing hierarchy events ↔
      ∀ before e, before ++ [e] <+: events → Undisturbed (after hierarchy before) e := by
  rw [← nodup_iff]
  constructor
  · exact fun h => h.once
  · intro honce
    refine ⟨honce, fun before _ => exclusive_after hierarchy before, ?_⟩
    intro before e _ hcall hrejected
    have hafter : after hierarchy (before ++ [e]) =
      step (consumeAndPair hierarchy) (after hierarchy before) e := run_append _ _ _
    rw [hafter]
    exact unchanged_step hcall hrejected

/-- The call with this signing key. -/
def keyCall (publicSigningKey agentId : String) (now : Int) : ConsumeInput where
  tokenHash := "9f86d081884c7d659a2feaa0c55ad015a3bf4f1b2b0b822cd15d6c15b0f00a08"
  registration :=
    { environmentId := "env_1", publicSigningKey := publicSigningKey,
      publicEncryptionKey := "enc", signingKeyId := "sig_1", encryptionKeyId := "enc_1",
      subjectHmacKeyVersion := 1, version := "1.0.0", protocolVersion := "1",
      instanceFingerprint := "fp_1" }
  now := now
  agentId := agentId

/-- Two calls with one token and two keys wait for the hierarchy at the same time. -/
def twoKeys : List Happening :=
  [.other (.issueToken ⟨"tok_1", "ten_1", "env_1",
      "9f86d081884c7d659a2feaa0c55ad015a3bf4f1b2b0b822cd15d6c15b0f00a08", .drain, 60000, none⟩),
    .call (keyCall "key_a" "agt_a" 1000), .call (keyCall "key_b" "agt_b" 1001),
    .answer 0 (some (some 1)), .answer 1 (some (some 1))]

/-- Both create an agent, and the second replaces the first. -/
theorem pairs_twice : ¬ SinglePairing true twoKeys := by
  intro h
  have honce := h.once
  revert honce
  decide +kernel

end ForgetOps.Api.InMemoryPairing
