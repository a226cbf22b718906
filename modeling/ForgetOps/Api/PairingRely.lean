import ForgetOps.Api.PairingSystem

/-
  What the transactions around a pairing can count on while the others run.

  Only a pairing adds agents to an environment, and it holds the environment for that. Who holds the
  environment and its active agents also keeps envelopes from being stored for it, since a store
  locks the agent it is encrypted for. Attempts and jobs are only ever closed here, tokens only
  ever consumed.
-/

namespace ForgetOps.Api.Pairing

open Domain Database
open ReadCommitted RowStore
open SubjectEnvelopes (StoreSubjectEnvelopeInput ofTenant newEnvelope)

/-- The agent is not revoked. -/
def Active (w : World) (environmentId id : String) : Prop :=
  ∃ row, w.agents.find id = some row ∧ isActive environmentId row

/-- What holds of the tables between transactions: token hashes are distinct, an environment has one
    agent that is not revoked, and its open work is its tenant's. -/
structure Consistent (w : World) : Prop where
  hashes : ∀ id id' t t', w.tokens.find id = some t → w.tokens.find id' = some t' →
    t.tokenHash = t'.tokenHash → id = id'
  agents : ∀ environmentId id id', Active w environmentId id → Active w environmentId id' → id = id'
  envelopes : ∀ id row, w.envelopes.find id = some row → row.consumedAt = none →
    ofTenant row.tenantId w.environments row.environmentId
  attempts : ∀ id row, w.attempts.find id = some row → openAttempt row.status →
    ofTenant row.tenantId w.environments row.environmentId
  jobs : ∀ id row, w.jobs.find id = some row → row.completedAt = none →
    ofTenant row.tenantId w.environments row.environmentId

/-- `t'` is the token `t` at a later time. -/
def Spent (t t' : TokenRow) : Prop :=
  t'.tokenHash = t.tokenHash ∧ (t'.consumedAt = none → t.consumedAt = none)

theorem Spent.refl (t : TokenRow) : Spent t t := ⟨rfl, fun h => h⟩

theorem Spent.trans {t t' t'' : TokenRow} (h : Spent t t') (h' : Spent t' t'') : Spent t t'' :=
  ⟨h'.1.trans h.1, h.2 ∘ h'.2⟩

/-! ## What the transactions write -/

/-- The envelopes that a request stores. -/
def PairingRequest.Stores : PairingRequest → EnvelopeRow → Prop
  | .storeEnvelope input, row => row = newEnvelope input
  | _, _ => False

/-- The tokens that a request issues. -/
def PairingRequest.Issues : PairingRequest → String → TokenRow → Prop
  | .issueToken input, id, t => id = input.id ∧ t.tokenHash = input.tokenHash
  | _, _, _ => False

theorem PairingRequest.Issues.spent {request : PairingRequest} {id : String} {t t' : TokenRow}
    (h : request.Issues id t) (hspent : Spent t t') : request.Issues id t' := by
  cases request with
  | issueToken input => exact ⟨h.1, hspent.1.trans h.2⟩
  | _ => exact h

/-- The request creates an agent. -/
def PairingRequest.Creates : PairingRequest → Prop
  | .consumeAndPair _ => True
  | _ => False

/-- What a request may do to a row. -/
def Settles (request : PairingRequest) : (k : Key) → Row k → Row k → Prop
  | .environment _, r, v => v = r
  | .attempt _, r, v => ∀ row, v = some row → openAttempt row.status → r = some row
  | .job _, r, v => ∀ row, v = some row → row.completedAt = none → r = some row
  | .envelope _, r, v => ∀ row, v = some row → row.consumedAt = none →
    request.Stores row ∨ r = some row
  | .token id, r, v => (∀ t, r = some t → ∃ t', v = some t' ∧ Spent t t') ∧
    ∀ t', v = some t' → request.Issues id t' ∨ ∃ t, r = some t ∧ Spent t t'
  | .agent _, r, v => ∀ row, v = some row → row.status ≠ .revoked →
    request.Creates ∨ ∃ row', r = some row' ∧ isActive row.environmentId row'
  | _, _, _ => True

section Settles

variable {request : PairingRequest}

theorem settles_refl (k : Key) (r : Row k) : Settles request k r r := by
  cases k with
  | environment => rfl
  | attempt | job => exact fun row hrow _ => hrow
  | envelope => exact fun row hrow _ => .inr hrow
  | token => exact ⟨fun t ht => ⟨t, ht, .refl t⟩, fun t ht => .inr ⟨t, ht, .refl t⟩⟩
  | agent => exact fun row hrow hactive => .inr ⟨row, hrow, rfl, hactive⟩
  | _ => trivial

theorem settles_trans (k : Key) (r r' r'' : Row k) (h : Settles request k r r')
    (h' : Settles request k r' r'') : Settles request k r r'' := by
  cases k with
  | environment => exact Eq.trans h' h
  | attempt | job => exact fun row hrow hopen => h row (h' row hrow hopen) hopen
  | envelope =>
    intro row hrow hopen
    rcases h' row hrow hopen with hstored | hrow'
    · exact .inl hstored
    · exact h row hrow' hopen
  | token =>
    constructor
    · intro t ht
      obtain ⟨t', ht', hspent⟩ := h.1 t ht
      obtain ⟨t'', ht'', hspent'⟩ := h'.1 t' ht'
      exact ⟨t'', ht'', hspent.trans hspent'⟩
    · intro t'' ht''
      obtain hissued | ⟨t', ht', hspent'⟩ := h'.2 t'' ht''
      · exact .inl hissued
      · obtain hissued | ⟨t, ht, hspent⟩ := h.2 t' ht'
        · exact .inl (hissued.spent hspent')
        · exact .inr ⟨t, ht, hspent.trans hspent'⟩
  | agent =>
    intro row hrow hactive
    rcases h' row hrow hactive with hcreates | ⟨row', hrow', henvironment, hactive'⟩
    · exact .inl hcreates
    · have hfirst := h row' hrow' hactive'
      rwa [henvironment] at hfirst
  | _ => trivial

/-- A lock changes nothing. -/
theorem settles_lock {α : Type} {k : Key} {q : Row k → Option (α × Row k)}
    (hq : ∀ r b v, q r = some (b, v) → v = r) :
    (Script.update k q : Transaction (Option α)).Writes (Settles request) := by
  rw [Script.writes_update]
  intro r b v h
  rw [hq r b v h]
  exact settles_refl k r


end Settles

section Scripts

variable {request : PairingRequest}

open Script (writes_pure writes_read writes_failIf)

theorem settles_unconsumedEnvelopes (token : TokenRow) :
    (unconsumedEnvelopes token).Writes (Settles request) :=
  (writes_read _).bind fun _ => writes_onRows _ (fun _ => settles_lock lockRow_locks) _

theorem settles_openAttempts (token : TokenRow) :
    (openAttempts token).Writes (Settles request) :=
  (writes_read _).bind fun _ => writes_onRows _ (fun _ => settles_lock lockRow_locks) _

theorem settles_reviewWork (token : TokenRow) (affected : List String) (now : Timestamp) :
    (reviewWork token affected now).Writes (Settles request) := by
  unfold reviewWork
  split
  · trivial
  refine Script.Writes.bind (writes_onSelected _ fun id => ?_) fun _ =>
    writes_onSelected _ fun id => ?_
  · exact (Script.writes_update _ _).mpr fun _ _ _ _ => trivial
  · rw [Script.writes_update]
    intro r b v h row hrow hopen
    obtain ⟨-, -, rfl⟩ := whenRow_eq_some.mp h
    cases hrow
    rcases hopen with h | h <;> cases h

theorem settles_deleteEnvelopes (token : TokenRow) :
    (deleteEnvelopes token).Writes (Settles request) := by
  refine writes_onSelected _ fun id => ?_
  rw [Script.writes_update]
  intro r b v h row hrow hopen
  rw [hrow] at h
  cases r with
  | none => cases h
  | some x => by_cases hx : isUnconsumed token x <;> simp [deleteRow, hx] at h

theorem settles_revokeJobs (token : TokenRow) (now : Timestamp) :
    (revokeJobs token now).Writes (Settles request) := by
  refine writes_onSelected _ fun id => ?_
  rw [Script.writes_update]
  intro r b v h row hrow hopen
  obtain ⟨-, -, rfl⟩ := whenRow_eq_some.mp h
  cases hrow
  cases hopen

theorem settles_replaceWork (token : TokenRow) (now : Timestamp) :
    (replaceWork token now).Writes (Settles request) := by
  refine (settles_unconsumedEnvelopes token).bind fun _ => (settles_openAttempts token).bind fun _ =>
    (writes_failIf _ _).bind fun _ => ?_
  split
  · exact (settles_reviewWork _ _ _).bind fun _ => (settles_deleteEnvelopes _).bind fun _ =>
      settles_revokeJobs _ _
  · trivial

/-- An agent is only ever revoked. -/
theorem settles_revoke (id : String) (P : AgentRow → Prop) [DecidablePred P] :
    (Script.update (.agent id) (whenRow P fun row => { row with status := .revoked }) :
      Transaction (Option AgentRow)).Writes (Settles request) := by
  rw [Script.writes_update]
  intro r b v h row hrow hactive
  obtain ⟨-, -, rfl⟩ := whenRow_eq_some.mp h
  cases hrow
  exact absurd rfl hactive

theorem settles_replaceActive (input : ConsumeAndPairInput) (token : TokenRow)
    (active : Option (String × AgentRow)) :
    (replaceActive input token active).Writes (Settles request) := by
  cases active with
  | none => trivial
  | some active =>
    exact (writes_failIf _ _).bind fun _ => (writes_failIf _ _).bind fun _ =>
      (settles_replaceWork _ _).bind fun _ => (settles_revoke _ _).bind fun _ => writes_pure _

theorem settles_lockToken (input : ConsumeAndPairInput) (bootstrap : String × TokenRow) :
    (lockToken input bootstrap).Writes (Settles request) := by
  refine (settles_lock lockRow_locks).bind fun token => ?_
  cases token with
  | none => trivial
  | some token =>
    exact (writes_failIf _ _).bind fun _ => (writes_failIf _ _).bind fun _ => writes_pure _

theorem settles_lockEnvironment (input : ConsumeAndPairInput) (token : TokenRow) :
    (lockEnvironment input token).Writes (Settles request) := by
  refine (settles_lock lockRow_locks).bind fun environment => ?_
  cases environment with
  | none => trivial
  | some environment => exact writes_failIf _ _

theorem settles_insertAgent (input : ConsumeAndPairInput) (tokenId : String) (token : TokenRow) :
    (insertAgent input tokenId token).Writes (Settles (.consumeAndPair input)) := by
  refine Script.Writes.bind ?_ fun _ => (writes_failIf _ _).bind fun _ =>
    Script.Writes.bind ?_ fun _ => (writes_failIf _ _).bind fun _ => writes_pure _
  · exact (Script.writes_update _ _).mpr fun _ _ _ _ _ _ _ => .inl trivial
  · rw [Script.writes_update]
    intro r b v h
    obtain ⟨rfl, -, rfl⟩ := whenRow_eq_some.mp h
    have hspent : Spent b { b with consumedAt := some input.now } :=
      ⟨rfl, fun hnone => by cases hnone⟩
    constructor
    · intro t ht
      cases ht
      exact ⟨_, rfl, hspent⟩
    · intro t ht
      cases ht
      exact .inr ⟨b, rfl, hspent⟩

theorem settles_consumeAndPair (input : ConsumeAndPairInput) :
    (consumeAndPair input).Writes (Settles (.consumeAndPair input)) := by
  refine (writes_read _).bind fun bootstrap => ?_
  cases bootstrap with
  | none => trivial
  | some bootstrap =>
    refine (settles_lockToken _ _).bind fun token => (settles_lockEnvironment _ _).bind fun _ =>
      Script.Writes.bind ?_ fun active => (settles_replaceActive _ _ _).bind fun _ =>
        settles_insertAgent _ _ _
    exact (writes_read _).bind fun _ => writes_onRows _ (fun _ => settles_lock lockRow_locks) _

theorem settles_issueToken (input : PersistPairingTokenInput) :
    (issueToken input).Writes (Settles (.issueToken input)) := by
  refine (writes_read _).bind fun _ => (writes_failIf _ _).bind fun _ =>
    Script.Writes.bind ?_ fun _ => writes_failIf _ _
  rw [Script.writes_update]
  intro r b v h
  obtain ⟨rfl, rfl⟩ := whenAbsent_eq_some.mp h
  constructor
  · intro t ht
    cases ht
  · intro t ht
    cases ht
    exact .inl ⟨rfl, rfl⟩

theorem settles_revokeAgent (tenantId agentId : String) :
    (revokeAgent tenantId agentId).Writes (Settles request) := by
  refine (writes_read _).bind fun _ => (settles_revoke _ _).bind fun result => ?_
  cases result with
  | some row => trivial
  | none => exact (writes_read _).bind fun _ => writes_failIf _ _

theorem settles_lockRecipients (input : StoreSubjectEnvelopeInput) :
    (SubjectEnvelopes.lockRecipients input).Writes (Settles request) := by
  refine (writes_read _).bind fun _ => (writes_read _).bind fun _ =>
    (settles_lock lockRow_locks).bind fun request => ?_
  cases request with
  | none => trivial
  | some request => exact writes_onRows _ (fun _ => settles_lock lockRow_locks) _

theorem settles_storeEnvelope (input : StoreSubjectEnvelopeInput) :
    (SubjectEnvelopes.storeEnvelope input).Writes (Settles (.storeEnvelope input)) := by
  refine (settles_lockRecipients input).bind fun rows => ?_
  cases rows with
  | nil => trivial
  | cons agent rows =>
    refine (writes_failIf _ _).bind fun _ => Script.Writes.bind ?_ fun _ => writes_pure _
    rw [Script.writes_update]
    intro r b v h row hrow _
    cases h
    cases hrow
    exact .inl rfl

end Scripts

theorem settles_script (request : PairingRequest) :
    request.script.Writes (Settles request) := by
  cases request with
  | issueToken input => exact settles_issueToken input
  | consumeAndPair input => exact (settles_consumeAndPair input).bind fun _ => trivial
  | revokeAgent tenantId agentId => exact settles_revokeAgent tenantId agentId
  | storeEnvelope input => exact settles_storeEnvelope input

/-! ## What can be relied on -/

/-- What others can do to the tables while a transaction holds these rows. -/
structure Meanwhile (held : List Key) (w w' : World) : Prop where
  agree : ∀ k ∈ held, row w k = row w' k
  environments : ∀ id, w'.environments.find id = w.environments.find id
  tokens : ∀ id t, w.tokens.find id = some t → ∃ t', w'.tokens.find id = some t' ∧ Spent t t'
  attempts : ∀ id row, w'.attempts.find id = some row → openAttempt row.status →
    w.attempts.find id = some row
  jobs : ∀ id row, w'.jobs.find id = some row → row.completedAt = none →
    w.jobs.find id = some row
  agents : ∀ environmentId, .environment environmentId ∈ held →
    ∀ id, Active w' environmentId id → Active w environmentId id
  envelopes : ∀ environmentId, .environment environmentId ∈ held →
    (∀ id, Active w environmentId id → .agent id ∈ held) →
    ∀ id row, w'.envelopes.find id = some row → row.environmentId = environmentId →
      row.consumedAt = none → w.envelopes.find id = some row

theorem rely_meanwhile : Rely Meanwhile where
  refl held w := by
    constructor
    · exact fun _ _ => rfl
    · exact fun _ => rfl
    · exact fun _ t ht => ⟨t, ht, .refl t⟩
    · exact fun _ _ h _ => h
    · exact fun _ _ h _ => h
    · exact fun _ _ _ h => h
    · exact fun _ _ _ _ _ h _ _ => h
  trans {held w w' w''} h h' := by
    constructor
    · exact fun k hk => (h.agree k hk).trans (h'.agree k hk)
    · exact fun id => (h'.environments id).trans (h.environments id)
    · intro id t ht
      obtain ⟨t', ht', hspent⟩ := h.tokens id t ht
      obtain ⟨t'', ht'', hspent'⟩ := h'.tokens id t' ht'
      exact ⟨t'', ht'', hspent.trans hspent'⟩
    · exact fun id row hrow hopen => h.attempts id row (h'.attempts id row hrow hopen) hopen
    · exact fun id row hrow hopen => h.jobs id row (h'.jobs id row hrow hopen) hopen
    · exact fun e he id hactive => h.agents e he id (h'.agents e he id hactive)
    · intro e he hheld id row hrow henvironment hopen
      -- the active agents are still those that are held
      have hheld' : ∀ id, Active w' e id → .agent id ∈ held :=
        fun id hactive => hheld id (h.agents e he id hactive)
      exact h.envelopes e he hheld id row
        (h'.envelopes e he hheld' id row hrow henvironment hopen) henvironment hopen
  mono {held held' w w'} hsub h := by
    constructor
    · exact fun k hk => h.agree k (hsub hk)
    · exact h.environments
    · exact h.tokens
    · exact h.attempts
    · exact h.jobs
    · exact fun e he => h.agents e (hsub he)
    · exact fun e he hheld => h.envelopes e (hsub he) fun id hactive => hsub (hheld id hactive)
  agree h hk := h.agree _ hk

/-- What others can do, and that the tables stay consistent. -/
abbrev Guarded : List Key → World → World → Prop := Within Consistent Meanwhile

theorem rely_guarded : Rely Guarded := rely_meanwhile.within Consistent

/-! ## From a request to what others see -/

/-- What the request did to each row. -/
def Settled (request : PairingRequest) (w w' : World) : Prop :=
  ∀ k, Settles request k (row w k) (row w' k)

section Settled

variable {request : PairingRequest} {w w' : World}

theorem Settled.active (h : Settled request w w') (hcreates : ¬ request.Creates)
    {environmentId id : String} (hactive : Active w' environmentId id) :
    Active w environmentId id := by
  obtain ⟨row, hrow, rfl, hstatus⟩ := hactive
  exact (h (.agent id) row hrow hstatus).resolve_left hcreates

theorem Settled.meanwhile (h : Settled request w w') {held : List Key}
    (hagree : ∀ k ∈ held, row w k = row w' k)
    (hcreates : request.Creates → ∀ environmentId, .environment environmentId ∈ held →
      ∀ id, Active w' environmentId id → Active w environmentId id)
    (hstores : ∀ row, request.Stores row →
      ∃ id, Active w row.environmentId id ∧ .agent id ∉ held) : Meanwhile held w w' where
  agree := hagree
  environments := fun id => h (.environment id)
  tokens := fun id => (h (.token id)).1
  attempts := fun id => h (.attempt id)
  jobs := fun id => h (.job id)
  agents := by
    intro environmentId he id hactive
    by_cases hc : request.Creates
    · exact hcreates hc environmentId he id hactive
    · exact h.active hc hactive
  envelopes := by
    intro environmentId _ hheld id row hrow henvironment hopen
    obtain hstored | hold := h (.envelope id) row hrow hopen
    · obtain ⟨agentId, hactive, hfree⟩ := hstores row hstored
      rw [henvironment] at hactive
      exact absurd (hheld agentId hactive) hfree
    · exact hold

theorem ofTenant_congr (h : ∀ id, w'.environments.find id = w.environments.find id)
    {tenantId environmentId : String} :
    ofTenant tenantId w'.environments environmentId ↔
      ofTenant tenantId w.environments environmentId := by
  unfold ofTenant
  rw [h]

/-- A request that may commit issues no token hash that is there already. -/
theorem PairingRequest.Commits.hashes (hcommits : request.Commits w) (h : Settled request w w')
    (hw : Consistent w) {id id' : String} {t t' : TokenRow} (ht : w'.tokens.find id = some t)
    (ht' : w'.tokens.find id' = some t') (hhash : t.tokenHash = t'.tokenHash) : id = id' := by
  have fresh {id id' : String} {t t₀ : TokenRow} (hissues : request.Issues id t)
      (ht₀ : w.tokens.find id' = some t₀) : t₀.tokenHash ≠ t.tokenHash := by
    cases request with
    | issueToken input =>
      rw [hissues.2]
      exact hcommits id' t₀ ht₀
    | _ => exact hissues.elim
  obtain hissues | ⟨t₀, ht₀, hspent⟩ := (h (.token id)).2 t ht
  · obtain hissues' | ⟨t₀', ht₀', hspent'⟩ := (h (.token id')).2 t' ht'
    · cases request with
      | issueToken input => exact hissues.1.trans hissues'.1.symm
      | _ => exact hissues.elim
    · exact absurd (hspent'.1.symm.trans hhash.symm) (fresh hissues ht₀')
  · obtain hissues' | ⟨t₀', ht₀', hspent'⟩ := (h (.token id')).2 t' ht'
    · exact absurd (hspent.1.symm.trans hhash) (fresh hissues' ht₀)
    · exact hw.hashes id id' t₀ t₀' ht₀ ht₀' (hspent.1.symm.trans (hhash.trans hspent'.1))

theorem Settled.consistent (h : Settled request w w') (hw : Consistent w)
    (hcommits : request.Commits w)
    (hcreates : request.Creates → ∀ environmentId id id', Active w' environmentId id →
      Active w' environmentId id' → id = id')
    (hstores : ∀ row, request.Stores row → ofTenant row.tenantId w.environments row.environmentId) :
    Consistent w' where
  hashes := fun _ _ _ _ ht ht' hhash => hcommits.hashes h hw ht ht' hhash
  agents := by
    intro environmentId id id' hactive hactive'
    by_cases hc : request.Creates
    · exact hcreates hc environmentId id id' hactive hactive'
    · exact hw.agents environmentId id id' (h.active hc hactive) (h.active hc hactive')
  envelopes := by
    intro id row hrow hopen
    rw [ofTenant_congr fun id => h (.environment id)]
    obtain hstored | hold := h (.envelope id) row hrow hopen
    · exact hstores row hstored
    · exact hw.envelopes id row hold hopen
  attempts := by
    intro id row hrow hopen
    rw [ofTenant_congr fun id => h (.environment id)]
    exact hw.attempts id row (h (.attempt id) row hrow hopen) hopen
  jobs := by
    intro id row hrow hopen
    rw [ofTenant_congr fun id => h (.environment id)]
    exact hw.jobs id row (h (.job id) row hrow hopen) hopen

end Settled

end ForgetOps.Api.Pairing
