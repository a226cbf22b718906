import ForgetOps.Api.PairingReplacement
import ForgetOps.Database.System
import ForgetOps.Library.SequentialRuns

/-
  Pairing is safe in every interleaving of `issueToken`, `consumeAndPair`, `revokeAgent` and
  `storeEnvelope`.

  A token is used once, an environment has one agent that is not revoked, a pairing that throws
  leaves everything as it was, and one that replaces an agent does so as the mode of its token
  allows.
-/

namespace ForgetOps.Api.Pairing

open Domain Database
open ReadCommitted RowStore
open SubjectEnvelopes (StoreSubjectEnvelopeInput ofTenant newEnvelope isRecipient)

variable {w : World}

/-! ## Commits -/

/-- An envelope is stored with its agent locked, and in its own tenant. -/
theorem storeEnvelope_locks {input : StoreSubjectEnvelopeInput} {u : World} {log : Log Row}
    {a : Unit}
    (h : Completes Guarded w (SubjectEnvelopes.storeEnvelope input) ⟨u, []⟩ a ⟨w, log⟩) :
    (∃ id, Active w input.environmentId id ∧ .agent id ∈ keys log) ∧
      ofTenant input.tenantId w.environments input.environmentId := by
  obtain ⟨rows, p, hrecipients, h⟩ := leads_bind rely_guarded (h.leads rely_guarded)
  obtain ⟨environments, p₁, henvironments, hr⟩ := leads_bind rely_guarded hrecipients
  obtain ⟨ids, p₂, hids, hr⟩ := leads_bind rely_guarded hr
  obtain ⟨request, p₃, hrequest, hr⟩ := leads_bind rely_guarded hr
  obtain ⟨hlog₁, u₁, rfl, -, huw⟩ := leads_read rely_guarded henvironments
  obtain ⟨hlog₂, -⟩ := leads_selectKeys rely_guarded hids
  have hp₂ : Locks w p₂.log := by
    rw [hlog₂, hlog₁]
    exact locks_nil w
  obtain ⟨hp₃, hlocked⟩ := leads_lock rely_guarded hp₂ lockRow_locks hrequest
  cases rows with
  | nil => exact (leads_fail h).elim
  | cons e rows =>
    cases request with
    | none =>
      obtain ⟨hrows, -⟩ := leads_pure rely_guarded hr
      cases hrows
    | some request =>
      obtain ⟨-, -, htaken, -⟩ := leads_onRows_lock rely_guarded hp₃ (fun _ => lockRow_locks) hr
      obtain ⟨htake, hkey⟩ := htaken e List.mem_cons_self
      obtain ⟨hrow, hrecipient, -⟩ := lockRow_eq_some.mp htake
      obtain ⟨_, hsome, htakeRequest, -⟩ | ⟨hnone, -⟩ := hlocked
      · cases hsome
        obtain ⟨-, ⟨-, henvironment, howner⟩, -⟩ := lockRow_eq_some.mp htakeRequest
        refine ⟨⟨e.1, ⟨e.2, hrow, hrecipient.1⟩, h.keys_subset hkey⟩, ?_⟩
        rw [henvironment] at howner
        exact (ofTenant_congr huw.1.environments).mpr howner
      · cases hnone

section Paired

variable {input : ConsumeAndPairInput} {tokenId : String} {token : TokenRow} {w' : World}

/-- A pairing adds no active agent to another environment. -/
theorem Paired.active (h : Paired input tokenId token w w') {environmentId id : String}
    (hne : environmentId ≠ token.environmentId) (hactive : Active w' environmentId id) :
    Active w environmentId id := by
  obtain ⟨row, hrow, hactive⟩ := hactive
  by_cases hid : id = input.agentId
  · subst hid
    rw [h.created] at hrow
    cases hrow
    exact absurd hactive.1.symm hne
  · obtain hsame | hreplaced := h.others id hid
    · exact ⟨row, hsame ▸ hrow, hactive⟩
    · obtain ⟨row', -, -, hrevoked⟩ := hreplaced.agent
      rw [hrevoked] at hrow
      cases hrow
      exact absurd rfl hactive.2

theorem Paired.agents (h : Paired input tokenId token w w') (hw : Consistent w)
    (environmentId id id' : String) (hactive : Active w' environmentId id)
    (hactive' : Active w' environmentId id') : id = id' := by
  by_cases heq : environmentId = token.environmentId
  · subst heq
    exact (h.alone id hactive).trans (h.alone id' hactive').symm
  · exact hw.agents environmentId id id' (h.active heq hactive) (h.active heq hactive')

end Paired

/-- What a committed request has done to each row. -/
theorem settled_commit {request : PairingRequest} {u : World} {log : Log Row} {a : Unit}
    (h : Completes Guarded w request.script ⟨u, []⟩ a ⟨w, log⟩) :
    Settled request w (view w log) :=
  fun k => h.writes settles_refl settles_trans (settles_script request) k

/-- Every commit keeps the tables consistent and does to others only what they allow for. -/
theorem guarantee_pairing : Guarantee pairingSystem Consistent fun _ => Meanwhile where
  rely _ := rely_meanwhile
  environment _ h := h.elim
  commit := by
    intro w u request a log hw hu _ hcommits h
    have hsettled := settled_commit h
    have hagree {held : List Key} (hfree : ∀ k ∈ held, k ∉ keys log) :
        ∀ k ∈ held, row w k = row (view w log) k :=
      fun k hk => (row_view_of_notMem (hfree k hk)).symm
    cases request with
    | issueToken input =>
      refine ⟨hsettled.consistent hw hcommits (fun h => h.elim) fun _ h => h.elim, ?_⟩
      exact fun _ held hfree => hsettled.meanwhile (hagree hfree) (fun h => h.elim) fun _ h => h.elim
    | revokeAgent tenantId agentId =>
      refine ⟨hsettled.consistent hw hcommits (fun h => h.elim) fun _ h => h.elim, ?_⟩
      exact fun _ held hfree => hsettled.meanwhile (hagree hfree) (fun h => h.elim) fun _ h => h.elim
    | storeEnvelope input =>
      obtain ⟨⟨id, hactive, hkey⟩, howner⟩ := storeEnvelope_locks h
      refine ⟨hsettled.consistent hw hcommits (fun h => h.elim) ?_, fun _ held hfree => ?_⟩
      · rintro row rfl
        exact howner
      · refine hsettled.meanwhile (hagree hfree) (fun h => h.elim) ?_
        rintro row rfl
        exact ⟨id, hactive, fun hheld => hfree _ hheld hkey⟩
    | consumeAndPair input =>
      obtain ⟨agent, hpair⟩ := completes_discard rely_guarded h
      obtain ⟨tokenId, token, hpaired, hkey⟩ := consumeAndPair_paired hw hu hpair
      refine ⟨hsettled.consistent hw hcommits (fun _ => hpaired.agents hw) fun _ h => h.elim, ?_⟩
      intro _ held hfree
      refine hsettled.meanwhile (hagree hfree) (fun _ environmentId he id hactive => ?_)
        fun _ h => h.elim
      refine hpaired.active ?_ hactive
      rintro rfl
      exact hfree _ he hkey

/-! ## Safety -/

abbrev Configuration := ReadCommitted.Conf World Row PairingRequest Unit

/-- The configuration after the transaction `i` has committed these writes. -/
def committed (c : Configuration) (i : ℕ) (log : Log Row) : Configuration :=
  { c.set i none with world := view c.world log }

/-- Pairing is safe in every run from the store `w`. -/
structure PairingSafe (w : World) : Prop where
  /-- Whoever comes to pair with the hash of a used token does not get to its commit. -/
  single : ∀ (c c' : Configuration) i j input input' log log', Reachable pairingSystem w c →
    c.live i = some ⟨.consumeAndPair input, .done (), log⟩ →
    Relation.ReflTransGen (Step pairingSystem) (committed c i log) c' →
    c'.live j = some ⟨.consumeAndPair input', .done (), log'⟩ →
    input'.tokenHash ≠ input.tokenHash
  exclusive : ∀ c, Reachable pairingSystem w c → ∀ environmentId id id',
    Active c.world environmentId id → Active c.world environmentId id' → id = id'
  /-- A pairing changes the store by its commit alone, and commits only when it has returned. -/
  failed : ∀ (c c' : Configuration) i input script log, Reachable pairingSystem w c →
    c.live i = some ⟨.consumeAndPair input, script, log⟩ → Step pairingSystem c c' →
    c'.live i ≠ c.live i →
    c'.world = c.world ∨ script = .done () ∧ c' = committed c i log
  paired : ∀ (c : Configuration) i input log, Reachable pairingSystem w c →
    c.live i = some ⟨.consumeAndPair input, .done (), log⟩ →
    ∃ tokenId token, Paired input tokenId token c.world (view c.world log)

section Runs

variable {c c' : Configuration} {i : ℕ} {input : ConsumeAndPairInput} {log : Log Row}

theorem Reachable.paired (hw : Consistent w) (hc : Reachable pairingSystem w c)
    (hi : c.live i = some ⟨.consumeAndPair input, .done (), log⟩) :
    ∃ tokenId token, Paired input tokenId token c.world (view c.world log) := by
  obtain ⟨hworld, u, hu, -, hall⟩ := hc.completes guarantee_pairing hw hi
  obtain ⟨agent, hpair⟩ := completes_discard rely_guarded hall
  obtain ⟨tokenId, token, hpaired, -⟩ := consumeAndPair_paired hworld hu hpair
  exact ⟨tokenId, token, hpaired⟩

/-- A token keeps its hash, and stays consumed. -/
theorem Reachable.tokens (hw : Consistent w) (hc : Reachable pairingSystem w c)
    (hsteps : Relation.ReflTransGen (Step pairingSystem) c c') {id : String} {t : TokenRow}
    (ht : c.world.tokens.find id = some t) :
    ∃ t', c'.world.tokens.find id = some t' ∧ Spent t t' := by
  refine Reachable.evolves guarantee_pairing
    (E := fun v v' => ∀ id t, v.tokens.find id = some t →
      ∃ t', v'.tokens.find id = some t' ∧ Spent t t') ?_ ?_ ?_ ?_ hw hc hsteps id t ht
  · exact fun v id t ht => ⟨t, ht, .refl t⟩
  · intro v v' v'' h h' id t ht
    obtain ⟨t', ht', hspent⟩ := h id t ht
    obtain ⟨t'', ht'', hspent'⟩ := h' id t' ht'
    exact ⟨t'', ht'', hspent.trans hspent'⟩
  · exact fun _ henvironment => henvironment.elim
  · intro v u request a log hv hu hstart hok h
    obtain ⟨-, hmeanwhile⟩ := guarantee_pairing.commit hv hu hstart hok h
    exact (hmeanwhile request [] fun _ hk => absurd hk List.not_mem_nil).tokens

end Runs

theorem pairing_safety (w : World) (hw : Consistent w) : PairingSafe w where
  single := by
    intro c c' i j input input' log log' hc hi hsteps hj hhash
    have hcommitted : Reachable pairingSystem w (committed c i log) := hc.tail (.commit hi trivial)
    have hc' : Reachable pairingSystem w c' := hcommitted.trans hsteps
    obtain ⟨tokenId, token, hpaired⟩ := Reachable.paired hw hc hi
    obtain ⟨tokenId', token', hpaired'⟩ := Reachable.paired hw hc' hj
    obtain ⟨t, ht, hspent⟩ := Reachable.tokens hw hcommitted hsteps hpaired.consumed
    have hsame : tokenId = tokenId' := by
      refine (Reachable.invariant guarantee_pairing hw hc').hashes _ _ _ _ ht hpaired'.found ?_
      rw [hspent.1, hpaired'.hash, hhash, ← hpaired.hash]
    rw [hsame, hpaired'.found] at ht
    obtain rfl := Option.some.inj ht
    have hnone := hspent.2 hpaired'.unconsumed
    cases hnone
  exclusive c hc := (Reachable.invariant guarantee_pairing hw hc).agents
  failed := by
    intro c c' i input script log _ hi hstep hmoved
    cases hstep with
    | start | select | take | skip | abort => exact .inl rfl
    | @commit j request a log' hj hok =>
      by_cases hij : i = j
      · subst hij
        cases Option.some.inj (hi.symm.trans hj)
        exact .inr ⟨rfl, rfl⟩
      · exact absurd (Function.update_of_ne hij _ _) hmoved
    | environment h => exact h.elim
  paired c i input log hc hi := Reachable.paired hw hc hi

/-! ## A forced replacement -/

def firstRegistration : AgentRegistration where
  environmentId := "env"
  publicSigningKey := "s1"
  publicEncryptionKey := "e1"
  signingKeyId := "k1"
  encryptionKeyId := "b1"
  subjectHmacKeyVersion := 1
  version := "1"
  protocolVersion := "1"
  instanceFingerprint := "f1"

def secondRegistration : AgentRegistration :=
  { firstRegistration with publicSigningKey := "s2", instanceFingerprint := "f2" }

def forceToken : TokenRow where
  tenantId := "t"
  environmentId := "env"
  tokenHash := "h"
  replacementMode := .force
  expiresAt := "2026-07-21T12:30:00.000Z"
  consumedAt := none

def firstJob : JobRow where
  tenantId := "t"
  environmentId := "env"
  payloadCiphertext := some "c"
  payloadEncryptionKeyId := some "b1"
  authorizationPayload := none
  leasedByAgentId := none
  leaseExpiresAt := none
  completedAt := none

/-- An environment with an agent, a job for it, and a token that forces its replacement. -/
def pairedWorld : World :=
  { World.initial with
    environments := ⟨[("env", ⟨"t", 1, 1⟩)], List.nodup_singleton "env"⟩
    agents := ⟨[("agent-1", newAgent firstRegistration "env")], List.nodup_singleton "agent-1"⟩
    jobs := ⟨[("job-1", firstJob)], List.nodup_singleton "job-1"⟩
    tokens := ⟨[("token-1", forceToken)], List.nodup_singleton "token-1"⟩ }

theorem consistent_pairedWorld : Consistent pairedWorld where
  hashes := by
    intro id id' t t' ht ht' _
    have hid := List.mem_singleton.mp (Table.mem_entries_iff.mpr ht)
    have hid' := List.mem_singleton.mp (Table.mem_entries_iff.mpr ht')
    exact (Prod.mk.inj hid).1.trans (Prod.mk.inj hid').1.symm
  agents := by
    intro environmentId id id' hactive hactive'
    obtain ⟨row, hrow, -⟩ := hactive
    obtain ⟨row', hrow', -⟩ := hactive'
    have hid := List.mem_singleton.mp (Table.mem_entries_iff.mpr hrow)
    have hid' := List.mem_singleton.mp (Table.mem_entries_iff.mpr hrow')
    exact (Prod.mk.inj hid).1.trans (Prod.mk.inj hid').1.symm
  envelopes := by
    intro id row hrow
    cases hrow
  attempts := by
    intro id row hrow
    cases hrow
  jobs := by
    intro id row hrow _
    obtain ⟨-, rfl⟩ := Prod.mk.inj (List.mem_singleton.mp (Table.mem_entries_iff.mpr hrow))
    rfl

def forcedPairing : ConsumeAndPairInput where
  tokenHash := "h"
  registration := secondRegistration
  now := "2026-07-21T12:00:00.000Z"
  agentId := "agent-2"

/-- What it writes: three locks, the closed job, and the change of agents. -/
def forcedLog : Log Row := [
  ⟨.token "token-1", some forceToken⟩,
  ⟨.environment "env", some ⟨"t", 1, 1⟩⟩,
  ⟨.agent "agent-1", some (newAgent firstRegistration "env")⟩,
  ⟨.job "job-1", some { firstJob with
    payloadCiphertext := none
    payloadEncryptionKeyId := none
    completedAt := some forcedPairing.now }⟩,
  ⟨.agent "agent-1", some { newAgent firstRegistration "env" with status := .revoked }⟩,
  ⟨.agent "agent-2", some (newAgent secondRegistration "env")⟩,
  ⟨.token "token-1", some { forceToken with consumedAt := some forcedPairing.now }⟩]

theorem pairing_safety_of_forced_replacement :
    PairingSafe pairedWorld ∧
      Reachable pairingSystem pairedWorld ⟨view pairedWorld forcedLog, fun _ => none⟩ := by
  have starts : pairingSystem.starts pairedWorld (.consumeAndPair forcedPairing) := trivial
  have run : (pairingSystem.body (.consumeAndPair forcedPairing)).run pairedWorld [] [] =
      .ok ⟨(), pairedWorld, forcedLog, []⟩ := rfl
  exact ⟨pairing_safety pairedWorld consistent_pairedWorld,
    steps_transaction (allowed_nil _) starts run trivial⟩

end ForgetOps.Api.Pairing
