import ForgetOps.Agent.PairRequest
import ForgetOps.Api.PairingSafety
import ForgetOps.Library.CanonicalJson

/-
  The pairing handshake, from the command at the agent to the row of the agent.

  `serviceSystem` is the system of `PairingSystem` where pairings come from the requests that are
  presented to the service, which may be anybody's. A request of the agent itself completes a fresh
  pairing (`handshake_completes`), and whatever else is presented, agents under the key of an
  identity come from the requests it emitted, each from one of its own (`paired_as_emitted`).
-/

namespace ForgetOps.Api.Pairing

open Database
open Domain (utf8)
open ReadCommitted RowStore
open Signer (Canonicalize Ed25519 base64url signingMaterial)

section Service

variable {PrivateKey : Type} (lib : PairingLibraries PrivateKey) (Presented : AgentPairBody → Prop)

/-- The system where `consumeAndPair` is called by `pair` alone, on what is presented. -/
def serviceSystem : ReadCommitted.System World Row PairingRequest Unit :=
  { pairingSystem with
    starts := fun _ request =>
      match request with
      | .consumeAndPair input =>
        ∃ body now agentId, Presented body ∧ pair lib body now agentId = .ok input
      | _ => True }

variable {lib Presented}

theorem guarantee_service :
    Guarantee (serviceSystem lib Presented) Consistent fun _ => Meanwhile where
  rely := guarantee_pairing.rely
  environment _ h := h.elim
  commit hw hu _ hcommits h := guarantee_pairing.commit hw hu trivial hcommits h

end Service

/-! ## A fresh pairing -/

/-- The token waits for a pairing of this environment and key version, in which no agent is
    active. -/
structure Awaits (w : World) (input : ConsumeAndPairInput) (tokenId : String) (token : TokenRow) :
    Prop where
  found : w.tokens.find tokenId = some token
  hash : token.tokenHash = input.tokenHash
  unconsumed : token.consumedAt = none
  unexpired : ¬ token.expiresAt ≤ input.now
  named : token.environmentId = input.registration.environmentId
  environment : ∃ row, w.environments.find token.environmentId = some row ∧
    row.tenantId = token.tenantId ∧
    row.subjectHashKeyVersion = input.registration.subjectHmacKeyVersion
  vacant : ∀ id, ¬ Active w token.environmentId id
  fresh : w.agents.find input.agentId = none

section Fresh

variable {w : World} {input : ConsumeAndPairInput} {tokenId : String} {token : TokenRow}

theorem Awaits.lookup (h : Awaits w input tokenId token) (hw : Consistent w) :
    (w.tokens.entries.find? fun entry => entry.2.tokenHash = input.tokenHash) =
      some (tokenId, token) := by
  have hmem : (tokenId, token) ∈ w.tokens.entries := Table.mem_entries_iff.mpr h.found
  have hsome : (w.tokens.entries.find? fun entry => entry.2.tokenHash = input.tokenHash).isSome :=
    List.find?_isSome.mpr ⟨_, hmem, by simpa using h.hash⟩
  obtain ⟨entry, hentry⟩ := Option.isSome_iff_exists.mp hsome
  have hrow := Table.mem_entries_iff.mp (List.mem_of_find?_eq_some hentry)
  have hhash : entry.2.tokenHash = input.tokenHash := by simpa using List.find?_some hentry
  have hid : entry.1 = tokenId := hw.hashes _ _ _ _ hrow h.found (hhash.trans h.hash.symm)
  rw [hid, h.found] at hrow
  rw [hentry, ← hid, Option.some.inj hrow]

theorem failIf_of_not {c : Prop} [Decidable c] {code : String} (h : ¬ c) :
    (Script.failIf c code : Transaction Unit) = .done () := if_neg h

/-- What a fresh pairing writes: two locks, the agent, and the token. -/
def freshLog (input : ConsumeAndPairInput) (tokenId : String) (token : TokenRow)
    (environment : EnvironmentRow) : Log Row := [
  ⟨.token tokenId, some token⟩,
  ⟨.environment token.environmentId, some environment⟩,
  ⟨.agent input.agentId, some (newAgent input.registration token.environmentId)⟩,
  ⟨.token tokenId, some { token with consumedAt := some input.now }⟩]

theorem Awaits.selected (h : Awaits w input tokenId token) {v : World}
    (hv : v.agents = w.agents) :
    ((v.agents.entries.filter fun e => isActive token.environmentId e.2).map Prod.fst) = [] := by
  rw [hv, List.map_eq_nil_iff, List.filter_eq_nil_iff]
  intro e he hactive
  exact h.vacant e.1 ⟨e.2, Table.mem_entries_iff.mp he, of_decide_eq_true hactive⟩

theorem consumeAndPair_fresh (h : Awaits w input tokenId token) (hw : Consistent w) :
    ∃ environment, w.environments.find token.environmentId = some environment ∧
      (consumeAndPair input).run w [] [] =
        .ok ⟨newAgent input.registration token.environmentId, w,
          freshLog input tokenId token environment, []⟩ := by
  obtain ⟨environment, henvironment, htenant, hversion⟩ := h.environment
  refine ⟨environment, henvironment, ?_⟩
  have hvalid : ¬ (token.consumedAt ≠ none ∨ token.expiresAt ≤ input.now) :=
    not_or.mpr ⟨not_not.mpr h.unconsumed, h.unexpired⟩
  refine (run_read _ _ w []).trans ?_
  rw [view_nil, h.lookup hw]
  refine (run_acquire (b := token) (v := some token) ?_).trans ?_
  · exact lockRow_eq_some.mpr ⟨h.found, rfl, h.found.symm⟩
  dsimp only [Script.bind]
  rw [failIf_of_not hvalid, failIf_of_not (not_not.mpr h.named)]
  refine (run_acquire (b := environment) (v := some environment) ?_).trans ?_
  · exact lockRow_eq_some.mpr ⟨henvironment, htenant, henvironment.symm⟩
  dsimp only [Script.bind]
  rw [failIf_of_not (not_not.mpr hversion)]
  refine run_select.trans ?_
  dsimp only
  generalize hv : view w _ = v
  rw [h.selected (v := v) (by rw [← hv]; rfl)]
  refine (run_acquire (b := ()) (v := some (newAgent input.registration token.environmentId))
    ?_).trans ?_
  · exact whenAbsent_eq_some.mpr ⟨h.fresh, rfl⟩
  dsimp only [Script.bind]
  rw [failIf_of_not (by decide)]
  refine (run_acquire (b := token) (v := some { token with consumedAt := some input.now })
    ?_).trans ?_
  · exact whenRow_eq_some.mpr ⟨Table.find_set_self _ _ _, h.unconsumed, rfl⟩
  dsimp only [Script.bind]
  rw [failIf_of_not (by simp)]
  rfl

/-- A request that is accepted while its token waits pairs its agent. -/
theorem service_fresh {PrivateKey : Type} {lib : PairingLibraries PrivateKey}
    {Presented : AgentPairBody → Prop} {body : AgentPairBody} {now : Timestamp} {agentId : String}
    (hpresented : Presented body) (haccepted : pair lib body now agentId = .ok input)
    (h : Awaits w input tokenId token) (hw : Consistent w) :
    ∃ environment, Relation.ReflTransGen (Step (serviceSystem lib Presented)) ⟨w, fun _ => none⟩
      ⟨view w (freshLog input tokenId token environment), fun _ => none⟩ := by
  obtain ⟨environment, -, hrun⟩ := consumeAndPair_fresh h hw
  have hstart : (serviceSystem lib Presented).starts w (.consumeAndPair input) :=
    ⟨body, now, agentId, hpresented, haccepted⟩
  have hbody : ((serviceSystem lib Presented).body (.consumeAndPair input)).run w [] [] =
      .ok ⟨(), w, freshLog input tokenId token environment, []⟩ := run_bind hrun
  exact ⟨environment, steps_transaction (allowed_nil _) hstart hbody trivial⟩

end Fresh

section Handshake

open Agent

variable {lib : IdentityLibraries} {Presented : AgentPairBody → Prop}

end Handshake

/-! ## Emitted requests -/

/-- The names are distinct, and the values texts and numbers. -/
structure Flat (members : Json.Members String) : Prop where
  nodup : (members.map Prod.fst).Nodup
  scalars : ∀ member ∈ members, (∃ s, member.2 = .string s) ∨ ∃ n, member.2 = .number n

/-- The canonical bytes of an object begin with its brace, and those of a flat one are of no
    other. -/
structure CanonicalObjects (canonicalize : Canonicalize) : Prop where
  opens : ∀ members, (canonicalize (.object members)).head? = some 0x7b
  injective : ∀ members members', Flat members → Flat members' →
    canonicalize (.object members) = canonicalize (.object members') → members.Perm members'

theorem flat_proofMembers (fields : PairingProofFields) : Flat (proofMembers fields) where
  nodup := by
    show ["environmentId", "instanceFingerprint", "pairingToken", "protocolVersion",
      "publicEncryptionKey", "publicSigningKey", "encryptionKeyId", "signingKeyId",
      "subjectHmacKeyVersion", "version"].Nodup
    decide
  scalars := by simp [proofMembers]

/-- What is under a name of its own stays under it. -/
theorem named_of_perm {members members' : Json.Members String} (h : members.Perm members')
    (name : String) {v v' : Json String} (hv : Json.named name members = [v])
    (hv' : Json.named name members' = [v']) : v = v' := by
  have hperm : (Json.named name members).Perm (Json.named name members') := (h.filter _).map _
  rw [hv, hv'] at hperm
  exact (List.cons.inj (List.perm_singleton.mp hperm)).1

theorem proofMembers_injective {fields fields' : PairingProofFields}
    (h : (proofMembers fields).Perm (proofMembers fields')) : fields = fields' := by
  have htext (name : String) {s s' : String}
      (hv : Json.named name (proofMembers fields) = [.string s])
      (hv' : Json.named name (proofMembers fields') = [.string s']) : s = s' :=
    Json.string.inj (named_of_perm h name hv hv')
  have hnumber := named_of_perm h "subjectHmacKeyVersion" rfl rfl
  obtain ⟨⟨e, s, b, si, bi, k, v, p, i⟩, t⟩ := fields
  obtain ⟨⟨e', s', b', si', bi', k', v', p', i'⟩, t'⟩ := fields'
  obtain rfl : e = e' := htext "environmentId" rfl rfl
  obtain rfl : t = t' := htext "pairingToken" rfl rfl
  obtain rfl : s = s' := htext "publicSigningKey" rfl rfl
  obtain rfl : b = b' := htext "publicEncryptionKey" rfl rfl
  obtain rfl : si = si' := htext "signingKeyId" rfl rfl
  obtain rfl : bi = bi' := htext "encryptionKeyId" rfl rfl
  obtain rfl : v = v' := htext "version" rfl rfl
  obtain rfl : p = p' := htext "protocolVersion" rfl rfl
  obtain rfl : i = i' := htext "instanceFingerprint" rfl rfl
  obtain rfl : k = k' := Json.number.inj hnumber
  rfl

section Emitted

open Agent

variable (lib : IdentityLibraries)

/-- `MESSAGE_SIGNING_CONTEXT`. -/
def messageSigningContext : String := "forgetops.agent-message.v1"

/-- What the identity of these requests has signed: their payloads, and messages. -/
inductive Signs (Emitted : Agent.PairingRequest → Prop) : List UInt8 → Prop
  | request (request : Agent.PairingRequest) (h : Emitted request) :
    Signs Emitted (createPairingProofPayload lib.toPairingLibraries request.body.toPairingProofFields)
  | message (canonical : List UInt8) : Signs Emitted (signingMaterial messageSigningContext canonical)

/-- Who presents a proof of the identity has it from the agent. -/
def Unforged (Presented : AgentPairBody → Prop) (identity : AgentIdentity)
    (Emitted : Agent.PairingRequest → Prop) : Prop :=
  ∀ body signature, Presented body → body.proof = base64url signature →
    lib.ed.verify (lib.ed.publicKey identity.signingKey)
      (createPairingProofPayload lib.toPairingLibraries body.toPairingProofFields) signature = true →
    Signs lib Emitted
      (createPairingProofPayload lib.toPairingLibraries body.toPairingProofFields)

variable {lib} {Presented : AgentPairBody → Prop} {identity : AgentIdentity}
  {Emitted : Agent.PairingRequest → Prop}

/-- What is accepted under the key of the identity has the fields of a request it emitted. -/
theorem emitted_of_accepted (hobjects : CanonicalObjects lib.canonicalize)
    (hunforged : Unforged lib Presented identity Emitted) {body : AgentPairBody}
    (hpresented : Presented body) {now : Timestamp} {agentId : String} {input : ConsumeAndPairInput}
    (haccepted : pair lib.toPairingLibraries body now agentId = .ok input)
    (hkey : input.registration.publicSigningKey =
      base64url (lib.ed.publicKey identity.signingKey)) :
    ∃ request, Emitted request ∧ input.registration = request.body.toAgentRegistration ∧
      input.tokenHash = sha256Token lib.toPairingLibraries request.pairingToken := by
  obtain ⟨-, ⟨signingKey, encryptionKey, signature, hproven⟩, rfl⟩ := consume_ok.mp haccepted
  have hsame : signingKey = lib.ed.publicKey identity.signingKey :=
    base64url_injective (hproven.publicSigningKey.symm.trans hkey)
  have hverified := hproven.verified
  rw [hsame] at hverified
  generalize hpayload : createPairingProofPayload lib.toPairingLibraries body.toPairingProofFields =
    payload at hverified
  have hsigns := hunforged body signature hpresented hproven.proof (by rwa [hpayload])
  rw [hpayload] at hsigns
  cases hsigns with
  | request request hemitted =>
    have hfields : body.toPairingProofFields = request.body.toPairingProofFields :=
      proofMembers_injective (hobjects.injective _ _ (flat_proofMembers _) (flat_proofMembers _)
        hpayload)
    refine ⟨request, hemitted, congrArg (·.toAgentRegistration) hfields, ?_⟩
    exact congrArg (fun fields => sha256Token lib.toPairingLibraries fields.pairingToken) hfields
  | message canonical =>
    -- a payload opens a brace, and a message opens with its context
    have hopens := hobjects.opens (proofMembers body.toPairingProofFields)
    have hbytes : lib.canonicalize (.object (proofMembers body.toPairingProofFields)) =
      signingMaterial messageSigningContext canonical := hpayload
    rw [hbytes] at hopens
    cases hopens

/-! ## Agents under a key -/

/-- The row is that of an agent the request has paired, whose token is used up. -/
structure PairedBy (lib : IdentityLibraries) (Emitted : Agent.PairingRequest → Prop) (w : World)
    (row : AgentRow) (request : Agent.PairingRequest) : Prop where
  emitted : Emitted request
  row_eq : row = { newAgent request.body.toAgentRegistration request.environmentId with
    status := row.status }
  used : ∃ tokenId token, w.tokens.find tokenId = some token ∧
    token.tokenHash = sha256Token lib.toPairingLibraries request.pairingToken ∧
    token.consumedAt ≠ none

/-- The agent came between the two, under this key. -/
structure PairedUnder (key : List UInt8) (w₀ w : World) (id : String) (row : AgentRow) : Prop where
  absent : w₀.agents.find id = none
  found : w.agents.find id = some row
  key : row.publicSigningKey = base64url key

/-- Each agent under the key of the identity was paired by a request of its own. -/
structure Originates (lib : IdentityLibraries) (identity : AgentIdentity)
    (Emitted : Agent.PairingRequest → Prop) (w₀ w : World)
    (origin : String → Agent.PairingRequest) : Prop where
  paired : ∀ id row, PairedUnder (lib.ed.publicKey identity.signingKey) w₀ w id row →
    PairedBy lib Emitted w row (origin id)
  single : ∀ id id' row row', PairedUnder (lib.ed.publicKey identity.signingKey) w₀ w id row →
    PairedUnder (lib.ed.publicKey identity.signingKey) w₀ w id' row' →
    sha256Token lib.toPairingLibraries (origin id).pairingToken =
      sha256Token lib.toPairingLibraries (origin id').pairingToken → id = id'

/-- Agents only change their status. -/
def KeepsAgents : (k : Key) → Row k → Row k → Prop
  | .agent _, r, v => ∀ row, v = some row →
    ∃ row', r = some row' ∧ row = { row' with status := row.status }
  | _, _, _ => True

theorem keepsAgents_refl (k : Key) (r : Row k) : KeepsAgents k r r := by
  cases k with
  | agent => exact fun row hrow => ⟨row, hrow, rfl⟩
  | _ => trivial

theorem keepsAgents_trans (k : Key) (r r' r'' : Row k) (h : KeepsAgents k r r')
    (h' : KeepsAgents k r' r'') : KeepsAgents k r r'' := by
  cases k with
  | agent =>
    intro row hrow
    obtain ⟨row', hrow', hsame'⟩ := h' row hrow
    obtain ⟨row₁, hrow₁, hsame⟩ := h row' hrow'
    refine ⟨row₁, hrow₁, hsame'.trans ?_⟩
    rw [hsame]
  | _ => trivial

theorem keepsAgents_lock {α : Type} {k : Key} {q : Row k → Option (α × Row k)}
    (hq : ∀ r b v, q r = some (b, v) → v = r) :
    (Script.update k q : Transaction (Option α)).Writes KeepsAgents := by
  rw [Script.writes_update]
  intro r b v h
  rw [hq r b v h]
  exact keepsAgents_refl k r

open Script (writes_read writes_failIf writes_pure writes_update) in
/-- Only a pairing creates an agent. -/
theorem keepsAgents_script {request : PairingRequest} (hcreates : ¬ request.Creates) :
    request.script.Writes KeepsAgents := by
  cases request with
  | consumeAndPair input => exact absurd trivial hcreates
  | issueToken input =>
    refine (writes_read _).bind fun _ => (writes_failIf _ _).bind fun _ =>
      Script.Writes.bind ?_ fun _ => writes_failIf _ _
    exact (writes_update _ _).mpr fun _ _ _ _ => trivial
  | revokeAgent tenantId agentId =>
    refine (writes_read _).bind fun _ => Script.Writes.bind ?_ fun result => ?_
    · rw [writes_update]
      intro r b v h row hrow
      obtain ⟨rfl, -, rfl⟩ := whenRow_eq_some.mp h
      obtain rfl := Option.some.inj hrow
      exact ⟨b, rfl, rfl⟩
    · cases result with
      | some row => trivial
      | none => exact (writes_read _).bind fun _ => writes_failIf _ _
  | storeEnvelope input =>
    refine Script.Writes.bind ?_ fun rows => ?_
    · refine (writes_read _).bind fun _ => (writes_read _).bind fun _ =>
        (keepsAgents_lock lockRow_locks).bind fun request => ?_
      cases request with
      | none => trivial
      | some request => exact writes_onRows _ (fun _ => keepsAgents_lock lockRow_locks) _
    · cases rows with
      | nil => trivial
      | cons agent rows =>
        refine (writes_failIf _ _).bind fun _ => Script.Writes.bind ?_ fun _ => writes_pure _
        exact (writes_update _ _).mpr fun _ _ _ _ => trivial

/-- A committed pairing names the environment of its token. -/
theorem consumeAndPair_named {w u : World} {input : ConsumeAndPairInput} {log : Log Row}
    {agent : AgentRow} (h : Completes Guarded w (consumeAndPair input) ⟨u, []⟩ agent ⟨w, log⟩) :
    ∃ tokenId token, w.tokens.find tokenId = some token ∧ token.tokenHash = input.tokenHash ∧
      token.environmentId = input.registration.environmentId := by
  obtain ⟨bootstrap, p₁, hlookup, h⟩ := leads_bind rely_guarded (h.leads rely_guarded)
  obtain ⟨hlog₁, u₁, hbootstrap, -, huw⟩ := leads_read rely_guarded hlookup
  cases bootstrap with
  | none => exact (leads_fail h).elim
  | some bootstrap =>
    obtain ⟨token, p₂, htoken, -⟩ := leads_bind rely_guarded h
    have hp₁ : Locks w p₁.log := hlog₁ ▸ locks_nil w
    obtain ⟨-, hfound⟩ := leads_lockToken rely_guarded hp₁ htoken
    refine ⟨bootstrap.1, token, hfound, ?_, ?_⟩
    · have hmem := List.mem_of_find?_eq_some hbootstrap.symm
      obtain ⟨t, ht, hspent⟩ := huw.1.tokens _ _ (Table.mem_entries_iff.mp hmem)
      obtain rfl := Option.some.inj (hfound.symm.trans ht)
      rw [hspent.1]
      simpa using List.find?_some hbootstrap.symm
    · obtain ⟨found, p₃, -, h⟩ := leads_bind rely_guarded htoken
      cases found with
      | none => exact (leads_fail h).elim
      | some row =>
        obtain ⟨_, p₄, -, h⟩ := leads_bind rely_guarded h
        obtain ⟨_, p₅, hother, h⟩ := leads_bind rely_guarded h
        obtain ⟨rfl, -⟩ := leads_pure rely_guarded h
        exact not_not.mp (leads_failIf rely_guarded hother).1

section Origins

variable {w₀ w w' : World} {origin : String → Agent.PairingRequest} {row : AgentRow}
  {request : Agent.PairingRequest}

/-- Nobody unpairs an agent. -/
theorem PairedBy.later (h : PairedBy lib Emitted w row request)
    (htokens : ∀ id t, w.tokens.find id = some t → ∃ t', w'.tokens.find id = some t' ∧ Spent t t')
    {row' : AgentRow} (hrow : row' = { row with status := row'.status }) :
    PairedBy lib Emitted w' row' request where
  emitted := h.emitted
  row_eq := by
    refine hrow.trans ?_
    rw [h.row_eq]
  used := by
    obtain ⟨tokenId, t, ht, hhash, hconsumed⟩ := h.used
    obtain ⟨t', ht', hspent⟩ := htokens tokenId t ht
    exact ⟨tokenId, t', ht', hspent.1.trans hhash, fun hnone => hconsumed (hspent.2 hnone)⟩

/-- Each agent has its origin still, or is the one agent that is new, with a token that waited. -/
theorem Originates.next {origin' : String → Agent.PairingRequest} (agentId : String)
    (h : Originates lib identity Emitted w₀ w origin)
    (htokens : ∀ id t, w.tokens.find id = some t → ∃ t', w'.tokens.find id = some t' ∧ Spent t t')
    (hagents : ∀ id row', PairedUnder (lib.ed.publicKey identity.signingKey) w₀ w' id row' →
      (origin' id = origin id ∧
        ∃ row, w.agents.find id = some row ∧ row' = { row with status := row'.status }) ∨
      (id = agentId ∧ PairedBy lib Emitted w' row' (origin' id) ∧
        ∀ tokenId t, w.tokens.find tokenId = some t →
          t.tokenHash = sha256Token lib.toPairingLibraries (origin' id).pairingToken →
          t.consumedAt = none)) :
    Originates lib identity Emitted w₀ w' origin' := by
  have hunder {id : String} {row row' : AgentRow}
      (h' : PairedUnder (lib.ed.publicKey identity.signingKey) w₀ w' id row')
      (hrow : w.agents.find id = some row) (hsame : row' = { row with status := row'.status }) :
      PairedUnder (lib.ed.publicKey identity.signingKey) w₀ w id row := by
    refine ⟨h'.absent, hrow, ?_⟩
    have hkey := h'.key
    rwa [hsame] at hkey
  -- a token that is used up does not wait
  have hwaits {id id' : String} {row : AgentRow}
      (hpaired : PairedBy lib Emitted w row (origin id))
      (hfresh : ∀ tokenId t, w.tokens.find tokenId = some t →
        t.tokenHash = sha256Token lib.toPairingLibraries (origin' id').pairingToken →
        t.consumedAt = none)
      (hhash : sha256Token lib.toPairingLibraries (origin id).pairingToken =
        sha256Token lib.toPairingLibraries (origin' id').pairingToken) : False := by
    obtain ⟨tokenId, t, ht, htoken, hconsumed⟩ := hpaired.used
    exact hconsumed (hfresh tokenId t ht (htoken.trans hhash))
  constructor
  · intro id row' h'
    obtain ⟨horigin, row, hrow, hsame⟩ | ⟨-, hpaired, -⟩ := hagents id row' h'
    · rw [horigin]
      exact (h.paired id row (hunder h' hrow hsame)).later htokens hsame
    · exact hpaired
  · intro id₁ id₂ row₁' row₂' h₁ h₂ hhash
    obtain ⟨horigin₁, row₁, hrow₁, hsame₁⟩ | ⟨hnew₁, -, hfresh₁⟩ := hagents id₁ row₁' h₁
    · obtain ⟨horigin₂, row₂, hrow₂, hsame₂⟩ | ⟨-, -, hfresh₂⟩ := hagents id₂ row₂' h₂
      · rw [horigin₁, horigin₂] at hhash
        exact h.single id₁ id₂ row₁ row₂ (hunder h₁ hrow₁ hsame₁) (hunder h₂ hrow₂ hsame₂) hhash
      · rw [horigin₁] at hhash
        exact (hwaits (h.paired id₁ row₁ (hunder h₁ hrow₁ hsame₁)) hfresh₂ hhash).elim
    · obtain ⟨horigin₂, row₂, hrow₂, hsame₂⟩ | ⟨hnew₂, -⟩ := hagents id₂ row₂' h₂
      · rw [horigin₂] at hhash
        exact (hwaits (h.paired id₂ row₂ (hunder h₂ hrow₂ hsame₂)) hfresh₁ hhash.symm).elim
      · exact hnew₁.trans hnew₂.symm

/-- A pairing under the key of the identity has a request of its own. -/
theorem Originates.pair {input : ConsumeAndPairInput} {tokenId : String} {token : TokenRow}
    (hw : Consistent w) (h : Originates lib identity Emitted w₀ w origin)
    (hpaired : Paired input tokenId token w w')
    (hnamed : token.environmentId = input.registration.environmentId)
    (htokens : ∀ id t, w.tokens.find id = some t → ∃ t', w'.tokens.find id = some t' ∧ Spent t t')
    (hemitted : input.registration.publicSigningKey =
        base64url (lib.ed.publicKey identity.signingKey) →
      ∃ request, Emitted request ∧ input.registration = request.body.toAgentRegistration ∧
        input.tokenHash = sha256Token lib.toPairingLibraries request.pairingToken) :
    ∃ origin', Originates lib identity Emitted w₀ w' origin' := by
  have hbefore {id : String} {row' : AgentRow} (hid : id ≠ input.agentId)
      (hrow' : w'.agents.find id = some row') :
      ∃ row, w.agents.find id = some row ∧ row' = { row with status := row'.status } := by
    obtain hsame | hreplaced := hpaired.others id hid
    · exact ⟨row', hsame ▸ hrow', rfl⟩
    · obtain ⟨row, hrow, -, hrevoked⟩ := hreplaced.agent
      obtain rfl := Option.some.inj (hrevoked.symm.trans hrow')
      exact ⟨row, hrow, rfl⟩
  by_cases hkey : input.registration.publicSigningKey =
    base64url (lib.ed.publicKey identity.signingKey)
  · obtain ⟨request, hemitted, hregistration, hhash⟩ := hemitted hkey
    refine ⟨Function.update origin input.agentId request,
      h.next input.agentId htokens fun id row' hunder => ?_⟩
    by_cases hid : id = input.agentId
    · subst hid
      rw [Function.update_self]
      obtain rfl := Option.some.inj (hpaired.created.symm.trans hunder.found)
      refine .inr ⟨rfl, ⟨hemitted, ?_, tokenId, _, hpaired.consumed, ?_, ?_⟩, ?_⟩
      · rw [hnamed, hregistration]
        rfl
      · exact hpaired.hash.trans hhash
      · simp
      · intro tokenId' t ht hsame
        have heq : tokenId' = tokenId :=
          hw.hashes _ _ _ _ ht hpaired.found (hsame.trans (hhash.symm.trans hpaired.hash.symm))
        rw [heq, hpaired.found] at ht
        exact Option.some.inj ht ▸ hpaired.unconsumed
    · rw [Function.update_of_ne hid]
      exact .inl ⟨rfl, hbefore hid hunder.found⟩
  · refine ⟨origin, h.next input.agentId htokens fun id row' hunder => .inl ⟨rfl, ?_⟩⟩
    refine hbefore ?_ hunder.found
    rintro rfl
    obtain rfl := Option.some.inj (hpaired.created.symm.trans hunder.found)
    exact hkey hunder.key

end Origins

/-- **Agents are paired as emitted.** Whatever is presented, and in every interleaving of the
    transactions: an agent that comes under the key of an identity has the fields of a request that
    the agent emitted, its encryption key among them, the token of that request is used up, and no
    other agent comes from that token. -/
theorem paired_as_emitted (hobjects : CanonicalObjects lib.canonicalize)
    (hprinted : ∀ request, Emitted request →
      ∃ options token, printed lib identity options (some token) = .request request)
    (hunforged : Unforged lib Presented identity Emitted) {w₀ : World} (hw : Consistent w₀)
    {c : Configuration}
    (hc : Reachable (serviceSystem lib.toPairingLibraries Presented) w₀ c) :
    ∃ origin, Originates lib identity Emitted w₀ c.world origin ∧
      ∀ id row, PairedUnder (lib.ed.publicKey identity.signingKey) w₀ c.world id row →
        row.publicEncryptionKey = base64url (lib.x25519 identity.encryptionSecret) := by
  have hinitial : ∃ origin, Originates lib identity Emitted w₀ w₀ origin := by
    have hnone {id : String} {row : AgentRow}
        (h : PairedUnder (lib.ed.publicKey identity.signingKey) w₀ w₀ id row) : False := by
      have habsent := h.absent
      rw [h.found] at habsent
      cases habsent
    exact ⟨fun _ => ⟨"", "", "", "", "", "", 0, "", "", "", ""⟩,
      fun _ _ h => (hnone h).elim, fun _ _ _ _ h => (hnone h).elim⟩
  have hfinal : ∃ origin, Originates lib identity Emitted w₀ c.world origin := by
    refine Reachable.evolves guarantee_service
      (E := fun v v' => (∃ origin, Originates lib identity Emitted w₀ v origin) →
        ∃ origin, Originates lib identity Emitted w₀ v' origin)
      (fun _ h => h) (fun h h' => h' ∘ h) (fun _ h => h.elim) ?_ hw .refl hc hinitial
    intro v u request a log hv hu hstart hcommits h horigin
    obtain ⟨origin, horigin⟩ := horigin
    obtain ⟨-, hmeanwhile⟩ := guarantee_service.commit hv hu hstart hcommits h
    have htokens := (hmeanwhile request [] fun _ hk => absurd hk List.not_mem_nil).tokens
    by_cases hcreates : request.Creates
    · cases request with
      | consumeAndPair input =>
        obtain ⟨body, now, agentId, hpresented, haccepted⟩ := hstart
        obtain ⟨agent, hpair⟩ := completes_discard rely_guarded h
        obtain ⟨tokenId, token, hpaired, -⟩ := consumeAndPair_paired hv hu hpair
        obtain ⟨tokenId', token', hfound, hhash, hnamed⟩ := consumeAndPair_named hpair
        have hsame : tokenId' = tokenId :=
          hv.hashes _ _ _ _ hfound hpaired.found (hhash.trans hpaired.hash.symm)
        rw [hsame, hpaired.found] at hfound
        obtain rfl := Option.some.inj hfound
        exact horigin.pair hv hpaired hnamed htokens
          (emitted_of_accepted hobjects hunforged hpresented haccepted)
      | _ => exact hcreates.elim
    · have hwrites := h.writes keepsAgents_refl keepsAgents_trans (keepsAgents_script hcreates)
      exact ⟨origin, horigin.next "" htokens fun id row' hunder =>
        .inl ⟨rfl, hwrites (.agent id) row' hunder.found⟩⟩
  obtain ⟨origin, horigin⟩ := hfinal
  refine ⟨origin, horigin, fun id row hunder => ?_⟩
  have hpaired := horigin.paired id row hunder
  obtain ⟨options, token, hrequest⟩ := hprinted _ hpaired.emitted
  obtain ⟨environmentId, -, hnew⟩ := printed_request hrequest
  rw [hpaired.row_eq, hnew]
  rfl

end Emitted

/-! ## A first pairing -/

/-- A text or a number, in the strings of an engine. -/
def scalar : Json String → Json Json.JsString
  | .string s => .string (Json.jsString s)
  | .number n => .number n
  | _ => .null

def ofScalar : Json Json.JsString → Json String
  | .string us => .string (String.ofList ((Utf16.text us).getD []))
  | .number n => .number n
  | _ => .null

def memberText (member : String × Json Json.JsString) : String :=
  String.ofList (Json.stringify (.object [member]))

/-- The canonical bytes of an object of texts and numbers: its members in order. -/
def flatCanonicalize : Canonicalize
  | .object members => Json.encode (.object ((members.map fun m => (m.1, scalar m.2)).mergeSort
      fun a b => memberText a ≤ memberText b))
  | v => Json.encode (scalar v)

theorem memberText_injective {m m' : String × Json Json.JsString}
    (h : memberText m = memberText m') : m = m' := by
  have hobject := Json.stringify_injective (String.ofList_injective h)
  exact (List.cons.inj (Json.object.inj hobject)).1

theorem sorted_memberText (members : Json.Members Json.JsString) :
    (members.mergeSort fun a b => memberText a ≤ memberText b).Pairwise
      fun a b => memberText a ≤ memberText b := by
  have h : (members.mergeSort fun a b => memberText a ≤ memberText b).Pairwise
      fun a b => decide (memberText a ≤ memberText b) = true := by
    refine List.pairwise_mergeSort (fun a b c hab hbc => ?_) (fun a b => ?_) members
    · exact decide_eq_true (String.le_trans (of_decide_eq_true hab) (of_decide_eq_true hbc))
    · rw [Bool.or_eq_true, decide_eq_true_eq, decide_eq_true_eq]
      exact String.le_total _ _
  simpa using h

theorem flatCanonicalize_sorts : flatCanonicalize.Sorts := by
  intro members members' hperm
  have hsorted : ((members.map fun m => (m.1, scalar m.2)).mergeSort
        fun a b => memberText a ≤ memberText b) =
      (members'.map fun m => (m.1, scalar m.2)).mergeSort
        fun a b => memberText a ≤ memberText b := by
    refine List.Perm.eq_of_pairwise
      (fun a b _ _ hab hba => memberText_injective (String.le_antisymm hab hba))
      (sorted_memberText _) (sorted_memberText _) ?_
    exact (List.mergeSort_perm _ _).trans
      ((hperm.map _).trans (List.mergeSort_perm _ _).symm)
  simp only [flatCanonicalize, hsorted]

theorem map_ofScalar {members : Json.Members String} (h : Flat members) :
    (members.map fun m => (m.1, scalar m.2)).map (fun m => (m.1, ofScalar m.2)) = members := by
  rw [List.map_map]
  conv_rhs => rw [← List.map_id members]
  refine List.map_congr_left fun member hmember => ?_
  obtain ⟨name, v⟩ := member
  obtain ⟨s, hs⟩ | ⟨n, hn⟩ := h.scalars _ hmember
  · obtain rfl : v = .string s := hs
    show (name, Json.string (String.ofList ((Utf16.text (Json.jsString s)).getD []))) = _
    rw [Json.text_jsString, Option.getD_some, String.ofList_toList]
    rfl
  · obtain rfl : v = .number n := hn
    rfl

theorem flatCanonicalize_objects : CanonicalObjects flatCanonicalize where
  opens _ := rfl
  injective members members' h h' heq := by
    have hsorted := Json.object.inj (Json.encode_injective heq)
    have hperm : (members.map fun m => (m.1, scalar m.2)).Perm
        (members'.map fun m => (m.1, scalar m.2)) := by
      refine (List.mergeSort_perm _ fun a b => decide (memberText a ≤ memberText b)).symm.trans ?_
      rw [hsorted]
      exact List.mergeSort_perm _ _
    have hback := hperm.map fun m => (m.1, ofScalar m.2)
    rwa [map_ofScalar h, map_ofScalar h'] at hback

open Agent

theorem length_firstDigest (bytes : List UInt8) :
    ((bytes ++ List.replicate 32 0).take 32).length = 32 := by
  rw [List.length_take, List.length_append, List.length_replicate]
  omega

def firstLibraries : IdentityLibraries where
  canonicalize := flatCanonicalize
  ed := {
    publicKey := Subtype.val
    sign := fun _ _ => List.replicate 64 2
    isVerifyingKey := fun bytes => bytes.length = 32
    verify := fun _ _ signature => signature = List.replicate 64 2 }
  sha256 := fun bytes => ⟨(bytes ++ List.replicate 32 0).take 32, length_firstDigest bytes⟩
  x25519 := fun secret => 1 :: secret.val.tail

theorem firstLibraries_correct : firstLibraries.Correct where
  ed := {
    publicKey_length := fun key => key.property
    isVerifyingKey := fun key => decide_eq_true key.property
    sign_length := fun _ _ => rfl
    verify_sign := fun _ _ => rfl }
  length_x25519 secret := by
    show (1 :: secret.val.tail).length = 32
    rw [List.length_cons, List.length_tail, secret.property]
  x25519_ne _ := ⟨1, List.mem_cons_self, by decide⟩

def firstIdentity : AgentIdentity where
  signingKey := ⟨List.replicate 32 7, List.length_replicate⟩
  encryptionSecret := ⟨List.replicate 32 9, List.length_replicate⟩

def firstArguments : List String :=
  ["--data-dir", "/data", "--state-master-key-file", "/keys/state",
    "--subject-hmac-key-file", "/keys/subject", "--subject-hmac-key-version", "1",
    "--environment-id", "env"]

def firstOptions : Options where
  dataDir := "/data"
  stateMasterKeyFile := "/keys/state"
  subjectHmacKeyFile := "/keys/subject"
  subjectHmacKeyVersion := 1
  environmentId := some "env"
  version := "0.1.0"
  protocolVersion := "1.0"

def firstRequest : Agent.PairingRequest :=
  .new firstLibraries firstIdentity "secret" "env"
    (.fromIdentity firstLibraries firstIdentity 1 "0.1.0" "1.0")

def firstToken : TokenRow where
  tenantId := "t"
  environmentId := "env"
  tokenHash := sha256Token firstLibraries.toPairingLibraries "secret"
  replacementMode := .none
  expiresAt := "2026-07-21T12:30:00.000Z"
  consumedAt := none

/-- An environment without agents, and a token for one. -/
def waitingWorld : World :=
  { World.initial with
    environments := ⟨[("env", ⟨"t", 1, 1⟩)], List.nodup_singleton "env"⟩
    tokens := ⟨[("token-1", firstToken)], List.nodup_singleton "token-1"⟩ }

theorem consistent_waitingWorld : Consistent waitingWorld where
  hashes := by
    intro id id' t t' ht ht' _
    have hid := List.mem_singleton.mp (Table.mem_entries_iff.mpr ht)
    have hid' := List.mem_singleton.mp (Table.mem_entries_iff.mpr ht')
    exact (Prod.mk.inj hid).1.trans (Prod.mk.inj hid').1.symm
  agents := by
    intro environmentId id id' hactive
    obtain ⟨row, hrow, -⟩ := hactive
    cases hrow
  envelopes := by
    intro id row hrow
    cases hrow
  attempts := by
    intro id row hrow
    cases hrow
  jobs := by
    intro id row hrow
    cases hrow

def firstInput : ConsumeAndPairInput where
  tokenHash := sha256Token firstLibraries.toPairingLibraries "secret"
  registration := firstRequest.body.toAgentRegistration
  now := "2026-07-21T12:00:00.000Z"
  agentId := "agent-1"

theorem firstInput_awaits : Awaits waitingWorld firstInput "token-1" firstToken where
  found := rfl
  hash := rfl
  unconsumed := rfl
  unexpired := by decide
  named := rfl
  environment := ⟨_, rfl, rfl, rfl⟩
  vacant := by
    intro id hactive
    obtain ⟨row, hrow, -⟩ := hactive
    cases hrow
  fresh := rfl

theorem printed_first :
    printed firstLibraries firstIdentity firstOptions (some "secret") = .request firstRequest := rfl

/-- Only that request is presented. -/
def FirstPresented (body : AgentPairBody) : Prop := body = firstRequest.body

theorem unforged_first :
    Unforged firstLibraries FirstPresented firstIdentity (· = firstRequest) := by
  intro body signature hpresented _ _
  rw [show body = firstRequest.body from hpresented]
  exact .request firstRequest rfl

/-- The first agent of an environment comes from the request that was presented. -/
theorem paired_as_emitted_first :
    ∃ c row, Reachable (serviceSystem firstLibraries.toPairingLibraries FirstPresented)
        waitingWorld c ∧
      PairedUnder (firstLibraries.ed.publicKey firstIdentity.signingKey) waitingWorld c.world
        "agent-1" row ∧
      ∃ origin, Originates firstLibraries firstIdentity (· = firstRequest) waitingWorld c.world
          origin ∧
        ∀ id row, PairedUnder (firstLibraries.ed.publicKey firstIdentity.signingKey) waitingWorld
            c.world id row →
          row.publicEncryptionKey =
            base64url (firstLibraries.x25519 firstIdentity.encryptionSecret) := by
  have hoptions := wellFormed_of_parse (show Options.parse firstArguments = .ok firstOptions by rfl)
  have haccepted := printed_accepted flatCanonicalize_sorts firstLibraries_correct hoptions
    (by decide) printed_first firstInput.now "agent-1"
  have hpresented : FirstPresented firstRequest.body := rfl
  obtain ⟨environment, hsteps⟩ :=
    service_fresh hpresented haccepted firstInput_awaits consistent_waitingWorld
  refine ⟨_, _, hsteps, ⟨rfl, Table.find_set_self _ _ _, rfl⟩, ?_⟩
  refine paired_as_emitted flatCanonicalize_objects ?_ unforged_first consistent_waitingWorld hsteps
  rintro request rfl
  exact ⟨firstOptions, "secret", printed_first⟩

end ForgetOps.Api.Pairing
