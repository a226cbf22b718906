import ForgetOps.Api.TenantRules

/-
  What the transactions on subject envelopes and pairing tokens learn of the tenant they write for.
-/

namespace ForgetOps.Api.Tenants

open Database ReadCommitted
open ReadCommitted (Script)

/-! ## Bindings -/

section Bindings

open SubjectBinding

variable {known known' : TenantFacts} {tenantId environmentId requestId : String}
  {rt : Runtime} {input : BindSubjectRequest}

theorem learns_findRequestForUpdate :
    Learns (findRequestForUpdate tenantId environmentId requestId)
      (fun found known => found ≠ none → FoundInScope known requestId tenantId environmentId)
      known := by
  unfold findRequestForUpdate
  refine learns_first_bind (P := fun request known => request ≠ none →
    InScope known requestId tenantId environmentId) (learns_lock lockRow_locks ?_ ?_) ?_
  · intro known₁ r b _ hk _ htaken _
    obtain ⟨rfl, ⟨rfl, rfl⟩, -⟩ := lockRow_eq_some.mp htaken
    exact hk
  · intro _ _ hrequest
    exact absurd rfl hrequest
  intro request known₁ _ hrequest
  cases request with
  | none => exact learns_pure fun hfound => absurd rfl hfound
  | some request =>
    have hscope := hrequest nofun
    refine learns_first_bind (P := fun environment known => environment ≠ none →
      FoundInScope known requestId tenantId environmentId) (learns_lock lockRow_locks ?_ ?_) ?_
    · intro known₂ r b hle hk _ htaken _
      obtain ⟨rfl, rfl, -⟩ := lockRow_eq_some.mp htaken
      exact ⟨hscope.mono hle, hk⟩
    · intro _ _ henvironment
      exact absurd rfl henvironment
    · intro environment known₂ _ henvironment
      refine learns_pure fun hfound => henvironment ?_
      rintro rfl
      exact hfound rfl

theorem learns_deleteEnvelope :
    Learns (deleteEnvelope input) (fun _ _ => True) known := by
  unfold deleteEnvelope
  refine learns_first_bind (P := fun _ _ => True)
    (learns_update_keeps ?_ (fun _ _ _ _ _ _ _ => trivial) fun _ _ => trivial)
    fun _ _ _ _ => trivial
  intro r b v htaken
  unfold deleteRow at htaken
  split at htaken
  · split_ifs at htaken
    cases htaken
    exact keeps_noEnvelope _
  · cases htaken

/-- A write to `World` that needs no fact. -/
abbrev KeepsRow (k : Key) (r v : Row k) : Prop := tenantRules.Keeps (.inl k) r v

theorem writes_lock {α : Type} {k : Key} {q : Row k → Option (α × Row k)}
    (hq : ∀ r b v, q r = some (b, v) → v = r) :
    (Script.update k q : Transaction (Option α)).Writes KeepsRow := by
  refine (Script.writes_update k q).mpr fun r b v htaken => ?_
  obtain rfl := hq r b v htaken
  exact RowRules.Keeps.refl _

theorem writes_checkBinding {row : RequestAndEnvironment} :
    (checkBinding input row).Writes KeepsRow := by
  unfold checkBinding
  refine (Script.writes_failIf _ _).bind fun _ => ?_
  refine (Script.writes_failIf _ _).bind fun _ => ?_
  refine (Script.writes_failIf _ _).bind fun _ => ?_
  refine (Script.writes_failIf _ _).bind fun _ => ?_
  refine (writes_lock lockRow_locks).bind fun agent => ?_
  cases agent with
  | none => trivial
  | some agent =>
    refine (writes_lock lockRow_locks).bind fun envelope => ?_
    cases envelope with
    | none => trivial
    | some envelope =>
      exact (Script.writes_failIf _ _).bind fun _ => Script.writes_failIf _ _

/-- A statement on several rows, where what is known of an answer stays known. -/
theorem learns_onRows {α : Type} {statement : String → Transaction (Option α)}
    {P : String × α → TenantFacts → Prop}
    (hmono : ∀ answer known known', known.Le known' → P answer known → P answer known')
    (h : ∀ id known, Learns (statement id) (fun answer known => ∀ a ∈ answer, P (id, a) known)
      known) (ids : List String) :
    Learns (onRows statement ids) (fun answers known => ∀ answer ∈ answers, P answer known)
      known := by
  induction ids generalizing known with
  | nil => exact nofun
  | cons id ids ih =>
    refine learns_first_bind (h id known) fun answer known₁ _ hanswer => ?_
    refine learns_first_bind ih fun answers known₂ hle hanswers => ?_
    cases answer with
    | none => exact learns_pure hanswers
    | some a =>
      refine learns_pure fun other hother => ?_
      rcases List.mem_cons.mp hother with rfl | hother
      · exact hmono _ _ _ hle (hanswer a rfl)
      · exact hanswers other hother

theorem learns_duplicateCandidates {type : Domain.PrivacyRequestType} :
    Learns (duplicateCandidates input type) (fun candidates known => ∀ candidate ∈ candidates,
      InScope known candidate.1 input.tenantId input.environmentId) known := by
  unfold duplicateCandidates
  split
  · exact learns_pure fun _ hcandidate => absurd hcandidate List.not_mem_nil
  · refine learns_first_bind (P := fun _ _ => True) (learns_read fun _ _ _ => trivial)
      fun ids known₁ _ _ => ?_
    refine learns_onRows (P := fun candidate known =>
      InScope known candidate.1 input.tenantId input.environmentId)
      (fun _ _ _ hle h => h.mono hle) (fun id known => ?_) ids
    refine learns_lock lockRow_locks (fun known₁ r b _ hk _ htaken a _ => ?_)
      fun _ _ a ha => (Option.not_mem_none a ha).elim
    obtain ⟨rfl, hcandidate, -⟩ := lockRow_eq_some.mp htaken
    obtain ⟨htenant, henvironment⟩ := hcandidate.1
    rw [← htenant, ← henvironment]
    exact hk

/-- A request keeps its scope, and its new duplicate pointer stays in it. -/
theorem learns_updateRequest {p : RequestRow → Prop} [DecidablePred p]
    {f : RequestRow → RequestRow} (htenant : ∀ row, (f row).tenantId = row.tenantId)
    (henvironment : ∀ row, (f row).environmentId = row.environmentId)
    (h : InScope known requestId tenantId environmentId)
    (hduplicate : ∀ row, ∀ other ∈ (f row).duplicateOfRequestId,
      InScope known other tenantId environmentId) :
    Learns (Script.update (.request requestId) (whenRow p f)) (fun _ _ => True) known := by
  refine learns_update ?_ fun _ _ _ _ _ _ => trivial
  intro known₁ r row v hle hk hgood htaken
  obtain ⟨rfl, -, rfl⟩ := whenRow_eq_some.mp htaken
  have hfact : some (Belonging.request row.tenantId row.environmentId) =
      some (.request tenantId environmentId) := hk.symm.trans (h.mono hle)
  obtain ⟨rfl, rfl⟩ := Belonging.request.inj (Option.some.inj hfact)
  constructor
  · intro fact hf
    rw [← hf]
    show some (Belonging.request (f row).tenantId (f row).environmentId) =
      some (Belonging.request row.tenantId row.environmentId)
    rw [htenant, henvironment]
  · refine fun known₂ hle' _ => ⟨fun row' hrow' => ?_, trivial⟩
    obtain rfl := Option.some.inj hrow'
    rw [htenant, henvironment]
    refine ⟨(hgood row rfl).1.mono hle', fun other hother => ?_⟩
    exact (hduplicate row other hother).mono (hle.trans hle')

theorem learns_cancelCandidate {decision : Decision}
    (h : InScope known input.requestId input.tenantId input.environmentId)
    (hcandidate : ∀ id, decision = .cancelCandidate id →
      InScope known id input.tenantId input.environmentId) :
    Learns (cancelCandidate input decision) (fun _ _ => True) known := by
  cases decision with
  | bind | cancelRequest => trivial
  | cancelCandidate id =>
    refine learns_first_bind (P := fun _ _ => True) ?_ fun _ _ _ _ => trivial
    refine learns_updateRequest (fun _ => rfl) (fun _ => rfl) (hcandidate id rfl) ?_
    intro row other hother
    obtain rfl := Option.mem_some.mp hother
    exact h

theorem writes_insertAliases (aliases : List SubjectAliasBinding) :
    (insertAliases input aliases).Writes KeepsRow := by
  induction aliases with
  | nil => trivial
  | cons a aliases ih =>
    refine Script.Writes.bind ?_ fun _ => ih
    exact (Script.writes_update _ _).mpr fun r _ v _ => keeps_alias r v

theorem learns_appendAuditEvent {audit : AuditInput}
    (h : FoundInScope known audit.requestId audit.tenantId audit.environmentId) :
    Learns (appendAuditEvent rt audit) (fun _ _ => True) known := by
  unfold appendAuditEvent
  refine learns_first_bind (learns_lockChainHead h.2) fun head known₁ hle₁ _ => ?_
  refine learns_first_bind (learns_orFail _) fun hash known₂ hle₂ _ => ?_
  have h₂ := h.mono (hle₁.trans hle₂)
  exact learns_recordEvent h₂.2 h₂.1 rfl

/-- The requests of the decision are in the scope of the binding. -/
def DecisionInScope (known : TenantFacts) (input : BindSubjectRequest) (decision : Decision) :
    Prop :=
  ∀ id, decision = .cancelRequest id ∨ decision = .cancelCandidate id →
    InScope known id input.tenantId input.environmentId

theorem learns_recordCandidate {decision : Decision}
    (h : Owned known input.tenantId input.environmentId)
    (hdecision : DecisionInScope known input decision) :
    Learns (recordCandidate rt input decision) (fun _ _ => True) known := by
  cases decision with
  | bind | cancelRequest => trivial
  | cancelCandidate id => exact learns_appendAuditEvent ⟨hdecision id (.inr rfl), h⟩

theorem learns_applyDecision {decision : Decision}
    (h : FoundInScope known input.requestId input.tenantId input.environmentId)
    (hdecision : DecisionInScope known input decision) :
    Learns (applyDecision rt input decision) (fun _ _ => True) known := by
  unfold applyDecision
  refine learns_first_bind (learns_cancelCandidate h.1 fun id hid => hdecision id (.inr hid))
    fun _ known₁ hle₁ _ => ?_
  refine learns_first_bind (P := fun _ _ => True) ?_ fun _ known₂ hle₂ _ => ?_
  · refine learns_updateRequest (fun _ => rfl) (fun _ => rfl) (h.1.mono hle₁) ?_
    intro row other hother
    cases decision with
    | bind | cancelCandidate => cases hother
    | cancelRequest id =>
      obtain rfl := Option.mem_some.mp hother
      exact (hdecision id (.inl rfl)).mono hle₁
  refine learns_first_bind (learns_first_of_writes (writes_insertAliases input.aliases) _)
    fun _ known₃ hle₃ _ => ?_
  refine learns_first_bind learns_deleteEnvelope fun _ known₄ hle₄ _ => ?_
  have hle := hle₁.trans (hle₂.trans (hle₃.trans hle₄))
  refine learns_first_bind (learns_recordCandidate (h.2.mono hle) fun id hid =>
    (hdecision id hid).mono hle) fun _ known₅ hle₅ _ => ?_
  exact learns_first_bind (learns_appendAuditEvent (h.mono (hle.trans hle₅))) fun _ _ _ _ => trivial

theorem decisionInScope_of_candidates {row : RequestRow} {candidates : List (String × RequestRow)}
    (h : ∀ candidate ∈ candidates, InScope known candidate.1 input.tenantId input.environmentId) :
    DecisionInScope known input (decideBinding rt input row candidates.head?) := by
  intro id hid
  unfold decideBinding at hid
  split at hid
  · rcases hid with hid | hid <;> cases hid
  · next candidateId candidate hhead =>
    have hcandidate := h _ (List.mem_of_head? hhead)
    split_ifs at hid
    · obtain hid | hid := hid
      · obtain rfl := Decision.cancelRequest.inj hid
        exact hcandidate
      · cases hid
    · obtain hid | hid := hid
      · cases hid
      · obtain rfl := Decision.cancelCandidate.inj hid
        exact hcandidate

theorem learns_bindLocked : Learns (bindLocked rt input) (fun _ _ => True) known := by
  unfold bindLocked
  refine learns_first_bind learns_findRequestForUpdate fun found known₁ _ hfound => ?_
  cases found with
  | none => trivial
  | some row =>
    have h := hfound nofun
    dsimp only
    split
    · split
      · exact learns_first_bind learns_deleteEnvelope fun _ _ _ _ => learns_orFail _
      · trivial
    · refine learns_first_bind (learns_first_of_writes writes_checkBinding _)
        fun _ known₂ hle₂ _ => ?_
      refine learns_first_bind learns_duplicateCandidates fun candidates known₃ hle₃ hcandidates => ?_
      exact learns_applyDecision (h.mono (hle₂.trans hle₃))
        (decisionInScope_of_candidates hcandidates)

theorem learns_bindSubjectInTransaction :
    Learns (bindSubjectInTransaction rt input) (fun _ _ => True) known := by
  unfold bindSubjectInTransaction
  refine learns_first_bind (P := fun _ _ => True) (learns_read fun _ _ _ => trivial)
    fun initial known₁ _ _ => ?_
  cases initial with
  | none => trivial
  | some initial =>
    dsimp only
    split
    · exact learns_first_bind learns_deleteEnvelope fun _ _ _ _ => learns_orFail _
    · refine learns_first_bind (P := fun _ _ => True) ?_ fun _ _ _ _ => learns_bindLocked
      refine learns_first_of_writes ((Script.writes_update _ _).mpr fun r b v htaken => ?_) _
      cases htaken
      exact RowRules.Keeps.refl _

end Bindings

/-! ## Envelopes, pairing tokens and pairings -/

section Pairings

open Pairing SubjectEnvelopes

variable {known : TenantFacts} {token : TokenRow}

theorem learns_lockRecipients {input : StoreSubjectEnvelopeInput} :
    Learns (lockRecipients input) (fun rows known => rows ≠ [] →
      FoundInScope known input.requestId input.tenantId input.environmentId) known := by
  unfold lockRecipients
  refine learns_first_bind (P := fun environments known =>
    ofTenant input.tenantId environments input.environmentId →
      Owned known input.tenantId input.environmentId) (learns_read ?_)
    fun environments known₁ _ hread => ?_
  · intro w _ _ hof
    obtain ⟨row, hrow, htenant⟩ := Option.map_eq_some_iff.mp hof
    rw [← htenant]
    exact owned_of_find hrow
  refine learns_first_bind (P := fun _ _ => True) (learns_read fun _ _ _ => trivial)
    fun ids known₂ hle₂ _ => ?_
  refine learns_first_bind (P := fun request known => request ≠ none →
    FoundInScope known input.requestId input.tenantId input.environmentId)
    (learns_lock lockRow_locks ?_ fun _ _ hrequest => absurd rfl hrequest)
    fun request known₃ hle₃ hrequest => ?_
  · intro known₃ r b hle₃ hk _ htaken _
    obtain ⟨rfl, ⟨htenant, henvironment, hof⟩, -⟩ := lockRow_eq_some.mp htaken
    rw [henvironment] at hof
    refine ⟨?_, (hread hof).mono (hle₂.trans hle₃)⟩
    rw [← htenant, ← henvironment]
    exact hk
  · cases request with
    | none => exact learns_pure fun hrows => absurd rfl hrows
    | some request =>
      refine learns_mono (learns_onRows (P := fun _ _ => True) (fun _ _ _ _ => id)
        (fun id known => ?_) ids) fun _ _ hle _ _ => (hrequest nofun).mono hle
      exact learns_lock lockRow_locks (fun _ _ _ _ _ _ _ _ _ => trivial) fun _ _ _ _ => trivial

theorem learns_storeEnvelope {input : StoreSubjectEnvelopeInput} :
    Learns (storeEnvelope input) (fun _ _ => True) known := by
  unfold storeEnvelope
  refine learns_first_bind learns_lockRecipients fun rows known₁ _ hrows => ?_
  cases rows with
  | nil => trivial
  | cons recipient rows =>
    have h := hrows (List.cons_ne_nil _ _)
    refine learns_first_bind (P := fun _ _ => True) (learns_first_failIf fun _ => trivial)
      fun _ known₂ hle₂ _ => ?_
    refine learns_first_bind (P := fun _ _ => True)
      (learns_update ?_ fun _ _ _ _ _ _ => trivial) fun _ _ _ _ => trivial
    intro known₃ r b v hle₃ _ _ htaken
    cases htaken
    refine ⟨nofun, fun known₄ hle₄ _ => ⟨fun row hrow => ?_, trivial⟩⟩
    obtain rfl := Option.some.inj hrow
    have h' := h.mono (hle₂.trans (hle₃.trans hle₄))
    exact ⟨h'.2, h'.1⟩

theorem writes_issueToken (input : PersistPairingTokenInput) :
    (issueToken input).Writes KeepsRow := by
  unfold issueToken
  refine (Script.writes_read _).bind fun _ => ?_
  refine (Script.writes_failIf _ _).bind fun _ => ?_
  refine Script.Writes.bind ?_ fun _ => Script.writes_failIf _ _
  exact (Script.writes_update _ _).mpr fun r _ v _ => keeps_token r v

theorem writes_lockToken {input : ConsumeAndPairInput} {bootstrap : String × TokenRow} :
    (Pairing.lockToken input bootstrap).Writes KeepsRow := by
  unfold Pairing.lockToken
  refine (writes_lock lockRow_locks).bind fun token => ?_
  cases token with
  | none => trivial
  | some token =>
    refine (Script.writes_failIf _ _).bind fun _ => ?_
    exact (Script.writes_failIf _ _).bind fun _ => Script.writes_pure _

theorem writes_lockEnvironment {input : ConsumeAndPairInput} :
    (Pairing.lockEnvironment input token).Writes KeepsRow := by
  unfold Pairing.lockEnvironment
  refine (writes_lock lockRow_locks).bind fun environment => ?_
  cases environment with
  | none => trivial
  | some environment => exact Script.writes_failIf _ _

theorem writes_activeAgents (environmentId : String) :
    (activeAgents environmentId).Writes KeepsRow :=
  (Script.writes_read _).bind fun ids => writes_onRows _ (fun _ => writes_lock lockRow_locks) ids

theorem writes_unconsumedEnvelopes : (unconsumedEnvelopes token).Writes KeepsRow :=
  (Script.writes_read _).bind fun ids => writes_onRows _ (fun _ => writes_lock lockRow_locks) ids

theorem writes_openAttempts : (openAttempts token).Writes KeepsRow :=
  (Script.writes_read _).bind fun ids => writes_onRows _ (fun _ => writes_lock lockRow_locks) ids

theorem writes_reviewRequests (affectedRequestIds : List String) :
    (reviewRequests token affectedRequestIds).Writes KeepsRow := by
  refine (Script.writes_read _).bind fun ids => ?_
  refine (writes_onRows _ (fun id => ?_) ids).bind fun _ => Script.writes_pure _
  refine (Script.writes_update _ _).mpr fun r b v htaken => ?_
  obtain ⟨rfl, -, rfl⟩ := whenRow_eq_some.mp htaken
  exact keeps_request rfl rfl rfl

theorem writes_reviewAttempts (affectedRequestIds : List String) (now : Timestamp) :
    (reviewAttempts token affectedRequestIds now).Writes KeepsRow := by
  refine (Script.writes_read _).bind fun ids => ?_
  refine (writes_onRows _ (fun id => ?_) ids).bind fun _ => Script.writes_pure _
  refine (Script.writes_update _ _).mpr fun r b v htaken => ?_
  obtain ⟨rfl, -, rfl⟩ := whenRow_eq_some.mp htaken
  exact keeps_attempt rfl rfl rfl

theorem writes_reviewWork (affectedRequestIds : List String) (now : Timestamp) :
    (reviewWork token affectedRequestIds now).Writes KeepsRow := by
  unfold reviewWork
  split
  · trivial
  · exact (writes_reviewRequests _).bind fun _ => writes_reviewAttempts _ _

theorem writes_deleteEnvelopes : (deleteEnvelopes token).Writes KeepsRow := by
  refine (Script.writes_read _).bind fun ids => ?_
  refine (writes_onRows _ (fun id => ?_) ids).bind fun _ => Script.writes_pure _
  refine (Script.writes_update _ _).mpr fun r b v htaken => ?_
  unfold deleteRow at htaken
  split at htaken
  · split_ifs at htaken
    cases htaken
    exact keeps_noEnvelope _
  · cases htaken

theorem writes_insertAgent {input : ConsumeAndPairInput} (tokenId : String) :
    (insertAgent input tokenId token).Writes KeepsRow := by
  unfold insertAgent
  refine Script.Writes.bind ((Script.writes_update _ _).mpr fun r b v htaken => ?_) fun _ => ?_
  · obtain ⟨rfl, rfl⟩ := whenAbsent_eq_some.mp htaken
    exact keeps_newAgent _
  refine (Script.writes_failIf _ _).bind fun _ => ?_
  refine Script.Writes.bind ((Script.writes_update _ _).mpr fun r _ v _ => keeps_token r v)
    fun _ => ?_
  exact (Script.writes_failIf _ _).bind fun _ => Script.writes_pure _

end Pairings

end ForgetOps.Api.Tenants
