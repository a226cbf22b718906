import ForgetOps.Api.SubjectBinding
import ForgetOps.Database.AuditAppend

/-
  What a committed `bindSubject` has done.

  Up to the decision it only locks rows, so that the rows it decided on are those of the commit
  (`Locks`). From there it writes the request and, at most, one duplicate of it, and records one
  event for each of them (`Decided`). A request that is bound already is left alone.
-/

namespace ForgetOps.Api.SubjectBinding

open Domain Database
open ReadCommitted RowStore

variable {R : List Key → World → World → Prop} {w : World} {p p' : Point World Row}
  {rt : Runtime} {input : BindSubjectRequest}

/-! ## Up to the decision -/

theorem leads_findRequestForUpdate {tenantId environmentId requestId : String}
    {row : RequestAndEnvironment} (hR : Rely R) (hp : Locks w p.log)
    (h : Leads R w (findRequestForUpdate tenantId environmentId requestId) p (some row) p') :
    Locks w p'.log ∧ w.requests.find requestId = some row.request ∧
      inScope tenantId environmentId row.request ∧ .request requestId ∈ keys p'.log := by
  obtain ⟨request, mid, hrequest, h⟩ := leads_bind hR h
  obtain ⟨hmid, hfound⟩ := leads_lock hR hp lockRow_locks hrequest
  cases request with
  | none =>
    obtain ⟨hnone, -⟩ := leads_pure hR h
    cases hnone
  | some request =>
    rcases hfound with ⟨_, hsome, htake, hkey⟩ | ⟨hnone, -⟩
    swap
    · cases hnone
    obtain rfl := Option.some.inj hsome
    obtain ⟨environment, mid', henvironment, h⟩ := leads_bind hR h
    obtain ⟨hmid', -⟩ := leads_lock hR hmid lockRow_locks henvironment
    obtain ⟨hrow, hlog⟩ := leads_pure hR h
    obtain ⟨hrequest, hscope, -⟩ := lockRow_eq_some.mp htake
    obtain ⟨environment, -, rfl⟩ := Option.map_eq_some_iff.mp hrow
    rw [hlog]
    exact ⟨hmid', hrequest, hscope, henvironment.keys_subset hkey⟩

/-- The transaction holds the envelope of its request. -/
def HoldsEnvelope (input : BindSubjectRequest) (w : World) (log : Log Row) : Prop :=
  .envelope input.requestId ∈ keys log ∧
    ∃ envelope, w.envelopes.find input.requestId = some envelope ∧
      envelope.tenantId = input.tenantId

theorem leads_checkBinding {row : RequestAndEnvironment} {a : Unit} (hR : Rely R)
    (hp : Locks w p.log) (h : Leads R w (checkBinding input row) p a p') :
    Locks w p'.log ∧ row.request.version = input.expectedVersion ∧
      cancellableDuplicateStatus row.request.status = true ∧ HoldsEnvelope input w p'.log := by
  obtain ⟨_, p₁, hversion, h⟩ := leads_bind hR h
  obtain ⟨_, p₂, hstatus, h⟩ := leads_bind hR h
  obtain ⟨_, p₃, hunbound, h⟩ := leads_bind hR h
  obtain ⟨_, p₄, hkeys, h⟩ := leads_bind hR h
  obtain ⟨agent, p₅, hagent, h⟩ := leads_bind hR h
  obtain ⟨hversion, hlog₁⟩ := leads_failIf hR hversion
  obtain ⟨hstatus, hlog₂⟩ := leads_failIf hR hstatus
  obtain ⟨-, hlog₃⟩ := leads_failIf hR hunbound
  obtain ⟨-, hlog₄⟩ := leads_failIf hR hkeys
  have hp₄ : Locks w p₄.log := by rwa [hlog₄, hlog₃, hlog₂, hlog₁]
  obtain ⟨hp₅, -⟩ := leads_lock hR hp₄ lockRow_locks hagent
  cases agent with
  | none => exact (leads_fail h).elim
  | some agent =>
    obtain ⟨envelope, p₆, henvelope, h⟩ := leads_bind hR h
    obtain ⟨hp₆, htaken⟩ := leads_lock hR hp₅ lockRow_locks henvelope
    cases envelope with
    | none => exact (leads_fail h).elim
    | some envelope =>
      obtain ⟨_, p₇, hexpired, h⟩ := leads_bind hR h
      obtain ⟨-, hlog₇⟩ := leads_failIf hR hexpired
      obtain ⟨-, hlog₈⟩ := leads_failIf hR h
      rw [hlog₈, hlog₇]
      refine ⟨hp₆, by simpa using hversion, by simpa using hstatus, ?_⟩
      rcases htaken with ⟨_, -, htake, hkey⟩ | ⟨hnone, -⟩
      · obtain ⟨hfound, hscope, -⟩ := lockRow_eq_some.mp htake
        exact ⟨hkey, _, hfound, hscope.1⟩
      · cases hnone

theorem mem_candidateIds {type : PrivacyRequestType} {id : String} :
    id ∈ candidateIds input type w ↔
      ∃ row, w.requests.find id = some row ∧ isCandidate input type row ∧ id ≠ input.requestId := by
  simp only [candidateIds, List.mem_map, List.mem_mergeSort, List.mem_filter, decide_eq_true_eq,
    Prod.exists, exists_and_right, exists_eq_right, Table.mem_entries_iff]

/-- The duplicates found: candidates at the commit, and all that were candidates on the way and
    stayed so. -/
structure Candidates (R : List Key → World → World → Prop) (held : List Key)
    (input : BindSubjectRequest) (type : PrivacyRequestType) (w : World)
    (candidates : List (String × RequestRow)) : Prop where
  valid : ∀ e ∈ candidates, w.requests.find e.1 = some e.2 ∧ isCandidate input type e.2 ∧
    e.1 ≠ input.requestId
  overridden : input.duplicateOverride.isSome = true → candidates = []
  complete : input.duplicateOverride.isSome = false → ∃ u, R held u w ∧
    (candidates.map Prod.fst).Sublist (candidateIds input type u) ∧
    ∀ id ∈ candidateIds input type u, id ∈ candidates.map Prod.fst ∨
      ∃ u', R held u' w ∧ ∀ row, u'.requests.find id = some row → ¬ isCandidate input type row

theorem leads_duplicateCandidates {type : PrivacyRequestType}
    {candidates : List (String × RequestRow)} (hR : Rely R) (hp : Locks w p.log)
    (h : Leads R w (duplicateCandidates input type) p candidates p') :
    Locks w p'.log ∧ Candidates R (keys p.log) input type w candidates ∧
      ∀ e ∈ candidates, .request e.1 ∈ keys p'.log := by
  unfold duplicateCandidates at h
  split at h
  · next hoverride =>
    obtain ⟨rfl, hlog⟩ := leads_pure hR h
    rw [hlog]
    exact ⟨hp, ⟨by simp, fun _ => rfl, by simp [hoverride]⟩, by simp⟩
  · next hoverride =>
    obtain ⟨ids, mid, hread, h⟩ := leads_bind hR h
    obtain ⟨hlog, u, rfl, -, huw⟩ := leads_read hR hread
    rw [(hp.at hR huw).view_eq] at h
    have hmid : Locks w mid.log := by rwa [hlog]
    obtain ⟨hlocks, hsub, htaken, hskipped⟩ :=
      leads_onRows_lock hR hmid (fun _ => lockRow_locks) h
    refine ⟨hlocks, ⟨?_, by simp [hoverride], ?_⟩, fun e he => (htaken e he).2⟩
    · intro e he
      obtain ⟨hrow, hcandidate, -⟩ := lockRow_eq_some.mp (htaken e he).1
      obtain ⟨-, -, -, hne⟩ := mem_candidateIds.mp (hsub.subset (List.mem_map_of_mem he))
      exact ⟨hrow, hcandidate, hne⟩
    · intro _
      refine ⟨u, huw, hsub, fun id hid => (hskipped id hid).imp_right ?_⟩
      rintro ⟨u', hu', -, hu'w⟩
      rw [hlog] at hu'w
      exact ⟨u', hu'w, lockRow_eq_none.mp hu'⟩

/-! ## From the decision on -/

/-- The duplicate that is cancelled besides. -/
def Decision.cancelled : Decision → Option String
  | .cancelCandidate id => some id
  | _ => none

def cancelledRow (input : BindSubjectRequest) (row : RequestRow) : RequestRow :=
  { row with
    status := .cancelled
    duplicateOfRequestId := some input.requestId
    completedAt := some input.now
    version := row.version + 1 }

/-- The table of requests once the decision is written. -/
def decidedRequests (input : BindSubjectRequest) (decision : Decision) (row : RequestRow)
    (requests : Table String RequestRow) : Table String RequestRow :=
  (match decision.cancelled with
    | some id => requests.set id ((requests.find id).map (cancelledRow input))
    | none => requests).set input.requestId (some (boundRow input decision row))

theorem leads_deleteEnvelope {a : Unit}
    (h : Leads R w (deleteEnvelope input) p a p') :
    SameRecords (view w p.log) (view w p'.log) := by
  have htouch : (deleteEnvelope input).Touches fun k => k.isRecord = false :=
    Script.Writes.bind (by simp [Key.isRecord]) fun _ => Script.writes_pure _
  obtain ⟨more, hlog, hmore⟩ := h.1.log_eq htouch
  rw [hlog, view_append]
  exact sameRecords_view hmore

/-- The envelope that the transaction holds is deleted. -/
theorem leads_deleteEnvelope_held {envelope : EnvelopeRow} {a : Unit} (hR : Rely R)
    (hkey : .envelope input.requestId ∈ keys p.log)
    (hrow : (view w p.log).envelopes.find input.requestId = some envelope)
    (htenant : envelope.tenantId = input.tenantId)
    (h : Leads R w (deleteEnvelope input) p a p') :
    (view w p'.log).envelopes.find input.requestId = none := by
  obtain ⟨_, mid, hdelete, h⟩ := leads_bind hR h
  obtain ⟨-, hlog⟩ := leads_pure hR h
  change row (view w p.log) (.envelope input.requestId) = some envelope at hrow
  show row (view w p'.log) (.envelope input.requestId) = none
  rcases leads_update_held hR hkey hdelete with ⟨_, v, -, hq, hmid⟩ | ⟨-, -, hq⟩
  · rw [hrow, deleteRow, if_pos htenant] at hq
    obtain ⟨-, rfl⟩ := Prod.mk.inj (Option.some.inj hq)
    rw [hlog, hmid, view_concat, row_write_self]
  · rw [hrow, deleteRow, if_pos htenant] at hq
    cases hq

theorem leads_insertAliases {aliases : List SubjectAliasBinding} {a : Unit}
    (h : Leads R w (insertAliases input aliases) p a p') :
    SameRecords (view w p.log) (view w p'.log) := by
  have htouch : (insertAliases input aliases).Touches fun k => k.isRecord = false := by
    clear h
    induction aliases with
    | nil => trivial
    | cons a aliases ih => exact Script.Writes.bind (by simp [Key.isRecord]) fun _ => ih
  obtain ⟨more, hlog, hmore⟩ := h.1.log_eq htouch
  rw [hlog, view_append]
  exact sameRecords_view hmore

theorem leads_appendAuditEvent {audit : AuditInput} {a : Unit} (hR : Rely R)
    (h : Leads R w (appendAuditEvent rt audit) p a p') :
    ∃ event, event.requestId = some audit.requestId ∧
      Appends rt [event] (view w p.log) (view w p'.log) := by
  obtain ⟨head, mid, hlock, h⟩ := leads_bind hR h
  obtain ⟨hview, hhead, hheld⟩ := leads_lockChainHead hR hlock
  obtain ⟨hash, mid', hhash, hrecord⟩ := leads_bind hR h
  obtain ⟨hhash, hlog⟩ := leads_orFail hR hhash
  rw [← hlog] at hview hhead hheld
  obtain ⟨haudit, houtbox, hview'⟩ := leads_recordEvent hR hhead hheld hrecord
  have happ := Appends.append rfl hhead rfl (chainHash_ok_iff.mp hhash) haudit houtbox .nil
  rw [← hview', hview] at happ
  exact ⟨_, rfl, .lock audit.tenantId audit.environmentId happ⟩

theorem leads_recordCandidate {decision : Decision} {a : Unit} (hR : Rely R)
    (h : Leads R w (recordCandidate rt input decision) p a p') :
    ∃ events, events.map (·.requestId) = decision.cancelled.toList.map some ∧
      Appends rt events (view w p.log) (view w p'.log) := by
  cases decision with
  | bind | cancelRequest _ =>
    obtain ⟨-, hlog⟩ := leads_pure hR h
    rw [hlog]
    exact ⟨[], rfl, .nil⟩
  | cancelCandidate id =>
    obtain ⟨event, hid, happ⟩ := leads_appendAuditEvent hR h
    exact ⟨[event], by simp [hid, Decision.cancelled, candidateEvent], happ⟩

theorem leads_cancelDuplicate {id : String} {row : RequestRow} {a : Unit} (hR : Rely R)
    (hrow : (view w p.log).requests.find id = some row) (hheld : .request id ∈ keys p.log)
    (htenant : row.tenantId = input.tenantId) (hopen : ¬ finished row.status)
    (h : Leads R w (cancelDuplicate input id input.requestId) p a p') :
    p'.log = p.log ++ [⟨.request id, some (cancelledRow input row)⟩] := by
  obtain ⟨_, mid, hupdate, h⟩ := leads_bind hR h
  obtain ⟨-, hlog⟩ := leads_pure hR h
  rcases leads_update_held hR hheld hupdate with ⟨_, v, -, hq, hmid⟩ | ⟨-, -, hnone⟩
  · obtain ⟨hfound, -, rfl⟩ := whenRow_eq_some.mp hq
    obtain rfl := Option.some.inj (hrow.symm.trans hfound)
    rw [hlog, hmid]
    rfl
  · exact absurd ⟨htenant, hopen⟩ (whenRow_eq_none.mp hnone row hrow)

/-- What a binding that went through to the decision has done. -/
structure Decided (rt : Runtime) (input : BindSubjectRequest) (row : RequestRow)
    (decision : Decision) (w w' : World) : Prop where
  written : ∃ W events, W.requests = decidedRequests input decision row w.requests ∧
    W.attempts = w.attempts ∧ W.auditEvents = w.auditEvents ∧
    W.outboxEvents = w.outboxEvents ∧ W.chainHeads = w.chainHeads ∧
    events.map (·.requestId) = (decision.cancelled.toList ++ [input.requestId]).map some ∧
    Appends rt events W w'

theorem leads_applyDecision {decision : Decision} {row : RequestRow}
    {a : SubjectBindingResult} (hR : Rely R) (hp : Locks w p.log)
    (hrow : w.requests.find input.requestId = some row)
    (htenant : row.tenantId = input.tenantId) (hversion : row.version = input.expectedVersion)
    (hheld : .request input.requestId ∈ keys p.log)
    (hcancelled : ∀ id, decision.cancelled = some id → id ≠ input.requestId ∧
      .request id ∈ keys p.log ∧ ∃ candidate, w.requests.find id = some candidate ∧
        candidate.tenantId = input.tenantId ∧ ¬ finished candidate.status)
    (h : Leads R w (applyDecision rt input decision) p a p') :
    Decided rt input row decision w (view w p'.log) := by
  obtain ⟨_, p₁, hcancel, h⟩ := leads_bind hR h
  obtain ⟨_, p₂, hbind, h⟩ := leads_bind hR h
  obtain ⟨_, p₃, haliases, h⟩ := leads_bind hR h
  obtain ⟨_, p₄, henvelope, h⟩ := leads_bind hR h
  obtain ⟨_, p₅, hcandidate, h⟩ := leads_bind hR h
  obtain ⟨_, p₆, hrequest, h⟩ := leads_bind hR h
  obtain ⟨-, hlog₆⟩ := leads_pure hR h
  have haliases := leads_insertAliases haliases
  have henvelope := leads_deleteEnvelope henvelope
  obtain ⟨events, hevents, happ⟩ := leads_recordCandidate hR hcandidate
  obtain ⟨event, hevent, happ'⟩ := leads_appendAuditEvent hR hrequest
  -- the duplicate, if there is one to cancel
  have hp₁ : p₁.log = p.log ++ (decision.cancelled.bind fun id =>
      (w.requests.find id).map fun candidate =>
        (⟨.request id, some (cancelledRow input candidate)⟩ : Σ k, Row k)).toList := by
    cases decision with
    | bind | cancelRequest _ =>
      obtain ⟨-, hlog⟩ := leads_pure hR hcancel
      simpa [Decision.cancelled] using hlog
    | cancelCandidate id =>
      obtain ⟨-, hkey, candidate, hfound, hctenant, hopen⟩ := hcancelled id rfl
      rw [leads_cancelDuplicate hR (by rw [hp.view_eq]; exact hfound) hkey hctenant hopen hcancel]
      simp [Decision.cancelled, hfound]
  -- the request itself, which is still as it was locked
  have hrow₁ : (view w p₁.log).requests.find input.requestId = some row := by
    show RowStore.row (view w p₁.log) (Key.request input.requestId) = some row
    rw [hp₁, view_append, hp.view_eq, row_view_of_notMem]
    · exact hrow
    · cases hc : decision.cancelled with
      | none => simp [keys]
      | some id =>
        obtain ⟨hne, -, candidate, hfound, -⟩ := hcancelled id hc
        simp [keys, hfound, hne.symm]
  have hheld₁ : .request input.requestId ∈ keys p₁.log := hcancel.keys_subset hheld
  have hp₂ : view w p₂.log =
      write (view w p₁.log) (.request input.requestId) (some (boundRow input decision row)) := by
    rcases leads_update_held hR hheld₁ hbind with ⟨_, v, -, hq, hlog⟩ | ⟨-, -, hnone⟩
    · obtain ⟨hfound, -, rfl⟩ := whenRow_eq_some.mp hq
      obtain rfl := Option.some.inj (hrow₁.symm.trans hfound)
      rw [hlog, view_concat]
    · exact absurd ⟨htenant, hversion⟩ (whenRow_eq_none.mp hnone row hrow₁)
  have hview₁ : SameRecords { w with requests := (view w p₁.log).requests } (view w p₁.log) := by
    rw [hp₁, view_append, hp.view_eq]
    cases hc : decision.cancelled with
    | none => exact ⟨rfl, rfl, rfl, rfl, rfl, rfl, rfl⟩
    | some id =>
      obtain ⟨-, -, candidate, hfound, -⟩ := hcancelled id hc
      simp only [Option.bind_some, hfound, Option.map_some, Option.toList_some]
      exact ⟨rfl, rfl, rfl, rfl, rfl, rfl, rfl⟩
  have hrequests : (view w p₂.log).requests = decidedRequests input decision row w.requests := by
    rw [hp₂, hp₁, view_append, hp.view_eq, decidedRequests]
    cases hc : decision.cancelled with
    | none => rfl
    | some id =>
      obtain ⟨-, -, candidate, hfound, -⟩ := hcancelled id hc
      simp only [Option.bind_some, hfound, Option.map_some, Option.toList_some]
      rfl
  have hsame₂ : (view w p₂.log).attempts = w.attempts ∧
      (view w p₂.log).auditEvents = w.auditEvents ∧
      (view w p₂.log).outboxEvents = w.outboxEvents ∧
      (view w p₂.log).chainHeads = w.chainHeads := by
    rw [hp₂]
    exact ⟨hview₁.attempts, hview₁.auditEvents, hview₁.outboxEvents, hview₁.chainHeads⟩
  refine ⟨view w p₄.log, events ++ [event], ?_, ?_, ?_, ?_, ?_, ?_, ?_⟩
  · rw [henvelope.requests, haliases.requests, hrequests]
  · rw [henvelope.attempts, haliases.attempts, hsame₂.1]
  · rw [henvelope.auditEvents, haliases.auditEvents, hsame₂.2.1]
  · rw [henvelope.outboxEvents, haliases.outboxEvents, hsame₂.2.2.1]
  · rw [henvelope.chainHeads, haliases.chainHeads, hsame₂.2.2.2]
  · simp [hevents, hevent, requestEvent]
  · rw [hlog₆]
    exact happ.trans happ'

/-! ## The envelope -/

/-- A part of the script that leaves envelopes alone. -/
theorem envelopes_of_touches {α : Type} {s : Transaction α} {a : α}
    (hs : s.Touches fun k => ∀ id, k ≠ .envelope id) (h : Leads R w s p a p') :
    (view w p'.log).envelopes = (view w p.log).envelopes := by
  obtain ⟨more, hlog, hmore⟩ := h.1.log_eq hs
  rw [hlog, view_append]
  exact view_envelopes hmore

theorem touches_appendAuditEvent (audit : AuditInput) :
    (appendAuditEvent rt audit).Touches fun k => ∀ id, k ≠ .envelope id := by
  have horFail {α : Type} (x : Except String α) :
      (orFail x).Touches fun k => ∀ id, k ≠ .envelope id := by
    cases x <;> trivial
  refine Script.Writes.bind ?_ fun head => (horFail _).bind fun hash => ?_
  · refine (Script.touches_update (fun _ => nofun) _).bind fun _ =>
      (Script.touches_update (fun _ => nofun) _).bind fun head => ?_
    cases head <;> trivial
  · exact (Script.touches_update (fun _ => nofun) _).bind fun _ =>
      (Script.writes_failIf _ _).bind fun _ => (Script.touches_update (fun _ => nofun) _).bind
        fun _ => (Script.touches_update (fun _ => nofun) _).bind fun _ => Script.writes_failIf _ _

theorem touches_insertAliases (aliases : List SubjectAliasBinding) :
    (insertAliases input aliases).Touches fun k => ∀ id, k ≠ .envelope id := by
  induction aliases with
  | nil => trivial
  | cons a aliases ih => exact (Script.touches_update (fun _ => nofun) _).bind fun _ => ih

/-- The decision destroys the envelope. -/
theorem leads_applyDecision_envelope {decision : Decision} {a : SubjectBindingResult}
    (hR : Rely R) (hp : Locks w p.log) (hholds : HoldsEnvelope input w p.log)
    (h : Leads R w (applyDecision rt input decision) p a p') :
    (view w p'.log).envelopes.find input.requestId = none := by
  obtain ⟨_, p₁, hcancel, h⟩ := leads_bind hR h
  obtain ⟨_, p₂, hbind, h⟩ := leads_bind hR h
  obtain ⟨_, p₃, haliases, h⟩ := leads_bind hR h
  obtain ⟨_, p₄, hdelete, h⟩ := leads_bind hR h
  obtain ⟨_, p₅, hcandidate, h⟩ := leads_bind hR h
  obtain ⟨_, p₆, hrequest, h⟩ := leads_bind hR h
  obtain ⟨-, hlog₆⟩ := leads_pure hR h
  obtain ⟨hkey, envelope, hfound, htenant⟩ := hholds
  have hcancelled : (view w p₁.log).envelopes = (view w p.log).envelopes := by
    refine envelopes_of_touches ?_ hcancel
    cases decision with
    | bind | cancelRequest _ => trivial
    | cancelCandidate id =>
      exact (Script.touches_update (fun _ => nofun) _).bind fun _ => Script.writes_pure _
  have hbound := envelopes_of_touches (Script.touches_update (fun _ => nofun) _) hbind
  have haliased := envelopes_of_touches (touches_insertAliases _) haliases
  have hrecorded : (view w p₅.log).envelopes = (view w p₄.log).envelopes := by
    refine envelopes_of_touches ?_ hcandidate
    cases decision with
    | bind | cancelRequest _ => trivial
    | cancelCandidate id => exact touches_appendAuditEvent _
  have happended := envelopes_of_touches (touches_appendAuditEvent _) hrequest
  have hrow : (view w p₃.log).envelopes.find input.requestId = some envelope := by
    rw [haliased, hbound, hcancelled, hp.view_eq]
    exact hfound
  have hdeleted := leads_deleteEnvelope_held hR
    (haliases.keys_subset (hbind.keys_subset (hcancel.keys_subset hkey))) hrow htenant hdelete
  rw [hlog₆, happended, hrecorded]
  exact hdeleted

/-! ## The whole binding -/

theorem Candidates.mono {held held' : List Key} {type : PrivacyRequestType}
    {candidates : List (String × RequestRow)} (hR : Rely R) (hsub : held ⊆ held')
    (h : Candidates R held' input type w candidates) :
    Candidates R held input type w candidates where
  valid := h.valid
  overridden := h.overridden
  complete := by
    intro hoverride
    obtain ⟨u, huw, hids, hall⟩ := h.complete hoverride
    refine ⟨u, hR.mono hsub huw, hids, fun id hid => (hall id hid).imp_right ?_⟩
    rintro ⟨u', hu'w, hu'⟩
    exact ⟨u', hR.mono hsub hu'w, hu'⟩

theorem cancelled_decideBinding {row : RequestRow} {candidates : List (String × RequestRow)}
    {id : String} (h : (decideBinding rt input row candidates.head?).cancelled = some id) :
    ∃ candidate, (id, candidate) ∈ candidates ∧
      cancellableDuplicateStatus candidate.status = true := by
  cases candidates with
  | nil => cases h
  | cons e candidates =>
    simp only [decideBinding, List.head?_cons] at h
    split at h
    · cases h
    · next hnot =>
      rw [not_or, not_not] at hnot
      cases h
      exact ⟨e.2, List.mem_cons_self, hnot.2⟩

/-- What a committed binding found, and what it did. The request was found twice: as `initial` by
    the first read, and as `row` under the locks. -/
structure Bound (R : List Key → World → World → Prop) (rt : Runtime) (input : BindSubjectRequest)
    (u w : World) (log : Log Row) (initial row : RequestRow)
    (candidates : List (String × RequestRow)) : Prop where
  found : ∃ u₁, R [] u u₁ ∧ R [] u₁ w ∧ u₁.requests.find input.requestId = some initial
  stored : w.requests.find input.requestId = some row
  scope : inScope input.tenantId input.environmentId row
  version : row.version = input.expectedVersion
  status : cancellableDuplicateStatus row.status = true
  unbound : row.subjectHash = none
  locked : .advisory ⟨input.environmentId, input.subjectHash, initial.type⟩ ∈ keys log
  duplicates : Candidates R [.advisory ⟨input.environmentId, input.subjectHash, initial.type⟩] input
    row.type w candidates
  decided : Decided rt input row (decideBinding rt input row candidates.head?) w (view w log)

/-- The request was bound when the transaction looked at it, which leaves its records alone. -/
structure Rebound (R : List Key → World → World → Prop) (input : BindSubjectRequest)
    (w w' : World) : Prop where
  bound : ∃ u row, R [] u w ∧ u.requests.find input.requestId = some row ∧ row.subjectHash ≠ none
  records : SameRecords w w'

theorem leads_bindLocked {a : SubjectBindingResult} {initial : RequestRow} {u u₁ : World}
    (hR : Rely R) (hp : Locks w p.log) (huu : R [] u u₁) (huw : R [] u₁ w)
    (hinitial : u₁.requests.find input.requestId = some initial)
    (hlock : .advisory ⟨input.environmentId, input.subjectHash, initial.type⟩ ∈ keys p.log)
    (h : Leads R w (bindLocked rt input) p a p') :
    Rebound R input w (view w p'.log) ∨
      ∃ row candidates, Bound R rt input u w p'.log initial row candidates ∧
        (view w p'.log).envelopes.find input.requestId = none := by
  obtain ⟨found, p₁, hfind, h⟩ := leads_bind hR h
  cases found with
  | none => exact (leads_fail h).elim
  | some row =>
    obtain ⟨hp₁, hrow, hscope, hkey⟩ := leads_findRequestForUpdate hR hp hfind
    have hlock₁ := hfind.keys_subset hlock
    dsimp only at h
    split at h
    · split at h
      · next hsubject =>
        obtain ⟨_, p₂, henvelope, h⟩ := leads_bind hR h
        obtain ⟨-, hlog⟩ := leads_orFail hR h
        have hsame := leads_deleteEnvelope henvelope
        rw [hp₁.view_eq] at hsame
        rw [hlog]
        exact .inl ⟨⟨w, row.request, hR.refl _ _, hrow, by rw [hsubject.1]; simp⟩, hsame⟩
      · exact (leads_fail h).elim
    · next hunbound =>
      obtain ⟨_, p₂, hcheck, h⟩ := leads_bind hR h
      obtain ⟨candidates, p₃, hduplicates, h⟩ := leads_bind hR h
      obtain ⟨hp₂, hversion, hstatus, hkeys, hholds⟩ := leads_checkBinding hR hp₁ hcheck
      obtain ⟨hp₃, hcandidates, hheld⟩ := leads_duplicateCandidates hR hp₂ hduplicates
      have hlock₂ := hcheck.keys_subset hlock₁
      have hlock₄ := h.keys_subset (hduplicates.keys_subset hlock₂)
      have hdestroyed := leads_applyDecision_envelope hR hp₃
        ⟨hduplicates.keys_subset hkeys, hholds⟩ h
      rw [not_or, not_not] at hunbound
      refine .inr ⟨row.request, candidates, ⟨⟨u₁, huu, huw, hinitial⟩, hrow, hscope, hversion,
        hstatus, hunbound.1, hlock₄, hcandidates.mono hR (by simpa using hlock₂), ?_⟩, hdestroyed⟩
      refine leads_applyDecision hR hp₃ hrow hscope.1 hversion
        (hduplicates.keys_subset (hcheck.keys_subset hkey)) ?_ h
      intro id hid
      obtain ⟨candidate, hmem, -⟩ := cancelled_decideBinding hid
      obtain ⟨hfound, ⟨hinScope, -, -, -, hopen⟩, hne⟩ := hcandidates.valid _ hmem
      exact ⟨hne, hheld _ hmem, candidate, hfound, hinScope.1, hopen⟩

/-- What a committed binding has done, to the envelope too. -/
theorem bindSubject_outcome {u : World} {log : Log Row} {a : SubjectBindingResult} (hR : Rely R)
    (h : Completes R w (bindSubjectInTransaction rt input) ⟨u, []⟩ a ⟨w, log⟩) :
    Rebound R input w (view w log) ∨
      ∃ initial row candidates, Bound R rt input u w log initial row candidates ∧
        (view w log).envelopes.find input.requestId = none := by
  obtain ⟨initial, p₁, hfind, h⟩ := leads_bind hR (h.leads hR)
  obtain ⟨hlog₁, u₁, hinitial, huu, huw⟩ := leads_read hR hfind
  cases initial with
  | none => exact (leads_fail h).elim
  | some initial =>
    have hinitial' : u₁.requests.find input.requestId = some initial.request := by
      simp only [view_nil] at hinitial
      split at hinitial
      · split at hinitial
        · cases hinitial
          assumption
        · cases hinitial
      · cases hinitial
    dsimp only at h
    split at h
    · next hsubject =>
      obtain ⟨_, p₂, henvelope, h⟩ := leads_bind hR h
      obtain ⟨-, hlog⟩ := leads_orFail hR h
      have hsame := leads_deleteEnvelope henvelope
      rw [hlog₁, view_nil] at hsame
      rw [show log = p₂.log from hlog]
      exact .inl ⟨⟨u₁, initial.request, huw, hinitial', by rw [hsubject.1]; simp⟩, hsame⟩
    · obtain ⟨_, p₂, hadvisory, h⟩ := leads_bind hR h
      have hp₁ : Locks w p₁.log := hlog₁ ▸ locks_nil w
      obtain ⟨hp₂, htaken⟩ := leads_lock hR hp₁ (by simp) hadvisory
      have hlock : .advisory ⟨input.environmentId, input.subjectHash, initial.request.type⟩ ∈
          keys p₂.log := by
        rcases htaken with ⟨_, -, -, hkey⟩ | ⟨-, _, hnone, -⟩
        · exact hkey
        · cases hnone
      rcases leads_bindLocked hR hp₂ huu huw hinitial' hlock h with
        hsame | ⟨row, candidates, hb, hdestroyed⟩
      · exact .inl hsame
      · exact .inr ⟨initial.request, row, candidates, hb, hdestroyed⟩

/-- What a committed binding has done. -/
theorem bindSubject_effect {u : World} {log : Log Row} {a : SubjectBindingResult} (hR : Rely R)
    (h : Completes R w (bindSubjectInTransaction rt input) ⟨u, []⟩ a ⟨w, log⟩) :
    SameRecords w (view w log) ∨
      ∃ initial row candidates, Bound R rt input u w log initial row candidates := by
  rcases bindSubject_outcome hR h with hrebound | ⟨initial, row, candidates, hb, -⟩
  · exact .inl hrebound.records
  · exact .inr ⟨initial, row, candidates, hb⟩

end ForgetOps.Api.SubjectBinding
