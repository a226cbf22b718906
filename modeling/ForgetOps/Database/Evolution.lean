import ForgetOps.Database.System
import ForgetOps.Database.SaveEffect
import ForgetOps.Api.SubjectBindingEffect
import ForgetOps.Api.PairingEffect
import ForgetOps.Domain.Progress

/-
  What every transaction can count on while others run, whatever they are.

  Rows that are held stay as they are; requests are never deleted, and change only together with a
  higher version; no binding gets past an advisory lock; tokens keep their terms; and an aggregate
  in memory only ever moves on. `Evolves` holds between any two stores of a run, and is what the
  claims about interleavings rely on.
-/

namespace ForgetOps.Database

open Domain Api
open ReadCommitted RowStore

/-! ## Tokens and envelopes -/

/-- The terms of a pairing token. -/
def SameTerms (t t' : TokenRow) : Prop :=
  t'.tokenHash = t.tokenHash ∧ t'.tenantId = t.tenantId ∧ t'.environmentId = t.environmentId ∧
    t'.replacementMode = t.replacementMode

theorem SameTerms.trans {t t' t'' : TokenRow} (h : SameTerms t t') (h' : SameTerms t' t'') :
    SameTerms t t'' :=
  ⟨h'.1.trans h.1, h'.2.1.trans h.2.1, h'.2.2.1.trans h.2.2.1, h'.2.2.2.trans h.2.2.2⟩

/-- The three scripts only ever consume a token, and only ever delete an envelope. -/
def Kept : (k : Key) → Row k → Row k → Prop
  | .token _, r, v => ∀ t, r = some t → ∃ t', v = some t' ∧ SameTerms t t'
  | .envelope _, r, v => ∀ e, v = some e → r = some e
  | _, _, _ => True

theorem kept_refl (k : Key) (r : Row k) : Kept k r r := by
  cases k with
  | token => exact fun t ht => ⟨t, ht, rfl, rfl, rfl, rfl⟩
  | envelope => exact fun e he => he
  | _ => trivial

theorem kept_trans (k : Key) (r r' r'' : Row k) (h : Kept k r r') (h' : Kept k r' r'') :
    Kept k r r'' := by
  cases k with
  | token =>
    intro t ht
    obtain ⟨t', ht', hterms⟩ := h t ht
    obtain ⟨t'', ht'', hterms'⟩ := h' t' ht'
    exact ⟨t'', ht'', hterms.trans hterms'⟩
  | envelope => exact fun e he => h e (h' e he)
  | _ => trivial

section Writes

open Script (writes_pure writes_read writes_failIf)

/-- A lock changes nothing. -/
theorem writes_lock {α : Type} {k : Key} {q : Row k → Option (α × Row k)}
    (hq : ∀ r b v, q r = some (b, v) → v = r) : (Script.update k q : Transaction (Option α)).Writes Kept := by
  rw [Script.writes_update]
  intro r b v h
  rw [hq r b v h]
  exact kept_refl k r

/-- A row that may change in any way. -/
class Unkept (k : Key) : Prop where
  kept : ∀ r v, Kept k r v

instance (id : String) : Unkept (.request id) := ⟨fun _ _ => trivial⟩
instance (id : String) : Unkept (.attempt id) := ⟨fun _ _ => trivial⟩
instance (id : String) : Unkept (.auditEvent id) := ⟨fun _ _ => trivial⟩
instance (id : String) : Unkept (.outboxEvent id) := ⟨fun _ _ => trivial⟩
instance (environmentId : String) : Unkept (.chainHead environmentId) := ⟨fun _ _ => trivial⟩
instance (id : String) : Unkept (.environment id) := ⟨fun _ _ => trivial⟩
instance (id : String) : Unkept (.agent id) := ⟨fun _ _ => trivial⟩
instance (id : String) : Unkept (.job id) := ⟨fun _ _ => trivial⟩
instance (key : AliasKey) : Unkept (.alias key) := ⟨fun _ _ => trivial⟩
instance (lock : BindingLock) : Unkept (.advisory lock) := ⟨fun _ _ => trivial⟩

/-- A statement on any other row. -/
theorem writes_other {α : Type} {k : Key} [Unkept k] (q : Row k → Option (α × Row k)) :
    (Script.update k q : Transaction (Option α)).Writes Kept :=
  (Script.writes_update k q).mpr fun r _ v _ => Unkept.kept r v

theorem writes_deleteRow (requestId : String) (p : EnvelopeRow → Prop) [DecidablePred p] :
    (Script.update (.envelope requestId) (deleteRow p) : Transaction (Option Unit)).Writes Kept := by
  rw [Script.writes_update]
  intro r b v h e hv
  rw [hv] at h
  cases r with
  | none => cases h
  | some x => by_cases hx : p x <;> simp [deleteRow, hx] at h

theorem writes_orFail {α : Type} (x : Except String α) : (orFail x).Writes Kept := by
  cases x <;> trivial

theorem writes_lockChainHead (tenantId environmentId missing : String) :
    (lockChainHead tenantId environmentId missing).Writes Kept := by
  refine (writes_other _).bind fun _ =>
    (writes_other _).bind fun head => ?_
  cases head <;> trivial

theorem writes_recordEvent (event : AuditEventWithoutHashes Payload) (sequence : Nat)
    (requestId : String) (previousHash : Option String) (eventHash : String) :
    (recordEvent event sequence requestId previousHash eventHash).Writes Kept :=
  (writes_other _).bind fun _ => (writes_failIf _ _).bind fun _ =>
    (writes_other _).bind fun _ =>
      (writes_other _).bind fun _ => writes_failIf _ _

open PrivacyRequestRepository in
theorem writes_save (rt : Runtime) (input : SaveRequest) : (save rt input).Writes Kept := by
  have hattempts (attempts : List ExecutionAttempt) :
      (persistAttempts input.tenantId input.snapshot attempts).Writes Kept := by
    induction attempts with
    | nil => trivial
    | cons attempt attempts ih =>
      exact (writes_other _).bind fun _ => (writes_failIf _ _).bind fun _ => ih
  have hevents (i sequence : Nat) (previousHash : Option String) (events : List DomainEvent) :
      (persistEventsFrom rt input.tenantId input.snapshot input.stamps i sequence previousHash
        events).Writes Kept := by
    induction events generalizing i sequence previousHash with
    | nil => trivial
    | cons event events ih =>
      exact (writes_orFail _).bind fun _ => (writes_recordEvent _ _ _ _ _).bind fun _ => ih _ _ _
  refine (writes_failIf _ _).bind fun _ => Script.Writes.bind ?_ fun _ =>
    Script.Writes.bind ?_ fun _ => (writes_read _).bind fun attempts =>
      (hattempts attempts).bind fun _ => (writes_lockChainHead _ _ _).bind fun _ => hevents _ _ _ _
  · exact (writes_read _).bind fun _ => writes_failIf _ _
  · unfold persistSnapshot
    split <;> exact (writes_other _).bind fun _ => writes_failIf _ _

section BindSubject

open SubjectBinding

theorem writes_deleteEnvelope (input : BindSubjectRequest) : (deleteEnvelope input).Writes Kept :=
  (writes_deleteRow _ _).bind fun _ => writes_pure _

theorem writes_checkBinding (input : BindSubjectRequest) (row : RequestAndEnvironment) :
    (checkBinding input row).Writes Kept := by
  refine (writes_failIf _ _).bind fun _ => (writes_failIf _ _).bind fun _ =>
    (writes_failIf _ _).bind fun _ => (writes_failIf _ _).bind fun _ =>
      (writes_other _).bind fun agent => ?_
  cases agent with
  | none => trivial
  | some agent =>
    refine (writes_lock lockRow_locks).bind fun envelope => ?_
    cases envelope with
    | none => trivial
    | some envelope => exact (writes_failIf _ _).bind fun _ => writes_failIf _ _

theorem writes_cancelDuplicate (input : BindSubjectRequest) (id duplicateOf : String) :
    (cancelDuplicate input id duplicateOf).Writes Kept :=
  (writes_other _).bind fun _ => writes_pure _

theorem writes_appendAuditEvent (rt : Runtime) (audit : AuditInput) :
    (appendAuditEvent rt audit).Writes Kept :=
  (writes_lockChainHead _ _ _).bind fun _ => (writes_orFail _).bind fun _ =>
    writes_recordEvent _ _ _ _ _

theorem writes_applyDecision (rt : Runtime) (input : BindSubjectRequest) (decision : Decision) :
    (applyDecision rt input decision).Writes Kept := by
  have haliases (aliases : List SubjectAliasBinding) : (insertAliases input aliases).Writes Kept := by
    induction aliases with
    | nil => trivial
    | cons a aliases ih => exact (writes_other _).bind fun _ => ih
  refine Script.Writes.bind ?_ fun _ => (writes_other _).bind fun _ =>
    (haliases _).bind fun _ => (writes_deleteEnvelope _).bind fun _ => Script.Writes.bind ?_ fun _ =>
      (writes_appendAuditEvent _ _).bind fun _ => writes_pure _
  · cases decision <;> first | trivial | exact writes_cancelDuplicate _ _ _
  · cases decision <;> first | trivial | exact writes_appendAuditEvent _ _

theorem writes_duplicateCandidates (input : BindSubjectRequest) (type : PrivacyRequestType) :
    (duplicateCandidates input type).Writes Kept := by
  unfold duplicateCandidates
  split
  · trivial
  · exact (writes_read _).bind fun _ => writes_onRows _ (fun _ => writes_other _) _

theorem writes_bindLocked (rt : Runtime) (input : BindSubjectRequest) :
    (bindLocked rt input).Writes Kept := by
  refine Script.Writes.bind ?_ fun found => ?_
  · refine (writes_other _).bind fun request => ?_
    cases request with
    | none => trivial
    | some request => exact (writes_other _).bind fun _ => writes_pure _
  · cases found with
    | none => trivial
    | some row =>
      dsimp only
      split
      · split
        · exact (writes_deleteEnvelope _).bind fun _ => writes_orFail _
        · trivial
      · exact (writes_checkBinding _ _).bind fun _ => (writes_duplicateCandidates _ _).bind fun _ =>
          writes_applyDecision _ _ _

theorem writes_bindSubject (rt : Runtime) (input : BindSubjectRequest) :
    (bindSubjectInTransaction rt input).Writes Kept := by
  refine (writes_read _).bind fun initial => ?_
  cases initial with
  | none => trivial
  | some initial =>
    dsimp only
    split
    · exact (writes_deleteEnvelope _).bind fun _ => writes_orFail _
    · exact (writes_other _).bind fun _ => writes_bindLocked _ _

end BindSubject

section ConsumeAndPair

open Pairing

theorem writes_replaceWork (token : TokenRow) (now : Timestamp) :
    (replaceWork token now).Writes Kept := by
  refine Script.Writes.bind ?_ fun _ => Script.Writes.bind ?_ fun _ =>
    (writes_failIf _ _).bind fun _ => ?_
  · exact (writes_read _).bind fun _ => writes_onRows _ (fun _ => writes_lock lockRow_locks) _
  · exact (writes_read _).bind fun _ =>
      writes_onRows _ (fun _ => writes_other _) _
  · split
    swap
    · trivial
    refine Script.Writes.bind ?_ fun _ => Script.Writes.bind ?_ fun _ => ?_
    · unfold reviewWork
      split
      · trivial
      · exact (writes_onSelected _ fun _ => writes_other _).bind fun _ =>
          writes_onSelected _ fun _ => writes_other _
    · exact writes_onSelected _ fun _ => writes_deleteRow _ _
    · exact writes_onSelected _ fun _ => writes_other _

theorem writes_insertAgent (input : ConsumeAndPairInput) (tokenId : String) (token : TokenRow) :
    (insertAgent input tokenId token).Writes Kept := by
  refine (writes_other _).bind fun _ => (writes_failIf _ _).bind fun _ =>
    Script.Writes.bind ?_ fun _ => (writes_failIf _ _).bind fun _ => writes_pure _
  rw [Script.writes_update]
  intro r b v h t ht
  obtain ⟨rfl, -, rfl⟩ := whenRow_eq_some.mp h
  cases ht
  exact ⟨_, rfl, rfl, rfl, rfl, rfl⟩

theorem writes_consumeAndPair (input : ConsumeAndPairInput) :
    (consumeAndPair input).Writes Kept := by
  refine (writes_read _).bind fun bootstrap => ?_
  cases bootstrap with
  | none => trivial
  | some bootstrap =>
    refine Script.Writes.bind ?_ fun token => Script.Writes.bind ?_ fun _ =>
      Script.Writes.bind ?_ fun active => Script.Writes.bind ?_ fun _ => writes_insertAgent _ _ _
    · refine (writes_lock lockRow_locks).bind fun token => ?_
      cases token with
      | none => trivial
      | some token =>
        exact (writes_failIf _ _).bind fun _ => (writes_failIf _ _).bind fun _ => writes_pure _
    · refine (writes_other _).bind fun environment => ?_
      cases environment with
      | none => trivial
      | some environment => exact writes_failIf _ _
    · exact (writes_read _).bind fun _ =>
        writes_onRows _ (fun _ => writes_other _) _
    · cases active with
      | nil => trivial
      | cons agent active =>
        exact (writes_failIf _ _).bind fun _ => (writes_failIf _ _).bind fun _ =>
          (writes_replaceWork _ _).bind fun _ =>
            (writes_other _).bind fun _ => writes_pure _

end ConsumeAndPair

end Writes

/-! ## What can happen to a request -/

/-- A request that changes gets a higher version, and a subject is bound once. -/
structure RowEvolves (r r' : RequestRow) : Prop where
  tenantId : r'.tenantId = r.tenantId
  environmentId : r'.environmentId = r.environmentId
  type : r'.type = r.type
  createdAt : r'.createdAt = r.createdAt
  version : r.version ≤ r'.version
  same : r'.version = r.version → r' = r
  bound : r.subjectHash ≠ none →
    r'.subjectHash = r.subjectHash ∧ r'.duplicateOverride = r.duplicateOverride

theorem RowEvolves.refl (r : RequestRow) : RowEvolves r r :=
  ⟨rfl, rfl, rfl, rfl, le_refl _, fun _ => rfl, fun _ => ⟨rfl, rfl⟩⟩

theorem RowEvolves.trans {r r' r'' : RequestRow} (h : RowEvolves r r') (h' : RowEvolves r' r'') :
    RowEvolves r r'' where
  tenantId := h'.tenantId.trans h.tenantId
  environmentId := h'.environmentId.trans h.environmentId
  type := h'.type.trans h.type
  createdAt := h'.createdAt.trans h.createdAt
  version := h.version.trans h'.version
  same := by
    intro heq
    have hle := h.version
    have hle' := h'.version
    have hr' : r'.version = r.version := by omega
    rw [h'.same (by omega), h.same hr']
  bound := by
    intro hb
    obtain ⟨hhash, hoverride⟩ := h.bound hb
    obtain ⟨hhash', hoverride'⟩ := h'.bound (hhash ▸ hb)
    exact ⟨hhash'.trans hhash, hoverride'.trans hoverride⟩

/-- A row that is written over with a higher version. -/
theorem RowEvolves.of_lt {r r' : RequestRow} (htenant : r'.tenantId = r.tenantId)
    (henv : r'.environmentId = r.environmentId) (htype : r'.type = r.type)
    (hcreated : r'.createdAt = r.createdAt) (hlt : r.version < r'.version)
    (hbound : r.subjectHash ≠ none →
      r'.subjectHash = r.subjectHash ∧ r'.duplicateOverride = r.duplicateOverride) :
    RowEvolves r r' :=
  ⟨htenant, henv, htype, hcreated, hlt.le, fun heq => absurd heq hlt.ne', hbound⟩

/-- The row is bound to the subject and type of the lock. -/
def BoundUnder (lock : BindingLock) (r : RequestRow) : Prop :=
  r.environmentId = lock.environmentId ∧ r.subjectHash = some lock.subjectHash ∧
    r.type = lock.type

/-- Requests are never deleted, and change only as `RowEvolves` says. -/
def RequestsEvolve (requests requests' : Table String RequestRow) : Prop :=
  ∀ id r, requests.find id = some r → ∃ r', requests'.find id = some r' ∧ RowEvolves r r'

/-- Every request bound under the lock was so before. -/
def NoneBound (lock : BindingLock) (requests requests' : Table String RequestRow) : Prop :=
  ∀ id r', requests'.find id = some r' → BoundUnder lock r' →
    ∃ r, requests.find id = some r ∧ BoundUnder lock r

theorem RequestsEvolve.refl (t : Table String RequestRow) : RequestsEvolve t t :=
  fun _ r h => ⟨r, h, .refl r⟩

theorem RequestsEvolve.trans {t t' t'' : Table String RequestRow} (h : RequestsEvolve t t')
    (h' : RequestsEvolve t' t'') : RequestsEvolve t t'' := by
  intro id r hr
  obtain ⟨r', hr', hrr'⟩ := h id r hr
  obtain ⟨r'', hr'', hr'r''⟩ := h' id r' hr'
  exact ⟨r'', hr'', hrr'.trans hr'r''⟩

/-- One row is written. -/
theorem RequestsEvolve.set {t : Table String RequestRow} {id : String} {r' : RequestRow}
    (h : ∀ r, t.find id = some r → RowEvolves r r') : RequestsEvolve t (t.set id (some r')) := by
  intro id₁ r hr
  by_cases hid : id₁ = id
  · subst hid
    exact ⟨r', by simp, h r hr⟩
  · exact ⟨r, by simp [hid, hr], .refl r⟩

theorem NoneBound.set {lock : BindingLock} {t : Table String RequestRow} {id : String}
    {r' : RequestRow}
    (h : BoundUnder lock r' → ∃ r, t.find id = some r ∧ BoundUnder lock r) :
    NoneBound lock t (t.set id (some r')) := by
  intro id₁ r₁ hr₁ hlock
  by_cases hid : id₁ = id
  · subst hid
    obtain rfl : r' = r₁ := by simpa using hr₁
    exact h hlock
  · exact ⟨r₁, by simpa [hid] using hr₁, hlock⟩

theorem NoneBound.trans {lock : BindingLock} {t t' t'' : Table String RequestRow}
    (h : NoneBound lock t t') (h' : NoneBound lock t' t'') : NoneBound lock t t'' := by
  intro id r'' hr'' hlock
  obtain ⟨r', hr', hlock'⟩ := h' id r'' hr'' hlock
  exact h id r' hr' hlock'

/-! ## The relation -/

/-- How the store can have changed for a transaction that holds `held`. -/
structure Evolves (held : List Key) (w w' : World) : Prop where
  agree : ∀ k ∈ held, row w k = row w' k
  requests : RequestsEvolve w.requests w'.requests
  unbound : ∀ lock, .advisory lock ∈ held → NoneBound lock w.requests w'.requests
  tokens : ∀ id t, w.tokens.find id = some t → ∃ t', w'.tokens.find id = some t' ∧ SameTerms t t'
  aggregates : ∀ (i : Nat) a, w.aggregates[i]? = some a →
    ∃ a', w'.aggregates[i]? = some a' ∧ Progress a a'

theorem rely_evolves : Rely Evolves where
  refl held w := {
    agree := fun _ _ => rfl
    requests := .refl _
    unbound := fun _ _ _ r' hr' hlock => ⟨r', hr', hlock⟩
    tokens := fun _ t ht => ⟨t, ht, rfl, rfl, rfl, rfl⟩
    aggregates := fun _ a ha => ⟨a, ha, .refl a⟩ }
  trans h h' := {
    agree := fun k hk => (h.agree k hk).trans (h'.agree k hk)
    requests := h.requests.trans h'.requests
    unbound := fun lock hlock => (h.unbound lock hlock).trans (h'.unbound lock hlock)
    tokens := by
      intro id t ht
      obtain ⟨t', ht', hterms⟩ := h.tokens id t ht
      obtain ⟨t'', ht'', hterms'⟩ := h'.tokens id t' ht'
      exact ⟨t'', ht'', hterms.trans hterms'⟩
    aggregates := by
      intro i a ha
      obtain ⟨a', ha', hprogress⟩ := h.aggregates i a ha
      obtain ⟨a'', ha'', hprogress'⟩ := h'.aggregates i a' ha'
      exact ⟨a'', ha'', hprogress.trans hprogress'⟩ }
  mono hsub h := {
    h with
    agree := fun k hk => h.agree k (hsub hk)
    unbound := fun lock hlock => h.unbound lock (hsub hlock) }
  agree h hk := h.agree _ hk

/-! ## Every commit lets the others rely on it -/

section Commit

variable {R : List Key → World → World → Prop} {rt : Runtime} {u w : World} {log : Log Row}

theorem SameRecords.requestsEvolve {w' : World} (h : SameRecords w w') :
    RequestsEvolve w.requests w'.requests := by
  rw [h.requests]
  exact .refl _

theorem SameRecords.noneBound {w' : World} (h : SameRecords w w') (lock : BindingLock) :
    NoneBound lock w.requests w'.requests := by
  rw [h.requests]
  exact fun _ r' hr' hlock => ⟨r', hr', hlock⟩

open PrivacyRequestRepository in
theorem Persisted.rowEvolves {input : SaveRequest} {old : Option RequestRow} {row' : RequestRow}
    (hpending : 0 < input.pendingEvents.length)
    (hversion : (input.snapshot.version : Int) =
      input.expectedVersion + input.pendingEvents.length)
    (h : Persisted input.tenantId input.snapshot input.expectedVersion input.persistedAt old row')
    (r : RequestRow) (hr : old = some r) : RowEvolves r row' := by
  rcases h with ⟨-, hnone, -⟩ | ⟨-, row, hrow, -, -, hexpected, rfl⟩
  · rw [hnone] at hr
    cases hr
  · obtain rfl := Option.some.inj (hrow.symm.trans hr)
    refine .of_lt rfl rfl rfl rfl ?_ fun _ => ⟨rfl, rfl⟩
    show row.version < input.snapshot.version
    omega

open PrivacyRequestRepository in
theorem requests_save {input : SaveRequest} {a : Unit} (hR : Rely R)
    (h : Completes R w (save rt input) ⟨u, []⟩ a ⟨w, log⟩) :
    RequestsEvolve w.requests (view w log).requests ∧
      ∀ lock, NoneBound lock w.requests (view w log).requests := by
  obtain ⟨-, hpending, hversion, -⟩ := save_effect hR h
  obtain ⟨row', W, sequence, hpersisted, hrequests, -, -, -, happ⟩ := save_records hR h
  rw [happ.requests, hrequests]
  refine ⟨.set (Persisted.rowEvolves hpending hversion hpersisted), fun lock => .set ?_⟩
  rintro ⟨henv, hhash, htype⟩
  rcases hpersisted with ⟨-, -, rfl⟩ | ⟨-, row, hrow, -, -, -, rfl⟩
  · cases hhash
  · exact ⟨row, hrow, henv, hhash, htype⟩

open SubjectBinding in
/-- The two rows a binding writes. -/
theorem decidedRequests_cases {input : BindSubjectRequest} {row initial : RequestRow}
    {candidates : List (String × RequestRow)} (hb : Bound R rt input u w log initial row candidates)
    {Q : Table String RequestRow → Prop}
    (hbind : ∀ t decision, t.find input.requestId = some row → Q t →
      Q (t.set input.requestId (some (boundRow input decision row))))
    (hcancel : ∀ id candidate, w.requests.find id = some candidate →
      isCandidate input row.type candidate →
      Q (w.requests.set id (some (cancelledRow input candidate)))) (h : Q w.requests) :
    Q (view w log).requests := by
  obtain ⟨W, events, hrequests, -, -, -, -, -, happ⟩ := hb.decided.written
  rw [happ.requests, hrequests, decidedRequests]
  split
  · next id hid =>
    obtain ⟨candidate, hmem, -⟩ := cancelled_decideBinding hid
    obtain ⟨hfound, hcandidate, hne⟩ := hb.duplicates.valid _ hmem
    rw [hfound]
    refine hbind _ _ ?_ (hcancel id candidate hfound hcandidate)
    rw [Table.find_set_of_ne _ _ hne.symm]
    exact hb.stored
  · exact hbind _ _ hb.stored h

open SubjectBinding in
theorem requests_bindSubject {input : BindSubjectRequest} {a : SubjectBindingResult}
    (hR : Rely R) (hE : ∀ {held w w'}, R held w w' → Evolves held w w')
    (h : Completes R w (bindSubjectInTransaction rt input) ⟨u, []⟩ a ⟨w, log⟩) :
    RequestsEvolve w.requests (view w log).requests ∧
      ∀ lock, .advisory lock ∉ keys log → NoneBound lock w.requests (view w log).requests := by
  rcases bindSubject_effect hR h with hsame | ⟨initial, row, candidates, hb⟩
  · exact ⟨hsame.requestsEvolve, fun lock _ => hsame.noneBound lock⟩
  · constructor
    · refine decidedRequests_cases hb ?_ ?_ (.refl _)
      · intro t decision hrow ht
        refine ht.trans (.set fun r hr => ?_)
        obtain rfl := Option.some.inj (hrow.symm.trans hr)
        exact .of_lt rfl rfl rfl rfl (Nat.lt_succ_self _) fun hne => absurd hb.unbound hne
      · intro id candidate hfound _
        refine .set fun r hr => ?_
        obtain rfl := Option.some.inj (hfound.symm.trans hr)
        exact .of_lt rfl rfl rfl rfl (Nat.lt_succ_self _) fun _ => ⟨rfl, rfl⟩
    · intro lock hlock
      refine decidedRequests_cases hb ?_ ?_ fun _ r' hr' hr => ⟨r', hr', hr⟩
      · intro t decision hrow ht
        refine ht.trans (.set ?_)
        rintro ⟨henv, hhash, htype⟩
        -- the lock of the new binding is the one the transaction holds
        obtain ⟨u₁, -, hu₁, hinitial⟩ := hb.found
        obtain ⟨r', hr', hevolves⟩ := (hE hu₁).requests _ _ hinitial
        obtain rfl := Option.some.inj (hb.stored.symm.trans hr')
        have heq : lock = ⟨input.environmentId, input.subjectHash, initial.type⟩ := by
          obtain ⟨lockEnv, lockHash, lockType⟩ := lock
          simp only [boundRow, Option.some.injEq] at henv hhash htype
          rw [← henv, ← hhash, ← htype, hb.scope.2, hevolves.type]
        exact absurd (heq ▸ hb.locked) hlock
      · intro id candidate hfound _
        exact .set fun hbound => ⟨candidate, hfound, hbound⟩

open Pairing in
theorem requests_consumeAndPair {input : ConsumeAndPairInput} {a : AgentRow} (hR : Rely R)
    (h : Completes R w (consumeAndPair input) ⟨u, []⟩ a ⟨w, log⟩) :
    RequestsEvolve w.requests (view w log).requests ∧
      ∀ lock, NoneBound lock w.requests (view w log).requests := by
  rcases consumeAndPair_effect hR h with hsame | ⟨token, affected, p₀, p₁, p₂, hf⟩
  · exact ⟨hsame.requestsEvolve, hsame.noneBound⟩
  · rw [hf.after_requests]
    constructor
    · intro id r hr
      rcases hf.requests id with ⟨row, hrow, -, hafter, -⟩ | ⟨hafter, -⟩
      · obtain rfl := Option.some.inj (hrow.symm.trans hr)
        exact ⟨_, hafter, .of_lt rfl rfl rfl rfl (Nat.lt_succ_self _) fun _ => ⟨rfl, rfl⟩⟩
      · exact ⟨r, hafter.trans hr, .refl r⟩
    · intro lock id r' hr' hlock
      rcases hf.requests id with ⟨row, hrow, -, hafter, -⟩ | ⟨hafter, -⟩
      · obtain rfl := Option.some.inj (hafter.symm.trans hr')
        exact ⟨row, hrow, hlock⟩
      · exact ⟨r', hafter.symm.trans hr', hlock⟩

/-- A row written by other code. -/
theorem other_effect {write : OtherWrite} {a : Unit} (hR : Rely R)
    (h : Completes R w write.script ⟨u, []⟩ a ⟨w, log⟩) :
    SameRecords w (view w log) ∧ ∀ id t, w.tokens.find id = some t →
      ∃ t', (view w log).tokens.find id = some t' ∧ SameTerms t t' := by
  have hwrite (K : Key → Prop) {k : Key} (hk : K k) (v : Row k) : (writeRow k v).Touches K :=
    (Script.touches_update hk _).bind fun _ => Script.writes_pure _
  have hscope {K : Key → Prop} (requestId : String) (row : Option EnvelopeRow) :
      (validateEnvelopeScope requestId row).Touches K := by
    cases row with
    | none => trivial
    | some row => exact (Script.writes_read _).bind fun _ => Script.writes_failIf _ _
  have hrecords : write.script.Touches fun k => k.isRecord = false := by
    cases write with
    | envelope id row => exact (hscope _ _).bind fun _ => hwrite (fun k => k.isRecord = false) rfl _
    | token id row =>
      exact Script.Writes.bind (by simp [Key.isRecord]) fun _ => Script.writes_failIf _ _
    | environment | agent | job | «alias» => exact hwrite (fun k => k.isRecord = false) rfl _
  have hsame := Pairing.sameRecords_of_touches hrecords (h.leads hR)
  refine ⟨hsame, ?_⟩
  intro id t ht
  cases write with
  | token id' row =>
    obtain ⟨inserted, mid, hinsert, hcheck⟩ := leads_bind hR (h.leads hR)
    obtain ⟨-, hlog⟩ := leads_failIf hR hcheck
    obtain rfl : log = mid.log := hlog
    refine ⟨t, ?_, rfl, rfl, rfl, rfl⟩
    rcases leads_update hR hinsert with ⟨_, v, -, hq, hmid⟩ | ⟨-, hmid, -⟩
    · obtain ⟨habsent, rfl⟩ := whenAbsent_eq_some.mp hq
      have hne : id ≠ id' := by
        rintro rfl
        exact absurd (ht.symm.trans habsent) (by simp)
      rw [hmid]
      exact (Table.find_set_of_ne _ _ hne).trans ht
    · rw [hmid]
      exact ht
  | _ =>
    have htokens : (view w log).tokens = w.tokens := by
      obtain ⟨more, hlog, hmore⟩ := h.log_eq (K := fun k => ∀ id, k ≠ .token id) (by
        first
          | exact (hscope _ _).bind fun _ => hwrite _ (fun _ h => by cases h) _
          | exact hwrite _ (fun _ h => by cases h) _)
      obtain rfl : log = more := hlog
      exact view_tokens hmore
    exact ⟨t, by rw [htokens]; exact ht, rfl, rfl, rfl, rfl⟩

/-- What the writes of a commit have to be like for the others. -/
theorem evolves_view {held : List Key} (hfree : ∀ k ∈ held, k ∉ keys log)
    (hrequests : RequestsEvolve w.requests (view w log).requests)
    (hunbound : ∀ lock, .advisory lock ∉ keys log →
      NoneBound lock w.requests (view w log).requests)
    (htokens : ∀ id t, w.tokens.find id = some t →
      ∃ t', (view w log).tokens.find id = some t' ∧ SameTerms t t') :
    Evolves held w (view w log) where
  agree := fun k hk => (row_view_of_notMem (hfree k hk)).symm
  requests := hrequests
  unbound := fun lock hlock => hunbound lock (hfree _ hlock)
  tokens := htokens
  aggregates := by
    rw [view_aggregates]
    exact fun i a ha => ⟨a, ha, .refl a⟩

/-- What a transaction commits, others can count on. -/
theorem evolves_commit {request : TransactionRequest} {a : Unit} (hR : Rely R)
    (hE : ∀ {held w w'}, R held w w' → Evolves held w w')
    (h : Completes R w (request.script rt) ⟨u, []⟩ a ⟨w, log⟩) {held : List Key}
    (hfree : ∀ k ∈ held, k ∉ keys log) : Evolves held w (request.settle (view w log)) := by
  suffices hview : Evolves held w (view w log) by
    cases request with
    | save input =>
      exact ⟨hview.agree, hview.requests, hview.unbound, hview.tokens, hview.aggregates⟩
    | _ => exact hview
  have htokens (hw : (request.script rt).Writes Kept) (id : String) (t : TokenRow)
      (ht : w.tokens.find id = some t) :
      ∃ t', (view w log).tokens.find id = some t' ∧ SameTerms t t' :=
    h.writes kept_refl kept_trans hw (.token id) t ht
  have hreq : RequestsEvolve w.requests (view w log).requests ∧
      ∀ lock, .advisory lock ∉ keys log →
        NoneBound lock w.requests (view w log).requests := by
    cases request with
    | save input =>
      obtain ⟨hreq, hnone⟩ := requests_save hR h
      exact ⟨hreq, fun lock _ => hnone lock⟩
    | bindSubject input =>
      obtain ⟨b, hbind⟩ := completes_discard hR h
      exact requests_bindSubject hR hE hbind
    | consumeAndPair input =>
      obtain ⟨b, hpair⟩ := completes_discard hR h
      obtain ⟨hreq, hnone⟩ := requests_consumeAndPair hR hpair
      exact ⟨hreq, fun lock _ => hnone lock⟩
    | other write =>
      obtain ⟨hsame, -⟩ := other_effect hR h
      exact ⟨hsame.requestsEvolve, fun lock _ => hsame.noneBound lock⟩
  refine evolves_view hfree hreq.1 hreq.2 ?_
  cases request with
  | save input => exact htokens (writes_save rt input)
  | bindSubject input => exact htokens ((writes_bindSubject rt input).bind fun _ => Script.writes_pure _)
  | consumeAndPair input => exact htokens ((writes_consumeAndPair input).bind fun _ => Script.writes_pure _)
  | other write => exact (other_effect hR h).2

end Commit

/-! ## Forced replacements at their commit -/

/-- The request is one the replacement that `token` allows finds work for. -/
def HasWork (w : World) (token : TokenRow) (requestId : String) : Prop :=
  (∃ envelope, w.envelopes.find requestId = some envelope ∧ Pairing.isUnconsumed token envelope) ∨
    ∃ attemptId row, w.attempts.find attemptId = some row ∧ Pairing.isOpen token row ∧
      row.requestId = requestId

/-- The request is reviewed if the replacement that `token` allows is forced now. -/
def Reviewable (w : World) (token : TokenRow) (requestId : String) (row : RequestRow) : Prop :=
  token.replacementMode = .force ∧
    (∃ id agent, w.agents.find id = some agent ∧ Pairing.isActive token.environmentId agent) ∧
    w.requests.find requestId = some row ∧ row.tenantId = token.tenantId ∧
    ¬ finished row.status ∧ HasWork w token requestId

/-- The token is one the pairing presents. -/
def Presented (w : World) (input : ConsumeAndPairInput) (token : TokenRow) : Prop :=
  ∃ id, w.tokens.find id = some token ∧ token.tokenHash = input.tokenHash

section Forced

variable {R : List Key → World → World → Prop} {u w : World}

open Pairing in
/-- The token that a forced replacement found is one that is presented at the commit. -/
theorem presented_of_forced {input : ConsumeAndPairInput} {w' : World} {token : TokenRow}
    {affected : List String} {p₀ p₁ p₂ : Point World Row}
    (hE : ∀ {held w w'}, R held w w' → Evolves held w w')
    (h : Forced R input u w w' token affected p₀ p₁ p₂) : Presented w input token := by
  obtain ⟨id, bootstrap, u₁, -, hu₁, hbootstrap, hhash, htoken⟩ := h.found
  obtain ⟨t, ht, hterms⟩ := (hE hu₁).tokens id bootstrap hbootstrap
  obtain rfl := Option.some.inj (htoken.symm.trans ht)
  exact ⟨id, htoken, hterms.1.trans hhash⟩

open Pairing in
/-- Whatever a forced replacement reviewed was reviewable at the commit. -/
theorem reviewable_of_forced {input : ConsumeAndPairInput} {w' : World} {token : TokenRow}
    {affected : List String} {p₀ p₁ p₂ : Point World Row}
    (h : Forced R input u w w' token affected p₀ p₁ p₂) {id : String} {row : RequestRow}
    (hrow : w.requests.find id = some row) (haffected : isAffectedRequest token affected id row) :
    Reviewable w token id row := by
  obtain ⟨htenant, hmem, hopen⟩ := haffected
  refine ⟨h.mode, h.active, hrow, htenant, hopen, ?_⟩
  rcases h.work id hmem with ⟨envelope, henvelope, hunconsumed, -⟩ | ⟨attemptId, attempt, hattempt,
    hisOpen, hrequest, -⟩
  · exact .inl ⟨envelope, henvelope, hunconsumed⟩
  · exact .inr ⟨attemptId, attempt, hattempt, hisOpen, hrequest⟩

end Forced

/-! ## The guarantee -/

theorem row_act (w : World) (action : ProcessAction) (k : Key) :
    row (w.act action) k = row w k := by
  cases action <;> cases k <;> rfl

theorem progress_modify {aggregates : List PrivacyRequestAggregate}
    {f : PrivacyRequestAggregate → PrivacyRequestAggregate} (hf : ∀ a, Progress a (f a)) (j : Nat)
    {i : Nat} {a : PrivacyRequestAggregate} (ha : aggregates[i]? = some a) :
    ∃ a', (aggregates.modify j f)[i]? = some a' ∧ Progress a a' := by
  rw [List.getElem?_modify, ha]
  by_cases hij : j = i
  · exact ⟨f a, by simp [hij], hf a⟩
  · exact ⟨a, by simp [hij], .refl a⟩

theorem evolves_act (held : List Key) (w : World) (action : ProcessAction) :
    Evolves held w (w.act action) := by
  have haggregates : ∀ (i : Nat) a, w.aggregates[i]? = some a →
      ∃ a', (w.act action).aggregates[i]? = some a' ∧ Progress a a' := by
    intro i a ha
    cases action with
    | create input =>
      refine ⟨a, ?_, .refl a⟩
      exact (List.getElem?_append_left (List.getElem?_eq_some_iff.mp ha).1).trans ha
    | command j call => exact progress_modify (fun a => progress_invoke a call) j ha
    | acknowledge ack =>
      refine progress_modify (fun a => ?_) ack.aggregate ha
      rw [markEventsCommitted_exec]
      exact progress_acknowledged a ack.count
    | lose ack => exact ⟨a, ha, .refl a⟩
  refine ⟨fun k _ => (row_act w action k).symm, ?_, ?_, ?_, haggregates⟩
  · have hreq : (w.act action).requests = w.requests := by cases action <;> rfl
    rw [hreq]
    exact .refl _
  · have hreq : (w.act action).requests = w.requests := by cases action <;> rfl
    rw [hreq]
    exact fun _ _ _ r' hr' hlock => ⟨r', hr', hlock⟩
  · have htokens : (w.act action).tokens = w.tokens := by cases action <;> rfl
    rw [htokens]
    exact fun _ t ht => ⟨t, ht, rfl, rfl, rfl, rfl⟩

/-- `Evolves`, and what the transaction can count on besides. -/
def Relies (own : TransactionRequest → World → World → Prop) (request : TransactionRequest)
    (held : List Key) (w w' : World) : Prop :=
  Evolves held w w' ∧ own request w w'

theorem rely_relies {own : TransactionRequest → World → World → Prop}
    (hrefl : ∀ request w, own request w w)
    (htrans : ∀ {request w w' w''}, own request w w' → own request w' w'' → own request w w'')
    (request : TransactionRequest) : Rely (Relies own request) where
  refl held w := ⟨rely_evolves.refl held w, hrefl request w⟩
  trans h h' := ⟨rely_evolves.trans h.1 h'.1, htrans h.2 h'.2⟩
  mono hsub h := ⟨rely_evolves.mono hsub h.1, h.2⟩
  agree h hk := rely_evolves.agree h.1 hk

/-- What is left to show for an invariant of the system. -/
theorem guarantee_system {rt : Runtime} {d : Discipline} {Inv : World → Prop}
    {own : TransactionRequest → World → World → Prop} (hrefl : ∀ request w, own request w w)
    (htrans : ∀ {request w w' w''}, own request w w' → own request w' w'' → own request w w'')
    (henv : ∀ {live w action}, Inv w → w.Enabled action → d.acts live w action →
      Inv (w.act action) ∧ ∀ request, live request → own request w (w.act action))
    (hcommit : ∀ {w u request log}, Inv w → Inv u → request.Starts u → d.commits w request →
      Completes (Within Inv (Relies own request)) w (request.script rt) ⟨u, []⟩ () ⟨w, log⟩ →
      Inv (request.settle (view w log)) ∧
        ∀ request', own request' w (request.settle (view w log))) :
    Guarantee (system rt d) Inv (Relies own) where
  rely := rely_relies hrefl htrans
  environment := by
    rintro live w _ hw ⟨action, henabled, hacts, rfl⟩
    obtain ⟨hinv, hown⟩ := henv hw henabled hacts
    exact ⟨hinv, fun request held hlive => ⟨evolves_act held w action, hown request hlive⟩⟩
  commit := by
    intro w u request a log hw hu hstart hok hrun
    obtain ⟨hinv, hown⟩ := hcommit hw hu hstart hok hrun
    have hR := (rely_relies hrefl htrans request).within Inv
    exact ⟨hinv, fun request' held hfree =>
      ⟨evolves_commit hR (fun h => h.1.1) hrun hfree, hown request'⟩⟩

/-- An invariant of the tables that no more than `Evolves` is needed for. -/
theorem guarantee_of_commit {rt : Runtime} {d : Discipline} {Inv : World → Prop}
    (henv : ∀ {w action}, Inv w → Inv (w.act action))
    (hcommit : ∀ {w u request log R}, Rely R → (∀ {held w w'}, R held w w' → Evolves held w w') →
      Inv w → d.commits w request →
      Completes R w (request.script rt) ⟨u, []⟩ () ⟨w, log⟩ →
      Inv (request.settle (view w log))) :
    Guarantee (system rt d) Inv (Relies fun _ _ _ => True) :=
  guarantee_system (fun _ _ => trivial) (fun _ _ => trivial)
    (fun hw _ _ => ⟨henv hw, fun _ _ => trivial⟩)
    fun hw _ _ hok hrun => ⟨hcommit ((rely_relies (fun _ _ => trivial) (fun _ _ => trivial)
      _).within _) (fun h => h.1.1) hw hok hrun, fun _ => trivial⟩

end ForgetOps.Database
