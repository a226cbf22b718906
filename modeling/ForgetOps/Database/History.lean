import ForgetOps.Database.Consistency
import ForgetOps.Database.Transitions

/-
  What the triggers of the first migration guard
  (`packages/database/migrations/0001_initial.sql`): an attempt keeps its authorization and, once it
  has ended, does not change at all; an audit event never changes.

  The scripts meet this by their own conditions: the upsert of a save by `completed_at is null`, a
  forced replacement by the status, which for a row that passes the table's check comes to the same.
  `Guarded` is what their statements do to such rows, and `history_append_only` what becomes of the
  rows in any run.
-/

namespace ForgetOps.Database

open Domain Api
open ReadCommitted RowStore

/-! ## The triggers -/

/-- Before an update of `old`, or its deletion. -/
def rejectExecutionAttemptHistoryMutation (old : AttemptRow) :
    Option AttemptRow → Except String AttemptRow
  | none => .error "execution_attempts are append-only"
  | some new =>
    if old.completedAt ≠ none then .error "completed execution_attempts are immutable"
    else if new.tenantId ≠ old.tenantId ∨ new.environmentId ≠ old.environmentId ∨
        new.requestId ≠ old.requestId ∨ new.attemptNumber ≠ old.attemptNumber ∨
        new.kind ≠ old.kind ∨ new.planId ≠ old.planId ∨ new.planVersion ≠ old.planVersion ∨
        new.planFingerprint ≠ old.planFingerprint ∨
        new.allowedStepIds ≠ old.allowedStepIds ∨ new.createdAt ≠ old.createdAt then
      .error "execution_attempt authorization is immutable"
    else .ok new

/-- The check of `execution_attempts` on `status` and `completed_at`. -/
def AttemptRow.checked (r : AttemptRow) : Prop := r.status.terminal = r.completedAt.isSome

theorem reject_ok_of_columns {old : AttemptRow} (hopen : old.completedAt = none)
    (status : ExecutionAttemptStatus) (completedAt : Option Timestamp) :
    rejectExecutionAttemptHistoryMutation old (some { old with status, completedAt }) =
      .ok { old with status, completedAt } := by
  simp [rejectExecutionAttemptHistoryMutation, hopen]

/-! ## The statements of the scripts -/

/-- The update the trigger lets pass, written as the columns it may set. -/
def MayClose (old : AttemptRow) (v : Option AttemptRow) : Prop :=
  v = some old ∨ (old.completedAt = none ∨ old.status.terminal = false) ∧
    ∃ status completedAt, v = some { old with status, completedAt }

/-- Attempts are at most closed, audit events stay, and environments are only ever locked. -/
def Guarded : (k : Key) → Row k → Row k → Prop
  | .attempt _, r, v => ∀ old, r = some old → MayClose old v
  | .auditEvent _, r, v => ∀ old, r = some old → v = some old
  | .environment _, r, v => v = r
  | _, _, _ => True

theorem guarded_refl (k : Key) (r : Row k) : Guarded k r r := by
  cases k with
  | attempt => exact fun _ h => .inl h
  | auditEvent => exact fun _ h => h
  | environment => rfl
  | _ => trivial

theorem MayClose.trans {old : AttemptRow} {v v' : Option AttemptRow} (h : MayClose old v)
    (h' : ∀ new, v = some new → MayClose new v') : MayClose old v' := by
  rcases h with rfl | ⟨hopen, status, completedAt, rfl⟩
  · exact h' old rfl
  · rcases h' _ rfl with rfl | ⟨-, status', completedAt', rfl⟩
    · exact .inr ⟨hopen, status, completedAt, rfl⟩
    · exact .inr ⟨hopen, status', completedAt', rfl⟩

theorem guarded_trans (k : Key) (r r' r'' : Row k) (h : Guarded k r r') (h' : Guarded k r' r'') :
    Guarded k r r'' := by
  cases k with
  | attempt => exact fun old hold => (h old hold).trans h'
  | auditEvent => exact fun old hold => h' old (h old hold)
  | environment => exact Eq.trans h' h
  | _ => trivial

section Scripts

open Script (writes_pure writes_read writes_failIf)

/-- A row nothing is asked of. -/
class Unguarded (k : Key) : Prop where
  guarded : ∀ r v, Guarded k r v

instance (id : String) : Unguarded (.request id) := ⟨fun _ _ => trivial⟩
instance (id : String) : Unguarded (.outboxEvent id) := ⟨fun _ _ => trivial⟩
instance (environmentId : String) : Unguarded (.chainHead environmentId) := ⟨fun _ _ => trivial⟩
instance (id : String) : Unguarded (.agent id) := ⟨fun _ _ => trivial⟩
instance (requestId : String) : Unguarded (.envelope requestId) := ⟨fun _ _ => trivial⟩
instance (id : String) : Unguarded (.job id) := ⟨fun _ _ => trivial⟩
instance (id : String) : Unguarded (.token id) := ⟨fun _ _ => trivial⟩
instance (key : AliasKey) : Unguarded (.alias key) := ⟨fun _ _ => trivial⟩
instance (lock : BindingLock) : Unguarded (.advisory lock) := ⟨fun _ _ => trivial⟩

variable {α : Type}

theorem guarded_unguarded {k : Key} [Unguarded k] (q : Row k → Option (α × Row k)) :
    (Script.update k q : Transaction (Option α)).Writes Guarded :=
  (Script.writes_update k q).mpr fun r _ v _ => Unguarded.guarded r v

theorem guarded_lock {k : Key} {q : Row k → Option (α × Row k)}
    (hq : ∀ r b v, q r = some (b, v) → v = r) :
    (Script.update k q : Transaction (Option α)).Writes Guarded := by
  rw [Script.writes_update]
  intro r b v h
  rw [hq r b v h]
  exact guarded_refl k r

theorem guarded_orFail (x : Except String α) : (orFail x).Writes Guarded := by
  cases x <;> trivial

theorem guarded_lockChainHead (tenantId environmentId missing : String) :
    (lockChainHead tenantId environmentId missing).Writes Guarded := by
  refine (guarded_unguarded _).bind fun _ => (guarded_unguarded _).bind fun head => ?_
  cases head <;> trivial

/-- An audit event is inserted, or the transaction fails. -/
theorem guarded_recordEvent (event : AuditEventWithoutHashes Payload) (sequence : Nat)
    (requestId : String) (previousHash : Option String) (eventHash : String) :
    (recordEvent event sequence requestId previousHash eventHash).Writes Guarded := by
  refine Script.Writes.bind ?_ fun _ => (writes_failIf _ _).bind fun _ =>
    (guarded_unguarded _).bind fun _ => (guarded_unguarded _).bind fun _ => writes_failIf _ _
  rw [Script.writes_update]
  intro r b v h old hold
  rw [(whenAbsent_eq_some.mp h).1] at hold
  cases hold

section Save

open PrivacyRequestRepository

theorem guarded_upsertAttempt (tenantId : String) (snapshot : PrivacyRequestSnapshot)
    (attempt : ExecutionAttempt) :
    (Script.update (.attempt attempt.id) (upsertAttempt tenantId snapshot attempt) :
      Transaction (Option Bool)).Writes Guarded := by
  rw [Script.writes_update]
  rintro r b v h old rfl
  rw [upsertAttempt] at h
  split at h
  · exact .inl (Prod.mk.inj (Option.some.inj h)).2.symm
  · split at h
    · next hopen => exact .inr ⟨.inl hopen, _, _, (Prod.mk.inj (Option.some.inj h)).2.symm⟩
    · cases h

theorem guarded_save (rt : Runtime) (input : SaveRequest) : (save rt input).Writes Guarded := by
  have hattempts (attempts : List ExecutionAttempt) :
      (persistAttempts input.tenantId input.snapshot attempts).Writes Guarded := by
    induction attempts with
    | nil => trivial
    | cons attempt attempts ih =>
      exact (guarded_upsertAttempt _ _ _).bind fun _ => (writes_failIf _ _).bind fun _ => ih
  have hevents (i sequence : Nat) (previousHash : Option String) (events : List DomainEvent) :
      (persistEventsFrom rt input.tenantId input.snapshot input.stamps i sequence previousHash
        events).Writes Guarded := by
    induction events generalizing i sequence previousHash with
    | nil => trivial
    | cons event events ih =>
      exact (guarded_orFail _).bind fun _ => (guarded_recordEvent _ _ _ _ _).bind fun _ => ih _ _ _
  refine (writes_failIf _ _).bind fun _ => Script.Writes.bind ?_ fun _ =>
    Script.Writes.bind ?_ fun _ => (writes_read _).bind fun attempts =>
      (hattempts attempts).bind fun _ => (guarded_lockChainHead _ _ _).bind fun _ =>
        hevents _ _ _ _
  · exact (writes_read _).bind fun _ => writes_failIf _ _
  · unfold persistSnapshot
    split <;> exact (guarded_unguarded _).bind fun _ => writes_failIf _ _

end Save

section BindSubject

open SubjectBinding

theorem guarded_deleteEnvelope (input : BindSubjectRequest) :
    (deleteEnvelope input).Writes Guarded :=
  (guarded_unguarded _).bind fun _ => writes_pure _

theorem guarded_findRequestForUpdate (tenantId environmentId requestId : String) :
    (findRequestForUpdate tenantId environmentId requestId).Writes Guarded := by
  refine (guarded_unguarded _).bind fun request => ?_
  cases request with
  | none => trivial
  | some request => exact (guarded_lock lockRow_locks).bind fun _ => writes_pure _

theorem guarded_checkBinding (input : BindSubjectRequest) (row : RequestAndEnvironment) :
    (checkBinding input row).Writes Guarded := by
  refine (writes_failIf _ _).bind fun _ => (writes_failIf _ _).bind fun _ =>
    (writes_failIf _ _).bind fun _ => (writes_failIf _ _).bind fun _ =>
      (guarded_unguarded _).bind fun agent => ?_
  cases agent with
  | none => trivial
  | some agent =>
    refine (guarded_unguarded _).bind fun envelope => ?_
    cases envelope with
    | none => trivial
    | some envelope => exact (writes_failIf _ _).bind fun _ => writes_failIf _ _

theorem guarded_appendAuditEvent (rt : Runtime) (audit : AuditInput) :
    (appendAuditEvent rt audit).Writes Guarded :=
  (guarded_lockChainHead _ _ _).bind fun _ => (guarded_orFail _).bind fun _ =>
    guarded_recordEvent _ _ _ _ _

theorem guarded_applyDecision (rt : Runtime) (input : BindSubjectRequest) (decision : Decision) :
    (applyDecision rt input decision).Writes Guarded := by
  have haliases (aliases : List SubjectAliasBinding) :
      (insertAliases input aliases).Writes Guarded := by
    induction aliases with
    | nil => trivial
    | cons a aliases ih => exact (guarded_unguarded _).bind fun _ => ih
  refine Script.Writes.bind ?_ fun _ => (guarded_unguarded _).bind fun _ =>
    (haliases _).bind fun _ => (guarded_deleteEnvelope _).bind fun _ =>
      Script.Writes.bind ?_ fun _ => (guarded_appendAuditEvent _ _).bind fun _ => writes_pure _
  · cases decision with
    | cancelCandidate id => exact (guarded_unguarded _).bind fun _ => writes_pure _
    | _ => trivial
  · cases decision with
    | cancelCandidate id => exact guarded_appendAuditEvent _ _
    | _ => trivial

theorem guarded_bindLocked (rt : Runtime) (input : BindSubjectRequest) :
    (bindLocked rt input).Writes Guarded := by
  refine (guarded_findRequestForUpdate _ _ _).bind fun found => ?_
  cases found with
  | none => trivial
  | some row =>
    dsimp only
    split
    · split
      · exact (guarded_deleteEnvelope _).bind fun _ => guarded_orFail _
      · trivial
    · refine (guarded_checkBinding _ _).bind fun _ => Script.Writes.bind ?_ fun _ =>
        guarded_applyDecision _ _ _
      unfold duplicateCandidates
      split
      · trivial
      · exact (writes_read _).bind fun _ => writes_onRows _ (fun _ => guarded_unguarded _) _

theorem guarded_bindSubject (rt : Runtime) (input : BindSubjectRequest) :
    (bindSubjectInTransaction rt input).Writes Guarded := by
  refine (writes_read _).bind fun initial => ?_
  cases initial with
  | none => trivial
  | some initial =>
    dsimp only
    split
    · exact (guarded_deleteEnvelope _).bind fun _ => guarded_orFail _
    · exact (guarded_unguarded _).bind fun _ => guarded_bindLocked _ _

end BindSubject

section ConsumeAndPair

open Pairing

theorem terminal_of_openAttempt {s : ExecutionAttemptStatus} (h : openAttempt s) :
    s.terminal = false := by
  rcases h with rfl | rfl <;> rfl

/-- Only open attempts are reviewed. -/
theorem guarded_reviewAttempts (token : TokenRow) (affected : List String) (now : Timestamp) :
    (reviewAttempts token affected now).Writes Guarded := by
  refine writes_onSelected _ fun id => ?_
  rw [Script.writes_update]
  rintro r b v h old rfl
  obtain ⟨hold, haffected, rfl⟩ := whenRow_eq_some.mp h
  cases hold
  exact .inr ⟨.inr (terminal_of_openAttempt haffected.2.2), _, _, rfl⟩

theorem guarded_replaceWork (token : TokenRow) (now : Timestamp) :
    (replaceWork token now).Writes Guarded := by
  refine Script.Writes.bind ?_ fun _ => Script.Writes.bind ?_ fun _ =>
    (writes_failIf _ _).bind fun _ => ?_
  · exact (writes_read _).bind fun _ => writes_onRows _ (fun _ => guarded_unguarded _) _
  · exact (writes_read _).bind fun _ =>
      writes_onRows _ (fun _ => guarded_lock lockRow_locks) _
  · split
    swap
    · trivial
    refine Script.Writes.bind ?_ fun _ => Script.Writes.bind ?_ fun _ => ?_
    · unfold reviewWork
      split
      · trivial
      · exact (writes_onSelected _ fun _ => guarded_unguarded _).bind fun _ =>
          guarded_reviewAttempts _ _ _
    · exact writes_onSelected _ fun _ => guarded_unguarded _
    · exact writes_onSelected _ fun _ => guarded_unguarded _

theorem guarded_consumeAndPair (input : ConsumeAndPairInput) :
    (consumeAndPair input).Writes Guarded := by
  refine (writes_read _).bind fun bootstrap => ?_
  cases bootstrap with
  | none => trivial
  | some bootstrap =>
    refine Script.Writes.bind ?_ fun token => Script.Writes.bind ?_ fun _ =>
      Script.Writes.bind ?_ fun active => Script.Writes.bind ?_ fun _ => ?_
    · refine (guarded_unguarded _).bind fun token => ?_
      cases token with
      | none => trivial
      | some token =>
        exact (writes_failIf _ _).bind fun _ => (writes_failIf _ _).bind fun _ => writes_pure _
    · refine (guarded_lock lockRow_locks).bind fun environment => ?_
      cases environment with
      | none => trivial
      | some environment => exact writes_failIf _ _
    · exact (writes_read _).bind fun _ => writes_onRows _ (fun _ => guarded_unguarded _) _
    · cases active with
      | nil => trivial
      | cons agent active =>
        exact (writes_failIf _ _).bind fun _ => (writes_failIf _ _).bind fun _ =>
          (guarded_replaceWork _ _).bind fun _ =>
            (guarded_unguarded _).bind fun _ => writes_pure _
    · exact (guarded_unguarded _).bind fun _ => (writes_failIf _ _).bind fun _ =>
        (guarded_unguarded _).bind fun _ => (writes_failIf _ _).bind fun _ => writes_pure _

end ConsumeAndPair

theorem guarded_writeRow {k : Key} [Unguarded k] (v : Row k) : (writeRow k v).Writes Guarded :=
  (guarded_unguarded _).bind fun _ => writes_pure _

/-- Only other code writes environments. -/
theorem guarded_script (rt : Runtime) {request : TransactionRequest}
    (h : ∀ id row, request ≠ .other (.environment id row)) :
    (request.script rt).Writes Guarded := by
  cases request with
  | save input => exact guarded_save rt input
  | bindSubject input => exact (guarded_bindSubject rt input).bind fun _ => writes_pure _
  | consumeAndPair input => exact (guarded_consumeAndPair input).bind fun _ => writes_pure _
  | other write =>
    cases write with
    | environment id row => exact absurd rfl (h id row)
    | envelope requestId row =>
      refine Script.Writes.bind ?_ fun _ => guarded_writeRow _
      cases row with
      | none => trivial
      | some row => exact (writes_read _).bind fun _ => writes_failIf _ _
    | token id row => exact (guarded_unguarded _).bind fun _ => writes_failIf _ _
    | agent | job | «alias» => exact guarded_writeRow _

end Scripts

/-! ## The check -/

/-- Every aggregate in memory has a ledger as the domain keeps it. -/
def Ledgers (w : World) : Prop := ∀ (i : Nat) a, w.aggregates[i]? = some a → LedgerInv a

def Checked (w : World) : Prop := ∀ id r, w.attempts.find id = some r → r.checked

section Check

variable {R : List Key → World → World → Prop} {rt : Runtime} {u w : World} {log : Log Row}

theorem Checked.congr {w' : World} (h : Checked w) (heq : w'.attempts = w.attempts) :
    Checked w' := by
  rw [Checked, heq]
  exact h

open PrivacyRequestRepository in
/-- What the upsert writes over a row is checked if the attempt is. -/
theorem checked_persistAttempts {tenantId : String} {snapshot : PrivacyRequestSnapshot}
    {attempts : List ExecutionAttempt} (h : ∀ x ∈ attempts, completedAtCheck x) :
    (persistAttempts tenantId snapshot attempts).Writes fun
      | .attempt _, r, v => v = r ∨ ∀ new, v = some new → new.checked
      | _, _, _ => True := by
  induction attempts with
  | nil => trivial
  | cons attempt attempts ih =>
    have hattempt : completedAtCheck attempt := h attempt List.mem_cons_self
    refine Script.Writes.bind ?_ fun _ => (Script.writes_failIf _ _).bind fun _ =>
      ih fun x hx => h x (List.mem_cons_of_mem _ hx)
    rw [Script.writes_update]
    intro r b v hq
    cases r with
    | none =>
      obtain ⟨-, rfl⟩ := Prod.mk.inj (Option.some.inj hq)
      refine .inr fun new hnew => ?_
      obtain rfl := Option.some.inj hnew
      exact hattempt
    | some old =>
      rw [upsertAttempt] at hq
      split at hq
      · obtain ⟨-, rfl⟩ := Prod.mk.inj (Option.some.inj hq)
        exact .inl rfl
      · split at hq
        · obtain ⟨-, rfl⟩ := Prod.mk.inj (Option.some.inj hq)
          refine .inr fun new hnew => ?_
          obtain rfl := Option.some.inj hnew
          exact hattempt
        · cases hq

open PrivacyRequestRepository in
theorem checked_save {input : SaveRequest} {b : Unit} (hR : Rely R)
    (hledgers : ∀ {t}, R [] u t → Ledgers t) (hw : Checked w)
    (hrun : Completes R w (save rt input) ⟨u, []⟩ b ⟨w, log⟩) : Checked (view w log) := by
  obtain ⟨-, -, -, row', t, mid, mid', sequence, -, hut, -, -, hmid, hattempts, happ⟩ :=
    save_effect hR hrun
  refine Checked.congr ?_ happ.attempts
  have hledger : ∀ x ∈ ledgerAt input.aggregate t, completedAtCheck x := by
    intro x hx
    rw [ledgerAt] at hx
    cases ha : t.aggregates[input.aggregate]? with
    | none =>
      rw [ha] at hx
      cases hx
    | some a =>
      rw [ha] at hx
      exact (hledgers hut input.aggregate a ha).check x hx
  intro id r hr
  have hwritten := hattempts.1.writes (P := fun
      | .attempt _, r, v => v = r ∨ ∀ new, v = some new → new.checked
      | _, _, _ => True) ?_ ?_ (checked_persistAttempts hledger) (.attempt id)
  · have hbefore : row (view w mid.log) (.attempt id) = w.attempts.find id := by
      rw [hmid]
      rfl
    rcases hwritten with hsame | hchecked
    · refine hw id r ?_
      rw [← hbefore, ← hsame]
      exact hr
    · exact hchecked r hr
  · intro k r
    cases k with
    | attempt => exact .inl rfl
    | _ => trivial
  · intro k r r' r'' h h'
    cases k with
    | attempt =>
      rcases h' with rfl | h'
      · exact h
      · exact .inr h'
    | _ => trivial

theorem checked_commit {request : TransactionRequest} {b : Unit} (hR : Rely R)
    (hledgers : ∀ {t}, R [] u t → Ledgers t) (hw : Checked w)
    (hrun : Completes R w (request.script rt) ⟨u, []⟩ b ⟨w, log⟩) :
    Checked (request.settle (view w log)) := by
  cases request with
  | save input => exact checked_save hR hledgers hw hrun
  | bindSubject input =>
    obtain ⟨b, hbind⟩ := completes_discard hR hrun
    rcases SubjectBinding.bindSubject_effect hR hbind with hsame | ⟨_, row, candidates, hb⟩
    · exact hw.congr hsame.attempts
    · obtain ⟨W, events, -, hattempts, -, -, -, -, happ⟩ := hb.decided.written
      exact hw.congr (happ.attempts.trans hattempts)
  | consumeAndPair input =>
    obtain ⟨b, hpair⟩ := completes_discard hR hrun
    rcases Pairing.consumeAndPair_effect hR hpair with hsame | ⟨token, affected, p₀, p₁, p₂, hf⟩
    · exact hw.congr hsame.attempts
    · intro id r hr
      change (view w log).attempts.find id = some r at hr
      rw [hf.after_attempts] at hr
      rcases hf.attempts id with ⟨row, -, -, hafter⟩ | ⟨hsame, -⟩
      · obtain rfl := Option.some.inj (hr.symm.trans hafter)
        rfl
      · exact hw id r (hsame.symm.trans hr)
  | other write => exact hw.congr (other_effect hR hrun).1.attempts

end Check

/-! ## Runs -/

theorem ledgers_act {w : World} (h : Ledgers w) (action : ProcessAction) :
    Ledgers (w.act action) :=
  fun _ _ ha => ledgerInv_act h ha

theorem rely_ledgers (request : TransactionRequest) :
    Rely (Within (fun w => Coupling w ∧ Ledgers w) (Relies (fun _ => Settled) request)) := by
  have hrelies : Rely (Relies (fun _ => Settled) request) := by
    refine rely_relies ?_ ?_ request
    · exact fun _ _ _ _ hrow _ => hrow
    · exact settled_trans
  exact hrelies.within _

theorem guarantee_ledgers (rt : Runtime) (d : Discipline) :
    Guarantee (system rt d) (fun w => Coupling w ∧ Ledgers w) (Relies fun _ => Settled) := by
  refine guarantee_system (fun _ _ _ _ hrow _ => hrow) settled_trans ?_ ?_
  · intro live w action hw hen _
    exact ⟨⟨hw.1.act hen, ledgers_act hw.2 action⟩, fun _ _ => settled_act w action⟩
  · intro w u request log hw hu hstart _ hrun
    have hR := rely_ledgers request
    refine ⟨⟨hw.1.commit hR (fun h => h.1.1) hstart hrun, ?_⟩,
      fun _ => settled_commit hR (fun h => h.1.1) hw.1 hstart hrun⟩
    have haggregates : (request.settle (view w log)).aggregates = w.aggregates := by
      cases request <;> exact view_aggregates w log
    rw [Ledgers, haggregates]
    exact hw.2

/-- What has been committed in `w` is in `w'` as the triggers let it become. -/
structure History (w w' : World) : Prop where
  attempts : ∀ id old, w.attempts.find id = some old → w'.attempts.find id = some old ∨
    ∃ new, rejectExecutionAttemptHistoryMutation old (w'.attempts.find id) = .ok new
  auditEvents : ∀ id row, w.auditEvents.find id = some row →
    w'.auditEvents.find id = some row

/-- Attempts are at most closed, and audit events stay. -/
def Preserved (w w' : World) : Prop :=
  (∀ id old, w.attempts.find id = some old → MayClose old (w'.attempts.find id)) ∧
    ∀ id row, w.auditEvents.find id = some row → w'.auditEvents.find id = some row

theorem preserved_refl (w : World) : Preserved w w := ⟨fun _ _ h => .inl h, fun _ _ h => h⟩

theorem preserved_trans {w w' w'' : World} (h : Preserved w w') (h' : Preserved w' w'') :
    Preserved w w'' :=
  ⟨fun id old hold => (h.1 id old hold).trans fun new hnew => h'.1 id new hnew,
    fun id row hrow => h'.2 id row (h.2 id row hrow)⟩

theorem preserved_of_sameRecords {w w' : World} (h : SameRecords w w') : Preserved w w' := by
  rw [Preserved, h.attempts, h.auditEvents]
  exact preserved_refl w

theorem preserved_commit {R : List Key → World → World → Prop} {rt : Runtime} {u w : World}
    {log : Log Row} {request : TransactionRequest} {b : Unit} (hR : Rely R)
    (hrun : Completes R w (request.script rt) ⟨u, []⟩ b ⟨w, log⟩) :
    Preserved w (request.settle (view w log)) := by
  have hwrites (hne : ∀ id row, request ≠ .other (.environment id row)) :
      Preserved w (view w log) :=
    ⟨fun id => hrun.writes guarded_refl guarded_trans (guarded_script rt hne) (.attempt id),
      fun id => hrun.writes guarded_refl guarded_trans (guarded_script rt hne) (.auditEvent id)⟩
  cases request with
  | other write => exact preserved_of_sameRecords (other_effect hR hrun).1
  | _ => exact hwrites fun _ _ h => by cases h

theorem History.of_preserved {w w' : World} (hw : Checked w) (h : Preserved w w') :
    History w w' where
  attempts := by
    intro id old hold
    rcases h.1 id old hold with hsame | ⟨hopen, status, completedAt, hnew⟩
    · exact .inl hsame
    · have hnone : old.completedAt = none := by
        rcases hopen with hnone | hstatus
        · exact hnone
        · have hchecked : old.status.terminal = old.completedAt.isSome := hw id old hold
          rw [hstatus] at hchecked
          exact Option.not_isSome_iff_eq_none.mp (by rw [← hchecked]; exact Bool.false_ne_true)
      rw [hnew]
      exact .inr ⟨_, reject_ok_of_columns hnone status completedAt⟩
  auditEvents := h.2

/-- **History is append-only** in every interleaving: every stored attempt passes the check of its
    table, and from any point of a run to any later one attempts and audit events have changed only
    as the triggers allow. -/
theorem history_append_only {rt : Runtime} {d : Discipline} {c c' : Configuration}
    (hc : Reachable rt d c) (hsteps : Relation.ReflTransGen (Step (system rt d)) c c') :
    Checked c'.world ∧ History c.world c'.world := by
  have hG := guarantee_ledgers rt d
  have hinitial : Coupling World.initial ∧ Ledgers World.initial :=
    ⟨coupling_initial, fun i a ha => by simp [World.initial] at ha⟩
  have hchecked {c : Configuration} (hc : Reachable rt d c) : Checked c.world := by
    refine ReadCommitted.Reachable.evolves hG (E := fun w w' => Checked w → Checked w')
      (fun _ => id) (fun h h' => h' ∘ h) ?_ ?_ hinitial .refl hc ?_
    · rintro live w _ - ⟨action, -, -, rfl⟩ hw
      refine hw.congr ?_
      cases action <;> rfl
    · intro w u request log _ hw hu hstart _ hrun hcheckedw
      exact checked_commit (rely_ledgers request) (fun ht => (ht.2 hu).2) hcheckedw hrun
    · intro id r hr
      simp [World.initial] at hr
  refine ⟨hchecked (hc.trans hsteps), History.of_preserved (hchecked hc) ?_⟩
  refine ReadCommitted.Reachable.evolves hG preserved_refl preserved_trans ?_ ?_ hinitial hc hsteps
  · rintro live w _ - ⟨action, -, -, rfl⟩
    cases action <;> exact preserved_refl w
  · intro w u request log _ hw hu hstart _ hrun
    exact preserved_commit (rely_ledgers request) hrun

/-- A forced replacement closes the attempt that was authorized, and keeps the first event. -/
theorem history_append_only_of_forced_replacement :
    (∃ new, rejectExecutionAttemptHistoryMutation savedAttempt
      (forcedWorld.attempts.find "attempt-1") = .ok new) ∧
      forcedWorld.auditEvents.find "e0" = savedWorld.auditEvents.find "e0" := by
  obtain ⟨-, hhistory⟩ := history_append_only
    (play_reachable (obeys_anyRun _) tokenMoves_played)
    (play_steps (obeys_anyRun _) forcedMoves_played)
  have hattempt : tokenWorld.attempts.find "attempt-1" = some savedAttempt := rfl
  have hevent : (savedWorld.auditEvents.find "e0").isSome = true := rfl
  constructor
  · refine (hhistory.attempts _ _ hattempt).resolve_left fun hsame => ?_
    have hstatus := congrArg (Option.map (·.status)) hsame
    revert hstatus
    decide
  · obtain ⟨row, hrow⟩ := Option.isSome_iff_exists.mp hevent
    rw [hrow]
    exact hhistory.auditEvents _ row hrow

end ForgetOps.Database
