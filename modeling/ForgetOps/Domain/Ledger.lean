import ForgetOps.Domain.CommandSpec

/-
  The attempt ledger over whole histories.

  The request's status and the last attempt's status are assigned separately. `LastStatus` is how
  they go together, `LedgerInv` the invariant every accepted call keeps, and `Continues` what a
  call may do to an attempt that is already in the ledger.
-/

namespace ForgetOps.Domain

open PrivacyRequestAggregate

/-- The attempt statuses that come with a `completed_at`. -/
def ExecutionAttemptStatus.terminal : ExecutionAttemptStatus → Bool
  | .succeeded | .partiallySucceeded | .failed | .needsReview | .cancelled => true
  | _ => false

/-- No attempt of a request in this status is open. -/
def PrivacyRequestStatus.idle (s : PrivacyRequestStatus) : Bool :=
  s ≠ .executionAuthorized ∧ s ≠ .executing

/-- The statuses the last attempt of a request can have. -/
def LastStatus (s : PrivacyRequestStatus) (t : ExecutionAttemptStatus) : Prop :=
  match s with
  | .executionAuthorized => t = .authorized
  | .executing => t = .running
  | _ => t.terminal = true

/-- The `check` of `execution_attempts` that ties `completed_at` to the status. -/
def completedAtCheck (x : ExecutionAttempt) : Prop := x.status.terminal = x.completedAt.isSome

/-- Either there is no attempt yet, or the last one is current and goes with the status while all
    before it have ended. -/
def LedgerShape (a : PrivacyRequestAggregate) : Prop :=
  (a.attempts = [] ∧ a.currentAttemptId = none ∧ a.status.idle = true) ∨
    ∃ before last, a.attempts = before ++ [last] ∧ a.currentAttemptId = some last.id ∧
      (∀ x ∈ before, x.status.terminal = true) ∧ LastStatus a.status last.status

structure LedgerInv (a : PrivacyRequestAggregate) : Prop where
  nonempty : ∀ x ∈ a.attempts, x.id ≠ ""
  nodup : (a.attempts.map (·.id)).Nodup
  numbered : ∀ i x, a.attempts[i]? = some x → x.attemptNumber = i + 1
  shape : LedgerShape a
  check : ∀ x ∈ a.attempts, completedAtCheck x

theorem lastStatus_iff_terminal {s : PrivacyRequestStatus} {t : ExecutionAttemptStatus}
    (hs : s.idle = true) : LastStatus s t ↔ t.terminal = true := by
  cases s <;> simp_all [LastStatus, PrivacyRequestStatus.idle]

theorem not_terminal_of_lastStatus {s : PrivacyRequestStatus} {t : ExecutionAttemptStatus}
    (hs : s.idle = false) (h : LastStatus s t) : t.terminal = false := by
  cases s <;> simp_all [LastStatus, PrivacyRequestStatus.idle, ExecutionAttemptStatus.terminal]

theorem ledgerInv_create (input : CreatePrivacyRequest) : LedgerInv (create input) where
  nonempty := by simp [create]
  nodup := by simp [create]
  numbered := by simp [create]
  shape := .inl ⟨rfl, rfl, rfl⟩
  check := by simp [create]

/-- The invariant is about the ledger and how it goes with the status. -/
theorem LedgerInv.congr {a a' : PrivacyRequestAggregate} (h : LedgerInv a)
    (hatt : a'.attempts = a.attempts) (hcur : a'.currentAttemptId = a.currentAttemptId)
    (hstatus : a'.status = a.status) : LedgerInv a' where
  nonempty := by rw [hatt]; exact h.nonempty
  nodup := by rw [hatt]; exact h.nodup
  numbered := by rw [hatt]; exact h.numbered
  shape := by rw [LedgerShape, hatt, hcur, hstatus]; exact h.shape
  check := by rw [hatt]; exact h.check

/-! ## The three things a call does to the ledger -/

section Moves

variable {a : PrivacyRequestAggregate}

/-- A move between statuses without an open attempt leaves the ledger alone. -/
theorem LedgerInv.move {a' : PrivacyRequestAggregate} (h : LedgerInv a)
    (hatt : a'.attempts = a.attempts) (hcur : a'.currentAttemptId = a.currentAttemptId)
    (hs : a.status.idle = true) (hs' : a'.status.idle = true) : LedgerInv a' where
  nonempty := by rw [hatt]; exact h.nonempty
  nodup := by rw [hatt]; exact h.nodup
  numbered := by rw [hatt]; exact h.numbered
  shape := by
    rcases h.shape with ⟨hnil, hnone, -⟩ | ⟨before, last, happ, hlast, hbefore, hst⟩
    · exact .inl ⟨hatt.trans hnil, hcur.trans hnone, hs'⟩
    · refine .inr ⟨before, last, hatt.trans happ, hcur.trans hlast, hbefore, ?_⟩
      rw [lastStatus_iff_terminal hs] at hst
      exact (lastStatus_iff_terminal hs').mpr hst
  check := by rw [hatt]; exact h.check

/-- Without an open attempt every attempt of the ledger has ended. -/
theorem LedgerInv.ended (h : LedgerInv a) (hs : a.status.idle = true) :
    ∀ x ∈ a.attempts, x.status.terminal = true := by
  intro x hx
  rcases h.shape with ⟨hnil, -⟩ | ⟨before, last, happ, -, hbefore, hst⟩
  · simp [hnil] at hx
  · rw [happ] at hx
    rcases List.mem_append.mp hx with hx | hx
    · exact hbefore x hx
    · rw [List.mem_singleton.mp hx]
      exact (lastStatus_iff_terminal hs).mp hst

/-- `authorizeExecution` and `beginRetry`: a fresh attempt opens after all others ended. -/
theorem LedgerInv.append (h : LedgerInv a) (hs : a.status.idle = true) {t id : String}
    {kind : AttemptKind} {binding : PlanBinding} {steps : List String}
    {a' : PrivacyRequestAggregate} (hid : FreshAttemptId a id)
    (hatt : a'.attempts = a.attempts ++ [newAttempt a t id kind binding steps .authorized])
    (hcur : a'.currentAttemptId = some id) (hs' : a'.status = .executionAuthorized) :
    LedgerInv a' := by
  simp only [FreshAttemptId, List.any_eq_true, decide_eq_true_eq, not_or, not_exists,
    not_and] at hid
  constructor
  case nonempty =>
    intro x hx
    rw [hatt, List.mem_append, List.mem_singleton] at hx
    rcases hx with hx | rfl
    · exact h.nonempty x hx
    · exact hid.1
  case nodup =>
    rw [hatt, List.map_append, List.nodup_append]
    refine ⟨h.nodup, List.nodup_singleton _, ?_⟩
    intro x hx y hy
    obtain ⟨z, hz, rfl⟩ := List.mem_map.mp hx
    rw [List.mem_singleton.mp hy]
    exact hid.2 z hz
  case numbered =>
    intro i x hx
    rw [hatt] at hx
    rcases Nat.lt_or_ge i a.attempts.length with hi | hi
    · rw [List.getElem?_append_left hi] at hx
      exact h.numbered i x hx
    · rw [List.getElem?_append_right hi, List.getElem?_singleton] at hx
      split at hx
      · obtain rfl := Option.some.inj hx
        simp only [newAttempt]
        omega
      · cases hx
  case shape => exact .inr ⟨a.attempts, _, hatt, hcur, h.ended hs, by rw [hs']; rfl⟩
  case check =>
    intro x hx
    rw [hatt, List.mem_append, List.mem_singleton] at hx
    rcases hx with hx | rfl
    · exact h.check x hx
    · rfl

/-- With an open attempt the current attempt is the last one. -/
theorem LedgerInv.last (h : LedgerInv a) (hs : a.status.idle = false) :
    ∃ before last, a.attempts = before ++ [last] ∧ a.currentAttemptId = some last.id ∧
      (∀ x ∈ before, x.status.terminal = true) ∧ LastStatus a.status last.status ∧
      CurrentAttempt a last := by
  rcases h.shape with ⟨-, -, hidle⟩ | ⟨before, last, happ, hcur, hbefore, hst⟩
  · rw [hs] at hidle
    cases hidle
  refine ⟨before, last, happ, hcur, hbefore, hst, ?_⟩
  have hnodup := h.nodup
  rw [happ, List.map_append, List.nodup_append] at hnodup
  rw [CurrentAttempt, happ, hcur, List.find?_append]
  have hnone : before.find? (fun x => some x.id = some last.id) = none := by
    rw [List.find?_eq_none]
    intro x hx
    simpa using hnodup.2.2 x.id (List.mem_map_of_mem hx) last.id (by simp)
  rw [hnone]
  simp

/-- Updating the current attempt replaces the last attempt of the ledger. -/
theorem LedgerInv.update (h : LedgerInv a) (hs : a.status.idle = false)
    {current : ExecutionAttempt} (hc : CurrentAttempt a current) :
    ∃ before, a.attempts = before ++ [current] ∧ a.currentAttemptId = some current.id ∧
      (∀ x ∈ before, x.status.terminal = true) ∧ LastStatus a.status current.status ∧
      ∀ t completedAt, (withAttempt a { current with status := t, completedAt }).attempts =
        before ++ [{ current with status := t, completedAt }] := by
  obtain ⟨before, last, happ, hcur, hbefore, hst, hlast⟩ := h.last hs
  obtain rfl : last = current := Option.some.inj (hlast.symm.trans hc)
  refine ⟨before, happ, hcur, hbefore, hst, ?_⟩
  intro t completedAt
  have hnodup := h.nodup
  rw [happ, List.map_append, List.nodup_append] at hnodup
  have hsame : before.map (fun x => if x.id = last.id then
      { last with status := t, completedAt } else x) = before := by
    rw [List.map_congr_left (g := id), List.map_id]
    intro x hx
    rw [if_neg (hnodup.2.2 x.id (List.mem_map_of_mem hx) last.id (by simp))]
    rfl
  rw [withAttempt_attempts, happ, List.map_append, hsame]
  simp

/-- The commands that move the request and its open attempt together. -/
theorem LedgerInv.replace (h : LedgerInv a) (hs : a.status.idle = false)
    {current : ExecutionAttempt} (hc : CurrentAttempt a current) {t : ExecutionAttemptStatus}
    {completedAt : Option String} (ht : t.terminal = completedAt.isSome)
    {a' : PrivacyRequestAggregate}
    (hatt : a'.attempts = (withAttempt a { current with status := t, completedAt }).attempts)
    (hcur : a'.currentAttemptId = a.currentAttemptId) (hlast : LastStatus a'.status t) :
    LedgerInv a' := by
  obtain ⟨before, happ, hid, hbefore, -, hupd⟩ := h.update hs hc
  rw [hupd] at hatt
  constructor
  case nonempty =>
    intro x hx
    have hne := h.nonempty
    rw [hatt, List.mem_append, List.mem_singleton] at hx
    rcases hx with hx | rfl
    · exact hne x (by simp [happ, hx])
    · exact hne current (by simp [happ])
  case nodup =>
    have hnodup := h.nodup
    rw [happ] at hnodup
    rw [hatt]
    simpa using hnodup
  case numbered =>
    intro i x hx
    have hnum := h.numbered i
    rw [hatt] at hx
    rw [happ] at hnum
    rcases Nat.lt_or_ge i before.length with hi | hi
    · rw [List.getElem?_append_left hi] at hx hnum
      exact hnum x hx
    · rw [List.getElem?_append_right hi, List.getElem?_singleton] at hx hnum
      split at hx
      · rename_i h0
        obtain rfl := Option.some.inj hx
        exact hnum current (if_pos h0)
      · cases hx
  case shape => exact .inr ⟨before, _, hatt, hcur.trans hid, hbefore, hlast⟩
  case check =>
    intro x hx
    have hcheck := h.check
    rw [hatt, List.mem_append, List.mem_singleton] at hx
    rcases hx with hx | rfl
    · exact hcheck x (by simp [happ, hx])
    · exact ht

end Moves

/-- Every command of `leaving` moves to a status without an open attempt, and ends with a
    terminal status. -/
theorem leaving_ends {command : Command} {next : PrivacyRequestStatus}
    {ended : ExecutionAttemptStatus} {type : String}
    (hl : leaving command = some (next, ended, type)) :
    next.idle = true ∧ ended.terminal = true := by
  cases command <;> simp [leaving] at hl <;> obtain ⟨rfl, rfl, -⟩ := hl <;> exact ⟨rfl, rfl⟩

theorem idle_of_replannable {s : PrivacyRequestStatus} (h : replannable s = true) :
    s.idle = true := by
  cases s <;> simp_all [replannable, PrivacyRequestStatus.idle]

/-- What an accepted call does to the ledger: nothing, a new attempt after all others ended, or
    a new status for the open attempt. -/
inductive LedgerMove (a a' : PrivacyRequestAggregate) : Prop
  | move (hatt : a'.attempts = a.attempts) (hcur : a'.currentAttemptId = a.currentAttemptId)
      (hs : a.status.idle = true) (hs' : a'.status.idle = true)
  | append {t id kind binding steps} (hs : a.status.idle = true) (hid : FreshAttemptId a id)
      (hatt : a'.attempts = a.attempts ++ [newAttempt a t id kind binding steps .authorized])
      (hcur : a'.currentAttemptId = some id) (hs' : a'.status = .executionAuthorized)
  | replace {current t completedAt} (hs : a.status.idle = false) (hc : CurrentAttempt a current)
      (ht : t.terminal = completedAt.isSome)
      (hatt : a'.attempts = (withAttempt a { current with status := t, completedAt }).attempts)
      (hcur : a'.currentAttemptId = a.currentAttemptId) (hlast : LastStatus a'.status t)

theorem Step.ledgerMove {a a' : PrivacyRequestAggregate} {call : Call} (hstep : Step a call a') :
    LedgerMove a a' := by
  have hmove {s next : PrivacyRequestStatus} (hedge : Edge s next) (hn : next.idle = true)
      (hs : s ≠ .executing) (hs' : s ≠ .executionAuthorized ∨ next = .failed ∨
        next = .partiallyCompleted ∨ next = .needsReview) : s.idle = true := by
    revert hedge hn hs hs'
    cases s <;> cases next <;> decide
  cases hstep with
  | beginIdentityVerification he hs | markIdentityVerified he hs =>
    refine .move rfl rfl ?_ rfl
    cases h : a.status <;> rw [h] at hs <;> revert hs <;> decide
  | beginPlanning he hs | approvePlan hs | rejectForChanges he hs | rejectForGood he hs =>
    exact .move rfl rfl (by rw [hs]; rfl) rfl
  | @attachPlan _ plan hs hv =>
    refine .move rfl rfl (by rw [hs]; rfl) ?_
    cases h : plan.requiresApproval <;> rfl
  | authorizeExecution he hs hp hb _ _ _ hid =>
    exact .append (by rcases hs with hs | hs <;> rw [hs] <;> rfl) hid rfl rfl rfl
  | markExecuting he hs hc =>
    exact .replace (by rw [hs]; rfl) hc rfl rfl rfl rfl
  | complete he hs hc => exact .replace (by rw [hs]; rfl) hc rfl rfl rfl rfl
  | leaveRunning hl he hs hc =>
    obtain ⟨hn, ht⟩ := leaving_ends hl
    exact .replace (by rw [hs]; rfl) hc ht rfl rfl ((lastStatus_iff_terminal hn).mpr ht)
  | @leaveIdle _ command next _ _ _ hl he hs hedge =>
    refine .move rfl rfl (hmove hedge (leaving_ends hl).1 hs (.inr ?_)) (leaving_ends hl).1
    cases command <;> simp [leaving] at hl <;> simp [hl.1.symm]
  | requestReplan he hs => exact .move rfl rfl (idle_of_replannable hs) rfl
  | beginRetry he hs hv hp hsteps hid =>
    exact .append (idle_of_replannable hs) hid rfl rfl rfl
  | invalidateAuthorization he hs hr hc | cancelAuthorized he hs hr hc =>
    exact .replace (by rw [hs]; rfl) hc rfl rfl rfl rfl
  | acceptRetainedOutcome he hs =>
    exact .move rfl rfl (by rcases hs with hs | hs <;> rw [hs] <;> rfl) rfl
  | cancelIdle he hs hedge =>
    refine .move rfl rfl ?_ rfl
    cases h : a.status <;> rw [h] at hedge hs <;> revert hedge hs <;> decide

theorem LedgerMove.ledgerInv {a a' : PrivacyRequestAggregate} (hmove : LedgerMove a a')
    (h : LedgerInv a) : LedgerInv a' := by
  cases hmove with
  | move hatt hcur hs hs' => exact h.move hatt hcur hs hs'
  | append hs hid hatt hcur hs' => exact h.append hs hid hatt hcur hs'
  | replace hs hc ht hatt hcur hlast => exact h.replace hs hc ht hatt hcur hlast

theorem ledgerInv_after (input : CreatePrivacyRequest) (calls : List Call) :
    LedgerInv (after (create input) calls) :=
  after_induction (ledgerInv_create input) (fun _ _ _ h hstep => hstep.ledgerMove.ledgerInv h)
    calls

/-! ## Attempts are only ever closed -/

/-- What later calls may do to an attempt of the ledger. -/
def Continues (x y : ExecutionAttempt) : Prop :=
  (∃ status completedAt, y = { x with status, completedAt }) ∧ (x.status.terminal = true → y = x)

/-- Every attempt of `xs` is still at its place in `ys`. -/
def LedgerContinues (xs ys : List ExecutionAttempt) : Prop :=
  ∀ (i : Nat) x, xs[i]? = some x → ∃ y, ys[i]? = some y ∧ Continues x y

theorem Continues.refl (x : ExecutionAttempt) : Continues x x := ⟨⟨_, _, rfl⟩, fun _ => rfl⟩

theorem Continues.trans {x y z : ExecutionAttempt} (h : Continues x y) (h' : Continues y z) :
    Continues x z := by
  obtain ⟨⟨s, c, rfl⟩, hxy⟩ := h
  obtain ⟨⟨s', c', rfl⟩, hyz⟩ := h'
  refine ⟨⟨s', c', rfl⟩, fun ht => ?_⟩
  have hx := hxy ht
  rw [hx] at hyz
  exact hyz ht

theorem LedgerContinues.refl (xs : List ExecutionAttempt) : LedgerContinues xs xs :=
  fun _ x hx => ⟨x, hx, .refl x⟩

theorem LedgerContinues.trans {xs ys zs : List ExecutionAttempt} (h : LedgerContinues xs ys)
    (h' : LedgerContinues ys zs) : LedgerContinues xs zs := by
  intro i x hx
  obtain ⟨y, hy, hxy⟩ := h i x hx
  obtain ⟨z, hz, hyz⟩ := h' i y hy
  exact ⟨z, hz, hxy.trans hyz⟩

theorem LedgerMove.continues {a a' : PrivacyRequestAggregate} (hmove : LedgerMove a a')
    (h : LedgerInv a) : LedgerContinues a.attempts a'.attempts := by
  cases hmove with
  | move hatt =>
    rw [hatt]
    exact .refl _
  | append hs hid hatt =>
    intro i x hx
    refine ⟨x, ?_, .refl x⟩
    rw [hatt, List.getElem?_append_left (List.getElem?_eq_some_iff.mp hx).1, hx]
  | replace hs hc ht hatt hcur hlast =>
    -- only the last attempt changes, and it was open
    obtain ⟨before, happ, -, -, hst, hupd⟩ := h.update hs hc
    rw [hatt, hupd, happ]
    intro i x hx
    rcases Nat.lt_or_ge i before.length with hi | hi
    · rw [List.getElem?_append_left hi] at hx ⊢
      exact ⟨x, hx, .refl x⟩
    · rw [List.getElem?_append_right hi, List.getElem?_singleton] at hx ⊢
      split at hx
      · rename_i h0
        obtain rfl := Option.some.inj hx
        refine ⟨_, if_pos h0, ⟨_, _, rfl⟩, fun hterm => ?_⟩
        rw [not_terminal_of_lastStatus hs hst] at hterm
        cases hterm
      · cases hx

theorem ledgerContinues_after {a : PrivacyRequestAggregate} (h : LedgerInv a)
    (calls : List Call) : LedgerContinues a.attempts (after a calls).attempts := by
  have hinv : LedgerInv (after a calls) ∧ LedgerContinues a.attempts (after a calls).attempts := by
    refine after_induction (P := fun b => LedgerInv b ∧ LedgerContinues a.attempts b.attempts)
      ⟨h, .refl _⟩ ?_ calls
    intro b call b' ⟨hb, hcont⟩ hstep
    exact ⟨hstep.ledgerMove.ledgerInv hb, hcont.trans (hstep.ledgerMove.continues hb)⟩
  exact hinv.2

/-! ## The current attempt is always found -/

theorem leaveFor_notFound {a a' : PrivacyRequestAggregate} {now : Option String}
    {next : PrivacyRequestStatus} {ended : ExecutionAttemptStatus}
    {domainEvent : PrivacyRequestAggregate → DomainEvent}
    (h : (leaveFor next ended now domainEvent).exec a =
      (.error (.rangeError "EXECUTION_ATTEMPT_NOT_FOUND"), a')) :
    a.status.idle = false ∧ ∀ current, ¬ CurrentAttempt a current := by
  by_cases hs : a.status = .executing
  · simp [leaveFor, hs, endedCurrentAttempt] at h
    obtain ⟨_, ⟨_, rfl⟩, hnone⟩ := h
    exact ⟨by rw [hs]; rfl, hnone⟩
  · simp [leaveFor, hs] at h

/-- The error is thrown only in a status with an open attempt, when no attempt is current. -/
theorem invoke_notFound {a a' : PrivacyRequestAggregate} {call : Call}
    (h : invoke a call = (.error (.rangeError "EXECUTION_ATTEMPT_NOT_FOUND"), a')) :
    a.status.idle = false ∧ ∀ current, ¬ CurrentAttempt a current := by
  obtain ⟨now, command⟩ := call
  cases command with
  | beginIdentityVerification actorId =>
    simp [invoke, Command.method, beginIdentityVerification] at h
  | markIdentityVerified actorId => simp [invoke, Command.method, markIdentityVerified] at h
  | beginPlanning agentId => simp [invoke, Command.method, beginPlanning] at h
  | attachPlan plan =>
    by_cases hr : plan.requiresApproval <;>
      simp [invoke, Command.method, attachPlan, record, hr] at h
  | approvePlan approval => simp [invoke, Command.method, approvePlan, record] at h
  | rejectPlan decidedBy disposition =>
    cases disposition <;> simp [invoke, Command.method, rejectPlan] at h
  | authorizeExecution auth =>
    cases hp : a.plan <;> simp [invoke, Command.method, authorizeExecution, hp] at h
  | markExecuting agentId =>
    simp [invoke, Command.method, markExecuting] at h
    obtain ⟨⟨hs, rfl⟩, hnone⟩ := h
    exact ⟨by rw [hs]; rfl, hnone⟩
  | complete affectedCount =>
    simp [invoke, Command.method, complete, endedCurrentAttempt] at h
    obtain ⟨hs, ⟨_, rfl⟩, hnone⟩ := h
    exact ⟨by rw [hs]; rfl, hnone⟩
  | markPartial affectedCount failedCount => exact leaveFor_notFound h
  | fail category => exact leaveFor_notFound h
  | markNeedsReview category => exact leaveFor_notFound h
  | requestReplan actorId reason => simp [invoke, Command.method, requestReplan] at h
  | beginRetry attemptId steps expectedVersion =>
    cases hp : a.plan <;> simp [invoke, Command.method, beginRetry, hp] at h
  | invalidateAuthorization actorId reason =>
    simp [invoke, Command.method, invalidateAuthorization, endedCurrentAttempt] at h
    obtain ⟨hs, _, ⟨_, rfl⟩, hnone⟩ := h
    exact ⟨by rw [hs]; rfl, hnone⟩
  | acceptRetainedOutcome actorId reason =>
    simp [invoke, Command.method, acceptRetainedOutcome] at h
  | cancel actorId reason =>
    by_cases hs : a.status = .executionAuthorized
    · simp [invoke, Command.method, cancel, hs, endedCurrentAttempt] at h
      obtain ⟨_, _, ⟨_, rfl⟩, hnone⟩ := h
      exact ⟨by rw [hs]; rfl, hnone⟩
    · simp [invoke, Command.method, cancel, hs] at h

/-! ## The ledger invariant in the ledger's own terms -/

section Reading

variable {a : PrivacyRequestAggregate}

theorem LedgerInv.current_eq (h : LedgerInv a) :
    a.currentAttemptId = a.attempts.getLast?.map (·.id) := by
  rcases h.shape with ⟨hnil, hnone, -⟩ | ⟨before, last, happ, hcur, -⟩
  · rw [hnil, hnone]
    rfl
  · rw [happ, hcur, List.getLast?_concat]
    rfl

theorem LedgerInv.closed (h : LedgerInv a) :
    ∀ x ∈ a.attempts.dropLast, x.status.terminal = true := by
  rcases h.shape with ⟨hnil, -⟩ | ⟨before, last, happ, -, hbefore, -⟩
  · simp [hnil]
  · rw [happ, List.dropLast_concat]
    exact hbefore

theorem LedgerInv.executing_of_running (h : LedgerInv a) {x : ExecutionAttempt}
    (hx : x ∈ a.attempts) (hr : x.status = .running) : a.status = .executing := by
  rcases h.shape with ⟨hnil, -⟩ | ⟨before, last, happ, -, hbefore, hlast⟩
  · simp [hnil] at hx
  · rw [happ] at hx
    rcases List.mem_append.mp hx with hx | hx
    · have ht := hbefore x hx
      rw [hr] at ht
      cases ht
    · rw [List.mem_singleton.mp hx] at hr
      rw [hr] at hlast
      revert hlast
      cases a.status <;> simp [LastStatus, ExecutionAttemptStatus.terminal]

/-- The last attempt is in the open status `t` exactly when the request is in the status that
    goes with `t`. -/
theorem LedgerInv.open_iff (h : LedgerInv a) {s : PrivacyRequestStatus}
    {t : ExecutionAttemptStatus} (hst : ∀ s' t', LastStatus s' t' → (t' = t ↔ s' = s))
    (hs : s.idle = false) :
    (∃ x, a.attempts.getLast? = some x ∧ x.status = t) ↔ a.status = s := by
  rcases h.shape with ⟨hnil, -, hidle⟩ | ⟨before, last, happ, -, -, hlast⟩
  · rw [hnil]
    constructor
    · rintro ⟨x, hx, -⟩
      cases hx
    · intro hs'
      rw [hs', hs] at hidle
      cases hidle
  · rw [happ, List.getLast?_concat, ← hst _ _ hlast]
    simp

end Reading

/-- **The attempt ledger.** In every state a run reaches: ids are non-empty and distinct, the
    attempts are numbered from 1, the current one is the last, the others have ended, the last is
    open exactly as the status says, and every row passes the table's check. Later calls only
    ever end an open attempt, and no call misses the current attempt. -/
theorem attempt_ledger (input : CreatePrivacyRequest) (calls : List Call) :
    let a := after (create input) calls
    (∀ x ∈ a.attempts, x.id ≠ "") ∧ (a.attempts.map (·.id)).Nodup ∧
      (∀ (i : Nat) x, a.attempts[i]? = some x → x.attemptNumber = i + 1) ∧
      a.currentAttemptId = a.attempts.getLast?.map (·.id) ∧
      (∀ x ∈ a.attempts.dropLast, x.status.terminal = true) ∧
      ((∃ x, a.attempts.getLast? = some x ∧ x.status = .authorized) ↔
        a.status = .executionAuthorized) ∧
      ((∃ x, a.attempts.getLast? = some x ∧ x.status = .running) ↔ a.status = .executing) ∧
      (∀ x ∈ a.attempts, x.completedAt.isSome = true ↔ x.status.terminal = true) ∧
      (∀ more, LedgerContinues a.attempts (after a more).attempts) ∧
      ∀ call, (invoke a call).1 ≠ .error (.rangeError "EXECUTION_ATTEMPT_NOT_FOUND") := by
  intro a
  have h : LedgerInv a := ledgerInv_after input calls
  refine ⟨h.nonempty, h.nodup, h.numbered, h.current_eq, h.closed, ?_, ?_, ?_, ?_, ?_⟩
  · refine h.open_iff ?_ rfl
    intro s t hst
    cases s <;> cases t <;> simp_all [LastStatus, ExecutionAttemptStatus.terminal]
  · refine h.open_iff ?_ rfl
    intro s t hst
    cases s <;> cases t <;> simp_all [LastStatus, ExecutionAttemptStatus.terminal]
  · intro x hx
    rw [h.check x hx]
  · exact ledgerContinues_after h
  · intro call hcall
    obtain ⟨hidle, hnone⟩ := invoke_notFound (Prod.ext hcall rfl : invoke a call = (_, _))
    obtain ⟨_, last, -, -, -, -, hlast⟩ := h.last hidle
    exact hnone last hlast

end ForgetOps.Domain
