import ForgetOps.Domain.Ledger

/-
  Completion honesty: a request reported as (partially) completed executed something.

  A request can fail without ever having executed, and `markNeedsReview` takes every failed
  request to `needs_review`, from where `acceptRetainedOutcome` and `markPartial` report it done.
  So the property holds exactly in the runs without an `UnexecutedReview`.
-/

namespace ForgetOps.Domain

open PrivacyRequestAggregate

/-- An `ExecutionStarted` event was emitted. -/
def Started (history : List DomainEvent) : Prop := ∃ e ∈ history, e.type = "ExecutionStarted"

instance (history : List DomainEvent) : Decidable (Started history) :=
  inferInstanceAs (Decidable (∃ e ∈ history, _))

/-- The statuses in which an execution ends. -/
def ExecutionAttemptStatus.ended : ExecutionAttemptStatus → Bool
  | .succeeded | .partiallySucceeded | .failed | .needsReview => true
  | _ => false

/-- In some state of the run the attempt `id` was `running`. -/
def Ran (a : PrivacyRequestAggregate) (calls : List Call) (id : String) : Prop :=
  ∃ done rest, calls = done ++ rest ∧ ∃ y ∈ (after a done).attempts, y.id = id ∧ y.status = .running

/-- The ledger has an attempt that ran and ended. -/
def Executed (a : PrivacyRequestAggregate) (calls : List Call) : Prop :=
  ∃ x ∈ (after a calls).attempts, x.status.ended = true ∧ Ran a calls x.id

/-- The request is reported as completed or partially completed. -/
def PrivacyRequestStatus.reportedDone (s : PrivacyRequestStatus) : Bool :=
  s = .completed ∨ s = .partiallyCompleted

def CompletionHonest (a : PrivacyRequestAggregate) (calls : List Call) : Prop :=
  (after a calls).status.reportedDone = true → Executed a calls

/-- `markNeedsReview` is accepted in a failed request that never executed. -/
def UnexecutedReview (a : PrivacyRequestAggregate) (call : Call) : Prop :=
  a.status = .failed ∧ ¬ Started a.events ∧
    match call.command with
    | .markNeedsReview _ => True
    | _ => False

instance (a : PrivacyRequestAggregate) (call : Call) : Decidable (UnexecutedReview a call) := by
  cases call with
  | mk now command =>
    unfold UnexecutedReview
    cases command <;> infer_instance

/-! ## One call -/

theorem Started.append {h h' : List DomainEvent} (hs : Started h) : Started (h ++ h') := by
  obtain ⟨e, he, ht⟩ := hs
  exact ⟨e, List.mem_append_left _ he, ht⟩

theorem Started.of_append {h : List DomainEvent} {e : DomainEvent} (hs : Started (h ++ [e]))
    (he : e.type ≠ "ExecutionStarted") : Started h := by
  obtain ⟨e', hmem, ht⟩ := hs
  rcases List.mem_append.mp hmem with hmem | hmem
  · exact ⟨e', hmem, ht⟩
  · rw [List.mem_singleton.mp hmem] at ht
    exact absurd ht he

section OneCall

variable {a a' : PrivacyRequestAggregate} {call : Call}

theorem Step.started (hstep : Step a call a') (h : Started a.events) : Started a'.events := by
  obtain ⟨e, hev, -, -⟩ := hstep.records
  rw [hev]
  exact h.append

theorem leaving_not_started {command : Command} {next : PrivacyRequestStatus}
    {ended : ExecutionAttemptStatus} {type : String}
    (hl : leaving command = some (next, ended, type)) :
    type ≠ "ExecutionStarted" ∧ next ≠ .executing ∧ ended.ended = true := by
  cases command <;> simp [leaving] at hl <;> obtain ⟨rfl, rfl, rfl⟩ := hl <;>
    simp [ExecutionAttemptStatus.ended]

/-- The attempt an update of the current one leaves in the ledger. -/
theorem mem_withAttempt {current updated : ExecutionAttempt} (hc : CurrentAttempt a current)
    (hid : updated.id = current.id) : updated ∈ (withAttempt a updated).attempts := by
  have hmem := List.mem_of_find?_eq_some hc
  rw [withAttempt_attempts, List.mem_map]
  exact ⟨current, hmem, if_pos hid.symm⟩

/-- A call starts the current attempt, ends the running one, or is not about execution. -/
theorem Step.execution (hstep : Step a call a') :
    (a'.status = .executing ∧ Started a'.events ∧ ∃ x ∈ a'.attempts, x.status = .running) ∨
    (a.status = .executing ∧ a'.status ≠ .executing ∧ ∃ current, CurrentAttempt a current ∧
      ∃ x ∈ a'.attempts, x.id = current.id ∧ x.status.ended = true) ∨
    (a.status ≠ .executing ∧ a'.status ≠ .executing ∧
      (Started a'.events → Started a.events)) := by
  cases hstep with
  | markExecuting he hs hc =>
    exact .inl ⟨rfl, ⟨_, by simp, he⟩, _, mem_withAttempt hc rfl, rfl⟩
  | complete he hs hc =>
    exact .inr (.inl ⟨hs, by simp, _, hc, _, mem_withAttempt hc rfl, rfl, rfl⟩)
  | leaveRunning hl he hs hc =>
    obtain ⟨-, hn, hend⟩ := leaving_not_started hl
    exact .inr (.inl ⟨hs, hn, _, hc, _, mem_withAttempt hc rfl, rfl, hend⟩)
  | leaveIdle hl he hs =>
    obtain ⟨ht, hn, -⟩ := leaving_not_started hl
    exact .inr (.inr ⟨hs, hn, fun h => h.of_append (he ▸ ht)⟩)
  | beginIdentityVerification he hs | markIdentityVerified he hs | cancelIdle he hs' hs =>
    refine .inr (.inr ⟨?_, by simp, fun h => h.of_append (by simp [he])⟩)
    intro h
    rw [h] at hs
    exact absurd hs (by decide)
  | beginPlanning he hs | rejectForChanges he hs | rejectForGood he hs
  | invalidateAuthorization he hs | cancelAuthorized he hs =>
    exact .inr (.inr ⟨by simp [hs], by simp, fun h => h.of_append (by simp [he])⟩)
  | @attachPlan _ plan hs =>
    refine .inr (.inr ⟨by simp [hs], ?_, fun h => h.of_append (by simp [executionPlanCreated, event])⟩)
    cases hr : plan.requiresApproval <;> simp
  | approvePlan hs =>
    exact .inr (.inr ⟨by simp [hs], by simp, fun h => h.of_append (by simp [executionPlanApproved, event])⟩)
  | authorizeExecution he hs | acceptRetainedOutcome he hs =>
    refine .inr (.inr ⟨?_, by simp, fun h => h.of_append (by simp [he])⟩)
    rcases hs with hs | hs <;> simp [hs]
  | requestReplan he hs | beginRetry he hs =>
    refine .inr (.inr ⟨?_, by simp, fun h => h.of_append (by simp [he])⟩)
    intro h
    simp [h, replannable] at hs

/-- The statuses a request reaches by executing. -/
def PrivacyRequestStatus.executed (s : PrivacyRequestStatus) : Bool :=
  s = .executing ∨ s = .completed ∨ s = .partiallyCompleted ∨ s = .needsReview

/-- Without an `UnexecutedReview` these statuses are only reached by executing. -/
theorem Step.executed_started (hstep : Step a call a') (hok : ¬ UnexecutedReview a call)
    (h : a.status.executed = true → Started a.events) (ha' : a'.status.executed = true) :
    Started a'.events := by
  cases hstep with
  | markExecuting he hs => exact ⟨_, by simp, he⟩
  | complete he hs | leaveRunning hl he hs => exact (h (by rw [hs]; rfl)).append
  | @leaveIdle _ command next _ _ _ hl he hs hedge =>
    by_cases hex : a.status.executed = true
    · exact (h hex).append
    by_cases hst : Started a.events
    · exact hst.append
    -- only `markNeedsReview` of a failed request is left, and the condition excludes it
    refine absurd ⟨?_, hst, ?_⟩ hok
    · rw [advance_status] at ha'
      revert hedge ha' hex
      cases a.status <;> cases command <;> simp [leaving] at hl <;> obtain ⟨rfl, -⟩ := hl <;>
        decide
    · cases command <;> simp [leaving] at hl
      · obtain ⟨rfl, -⟩ := hl
        revert hedge ha' hex
        simp only [advance_status]
        cases a.status <;> decide
      · obtain ⟨rfl, -⟩ := hl
        simp [PrivacyRequestStatus.executed] at ha'
      · trivial
  | acceptRetainedOutcome he hs =>
    exact (h (by rcases hs with hs | hs <;> rw [hs] <;> rfl)).append
  | @attachPlan _ plan hs =>
    cases hr : plan.requiresApproval <;> simp [hr, PrivacyRequestStatus.executed] at ha'
  | _ => simp [PrivacyRequestStatus.executed] at ha'

end OneCall

/-! ## Whole runs -/

theorem Ran.append {a : PrivacyRequestAggregate} {calls : List Call} {id : String}
    (h : Ran a calls id) (more : List Call) : Ran a (calls ++ more) id := by
  obtain ⟨done, rest, rfl, hy⟩ := h
  exact ⟨done, rest ++ more, by simp, hy⟩

theorem Ran.now {a : PrivacyRequestAggregate} {calls : List Call} {x : ExecutionAttempt}
    (hx : x ∈ (after a calls).attempts) (hs : x.status = .running) : Ran a calls x.id :=
  ⟨calls, [], by simp, x, hx, rfl, hs⟩

theorem terminal_of_ended {t : ExecutionAttemptStatus} (h : t.ended = true) :
    t.terminal = true := by
  cases t <;> simp_all [ExecutionAttemptStatus.ended, ExecutionAttemptStatus.terminal]

/-- An attempt that ran and ended stays in the ledger. -/
theorem Executed.append {a : PrivacyRequestAggregate} {calls : List Call}
    (hinv : LedgerInv (after a calls)) (h : Executed a calls) (more : List Call) :
    Executed a (calls ++ more) := by
  obtain ⟨x, hx, hend, hran⟩ := h
  obtain ⟨i, hi⟩ := List.mem_iff_getElem?.mp hx
  obtain ⟨y, hy, hcont⟩ := ledgerContinues_after hinv more i x hi
  obtain rfl := hcont.2 (terminal_of_ended hend)
  rw [← after_append] at hy
  exact ⟨y, List.mem_iff_getElem?.mpr ⟨i, hy⟩, hend, hran.append more⟩

/-- Once an execution started, the open attempt is running, or one ran and ended. -/
def StartedInv (a : PrivacyRequestAggregate) (calls : List Call) : Prop :=
  Started (after a calls).events →
    ((after a calls).status = .executing ∧
      ∃ x ∈ (after a calls).attempts, x.status = .running) ∨ Executed a calls

theorem startedInv (input : CreatePrivacyRequest) (calls : List Call) :
    StartedInv (create input) calls := by
  induction calls using List.reverseRecOn with
  | nil =>
    rintro ⟨e, he, ht⟩
    simp [after, create, event] at he
    rw [he] at ht
    simp at ht
  | append_singleton calls call ih =>
    have hinv := ledgerInv_after input calls
    intro hst
    rcases invoke_cases (after (create input) calls) call with ⟨_, hstep⟩ | ⟨_, hsame⟩
    · rw [← after_snoc] at hstep
      rcases hstep.execution with ⟨hs, -, x, hx, hr⟩ | ⟨hs, -, current, hc, x, hx, hid, hend⟩ |
        ⟨hs, -, hback⟩
      · exact .inl ⟨hs, x, hx, hr⟩
      · right
        obtain ⟨before, happ, -, -, hlast, -⟩ := hinv.update (by rw [hs]; rfl) hc
        have hran : current.status = .running := by
          rw [hs] at hlast
          exact hlast
        refine ⟨x, hx, hend, ?_⟩
        rw [hid]
        exact (Ran.now (by rw [happ]; simp) hran).append [call]
      · rcases ih (hback hst) with ⟨hs', -⟩ | hex
        · exact absurd hs' hs
        · exact .inr (hex.append hinv [call])
    · rw [← after_snoc] at hsame
      rw [hsame] at hst ⊢
      rcases ih hst with hrun | hex
      · exact .inl hrun
      · exact .inr (hex.append hinv [call])

/-- In a run from `create`, an attempt that ever ran was started. -/
theorem started_of_ran {input : CreatePrivacyRequest} {calls : List Call} {id : String}
    (h : Ran (create input) calls id) : Started (after (create input) calls).events := by
  have hexec : ∀ calls, (after (create input) calls).status = .executing →
      Started (after (create input) calls).events := by
    intro calls
    refine after_induction (P := fun a => a.status = .executing → Started a.events) ?_ ?_ calls
    · intro hs
      cases hs
    · intro b call b' hb hstep hs
      rcases hstep.execution with ⟨-, hst, -⟩ | ⟨-, hs', -⟩ | ⟨-, hs', -⟩
      · exact hst
      · exact absurd hs hs'
      · exact absurd hs hs'
  obtain ⟨done, rest, rfl, y, hy, -, hr⟩ := h
  have hdone : Started (after (create input) done).events :=
    hexec done ((ledgerInv_after input done).executing_of_running hy hr)
  rw [after_append]
  refine after_induction (P := fun a => Started a.events) hdone ?_ rest
  intro b call b' hb hstep
  exact hstep.started hb

/-! ## Completion honesty -/

theorem completionHonest_of_along {input : CreatePrivacyRequest} {calls : List Call}
    (hok : Along (fun a call => ¬ UnexecutedReview a call) (create input) calls) :
    CompletionHonest (create input) calls := by
  intro hdone
  have hst : Started (after (create input) calls).events := by
    have hinit : (create input).status.executed = true → Started (create input).events := by
      intro h
      cases h
    refine (always_of_step (P := fun a => a.status.executed = true → Started a.events) ?_ hinit
      hok).last ?_
    · intro b call b' hb hok hstep
      exact hstep.executed_started hok hb
    · revert hdone
      cases (after (create input) calls).status <;> decide
  rcases startedInv input calls hst with ⟨hs, -⟩ | hex
  · rw [hs] at hdone
    cases hdone
  · exact hex

/-- Such a review, followed by the acceptance of the retained outcome, completes a request that
    never executed. -/
theorem not_completionHonest_of_unexecutedReview {input : CreatePrivacyRequest}
    {calls : List Call} {call : Call}
    (h : UnexecutedReview (after (create input) calls) call) :
    ¬ CompletionHonest (create input)
      (calls ++ [call, atNoon (.acceptRetainedOutcome "actor" "accepted")]) := by
  obtain ⟨now, command⟩ := call
  obtain ⟨hs, hst, h⟩ := h
  cases command with
  | markNeedsReview category =>
    set a := after (create input) calls with ha
    have hreview : ∃ b, invoke a ⟨now, .markNeedsReview category⟩ = (.ok (), b) := by
      have hedge : Edge .failed .needsReview := by decide
      simp [invoke, Command.method, markNeedsReview, leaveFor, hs, hedge]
    obtain ⟨b, hb⟩ := hreview
    have hbs : b.status = .needsReview ∧ ¬ Started b.events := by
      cases invoke_ok_step hb with
      | leaveRunning hl he hs' => simp [hs] at hs'
      | leaveIdle hl he =>
        obtain ⟨ht, -, -⟩ := leaving_not_started hl
        obtain ⟨rfl, -⟩ : _ = _ ∧ _ := by simpa [leaving] using hl
        exact ⟨rfl, fun hb => hst (hb.of_append (he ▸ ht))⟩
    have haccept : ∃ c, invoke b (atNoon (.acceptRetainedOutcome "actor" "accepted")) =
        (.ok (), c) := by
      have hedge : Edge .needsReview .completed := by decide
      have hreason : auditReasonPattern "accepted" = true := by decide
      simp [invoke, atNoon, Command.method, acceptRetainedOutcome, hbs.1, hedge, hreason]
    obtain ⟨c, hc⟩ := haccept
    have hcs : c.status = .completed ∧ ¬ Started c.events := by
      cases invoke_ok_step hc with
      | acceptRetainedOutcome he =>
        exact ⟨rfl, fun hc => hbs.2 (hc.of_append (by simp [he]))⟩
      | leaveRunning hl | leaveIdle hl => cases hl
    have hafter : after (create input)
        (calls ++ [⟨now, .markNeedsReview category⟩,
          atNoon (.acceptRetainedOutcome "actor" "accepted")]) = c := by
      rw [after_append, ← ha, after_cons, hb, after_cons, hc]
      rfl
    intro hhonest
    obtain ⟨x, -, -, hran⟩ := hhonest (by rw [hafter, hcs.1]; rfl)
    have := started_of_ran hran
    rw [hafter] at this
    exact hcs.2 this
  | _ => exact absurd h id

/-- **Completion honesty.** In every run in which no `markNeedsReview` is accepted in a failed
    request that never executed, a request that is completed or partially completed has an
    attempt that ran and ended, in every state reached. Every run with such a review goes on to
    one that completes a request for which nothing was executed. -/
theorem completion_honesty_unless_unexecutedReview (input : CreatePrivacyRequest) :
    (∀ calls, Along (fun a call => ¬ UnexecutedReview a call) (create input) calls →
      ∀ done rest, calls = done ++ rest → CompletionHonest (create input) done) ∧
    (∀ calls call, UnexecutedReview (after (create input) calls) call →
      ∃ more, ¬ CompletionHonest (create input) (calls ++ call :: more)) := by
  constructor
  · rintro calls hok done rest rfl
    exact completionHonest_of_along (along_append.mp hok).1
  · intro calls call h
    exact ⟨_, not_completionHonest_of_unexecutedReview h⟩

/-- Verification pending, failed, reviewed, accepted. -/
def unexecutedRun : List Call :=
  [.beginIdentityVerification "actor-1", .fail "identity", .markNeedsReview "identity",
    .acceptRetainedOutcome "actor-1" "accepted"].map atNoon

theorem completion_honesty_fails_in_unexecutedRun :
    (after (create requestOne) unexecutedRun).status = .completed ∧
      (after (create requestOne) unexecutedRun).attempts = [] := by
  decide

theorem completion_honesty_of_failedRun :
    CompletionHonest (create requestOne)
      (failedRun ++ [atNoon (.markNeedsReview "adapter"), atNoon (.markPartial 3 1)]) :=
  (completion_honesty_unless_unexecutedReview requestOne).1 _ (by decide) _ []
    (List.append_nil _).symm

end ForgetOps.Domain
