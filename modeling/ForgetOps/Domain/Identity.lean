import ForgetOps.Domain.CommandSpec

/-
  Identity verification before execution.

  `beginPlanning` asserts `identity_verified`, but `requestReplan` reaches `planning` from every
  `failed` request, and a request can fail while its identity verification is still pending. So
  the gate holds exactly in the runs without an `UnverifiedReplan`.
-/

namespace ForgetOps.Domain

open PrivacyRequestAggregate

/-- An `IdentityVerified` event was emitted. -/
def Verified (history : List DomainEvent) : Prop := ∃ e ∈ history, e.type = "IdentityVerified"

instance (history : List DomainEvent) : Decidable (Verified history) :=
  inferInstanceAs (Decidable (∃ e ∈ history, _))

/-- An attempt is authorized only for a verified requester. -/
def IdentitySafe (a : PrivacyRequestAggregate) : Prop :=
  a.status = .executionAuthorized → Verified a.events

instance : DecidablePred IdentitySafe :=
  fun a => inferInstanceAs (Decidable (a.status = .executionAuthorized → Verified a.events))

/-- `requestReplan` is accepted although nobody verified the requester. -/
def UnverifiedReplan (a : PrivacyRequestAggregate) (call : Call) : Prop :=
  ¬ Verified a.events ∧
    match call.command with
    | .requestReplan _ reason => replannable a.status = true ∧ auditReasonPattern reason = true
    | _ => False

instance (a : PrivacyRequestAggregate) (call : Call) : Decidable (UnverifiedReplan a call) := by
  unfold UnverifiedReplan
  cases call.command <;> infer_instance

/-- The statuses a request can be in before its requester is verified. -/
def beforeVerification (s : PrivacyRequestStatus) : Bool :=
  s = .created ∨ s = .identityVerificationPending ∨ s = .failed ∨ s = .needsReview ∨
    s = .partiallyCompleted ∨ s = .completed ∨ s = .cancelled

/-- Without a verification there is no plan, and the request is still before planning. -/
def IdentityInv (a : PrivacyRequestAggregate) : Prop :=
  Verified a.events ∨ (a.plan = none ∧ beforeVerification a.status = true)

theorem Verified.append {h h' : List DomainEvent} (hv : Verified h) : Verified (h ++ h') := by
  obtain ⟨e, he, ht⟩ := hv
  exact ⟨e, List.mem_append_left _ he, ht⟩

theorem Step.verified {a a' : PrivacyRequestAggregate} {call : Call} (hstep : Step a call a')
    (hv : Verified a.events) : Verified a'.events := by
  obtain ⟨e, hev, -, -⟩ := hstep.records
  rw [hev]
  exact hv.append

theorem leaving_beforeVerification {command : Command} {next : PrivacyRequestStatus}
    {ended : ExecutionAttemptStatus} {type : String}
    (hl : leaving command = some (next, ended, type)) : beforeVerification next = true := by
  cases command <;> simp [leaving] at hl <;> obtain ⟨rfl, -⟩ := hl <;> rfl

/-- The plan is only ever attached in `planning`, which an unverified request reaches by
    `requestReplan` alone. -/
theorem Step.identityInv {a a' : PrivacyRequestAggregate} {call : Call} (hstep : Step a call a')
    (h : IdentityInv a) (hok : ¬ UnverifiedReplan a call) : IdentityInv a' := by
  rcases h with hv | ⟨hplan, hs₀⟩
  · exact .inl (hstep.verified hv)
  cases hstep with
  | beginIdentityVerification he hs => exact .inr ⟨hplan, rfl⟩
  | markIdentityVerified he hs => exact .inl ⟨_, by simp, he⟩
  | beginPlanning he hs | attachPlan hs | approvePlan hs | rejectForChanges he hs
  | rejectForGood he hs | markExecuting he hs | complete he hs | invalidateAuthorization he hs
  | cancelAuthorized he hs =>
    -- none of these runs before verification
    rw [hs] at hs₀
    simp [beforeVerification] at hs₀
  | authorizeExecution he hs hp | beginRetry he hs hv hp =>
    rw [hplan] at hp
    cases hp
  | leaveRunning hl he hs =>
    rw [hs] at hs₀
    simp [beforeVerification] at hs₀
  | leaveIdle hl he hs hedge => exact .inr ⟨hplan, leaving_beforeVerification hl⟩
  | requestReplan he hs hr =>
    by_cases hv : Verified a.events
    · exact .inl hv.append
    · exact absurd ⟨hv, hs, hr⟩ hok
  | acceptRetainedOutcome he hs => exact .inr ⟨hplan, rfl⟩
  | cancelIdle he hs => exact .inr ⟨hplan, rfl⟩

theorem IdentityInv.safe {a : PrivacyRequestAggregate} (h : IdentityInv a) : IdentitySafe a := by
  intro hs
  rcases h with hv | ⟨-, hb⟩
  · exact hv
  · rw [hs] at hb
    simp [beforeVerification] at hb

theorem Always.imp {P Q : PrivacyRequestAggregate → Prop} (hPQ : ∀ a, P a → Q a)
    {a : PrivacyRequestAggregate} {calls : List Call} (h : Always P a calls) :
    Always Q a calls := by
  induction calls generalizing a with
  | nil => exact hPQ a h
  | cons call calls ih => exact ⟨hPQ a h.1, ih h.2⟩

/-! ## What an unverified replan leads to -/

instance infiniteString : Infinite String :=
  Infinite.of_injective (fun n : ℕ => String.ofList (List.replicate n 'a')) fun m n h => by
    simpa using congrArg (fun s : String => s.toList.length) h

theorem exists_freshAttemptId (a : PrivacyRequestAggregate) : ∃ id, FreshAttemptId a id := by
  obtain ⟨id, hid⟩ := Infinite.exists_notMem_finset (insert "" (a.attempts.map (·.id)).toFinset)
  refine ⟨id, ?_⟩
  simp at hid
  simp [FreshAttemptId, hid.1]
  exact fun x hx h => hid.2 x hx h

/-- A plan nobody has to approve, of the version after the last one. -/
def nextAutomaticPlan (a : PrivacyRequestAggregate) : AttachedPlan where
  planId := "plan"
  planVersion := a.latestPlanVersion + 1
  planFingerprint := "fingerprint"
  requiresApproval := false

/-- In `planning`, attaching such a plan and authorizing it are both accepted. -/
theorem exists_authorization {a : PrivacyRequestAggregate} (hs : a.status = .planning)
    (hv : ¬ Verified a.events) : ∃ calls, ¬ IdentitySafe (after a calls) := by
  obtain ⟨attemptId, hid⟩ := exists_freshAttemptId a
  let plan := nextAutomaticPlan a
  let b := advance
    { a with plan := some plan, approval := none, latestPlanVersion := plan.planVersion }
    .planning (executionPlanCreated a.id plan)
  let auth : ExecutionAuthorization :=
    { toPlanBinding := plan.toPlanBinding, agentId := "agent", attemptId,
      allowedStepIds := ["step"] }
  have hattach : invoke a (atNoon (.attachPlan plan)) = (.ok (), b) := by
    simp [invoke, atNoon, Command.method, attachPlan, record, hs, plan, nextAutomaticPlan, b,
      advance]
  have hauth : ∃ c, invoke b (atNoon (.authorizeExecution auth)) = (.ok (), c) := by
    have hedge : Edge .planning .executionAuthorized := by decide
    have hscope : StepScope ["step"] := by simp [StepScope, allDistinct]; decide
    have hbound : PlanBound b plan.toPlanBinding := ⟨plan, rfl, rfl⟩
    have hfresh : FreshAttemptId b attemptId := hid
    have hbs : b.status = .planning := rfl
    have hbp : b.plan = some plan := rfl
    have hreq : plan.requiresApproval = false := rfl
    simp [invoke, atNoon, Command.method, authorizeExecution, hbs, hbp, hreq, hedge, hscope,
      hbound, hfresh, auth]
  obtain ⟨c, hc⟩ := hauth
  refine ⟨[atNoon (.attachPlan plan), atNoon (.authorizeExecution auth)], ?_⟩
  have hafter : after a [atNoon (.attachPlan plan), atNoon (.authorizeExecution auth)] = c := by
    simp [after, hattach, hc]
  rw [hafter]
  cases invoke_ok_step hc with
  | authorizeExecution he =>
    intro hsafe
    obtain ⟨e', hmem, ht⟩ := hsafe rfl
    simp [b, executionPlanCreated, event] at hmem
    rcases hmem with hmem | rfl | rfl
    · exact hv ⟨e', hmem, ht⟩
    · simp at ht
    · rw [he] at ht
      simp at ht
  | leaveRunning hl | leaveIdle hl => cases hl

theorem unverifiedReplan_accepted {a : PrivacyRequestAggregate} {call : Call}
    (h : UnverifiedReplan a call) :
    (invoke a call).2.status = .planning ∧ ¬ Verified (invoke a call).2.events := by
  obtain ⟨now, command⟩ := call
  obtain ⟨hv, h⟩ := h
  cases command with
  | requestReplan actorId reason =>
    obtain ⟨hs, hr⟩ := h
    have hacc : ∃ b, invoke a ⟨now, .requestReplan actorId reason⟩ = (.ok (), b) := by
      have hs' := hs
      simp [replannable] at hs'
      simp [invoke, Command.method, requestReplan, hs, hr, (edge_of_replannable hs).1]
    obtain ⟨b, hb⟩ := hacc
    rw [hb]
    cases invoke_ok_step hb with
    | requestReplan he =>
      refine ⟨rfl, ?_⟩
      rintro ⟨e', hmem, ht⟩
      rcases List.mem_append.mp hmem with hmem | hmem
      · exact hv ⟨e', hmem, ht⟩
      · rw [List.mem_singleton.mp hmem, he] at ht
        simp at ht
    | leaveRunning hl | leaveIdle hl => cases hl
  | _ => exact absurd h id

/-- **Identity safety.** In every run in which no `requestReplan` is accepted before the
    requester is verified, an attempt is authorized only after an `IdentityVerified` event. Every
    run with such a replan goes on to one that authorizes an unverified requester's request. -/
theorem identity_safety_unless_unverifiedReplan (input : CreatePrivacyRequest) :
    (∀ calls, Along (fun a call => ¬ UnverifiedReplan a call) (create input) calls →
      Always IdentitySafe (create input) calls) ∧
    (∀ calls call, UnverifiedReplan (after (create input) calls) call →
      ∃ more, ¬ Always IdentitySafe (create input) (calls ++ call :: more)) := by
  constructor
  · intro calls hok
    have hinit : IdentityInv (create input) := .inr ⟨rfl, rfl⟩
    exact (always_of_step (fun _ _ _ h hok hstep => hstep.identityInv h hok) hinit hok).imp
      fun _ h => h.safe
  · intro calls call h
    obtain ⟨hs, hv⟩ := unverifiedReplan_accepted h
    obtain ⟨more, hmore⟩ := exists_authorization hs hv
    refine ⟨more, fun hall => hmore ?_⟩
    exact hall.append.2.last

/-- Verification pending, failed, replanned: planning without a verification. -/
def unverifiedRun : List Call :=
  [.beginIdentityVerification "actor-1", .fail "identity", .requestReplan "actor-1" "retry",
    .attachPlan { planOne with requiresApproval := false },
    .authorizeExecution authorizeOne].map atNoon

theorem identity_safety_fails_in_unverifiedRun :
    (after (create requestOne) unverifiedRun).status = .executionAuthorized ∧
      ¬ Verified (after (create requestOne) unverifiedRun).events := by
  decide

theorem identity_safety_of_failedRun : Always IdentitySafe (create requestOne) failedRun :=
  (identity_safety_unless_unverifiedReplan requestOne).1 failedRun (by decide)

end ForgetOps.Domain
