import ForgetOps.Domain.CommandSpec

/-
  Approval safety of the aggregate, over whole histories.

  Calls never take events off the queue, so in a run from `create` the queue `events` is the list
  of every event emitted so far, in order. `ApprovalInv` ties the plan, the approval and the
  status to that list: the plan the request carries is the one of the last `ExecutionPlanCreated`,
  nothing since then withdrew it, and outside `awaiting_approval` it is `Cleared`. Retry never
  looks at the approval; it is covered because every status it starts from is `Cleared`.
-/

namespace ForgetOps.Domain

open PrivacyRequestAggregate

/-! ## Reading events back -/

/-- The plan an event's payload names. -/
def eventBinding (e : DomainEvent) : Option PlanBinding :=
  match e.payload.lookup "planId", e.payload.lookup "planVersion",
      e.payload.lookup "planFingerprint" with
  | some (.string planId), some (.number planVersion), some (.string planFingerprint) =>
    some { planId, planVersion, planFingerprint }
  | _, _, _ => none

def eventRequiresApproval (e : DomainEvent) : Bool :=
  e.payload.lookup "requiresApproval" = some (.boolean true)

/-- The `planVersion`s of the `ExecutionPlanCreated` events of a history, in order. -/
def createdPlanVersions (history : List DomainEvent) : List Int :=
  history.filterMap fun e =>
    if e.type = "ExecutionPlanCreated" then (eventBinding e).map (·.planVersion) else none

/-- The event withdraws or replaces the plan attached before it. -/
def Withdraws (e : DomainEvent) : Prop :=
  e.type = "ExecutionPlanCreated" ∨ e.type = "ReplanRequested" ∨ e.type = "ExecutionPlanRejected"

def Invalidates (e : DomainEvent) : Prop := e.type = "ExecutionAuthorizationInvalidated"

/-- An `ExecutionPlanApproved` for exactly `binding`, with no invalidation after it. -/
def ApprovedSince (binding : PlanBinding) (since : List DomainEvent) : Prop :=
  ∃ before approved rest, since = before ++ approved :: rest ∧
    approved.type = "ExecutionPlanApproved" ∧ eventBinding approved = some binding ∧
      ∀ e ∈ rest, ¬ Invalidates e

/-- Whatever approval the plan needs has been given in `since`, the events after its attach. -/
def Cleared (plan : AttachedPlan) (since : List DomainEvent) : Prop :=
  plan.requiresApproval = true ∨ (∃ e ∈ since, Invalidates e) →
    ApprovedSince plan.toPlanBinding since

@[simp] theorem eventBinding_executionPlanCreated (id : String) (plan : AttachedPlan) :
    eventBinding (executionPlanCreated id plan) = some plan.toPlanBinding := rfl

@[simp] theorem eventRequiresApproval_executionPlanCreated (id : String) (plan : AttachedPlan) :
    eventRequiresApproval (executionPlanCreated id plan) = plan.requiresApproval := by
  cases h : plan.requiresApproval <;>
    simp [eventRequiresApproval, executionPlanCreated, event, List.lookup_cons, h]

@[simp] theorem executionPlanCreated_type (id : String) (plan : AttachedPlan) :
    (executionPlanCreated id plan).type = "ExecutionPlanCreated" := rfl

@[simp] theorem executionPlanApproved_type (id : String) (approval : PlanApproval) :
    (executionPlanApproved id approval).type = "ExecutionPlanApproved" := rfl

@[simp] theorem eventBinding_executionPlanApproved (id : String) (approval : PlanApproval) :
    eventBinding (executionPlanApproved id approval) = some approval.toPlanBinding := rfl

theorem createdPlanVersions_append (h h' : List DomainEvent) :
    createdPlanVersions (h ++ h') = createdPlanVersions h ++ createdPlanVersions h' :=
  List.filterMap_append

theorem createdPlanVersions_singleton_of_ne {e : DomainEvent}
    (he : e.type ≠ "ExecutionPlanCreated") : createdPlanVersions [e] = [] := by
  simp [createdPlanVersions, he]

theorem ApprovedSince.snoc {binding : PlanBinding} {since : List DomainEvent} {e : DomainEvent}
    (h : ApprovedSince binding since) (he : ¬ Invalidates e) :
    ApprovedSince binding (since ++ [e]) := by
  obtain ⟨before, approved, rest, rfl, ht, hb, hr⟩ := h
  refine ⟨before, approved, rest ++ [e], by simp, ht, hb, ?_⟩
  intro x hx
  rcases List.mem_append.mp hx with hx | hx
  · exact hr x hx
  · rw [List.mem_singleton.mp hx]
    exact he

theorem Cleared.snoc {plan : AttachedPlan} {since : List DomainEvent} {e : DomainEvent}
    (h : Cleared plan since) (he : ¬ Invalidates e) : Cleared plan (since ++ [e]) := by
  intro hneed
  refine (h ?_).snoc he
  rcases hneed with hreq | ⟨x, hx, hinv⟩
  · exact .inl hreq
  · rcases List.mem_append.mp hx with hx | hx
    · exact .inr ⟨x, hx, hinv⟩
    · rw [List.mem_singleton.mp hx] at hinv
      exact absurd hinv he

/-! ## The invariant -/

/-- `since` is what happened after the plan was attached, and nothing in it withdrew the plan. -/
def AttachedSince (a : PrivacyRequestAggregate) (plan : AttachedPlan)
    (since : List DomainEvent) : Prop :=
  (∃ before, a.events = before ++ executionPlanCreated a.id plan :: since) ∧
    ∀ e ∈ since, ¬ Withdraws e

structure ApprovalInv (a : PrivacyRequestAggregate) : Prop where
  latest : ∀ v ∈ createdPlanVersions a.events, v ≤ a.latestPlanVersion
  increasing : (createdPlanVersions a.events).Pairwise (· < ·)
  attached : a.status ≠ .cancelled → ∀ plan, a.plan = some plan →
    ∃ since, AttachedSince a plan since ∧
      (a.status ≠ .awaitingApproval → Cleared plan since) ∧
      (a.approval ≠ none → ApprovedSince plan.toPlanBinding since)

theorem approvalInv_create (input : CreatePrivacyRequest) : ApprovalInv (create input) where
  latest := by simp [create, createdPlanVersions, event]
  increasing := by simp [create, createdPlanVersions, event]
  attached := by simp [create]

/-- A call that leaves the plan alone, and either keeps the approval without invalidating, or
    drops it and waits for a new one. -/
theorem ApprovalInv.keep {a a' : PrivacyRequestAggregate} {e : DomainEvent} (h : ApprovalInv a)
    (hev : a'.events = a.events ++ [e]) (hid : a'.id = a.id)
    (hlatest : a'.latestPlanVersion = a.latestPlanVersion) (hplan : a'.plan = a.plan)
    (hs : a.status ≠ .cancelled) (hw : ¬ Withdraws e)
    (happ : (a'.approval = a.approval ∧ ¬ Invalidates e) ∨
      (a'.approval = none ∧ a'.status = .awaitingApproval))
    (hclear : a'.status ≠ .awaitingApproval → a.status = .awaitingApproval →
      a.approval ≠ none ∨ a'.status = .cancelled) : ApprovalInv a' where
  latest := by
    have he : e.type ≠ "ExecutionPlanCreated" := fun ht => hw (.inl ht)
    rw [hev, createdPlanVersions_append, createdPlanVersions_singleton_of_ne he, hlatest,
      List.append_nil]
    exact h.latest
  increasing := by
    have he : e.type ≠ "ExecutionPlanCreated" := fun ht => hw (.inl ht)
    rw [hev, createdPlanVersions_append, createdPlanVersions_singleton_of_ne he, List.append_nil]
    exact h.increasing
  attached := by
    intro hs' plan hp
    rw [hplan] at hp
    obtain ⟨since, ⟨⟨before, hb⟩, hsince⟩, hcl, hap⟩ := h.attached hs plan hp
    refine ⟨since ++ [e], ⟨⟨before, ?_⟩, ?_⟩, ?_, ?_⟩
    · rw [hev, hb, hid]
      simp
    · intro x hx
      rcases List.mem_append.mp hx with hx | hx
      · exact hsince x hx
      · rw [List.mem_singleton.mp hx]
        exact hw
    · intro hna
      have hi : ¬ Invalidates e := by
        rcases happ with happ | happ
        · exact happ.2
        · exact absurd happ.2 hna
      by_cases ha : a.status = .awaitingApproval
      · rcases hclear hna ha with h' | h'
        · exact fun _ => (hap h').snoc hi
        · exact absurd h' hs'
      · exact (hcl ha).snoc hi
    · intro hne
      rcases happ with ⟨happ, hi⟩ | ⟨happ, -⟩
      · rw [happ] at hne
        exact (hap hne).snoc hi
      · exact absurd happ hne

/-- A call after which the request carries no plan, or is cancelled. -/
theorem ApprovalInv.drop {a a' : PrivacyRequestAggregate} {e : DomainEvent} (h : ApprovalInv a)
    (hev : a'.events = a.events ++ [e]) (hlatest : a'.latestPlanVersion = a.latestPlanVersion)
    (he : e.type ≠ "ExecutionPlanCreated") (hd : a'.plan = none ∨ a'.status = .cancelled) :
    ApprovalInv a' where
  latest := by
    rw [hev, createdPlanVersions_append, createdPlanVersions_singleton_of_ne he, hlatest,
      List.append_nil]
    exact h.latest
  increasing := by
    rw [hev, createdPlanVersions_append, createdPlanVersions_singleton_of_ne he, List.append_nil]
    exact h.increasing
  attached := by
    intro hs plan hp
    rcases hd with hd | hd
    · rw [hd] at hp
      cases hp
    · exact absurd hd hs

theorem approvalInv_attach {a : PrivacyRequestAggregate} {plan : AttachedPlan}
    (h : ApprovalInv a) (hv : a.latestPlanVersion < plan.planVersion) :
    ApprovalInv (advance
      { a with plan := some plan, approval := none, latestPlanVersion := plan.planVersion }
      (if plan.requiresApproval then .awaitingApproval else .planning)
      (executionPlanCreated a.id plan)) where
  latest := by
    have hone : createdPlanVersions [executionPlanCreated a.id plan] = [plan.planVersion] := rfl
    intro v hmem
    simp only [advance_events, advance_latestPlanVersion, createdPlanVersions_append, hone,
      List.mem_append, List.mem_singleton] at hmem ⊢
    rcases hmem with hmem | rfl
    · have := h.latest v hmem
      omega
    · exact le_refl _
  increasing := by
    have hone : createdPlanVersions [executionPlanCreated a.id plan] = [plan.planVersion] := rfl
    rw [advance_events, createdPlanVersions_append, hone, List.pairwise_append]
    refine ⟨h.increasing, List.pairwise_singleton _ _, ?_⟩
    intro v hmem w hw
    rw [List.mem_singleton.mp hw]
    have := h.latest v hmem
    omega
  attached := by
    intro _ plan' hp
    obtain rfl : plan = plan' := by simpa using hp
    refine ⟨[], ⟨⟨a.events, rfl⟩, by simp⟩, ?_, by simp⟩
    intro hna hneed
    -- a plan that requires approval moved the request to `awaiting_approval`
    cases hr : plan.requiresApproval <;> simp_all

theorem approvalInv_approve {a : PrivacyRequestAggregate} {approval : PlanApproval}
    (h : ApprovalInv a) (hs : a.status = .awaitingApproval)
    (hb : PlanBound a approval.toPlanBinding) :
    ApprovalInv (advance { a with approval := some approval } .awaitingApproval
      (executionPlanApproved a.id approval)) where
  latest := by
    rw [advance_events, createdPlanVersions_append,
      createdPlanVersions_singleton_of_ne (by simp), List.append_nil]
    exact h.latest
  increasing := by
    rw [advance_events, createdPlanVersions_append,
      createdPlanVersions_singleton_of_ne (by simp), List.append_nil]
    exact h.increasing
  attached := by
    intro _ plan hp
    obtain ⟨plan', hp', hb⟩ := hb
    obtain rfl : plan' = plan := by
      have hp : a.plan = some plan := hp
      rw [hp'] at hp
      exact Option.some.inj hp
    obtain ⟨since, ⟨⟨before, hbef⟩, hsince⟩, -, -⟩ := h.attached (by simp [hs]) _ hp'
    refine ⟨since ++ [executionPlanApproved a.id approval], ⟨⟨before, ?_⟩, ?_⟩, by simp, ?_⟩
    · rw [advance_events, hbef]
      simp
    · intro x hx
      rcases List.mem_append.mp hx with hx | hx
      · exact hsince x hx
      · rw [List.mem_singleton.mp hx]
        simp [Withdraws]
    · intro _
      exact ⟨since, _, [], rfl, rfl, by rw [eventBinding_executionPlanApproved, hb], by simp⟩

theorem leaving_quiet {command : Command} {next : PrivacyRequestStatus}
    {ended : ExecutionAttemptStatus} {type : String} {e : DomainEvent}
    (hl : leaving command = some (next, ended, type)) (he : e.type = type) :
    ¬ Withdraws e ∧ ¬ Invalidates e := by
  subst he
  cases command <;> simp [leaving] at hl <;> obtain ⟨-, -, ht⟩ := hl <;>
    simp [Withdraws, Invalidates, ← ht]

theorem leaving_from {command : Command} {s next : PrivacyRequestStatus}
    {ended : ExecutionAttemptStatus} {type : String}
    (hl : leaving command = some (next, ended, type)) (hedge : Edge s next) :
    s ≠ .cancelled ∧ s ≠ .awaitingApproval := by
  cases command <;> simp [leaving] at hl <;> obtain ⟨rfl, -⟩ := hl <;> revert hedge <;>
    cases s <;> decide

/-- Every accepted call keeps the invariant. -/
theorem Step.approvalInv {a a' : PrivacyRequestAggregate} {call : Call} (hstep : Step a call a')
    (h : ApprovalInv a) : ApprovalInv a' := by
  cases hstep with
  | attachPlan hs hv => exact approvalInv_attach h hv
  | approvePlan hs hb => exact approvalInv_approve h hs hb
  | rejectForChanges he hs => exact h.drop rfl rfl (by simp [he]) (.inl rfl)
  | rejectForGood he hs => exact h.drop rfl rfl (by simp [he]) (.inr rfl)
  | requestReplan he hs => exact h.drop rfl rfl (by simp [he]) (.inl rfl)
  | cancelAuthorized he hs => exact h.drop rfl rfl (by simp [he]) (.inr rfl)
  | cancelIdle he hs => exact h.drop rfl rfl (by simp [he]) (.inr rfl)
  | beginIdentityVerification he hs | markIdentityVerified he hs =>
    refine h.keep rfl rfl rfl rfl ?_ (by simp [Withdraws, he]) (.inl ⟨rfl, by simp [Invalidates, he]⟩)
      ?_
    · intro hc
      rw [hc] at hs
      exact absurd hs (by decide)
    · intro _ ha
      rw [ha] at hs
      exact absurd hs (by decide)
  | beginPlanning he hs =>
    exact h.keep rfl rfl rfl rfl (by simp [hs]) (by simp [Withdraws, he])
      (.inl ⟨rfl, by simp [Invalidates, he]⟩) (by simp [hs])
  | authorizeExecution he hs hp hb hauto happ =>
    exact h.keep rfl rfl rfl rfl (by rcases hs with hs | hs <;> simp [hs])
      (by simp [Withdraws, he]) (.inl ⟨rfl, by simp [Invalidates, he]⟩)
      (fun _ ha => .inl (happ ha))
  | markExecuting he hs | complete he hs =>
    exact h.keep rfl rfl rfl rfl (by simp [hs]) (by simp [Withdraws, he])
      (.inl ⟨rfl, by simp [Invalidates, he]⟩) (by simp [hs])
  | @leaveRunning _ _ command _ _ _ _ _ hl he hs =>
    obtain ⟨hw, hi⟩ := leaving_quiet hl he
    exact h.keep rfl rfl rfl rfl (by simp [hs]) hw (.inl ⟨rfl, hi⟩) (by simp [hs])
  | @leaveIdle _ command _ _ _ _ hl he hs hedge =>
    obtain ⟨hw, hi⟩ := leaving_quiet hl he
    obtain ⟨hc, ha⟩ := leaving_from hl hedge
    exact h.keep rfl rfl rfl rfl hc hw (.inl ⟨rfl, hi⟩) (fun _ h' => absurd h' ha)
  | beginRetry he hs =>
    refine h.keep rfl rfl rfl rfl ?_ (by simp [Withdraws, he])
      (.inl ⟨rfl, by simp [Invalidates, he]⟩) ?_
    · intro hc
      simp [hc, replannable] at hs
    · intro _ ha
      simp [ha, replannable] at hs
  | invalidateAuthorization he hs =>
    exact h.keep rfl rfl rfl rfl (by simp [hs]) (by simp [Withdraws, he]) (.inr ⟨rfl, rfl⟩)
      (by simp [hs])
  | acceptRetainedOutcome he hs =>
    exact h.keep rfl rfl rfl rfl (by rcases hs with hs | hs <;> simp [hs])
      (by simp [Withdraws, he]) (.inl ⟨rfl, by simp [Invalidates, he]⟩)
      (by rcases hs with hs | hs <;> simp [hs])

theorem approvalInv_after (input : CreatePrivacyRequest) (calls : List Call) :
    ApprovalInv (after (create input) calls) :=
  after_induction (approvalInv_create input) (fun _ _ _ h hstep => hstep.approvalInv h) calls

/-! ## Approval safety -/

/-- A call that makes the ledger longer authorized the plan the request carries, from a status
    in which that plan is cleared. -/
theorem Step.appends {a a' : PrivacyRequestAggregate} {call : Call} {attempt : ExecutionAttempt}
    (hstep : Step a call a') (happ : a'.attempts = a.attempts ++ [attempt]) :
    ∃ plan, a.plan = some plan ∧ attempt.toPlanBinding = plan.toPlanBinding ∧
      a.status ≠ .cancelled ∧ (a.status = .awaitingApproval → a.approval ≠ none) := by
  have hlen := congrArg List.length happ
  cases hstep with
  | authorizeExecution he hs hp hb _ hap =>
    have hatt := List.append_cancel_left happ
    obtain rfl := (List.cons.inj hatt).1
    exact ⟨_, hp, hb.symm, by rcases hs with hs | hs <;> simp [hs], hap⟩
  | beginRetry he hs hv hp =>
    have hatt := List.append_cancel_left happ
    obtain rfl := (List.cons.inj hatt).1
    refine ⟨_, hp, rfl, ?_, ?_⟩
    · intro hc
      simp [hc, replannable] at hs
    · intro hc
      simp [hc, replannable] at hs
  | _ => simp at hlen

/-- **Approval safety.** In every run from `create` the versions of the plans attached increase
    strictly, and every attempt a further call appends carries the binding of the last
    `ExecutionPlanCreated`, which nothing withdrew since. If that plan requires approval, or an
    authorization for it was invalidated, the same binding was approved after the attach and
    after the last invalidation. -/
theorem approval_safety (input : CreatePrivacyRequest) (calls : List Call) :
    (createdPlanVersions (after (create input) calls).events).Pairwise (· < ·) ∧
      ∀ call attempt,
        (invoke (after (create input) calls) call).2.attempts =
            (after (create input) calls).attempts ++ [attempt] →
        ∃ before created since,
          (after (create input) calls).events = before ++ created :: since ∧
          created.type = "ExecutionPlanCreated" ∧
          eventBinding created = some attempt.toPlanBinding ∧
          (∀ e ∈ since, ¬ Withdraws e) ∧
          (eventRequiresApproval created = true ∨ (∃ e ∈ since, Invalidates e) →
            ApprovedSince attempt.toPlanBinding since) := by
  have hinv := approvalInv_after input calls
  refine ⟨hinv.increasing, ?_⟩
  intro call attempt happ
  have hstep : Step (after (create input) calls) call
      (invoke (after (create input) calls) call).2 := by
    rcases invoke_cases (after (create input) calls) call with ⟨_, h⟩ | ⟨_, h⟩
    · exact h
    · rw [h] at happ
      simp at happ
  obtain ⟨plan, hp, hb, hs, hap⟩ := hstep.appends happ
  obtain ⟨since, ⟨⟨before, hev⟩, hw⟩, hcl, hsince⟩ := hinv.attached hs plan hp
  refine ⟨before, _, since, hev, rfl, ?_, hw, ?_⟩
  · rw [eventBinding_executionPlanCreated, hb]
  · intro hneed
    rw [eventRequiresApproval_executionPlanCreated] at hneed
    rw [hb]
    by_cases ha : (after (create input) calls).status = .awaitingApproval
    · exact hsince (hap ha)
    · exact hcl ha hneed

/-- The retry of `failedRun` is covered by the approval given before the first attempt. -/
theorem approval_safety_of_retry :
    ∃ before created since,
      (after (create requestOne) failedRun).events = before ++ created :: since ∧
      created.type = "ExecutionPlanCreated" ∧
      eventBinding created = some planOne.toPlanBinding ∧ (∀ e ∈ since, ¬ Withdraws e) ∧
      (eventRequiresApproval created = true ∨ (∃ e ∈ since, Invalidates e) →
        ApprovedSince planOne.toPlanBinding since) :=
  (approval_safety requestOne failedRun).2 (atNoon (.beginRetry "attempt-2" ["step-1"] 8))
    { toPlanBinding := planOne.toPlanBinding, id := "attempt-2", requestId := "request-1",
      attemptNumber := 2, kind := .retry, allowedStepIds := ["step-1"], status := .authorized,
      createdAt := "2026-07-21T12:00:00.000Z", completedAt := none }
    (by decide)

end ForgetOps.Domain
