import ForgetOps.Domain.CommandSpec

/-
  How an aggregate in memory moves on, by commands and by acknowledgements of its events.

  `baseVersion` is the version its pending events start from: the version a save expects to find.
  A command keeps it and appends an event, an acknowledgement raises it and drops events.
-/

namespace ForgetOps.Domain

open PrivacyRequestAggregate

def baseVersion (a : PrivacyRequestAggregate) : Int := a.version - a.events.length

/-- No command is accepted in a finished status. -/
theorem Step.not_finished {a a' : PrivacyRequestAggregate} {call : Call} (h : Step a call a') :
    ¬ finished a.status := by
  intro hf
  have hedge {next : PrivacyRequestStatus} (h : Edge a.status next) : False :=
    not_edge_of_finished hf h
  have hstatus {s : PrivacyRequestStatus} (hs : a.status = s) (hns : ¬ finished s) : False :=
    hns (hs ▸ hf)
  cases h with
  | beginIdentityVerification _ hs | markIdentityVerified _ hs | leaveIdle _ _ _ hs
  | cancelIdle _ _ hs => exact hedge hs
  | beginPlanning _ hs | attachPlan hs | approvePlan hs | rejectForChanges _ hs
  | rejectForGood _ hs | markExecuting _ hs | complete _ hs | leaveRunning _ _ hs
  | invalidateAuthorization _ hs | cancelAuthorized _ hs => exact hstatus hs (by decide)
  | authorizeExecution _ hs => rcases hs with hs | hs <;> exact hstatus hs (by decide)
  | acceptRetainedOutcome _ hs => rcases hs with hs | hs <;> exact hstatus hs (by decide)
  | requestReplan _ hs | beginRetry _ hs => exact hedge (edge_of_replannable hs).1

/-- From `a` the aggregate can have moved on to `a'`. -/
structure Progress (a a' : PrivacyRequestAggregate) : Prop where
  input : a'.toCreatePrivacyRequest = a.toCreatePrivacyRequest
  base : baseVersion a ≤ baseVersion a'
  events : baseVersion a = baseVersion a' →
    ∃ more, a'.events = a.events ++ more ∧ Path more.length a.status a'.status
  finished : finished a.status → a'.status = a.status ∧ a'.version = a.version

variable {a a' a'' : PrivacyRequestAggregate}

theorem Progress.refl (a : PrivacyRequestAggregate) : Progress a a where
  input := rfl
  base := le_refl _
  events _ := ⟨[], (List.append_nil _).symm, .nil _⟩
  finished _ := ⟨rfl, rfl⟩

theorem Progress.trans (h : Progress a a') (h' : Progress a' a'') : Progress a a'' where
  input := h'.input.trans h.input
  base := h.base.trans h'.base
  events := by
    intro heq
    have heq₁ : baseVersion a = baseVersion a' := le_antisymm h.base (heq ▸ h'.base)
    obtain ⟨more, hmore, hpath⟩ := h.events heq₁
    obtain ⟨more', hmore', hpath'⟩ := h'.events (heq₁ ▸ heq)
    refine ⟨more ++ more', by rw [hmore', hmore, List.append_assoc], ?_⟩
    rw [List.length_append]
    exact hpath.trans hpath'
  finished := by
    intro hf
    obtain ⟨hstatus, hversion⟩ := h.finished hf
    obtain ⟨hstatus', hversion'⟩ := h'.finished (hstatus ▸ hf)
    exact ⟨hstatus'.trans hstatus, hversion'.trans hversion⟩

/-- While nothing is acknowledged the version grows with the events. -/
theorem version_eq_of_baseVersion_eq (heq : baseVersion a = baseVersion a')
    {more : List DomainEvent} (hmore : a'.events = a.events ++ more) :
    a'.version = a.version + more.length := by
  have hlen := congrArg List.length hmore
  rw [List.length_append] at hlen
  unfold baseVersion at heq
  omega

theorem Step.baseVersion_eq {call : Call} (h : Step a call a') :
    baseVersion a' = baseVersion a := by
  obtain ⟨e, hevents, hversion, -⟩ := h.records
  unfold baseVersion
  rw [hevents, hversion, List.length_append, List.length_singleton]
  omega

theorem Step.progress {call : Call} (h : Step a call a') : Progress a a' where
  input := by
    obtain ⟨-, -, -, hinput⟩ := h.records
    exact hinput
  base := h.baseVersion_eq.ge
  events := by
    intro _
    obtain ⟨e, hevents, -, -⟩ := h.records
    exact ⟨[e], hevents, (Path.nil _).snoc h.edgeOrStay⟩
  finished hf := absurd hf h.not_finished

theorem progress_invoke (a : PrivacyRequestAggregate) (call : Call) :
    Progress a (invoke a call).2 := by
  rcases invoke_cases a call with ⟨_, h⟩ | ⟨_, h⟩
  · exact h.progress
  · rw [h]
    exact .refl a

/-- The aggregate after `markEventsCommitted(count)`, whether it threw or not. -/
def acknowledged (a : PrivacyRequestAggregate) (count : Nat) : PrivacyRequestAggregate :=
  if count ≤ a.events.length then { a with events := a.events.drop count } else a

theorem markEventsCommitted_exec (a : PrivacyRequestAggregate) (count : Nat) :
    ((markEventsCommitted count).exec a).2 = acknowledged a count := by
  rw [acknowledged, markEventsCommitted, exec_get_bind, exec_bind]
  by_cases h : count ≤ a.events.length
  · rw [if_pos h]
    simp [throwIf, Nat.not_lt.mpr h]
  · rw [if_neg h]
    simp [throwIf, Nat.lt_of_not_le h]

theorem baseVersion_acknowledged {count : Nat} (h : count ≤ a.events.length) :
    baseVersion (acknowledged a count) = baseVersion a + count := by
  rw [acknowledged, if_pos h]
  simp only [baseVersion, List.length_drop]
  omega

theorem progress_acknowledged (a : PrivacyRequestAggregate) (count : Nat) :
    Progress a (acknowledged a count) := by
  by_cases h : count ≤ a.events.length
  · have hbase := baseVersion_acknowledged h
    constructor
    · rw [acknowledged, if_pos h]
    · omega
    · intro heq
      have hzero : count = 0 := by omega
      subst hzero
      rw [acknowledged, if_pos h]
      exact ⟨[], by simp, .nil _⟩
    · intro _
      rw [acknowledged, if_pos h]
      exact ⟨rfl, rfl⟩
  · rw [acknowledged, if_neg h]
    exact .refl a

end ForgetOps.Domain
