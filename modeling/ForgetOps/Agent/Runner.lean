import ForgetOps.Library.CrashLogic

/-
  `Runner::run_step` (`agent/crates/agent-core/src/runner.rs`) on the steps of
  `agent/crates/agent-core/src/dag.rs`.

  The awaits are effects. The store keeps one step under each id (`save_execution_step` is an
  upsert, `agent/crates/agent-store/src/lib.rs`); what it encrypts it reads back. The connector
  answers anything. A save that fails may or may not have taken effect, and the runner may crash at
  every await. Beside the store an `Execution` keeps the log of what was persisted, executed and
  verified.
-/

namespace ForgetOps.Agent

open CrashLogic

/-! ## Steps -/

inductive StepAction where
  | discover
  | export
  | erase
  | verify
  deriving DecidableEq, Repr

inductive StepStatus where
  | pending
  | prepared
  | inFlight
  | verifying
  | succeeded
  | failed
  | needsReview
  | blocked
  deriving DecidableEq, Repr

inductive VerificationExpectation where
  | absent
  | anonymized
  | exported
  | retained
  deriving DecidableEq, Repr

structure ExecutionStep where
  id : String
  operationKey : String
  connector : String
  action : StepAction
  dependencies : List String
  status : StepStatus
  attempts : UInt32
  desiredState : VerificationExpectation
  blockReason : Option String
  deriving DecidableEq, Repr

structure ConnectorError where
  message : String
  uncertain : Bool
  deriving DecidableEq, Repr

def ConnectorError.isUncertain (e : ConnectorError) : Bool := e.uncertain

inductive RunnerError where
  | stepNotFound
  | invalidStepState
  | store (message : String)
  | connector (error : ConnectorError)
  deriving DecidableEq, Repr

inductive ExecutionResult where
  | succeeded
  | failed
  | needsReview
  deriving DecidableEq, Repr

/-! ## Effects -/

/-- The calls `run_step` awaits. -/
inductive Await where
  | step (id : String)
  | saveStep (step : ExecutionStep)
  | execute (step : ExecutionStep)
  | reconcile (step : ExecutionStep)
  | verify (step : ExecutionStep)

def Await.Answer : Await → Type
  | .step _ => Except RunnerError (Option ExecutionStep)
  | .saveStep _ => Except RunnerError Unit
  | .execute _ => Except ConnectorError Unit
  | .reconcile _ => Except ConnectorError Unit
  | .verify _ => Except ConnectorError Bool

inductive RunnerEvent where
  | persisted (step : ExecutionStep)
  /-- `execute` was called while the store held `durable`. -/
  | executed (step : ExecutionStep) (durable : Option ExecutionStep)
  | verified (answer : Except ConnectorError Bool)
  deriving DecidableEq

structure Execution where
  stored : String → Option ExecutionStep
  log : List RunnerEvent

def Execution.note (s : Execution) (e : RunnerEvent) : Execution := { s with log := s.log ++ [e] }

/-- The durable effect of `save_step`. -/
def Execution.persist (s : Execution) (step : ExecutionStep) : Execution where
  stored := Function.update s.stored step.id (some step)
  log := s.log ++ [.persisted step]

/-- What the store and an arbitrary connector may answer. -/
def environment : Env Await Await.Answer Execution
  | s, .step id, r, s' => s' = s ∧ (r = .ok (s.stored id) ∨ ∃ e, r = .error e)
  | s, .saveStep step, r, s' => s' = s.persist step ∨ (s' = s ∧ ∃ e, r = .error e)
  | s, .execute step, _, s' => s' = s.note (.executed step (s.stored step.id))
  | s, .reconcile _, _, s' => s' = s
  | s, .verify _, r, s' => s' = s.note (.verified r)

/-! ## `run_step` -/

abbrev Async (α : Type) := ExceptT RunnerError (Prog Await Await.Answer) α

def step (id : String) : Async (Option ExecutionStep) := ExceptT.mk (Prog.effect (Await.step id))

def saveStep (step : ExecutionStep) : Async Unit := ExceptT.mk (Prog.effect (Await.saveStep step))

def execute (step : ExecutionStep) : Async (Except ConnectorError Unit) :=
  ExceptT.lift (Prog.effect (Await.execute step))

def reconcile (step : ExecutionStep) : Async (Except ConnectorError Unit) :=
  ExceptT.lift (Prog.effect (Await.reconcile step))

def verify (step : ExecutionStep) : Async (Except ConnectorError Bool) :=
  ExceptT.lift (Prog.effect (Await.verify step))

/-- `result.map_err(RunnerError::Connector)?`. -/
def orConnectorError {α : Type} : Except ConnectorError α → Async α
  | .ok a => return a
  | .error e => throw (.connector e)

/-- `n.saturating_add(1)`. -/
def saturatingSucc (n : UInt32) : UInt32 := if n = 4294967295 then n else n + 1

/-- A pending step is prepared. -/
def prepare (step : ExecutionStep) : Async ExecutionStep := do
  if step.status = .pending then
    let step := { step with status := .prepared, attempts := saturatingSucc step.attempts }
    saveStep step
    return step
  else
    return step

/-- The call of the connector; an uncertain error is reconciled. -/
def call (step : ExecutionStep) : Async Unit := do
  match ← execute step with
  | .ok () => return ()
  | .error error =>
    if error.isUncertain then
      let answer ← reconcile step
      orConnectorError answer
    else
      saveStep { step with status := .failed }
      throw (.connector error)

/-- A prepared step is sent out, one that was in flight is reconciled. -/
def dispatch (step : ExecutionStep) : Async ExecutionStep := do
  if step.status = .prepared then
    let step := { step with status := .inFlight }
    saveStep step
    call step
    let step := { step with status := .verifying }
    saveStep step
    return step
  else if step.status = .inFlight then
    let answer ← reconcile step
    orConnectorError answer
    let step := { step with status := .verifying }
    saveStep step
    return step
  else
    return step

/-- The verification decides how the step ends. -/
def conclude (step : ExecutionStep) : Async ExecutionResult := do
  if step.status ≠ .verifying then
    throw .invalidStepState
  match ← verify step with
  | .ok true =>
    saveStep { step with status := .succeeded }
    return .succeeded
  | .ok false =>
    saveStep { step with status := .needsReview }
    return .needsReview
  | .error error =>
    saveStep { step with status := if error.isUncertain then .needsReview else .failed }
    throw (.connector error)

/-- What `run_step` does with the step it has loaded. -/
def resume (step : ExecutionStep) : Async ExecutionResult :=
  match step.status with
  | .succeeded => return .succeeded
  | .failed | .blocked => return .failed
  | .needsReview => return .needsReview
  | _ => do
    let step ← prepare step
    let step ← dispatch step
    conclude step

def runStep (stepId : String) : Async ExecutionResult := do
  match ← step stepId with
  | none => throw .stepNotFound
  | some step => resume step

/-! ## The protocol -/

/-- The moves of a persisted status. -/
def moves : StepStatus → List StepStatus
  | .pending => [.prepared]
  | .prepared => [.inFlight]
  | .inFlight => [.verifying, .failed]
  | .verifying => [.succeeded, .failed, .needsReview]
  | _ => []

def Moves (s next : StepStatus) : Prop := next ∈ moves s

instance (s next : StepStatus) : Decidable (Moves s next) := inferInstanceAs (Decidable (_ ∈ _))

/-- The statuses that are never left. -/
def StepStatus.terminal (s : StepStatus) : Bool := s = .succeeded ∨ s = .failed ∨ s = .needsReview

def RunnerEvent.persistedStatus : RunnerEvent → Option StepStatus
  | .persisted step => some step.status
  | _ => none

/-- The statuses that were persisted, in order. -/
def persistedStatuses (log : List RunnerEvent) : List StepStatus :=
  log.filterMap RunnerEvent.persistedStatus

def RunnerEvent.isExecuted : RunnerEvent → Bool
  | .executed _ _ => true
  | _ => false

/-- How often `execute` was called. -/
def executions (log : List RunnerEvent) : Nat := log.countP RunnerEvent.isExecuted

/-- `succeeded` is persisted only after a verification that answered `true`. -/
def VerifiedFirst (log : List RunnerEvent) : Prop :=
  ∀ before step, before ++ [.persisted step] <+: log → step.status = .succeeded →
    .verified (.ok true) ∈ before

/-- `execute` is called only while `in_flight` is stored. -/
def DurableFirst (log : List RunnerEvent) : Prop :=
  ∀ step durable, .executed step durable ∈ log → durable.map (·.status) = some .inFlight

/-- The store holds `step` under `stepId`, and the log is one of the protocol. -/
structure Holds (stepId : String) (step : ExecutionStep) (s : Execution) : Prop where
  stored : s.stored stepId = some step
  id : step.id = stepId
  path : (StepStatus.pending :: persistedStatuses s.log).IsChain Moves
  last : (StepStatus.pending :: persistedStatuses s.log).getLast? = some step.status
  unexecuted : step.status = .pending ∨ step.status = .prepared → executions s.log = 0
  once : executions s.log ≤ 1
  durable : DurableFirst s.log
  verified : VerifiedFirst s.log

def Intact (stepId : String) (s : Execution) : Prop := ∃ step, Holds stepId step s

section Log

variable {log : List RunnerEvent} {e : RunnerEvent}

theorem persistedStatuses_concat :
    persistedStatuses (log ++ [e]) = persistedStatuses log ++ e.persistedStatus.toList := by
  unfold persistedStatuses
  rw [List.filterMap_append]
  cases h : e.persistedStatus <;> simp [h]

theorem executions_concat :
    executions (log ++ [e]) = executions log + if e.isExecuted then 1 else 0 := by
  unfold executions
  rw [List.countP_append, List.countP_singleton]

theorem VerifiedFirst.concat (h : VerifiedFirst log)
    (he : ∀ step, e = .persisted step → step.status = .succeeded → .verified (.ok true) ∈ log) :
    VerifiedFirst (log ++ [e]) := by
  intro before step hshorter hstatus
  rcases List.prefix_concat_iff.mp hshorter with heq | hshorter
  · have hsplit := List.append_inj' heq rfl
    rw [hsplit.1]
    exact he step (List.singleton_inj.mp hsplit.2).symm hstatus
  · exact h before step hshorter hstatus

theorem DurableFirst.concat (h : DurableFirst log)
    (he : ∀ step durable, e = .executed step durable →
      durable.map (·.status) = some .inFlight) :
    DurableFirst (log ++ [e]) := by
  intro step durable hmem
  rcases List.mem_append.mp hmem with hmem | hmem
  · exact h step durable hmem
  · exact he step durable (List.mem_singleton.mp hmem).symm

end Log

section Protocol

variable {stepId : String} {current next : ExecutionStep} {s : Execution}

/-- A save along one of the moves keeps the protocol. -/
theorem Holds.persist (h : Holds stepId current s) (hid : next.id = current.id)
    (hmove : Moves current.status next.status)
    (hverified : next.status = .succeeded → .verified (.ok true) ∈ s.log) :
    Holds stepId next (s.persist next) where
  stored := by
    show Function.update s.stored next.id (some next) stepId = some next
    rw [hid, h.id, Function.update_self]
  id := hid.trans h.id
  path := by
    show (StepStatus.pending :: persistedStatuses (s.log ++ [.persisted next])).IsChain Moves
    rw [persistedStatuses_concat, ← List.cons_append]
    refine List.isChain_append.mpr ⟨h.path, List.isChain_singleton _, ?_⟩
    intro x hx y hy
    rw [h.last, Option.mem_def, Option.some.injEq] at hx
    rw [Option.mem_def] at hy
    have hy' : next.status = y := Option.some.inj hy
    rw [← hx, ← hy']
    exact hmove
  last := by
    show (StepStatus.pending :: persistedStatuses (s.log ++ [.persisted next])).getLast? = _
    rw [persistedStatuses_concat, ← List.cons_append]
    exact List.getLast?_concat
  unexecuted hnext := by
    show executions (s.log ++ [.persisted next]) = 0
    have hcurrent : current.status = .pending ∨ current.status = .prepared := by
      revert hmove
      cases hstatus : current.status <;> rcases hnext with hnext | hnext <;> rw [hnext] <;>
        simp [Moves, moves]
    rw [executions_concat, h.unexecuted hcurrent]
    rfl
  once := by
    show executions (s.log ++ [.persisted next]) ≤ 1
    rw [executions_concat]
    exact h.once
  durable := h.durable.concat fun _ _ he => by cases he
  verified := h.verified.concat fun step he hstatus => by
    cases he
    exact hverified hstatus

/-- A call of `execute`, the first one, while `in_flight` is stored. -/
theorem Holds.noteExecuted (h : Holds stepId current s) (hflight : current.status = .inFlight)
    (hfirst : executions s.log = 0) :
    Holds stepId current (s.note (.executed current (s.stored current.id))) where
  stored := h.stored
  id := h.id
  path := by
    show (StepStatus.pending :: persistedStatuses (s.log ++ [_])).IsChain Moves
    rw [persistedStatuses_concat]
    simpa [RunnerEvent.persistedStatus] using h.path
  last := by
    show (StepStatus.pending :: persistedStatuses (s.log ++ [_])).getLast? = _
    rw [persistedStatuses_concat]
    simpa [RunnerEvent.persistedStatus] using h.last
  unexecuted hstatus := by
    rw [hflight] at hstatus
    rcases hstatus with hstatus | hstatus <;> cases hstatus
  once := by
    show executions (s.log ++ [_]) ≤ 1
    rw [executions_concat, hfirst]
    exact le_rfl
  durable := h.durable.concat fun step durable he => by
    cases he
    rw [h.id, h.stored, Option.map_some, hflight]
  verified := h.verified.concat fun _ he => by cases he

theorem Holds.noteVerified (h : Holds stepId current s) (answer : Except ConnectorError Bool) :
    Holds stepId current (s.note (.verified answer)) where
  stored := h.stored
  id := h.id
  path := by
    show (StepStatus.pending :: persistedStatuses (s.log ++ [_])).IsChain Moves
    rw [persistedStatuses_concat]
    simpa [RunnerEvent.persistedStatus] using h.path
  last := by
    show (StepStatus.pending :: persistedStatuses (s.log ++ [_])).getLast? = _
    rw [persistedStatuses_concat]
    simpa [RunnerEvent.persistedStatus] using h.last
  unexecuted hstatus := by
    show executions (s.log ++ [_]) = 0
    rw [executions_concat, h.unexecuted hstatus]
    rfl
  once := by
    show executions (s.log ++ [_]) ≤ 1
    rw [executions_concat]
    exact h.once
  durable := h.durable.concat fun _ _ he => by cases he
  verified := h.verified.concat fun _ he => by cases he

/-- What an awaiting part of the runner comes to: a value with `P`, or an error in a state of the
    protocol. -/
def Ends {α : Type} (stepId : String) (P : α → Execution → Prop) :
    Except RunnerError α → Execution → Prop
  | .ok a, s => P a s
  | .error _, s => Intact stepId s

theorem wp_saveStep {α : Type} {step : ExecutionStep} {P : α → Execution → Prop}
    {f : Unit → Async α} (hbefore : Intact stepId s) (hafter : Holds stepId step (s.persist step))
    (hnext : wp environment (f ()).run (Ends stepId P) (Intact stepId) (s.persist step)) :
    wp environment (saveStep step >>= f).run (Ends stepId P) (Intact stepId) s := by
  refine wp_try.mpr ⟨hbefore, ?_⟩
  intro r s' hanswer
  rcases hanswer with rfl | ⟨rfl, e, rfl⟩
  · refine ⟨⟨step, hafter⟩, ?_⟩
    cases r with
    | ok u => exact hnext
    | error e => exact ⟨step, hafter⟩
  · exact ⟨hbefore, hbefore⟩

/-- The rule for a call of the connector: the effect answers, the rest goes on from there. -/
theorem wp_lift {α : Type} {e : Await} {P : α → Execution → Prop} {f : e.Answer → Async α}
    (hbefore : Intact stepId s)
    (hnext : ∀ r s', environment s e r s' → Intact stepId s' ∧
      wp environment (f r).run (Ends stepId P) (Intact stepId) s') :
    wp environment (ExceptT.lift (Prog.effect e) >>= f : Async α).run (Ends stepId P)
      (Intact stepId) s := by
  refine wp_try.mpr ⟨hbefore, ?_⟩
  intro r s' hanswer
  exact hnext r s' hanswer

/-- A save along a move, other than to `succeeded`. -/
theorem Holds.moved (h : Holds stepId current s) (status : StepStatus)
    (hmove : Moves current.status status) (hopen : status ≠ .succeeded) :
    Holds stepId { current with status } (s.persist { current with status }) :=
  h.persist rfl hmove fun hsucceeded => absurd hsucceeded hopen

theorem prepare_keeps (h : Holds stepId current s) :
    wp environment (prepare current).run
      (Ends stepId fun step s => Holds stepId step s ∧ step.status ≠ .pending)
      (Intact stepId) s := by
  unfold prepare
  split
  · next hpending =>
    have hmove : Moves current.status .prepared := by rw [hpending]; decide
    let prepared : ExecutionStep :=
      { current with status := .prepared, attempts := saturatingSucc current.attempts }
    have hafter : Holds stepId prepared (s.persist prepared) :=
      h.persist rfl hmove fun hsucceeded => by cases hsucceeded
    refine wp_saveStep ⟨current, h⟩ hafter ⟨hafter, ?_⟩
    exact fun hstatus => by cases hstatus
  · next hother => exact ⟨h, hother⟩

/-- The step is reconciled, then saved as `verifying`. -/
theorem reconcile_keeps (h : Holds stepId current s) (hflight : current.status = .inFlight) :
    wp environment (do
      let answer ← reconcile current
      orConnectorError answer
      saveStep { current with status := .verifying }
      return { current with status := .verifying } : Async ExecutionStep).run
      (Ends stepId (Holds stepId)) (Intact stepId) s := by
  have hmove : Moves current.status .verifying := by rw [hflight]; decide
  have hafter := h.moved .verifying hmove (by decide)
  refine wp_lift ⟨current, h⟩ ?_
  rintro answer s' rfl
  refine ⟨⟨current, h⟩, ?_⟩
  cases answer with
  | ok u => exact wp_saveStep ⟨current, h⟩ hafter hafter
  | error e => exact ⟨current, h⟩

theorem call_keeps (h : Holds stepId current s) (hflight : current.status = .inFlight)
    (hfirst : executions s.log = 0) :
    wp environment (call current).run
      (Ends stepId fun _ s => Holds stepId current s) (Intact stepId) s := by
  have hcalled := h.noteExecuted hflight hfirst
  unfold call
  refine wp_lift ⟨current, h⟩ ?_
  rintro answer s' rfl
  refine ⟨⟨current, hcalled⟩, ?_⟩
  cases answer with
  | ok u => exact hcalled
  | error e =>
    cases huncertain : e.isUncertain with
    | true =>
      simp only [huncertain, if_true]
      refine wp_lift ⟨current, hcalled⟩ ?_
      rintro answer s' rfl
      refine ⟨⟨current, hcalled⟩, ?_⟩
      cases answer with
      | ok u => exact hcalled
      | error e => exact ⟨current, hcalled⟩
    | false =>
      have hmove : Moves current.status .failed := by rw [hflight]; decide
      have hafter := hcalled.moved .failed hmove (by decide)
      simp only [huncertain, Bool.false_eq_true, if_false]
      exact wp_saveStep ⟨current, hcalled⟩ hafter ⟨_, hafter⟩

theorem dispatch_keeps (h : Holds stepId current s) :
    wp environment (dispatch current).run (Ends stepId (Holds stepId)) (Intact stepId) s := by
  unfold dispatch
  split
  · next hprepared =>
    have hmove : Moves current.status .inFlight := by rw [hprepared]; decide
    have hsent := h.moved .inFlight hmove (by decide)
    -- nothing has been executed before the step is in flight
    have hfirst : executions (s.persist { current with status := .inFlight }).log = 0 := by
      show executions (s.log ++ [_]) = 0
      rw [executions_concat, h.unexecuted (.inr hprepared)]
      rfl
    refine wp_saveStep ⟨current, h⟩ hsent ?_
    refine wp_try.mpr (wp_mono ?_ (call_keeps hsent rfl hfirst))
    intro r s' hend
    cases r with
    | error e => exact hend
    | ok u =>
      have hflight : Holds stepId { current with status := .inFlight } s' := hend
      have hmove : Moves .inFlight .verifying := by decide
      have hafter := hflight.moved .verifying hmove (by decide)
      exact wp_saveStep ⟨_, hflight⟩ hafter hafter
  · split
    · next hflight => exact reconcile_keeps h hflight
    · exact h

theorem conclude_keeps (h : Holds stepId current s) :
    wp environment (conclude current).run
      (Ends stepId fun _ s => Intact stepId s) (Intact stepId) s := by
  unfold conclude
  by_cases hverifying : current.status = .verifying
  · have hmoves : ∀ status ∈ [StepStatus.succeeded, .failed, .needsReview],
        Moves current.status status := by
      rw [hverifying]
      decide
    simp only [hverifying, ne_eq, not_true_eq_false, if_false]
    refine wp_lift ⟨current, h⟩ ?_
    rintro answer s' rfl
    have hnoted := h.noteVerified answer
    refine ⟨⟨current, hnoted⟩, ?_⟩
    match answer with
    | .ok true =>
      have hafter : Holds stepId { current with status := .succeeded }
          ((s.note (.verified (.ok true))).persist { current with status := .succeeded }) :=
        hnoted.persist rfl (hmoves .succeeded (by decide)) fun _ =>
          List.mem_append_right _ List.mem_cons_self
      exact wp_saveStep ⟨current, hnoted⟩ hafter ⟨_, hafter⟩
    | .ok false =>
      have hafter := hnoted.moved .needsReview (hmoves _ (by decide)) (by decide)
      exact wp_saveStep ⟨current, hnoted⟩ hafter ⟨_, hafter⟩
    | .error e =>
      have hafter := hnoted.moved (if e.isUncertain then .needsReview else .failed)
        (hmoves _ (by split <;> decide)) (by split <;> decide)
      exact wp_saveStep ⟨current, hnoted⟩ hafter ⟨_, hafter⟩
  · simp only [ne_eq, hverifying, not_false_eq_true, if_true]
    exact ⟨current, h⟩

theorem resume_keeps (h : Holds stepId current s) :
    wp environment (resume current).run
      (Ends stepId fun _ s => Intact stepId s) (Intact stepId) s := by
  unfold resume
  split
  · exact ⟨current, h⟩
  · exact ⟨current, h⟩
  · exact ⟨current, h⟩
  · exact ⟨current, h⟩
  · refine wp_try.mpr (wp_mono ?_ (prepare_keeps h))
    intro r s hprepared
    cases r with
    | error e => exact hprepared
    | ok step =>
      refine wp_try.mpr (wp_mono ?_ (dispatch_keeps hprepared.1))
      intro r s hdispatched
      cases r with
      | error e => exact hdispatched
      | ok step => exact conclude_keeps hdispatched

theorem runStep_keeps (h : Intact stepId s) :
    wp environment (runStep stepId).run (fun _ => Intact stepId) (Intact stepId) s := by
  obtain ⟨current, h⟩ := h
  have hends : wp environment (runStep stepId).run (Ends stepId fun _ s => Intact stepId s)
      (Intact stepId) s := by
    unfold runStep
    refine wp_try.mpr ⟨⟨current, h⟩, ?_⟩
    rintro r s' ⟨rfl, hanswer⟩
    refine ⟨⟨current, h⟩, ?_⟩
    rcases hanswer with rfl | ⟨e, rfl⟩
    · rw [h.stored]
      exact resume_keeps h
    · exact ⟨current, h⟩
  refine wp_mono ?_ hends
  intro r s' hend
  cases r with
  | ok result => exact hend
  | error e => exact hend

/-- On a step that has ended, `run_step` only reads. -/
theorem runStep_terminal (hstored : s.stored stepId = some current)
    (hterminal : current.status.terminal = true) :
    wp environment (runStep stepId).run (fun _ s' => s' = s) (fun s' => s' = s) s := by
  have hresume : wp environment (resume current).run (fun _ s' => s' = s) (fun s' => s' = s) s := by
    unfold resume
    cases hstatus : current.status with
    | pending | prepared | inFlight | verifying | blocked =>
      rw [hstatus] at hterminal
      cases hterminal
    | succeeded | failed | needsReview => rfl
  unfold runStep
  refine wp_try.mpr ⟨rfl, ?_⟩
  rintro r s' ⟨rfl, hanswer⟩
  refine ⟨rfl, ?_⟩
  rcases hanswer with rfl | ⟨e, rfl⟩
  · rw [hstored]
    exact hresume
  · rfl

theorem holds_initial {step : ExecutionStep} (hpending : step.status = .pending)
    (stored : String → Option ExecutionStep) :
    Holds step.id step ⟨Function.update stored step.id (some step), []⟩ where
  stored := Function.update_self ..
  id := rfl
  path := List.isChain_singleton _
  last := by rw [hpending]; rfl
  unexecuted _ := rfl
  once := Nat.zero_le 1
  durable _ _ h := by cases h
  verified before _ h := by
    have hnil := List.prefix_nil.mp h
    exact absurd hnil (by simp)

end Protocol

/-- **The crash protocol.** From a stored pending step, after any number of calls of `run_step`,
    each of which may have crashed anywhere: the persisted status has moved along the protocol
    only, `execute` was called at most once and only while `in_flight` was stored, `succeeded`
    was persisted only after a verification answered `true`, and a step that has ended stays as it
    is. -/
theorem runner_crash_protocol {step : ExecutionStep} (hpending : step.status = .pending)
    (stored : String → Option ExecutionStep) {s : Execution}
    (hcalls : Calls environment (runStep step.id).run
      ⟨Function.update stored step.id (some step), []⟩ s) :
    ((StepStatus.pending :: persistedStatuses s.log).IsChain Moves ∧
        ∃ current, s.stored step.id = some current ∧
          (StepStatus.pending :: persistedStatuses s.log).getLast? = some current.status) ∧
      (executions s.log ≤ 1 ∧ DurableFirst s.log) ∧ VerifiedFirst s.log ∧
      ∀ current s', s.stored step.id = some current → current.status.terminal = true →
        Calls environment (runStep step.id).run s s' → s'.stored step.id = some current := by
  have hintact : Intact step.id s :=
    calls_induction (fun _ h => runStep_keeps h) hcalls ⟨step, holds_initial hpending stored⟩
  obtain ⟨current, h⟩ := hintact
  refine ⟨⟨h.path, current, h.stored, h.last⟩, ⟨h.once, h.durable⟩, h.verified, ?_⟩
  intro current s' hstored hterminal hlater
  have hkeep : ∀ t, t = s → wp environment (runStep step.id).run (fun _ t' => t' = s)
      (fun t' => t' = s) t := by
    rintro t rfl
    exact runStep_terminal hstored hterminal
  rw [calls_induction hkeep hlater rfl]
  exact hstored

def erasePending : ExecutionStep where
  id := "erase"
  operationKey := "operation-erase"
  connector := "test"
  action := .erase
  dependencies := []
  status := .pending
  attempts := 0
  desiredState := .absent
  blockReason := none

def eraseAt (status : StepStatus) : ExecutionStep := { erasePending with status, attempts := 1 }

def erasePendingStored : Execution :=
  ⟨Function.update (fun _ => none) erasePending.id (some erasePending), []⟩

/-- A run that crashes right after `execute`. -/
def eraseCrashed : Execution :=
  ((erasePendingStored.persist (eraseAt .prepared)).persist (eraseAt .inFlight)).note
    (.executed (eraseAt .inFlight) (some (eraseAt .inFlight)))

/-- The next run reconciles the step and verifies it. -/
def eraseResumed : Execution :=
  ((eraseCrashed.persist (eraseAt .verifying)).note (.verified (.ok true))).persist
    (eraseAt .succeeded)

theorem eraseResumed_calls :
    Calls environment (runStep erasePending.id).run erasePendingStored eraseResumed := by
  have hcrash : Run environment (runStep erasePending.id).run erasePendingStored none
      eraseCrashed := by
    refine Run.perform (r := .ok (some erasePending)) ⟨rfl, .inl rfl⟩ ?_
    refine Run.perform (r := .ok ()) (.inl rfl) ?_
    refine Run.perform (r := .ok ()) (.inl rfl) ?_
    exact Run.late (r := .ok ()) rfl
  have hresume : Run environment (runStep erasePending.id).run eraseCrashed
      (some (.ok .succeeded)) eraseResumed := by
    refine Run.perform (r := .ok (some (eraseAt .inFlight))) ⟨rfl, .inl rfl⟩ ?_
    refine Run.perform (r := .ok ()) rfl ?_
    refine Run.perform (r := .ok ()) (.inl rfl) ?_
    refine Run.perform (r := .ok true) rfl ?_
    refine Run.perform (r := .ok ()) (.inl rfl) ?_
    exact Run.pure
  exact (Relation.ReflTransGen.single ⟨_, hcrash⟩).tail ⟨_, hresume⟩
theorem runner_crash_protocol_of_resumed :
    executions eraseResumed.log = 1 ∧ DurableFirst eraseResumed.log ∧
      VerifiedFirst eraseResumed.log := by
  have h := runner_crash_protocol (rfl : erasePending.status = .pending) (fun _ => none)
    eraseResumed_calls
  exact ⟨rfl, h.2.1.2, h.2.2.1⟩

end ForgetOps.Agent
