import ForgetOps.Agent.EncryptedStore

/-
  `ExecutionStore for EncryptedStore` (`agent/crates/agent-store/src/lib.rs`): `run_step` on the
  encrypted rows.

  What a row reads as is the step the runner is shown under its id, and no step where the row cannot
  be read. So the rows serve the runner in the place of the steps, and it keeps the protocol on them.
-/

namespace ForgetOps.Agent

open CrashLogic
open Domain (utf8)
open ExportBuilder (Key)

/-! ## The store of the runner -/

/-- `RunnerError::Store(error.to_string())`. -/
def asRunnerError {α : Type} : Except StoreError α → Except RunnerError α
  | .ok a => .ok a
  | .error e => .error (.store e.text)

/-- The database, and the log of what was persisted, executed and verified. -/
structure StoredExecution where
  store : EncryptedStore
  log : List RunnerEvent

section Store

variable (lib : StoreLibraries) (key : Key)

/-- The step that can be read under the id. -/
def EncryptedStore.durable (s : EncryptedStore) (stepId : String) : Option ExecutionStep :=
  match s.loadExecutionStep lib key stepId .done with
  | .ok row => row
  | .error _ => none

def StoredExecution.step (s : StoredExecution) (id : String) (outcome : Outcome) :
    Except RunnerError (Option ExecutionStep) :=
  asRunnerError (s.store.loadExecutionStep lib key id outcome)

/-- Whether the statement takes effect. -/
def Outcome.applied : Outcome → Bool
  | .done => true
  | .failed applied => applied
  | .poisoned => false

/-- `save_step`; the log says what was written. -/
def StoredExecution.saveStep (s : StoredExecution) (step : ExecutionStep) (nonce : GcmNonce)
    (outcome : Outcome) : Except RunnerError Unit × StoredExecution :=
  let saved := s.store.saveExecutionStep lib key step nonce outcome
  match EncryptedStore.encrypt lib key (utf8 step.id) (Json.encode step.json) nonce with
  | .error _ => (asRunnerError saved.1, ⟨saved.2, s.log⟩)
  | .ok _ => (asRunnerError saved.1,
      ⟨saved.2, if outcome.applied then s.log ++ [.persisted step] else s.log⟩)

/-- What the encrypted store and an arbitrary connector may answer. -/
def encryptedEnvironment : Env Await Await.Answer StoredExecution
  | s, .step id, r, s' => s' = s ∧ ∃ outcome, r = s.step lib key id outcome
  | s, .saveStep step, r, s' => ∃ nonce outcome, (r, s') = s.saveStep lib key step nonce outcome
  | s, .execute step, _, s' =>
    s' = { s with log := s.log ++ [.executed step (s.store.durable lib key step.id)] }
  | s, .reconcile _, _, s' => s' = s
  | s, .verify _, r, s' => s' = { s with log := s.log ++ [.verified r] }

/-- What the runner sees of it. -/
def StoredExecution.execution (s : StoredExecution) : Execution :=
  ⟨s.store.durable lib key, s.log⟩

end Store

/-! ## The rows in the place of the steps -/

section Simulation

variable {lib : StoreLibraries} {key : Key} {s : EncryptedStore} {step : ExecutionStep}

theorem durable_eq_some {stepId : String} :
    s.durable lib key stepId = some step ↔
      s.loadExecutionStep lib key stepId .done = .ok (some step) := by
  unfold EncryptedStore.durable
  cases s.loadExecutionStep lib key stepId .done with
  | ok row => simp
  | error e => simp

/-- A read shows what is durable, or fails. -/
theorem step_durable (t : StoredExecution) (id : String) (outcome : Outcome) :
    t.step lib key id outcome = .ok (t.store.durable lib key id) ∨
      ∃ e, t.step lib key id outcome = .error e := by
  unfold StoredExecution.step EncryptedStore.durable
  cases outcome with
  | done =>
    cases t.store.loadExecutionStep lib key id .done with
    | ok row => exact .inl rfl
    | error e => exact .inr ⟨_, rfl⟩
  | failed => exact .inr ⟨_, rfl⟩
  | poisoned => exact .inr ⟨_, rfl⟩

/-- A row that is written is durable, and the other rows stay. -/
theorem durable_set (hlib : lib.Documented) {bytes : List UInt8} {nonce : GcmNonce}
    (hbytes : EncryptedStore.encrypt lib key (utf8 step.id) (Json.encode step.json) nonce =
      .ok bytes) :
    EncryptedStore.durable lib key
        { s with executionSteps := s.executionSteps.set step.id (some bytes) } =
      Function.update (s.durable lib key) step.id (some step) := by
  apply funext
  intro id
  by_cases heq : id = step.id
  · subst heq
    rw [Function.update_self, durable_eq_some]
    show EncryptedStore.queryRow .done ((s.executionSteps.set step.id (some bytes)).find step.id)
      (EncryptedStore.readStep lib key step.id) = .ok (some step)
    rw [Table.find_set_self]
    show (some bytes).mapM (EncryptedStore.readStep lib key step.id) = .ok (some step)
    rw [Option.mapM_some, EncryptedStore.readStep_encrypt hlib hbytes]
    rfl
  · rw [Function.update_of_ne heq]
    unfold EncryptedStore.durable EncryptedStore.loadExecutionStep
    rw [Table.find_set_of_ne _ _ heq]

/-- A save leaves the step durable and noted, or fails and leaves everything. -/
theorem saveStep_durable (hlib : lib.Documented) {t t' : StoredExecution} {nonce : GcmNonce}
    {outcome : Outcome} {r : Except RunnerError Unit}
    (h : (r, t') = t.saveStep lib key step nonce outcome) :
    t'.execution lib key = (t.execution lib key).persist step ∨
      (t'.execution lib key = t.execution lib key ∧ ∃ e, r = .error e) := by
  unfold StoredExecution.saveStep EncryptedStore.saveExecutionStep at h
  cases hbytes : EncryptedStore.encrypt lib key (utf8 step.id) (Json.encode step.json) nonce with
  | error e =>
    rw [hbytes] at h
    obtain ⟨rfl, rfl⟩ := Prod.mk.inj h
    exact .inr ⟨rfl, _, rfl⟩
  | ok bytes =>
    rw [hbytes] at h
    have hwritten : (⟨EncryptedStore.durable lib key
          { t.store with executionSteps := t.store.executionSteps.set step.id (some bytes) },
        t.log ++ [.persisted step]⟩ : Execution) = (t.execution lib key).persist step := by
      rw [durable_set hlib hbytes]
      rfl
    cases outcome with
    | done =>
      obtain ⟨rfl, rfl⟩ := Prod.mk.inj h
      exact .inl hwritten
    | poisoned =>
      obtain ⟨rfl, rfl⟩ := Prod.mk.inj h
      exact .inr ⟨rfl, _, rfl⟩
    | failed applied =>
      obtain ⟨rfl, rfl⟩ := Prod.mk.inj h
      cases applied with
      | true => exact .inl hwritten
      | false => exact .inr ⟨rfl, _, rfl⟩

/-- The rows simulate the steps. -/
theorem encrypted_simulates (hlib : lib.Documented) :
    Simulates (fun t e => e = StoredExecution.execution lib key t) (encryptedEnvironment lib key)
      environment := by
  intro t execution e r t' ht hanswer
  subst ht
  cases e with
  | step id =>
    obtain ⟨rfl, outcome, rfl⟩ := hanswer
    exact ⟨_, ⟨rfl, step_durable t' id outcome⟩, rfl⟩
  | saveStep step =>
    obtain ⟨nonce, outcome, hanswer⟩ := hanswer
    exact ⟨_, saveStep_durable hlib hanswer, rfl⟩
  | execute step =>
    obtain rfl := hanswer
    exact ⟨_, rfl, rfl⟩
  | reconcile step =>
    obtain rfl := hanswer
    exact ⟨_, rfl, rfl⟩
  | verify step =>
    obtain rfl := hanswer
    exact ⟨_, rfl, rfl⟩

end Simulation

/-! ## The protocol on the rows -/

/-- **The crash protocol on encrypted rows.** From a row that reads as a pending step, after any
    number of calls of `run_step`, each of which may have crashed anywhere, and whatever the
    statements did: the row reads as a step of the last status that was written, the statuses moved
    along the protocol, `execute` was called at most once and only while the row read as
    `in_flight`, `succeeded` was written only after a verification answered `true`, and a row of a
    step that has ended stays as it is. -/
theorem encrypted_runner_protocol {lib : StoreLibraries} {key : Key} (hlib : lib.Documented)
    {step : ExecutionStep} (hpending : step.status = .pending) {s : EncryptedStore}
    (hstored : s.loadExecutionStep lib key step.id .done = .ok (some step)) {t : StoredExecution}
    (hcalls : Calls (encryptedEnvironment lib key) (runStep step.id).run ⟨s, []⟩ t) :
    (∃ current, t.store.loadExecutionStep lib key step.id .done = .ok (some current) ∧
        (StepStatus.pending :: persistedStatuses t.log).getLast? = some current.status) ∧
      (StepStatus.pending :: persistedStatuses t.log).IsChain Moves ∧
      executions t.log ≤ 1 ∧ DurableFirst t.log ∧ VerifiedFirst t.log ∧
      ∀ current t', t.store.loadExecutionStep lib key step.id .done = .ok (some current) →
        current.status.terminal = true →
        Calls (encryptedEnvironment lib key) (runStep step.id).run t t' →
        t'.store.loadExecutionStep lib key step.id .done = .ok (some current) := by
  have hsimulates : Simulates (fun t e => e = StoredExecution.execution lib key t)
      (encryptedEnvironment lib key) environment := encrypted_simulates hlib
  have hinitial : Intact step.id (StoredExecution.execution lib key ⟨s, []⟩) := by
    have hupdate : Function.update (s.durable lib key) step.id (some step) =
        s.durable lib key := by
      rw [← durable_eq_some.mpr hstored]
      exact Function.update_eq_self step.id _
    have hholds := holds_initial hpending (s.durable lib key)
    rw [hupdate] at hholds
    exact ⟨step, hholds⟩
  obtain ⟨_, hreached, rfl⟩ := hsimulates.calls hcalls rfl
  have hintact : Intact step.id (t.execution lib key) :=
    calls_induction (fun _ h => runStep_keeps h) hreached hinitial
  obtain ⟨current, h⟩ := hintact
  refine ⟨⟨current, durable_eq_some.mp h.stored, h.last⟩, h.path, h.once, h.durable, h.verified, ?_⟩
  intro current t' hcurrent hterminal hlater
  obtain ⟨_, hlater, rfl⟩ := hsimulates.calls hlater rfl
  have hkeep : ∀ e, e = t.execution lib key →
      wp environment (runStep step.id).run (fun _ e' => e' = t.execution lib key)
        (fun e' => e' = t.execution lib key) e := by
    rintro e rfl
    exact runStep_terminal (durable_eq_some.mpr hcurrent) hterminal
  have hsame : t'.execution lib key = t.execution lib key :=
    calls_induction (P := fun e => e = t.execution lib key) hkeep hlater rfl
  have hdurable : t'.store.durable lib key = t.store.durable lib key :=
    congrArg Execution.stored hsame
  rw [← durable_eq_some, hdurable, durable_eq_some]
  exact hcurrent

/-! ## A crash and a resumption -/

section Resumed

open EncryptedStore (plainKey plainNonce plainStoreLibraries plainStoreLibraries_documented)

/-- The state after a save that works. -/
def StoredExecution.written (t : StoredExecution) (step : ExecutionStep) : StoredExecution :=
  (t.saveStep plainStoreLibraries plainKey step plainNonce .done).2

theorem load_written (t : StoredExecution) (step : ExecutionStep) :
    (t.written step).store.loadExecutionStep plainStoreLibraries plainKey step.id .done =
      .ok (some step) := by
  obtain ⟨bytes, hbytes⟩ : ∃ bytes, EncryptedStore.encrypt plainStoreLibraries plainKey
      (utf8 step.id) (Json.encode step.json) plainNonce = .ok bytes := ⟨_, rfl⟩
  have hrow : (t.written step).store = { t.store with
      executionSteps := t.store.executionSteps.set step.id (some bytes) } := by
    unfold StoredExecution.written StoredExecution.saveStep EncryptedStore.saveExecutionStep
    rw [hbytes]
    rfl
  rw [hrow, ← durable_eq_some]
  exact (congrFun (durable_set plainStoreLibraries_documented hbytes) step.id).trans
    (Function.update_self ..)

/-- A row that reads as the pending step. -/
def erasePendingRow : EncryptedStore :=
  ((⟨.empty, []⟩ : StoredExecution).written erasePending).store

def StoredExecution.noted (t : StoredExecution) (e : RunnerEvent) : StoredExecution :=
  { t with log := t.log ++ [e] }

/-- A run that crashes right after `execute`. -/
def eraseRowCrashed : StoredExecution :=
  let sent := ((⟨erasePendingRow, []⟩ : StoredExecution).written (eraseAt .prepared)).written
    (eraseAt .inFlight)
  sent.noted (.executed (eraseAt .inFlight)
    (sent.store.durable plainStoreLibraries plainKey erasePending.id))

/-- The next run reconciles the step and verifies it. -/
def eraseRowResumed : StoredExecution :=
  ((eraseRowCrashed.written (eraseAt .verifying)).noted (.verified (.ok true))).written
    (eraseAt .succeeded)

theorem eraseRowResumed_calls :
    Calls (encryptedEnvironment plainStoreLibraries plainKey) (runStep erasePending.id).run
      ⟨erasePendingRow, []⟩ eraseRowResumed := by
  have hfirst : Except.ok (some erasePending) =
      (⟨erasePendingRow, []⟩ : StoredExecution).step plainStoreLibraries plainKey
        erasePending.id .done := by
    have hload := load_written ⟨.empty, []⟩ erasePending
    exact (congrArg asRunnerError hload).symm
  have hsecond : Except.ok (some (eraseAt .inFlight)) =
      eraseRowCrashed.step plainStoreLibraries plainKey erasePending.id .done := by
    have hload := load_written
      ((⟨erasePendingRow, []⟩ : StoredExecution).written (eraseAt .prepared)) (eraseAt .inFlight)
    exact (congrArg asRunnerError hload).symm
  have hcrash : Run (encryptedEnvironment plainStoreLibraries plainKey)
      (runStep erasePending.id).run ⟨erasePendingRow, []⟩ none eraseRowCrashed := by
    refine Run.perform (r := .ok (some erasePending)) ⟨rfl, .done, hfirst⟩ ?_
    refine Run.perform (r := .ok ()) ⟨plainNonce, .done, rfl⟩ ?_
    refine Run.perform (r := .ok ()) ⟨plainNonce, .done, rfl⟩ ?_
    exact Run.late (r := .ok ()) rfl
  have hresume : Run (encryptedEnvironment plainStoreLibraries plainKey)
      (runStep erasePending.id).run eraseRowCrashed (some (.ok .succeeded)) eraseRowResumed := by
    refine Run.perform (r := .ok (some (eraseAt .inFlight))) ⟨rfl, .done, hsecond⟩ ?_
    refine Run.perform (r := .ok ()) rfl ?_
    refine Run.perform (r := .ok ()) ⟨plainNonce, .done, rfl⟩ ?_
    refine Run.perform (r := .ok true) rfl ?_
    refine Run.perform (r := .ok ()) ⟨plainNonce, .done, rfl⟩ ?_
    exact Run.pure
  exact (Relation.ReflTransGen.single ⟨_, hcrash⟩).tail ⟨_, hresume⟩

/-- The step was executed once, and its row reads as `succeeded`. -/
theorem encrypted_runner_protocol_resumed :
    ∃ current, eraseRowResumed.store.loadExecutionStep plainStoreLibraries plainKey
        erasePending.id .done = .ok (some current) ∧
      (StepStatus.pending :: persistedStatuses eraseRowResumed.log).getLast? =
        some current.status ∧
      current.status = .succeeded ∧ executions eraseRowResumed.log = 1 := by
  obtain ⟨⟨current, hload, hlast⟩, -⟩ := encrypted_runner_protocol plainStoreLibraries_documented
    (rfl : erasePending.status = .pending) (load_written ⟨.empty, []⟩ erasePending)
    eraseRowResumed_calls
  have hsucceeded := load_written
    ((eraseRowCrashed.written (eraseAt .verifying)).noted (.verified (.ok true)))
    (eraseAt .succeeded)
  have hcurrent : current = eraseAt .succeeded :=
    Option.some.inj (Except.ok.inj (hload.symm.trans hsucceeded))
  exact ⟨current, hload, hlast, by rw [hcurrent]; rfl, rfl⟩

end Resumed

end ForgetOps.Agent
