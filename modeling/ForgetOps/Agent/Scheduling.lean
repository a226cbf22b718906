import ForgetOps.Agent.Blocking

/-
  `runnable` (`agent/crates/agent-core/src/dag.rs`), and running the steps of an accepted plan.

  In a round one runnable step is run to a terminal status and `block_downstream` follows.
  `scheduler_progress`: as long as a step is pending one can be run, and after at most as many
  rounds as there are steps all of them are terminal.
-/

namespace ForgetOps.Agent.Dag

def statusOf (table : Table String ExecutionStep) (id : String) : Option StepStatus :=
  (table.find id).map (·.status)

/-- The step is pending, and all its dependencies have succeeded. -/
def isRunnable (table : Table String ExecutionStep) (step : ExecutionStep) : Prop :=
  step.status = .pending ∧
    ∀ dependency ∈ step.dependencies, statusOf table dependency = some .succeeded

instance (table : Table String ExecutionStep) : DecidablePred (isRunnable table) :=
  fun _ => inferInstanceAs (Decidable (_ ∧ _))

def runnable (steps : List ExecutionStep) : List ExecutionStep :=
  steps.filter (isRunnable (byId steps))

/-! ## Rounds -/

def StepStatus.isTerminal (s : StepStatus) : Prop := s = .succeeded ∨ s.hasFailed

instance : DecidablePred StepStatus.isTerminal := fun _ => inferInstanceAs (Decidable (_ ∨ _))

/-- The steps once `run_step` has left the step `id` with this status, after so many attempts. -/
def finish (steps : List ExecutionStep) (id : String) (status : StepStatus) (attempts : UInt32) :
    List ExecutionStep :=
  steps.map fun step => if step.id = id then { step with status, attempts } else step

/-- `ran` is run to a terminal status, and what is downstream is blocked. -/
structure Round (steps : List ExecutionStep) (ran : ExecutionStep) (steps' : List ExecutionStep) :
    Prop where
  chosen : ran ∈ runnable steps
  ended : ∃ status attempts rounds, status.isTerminal ∧
    blockDownstream rounds (finish steps ran.id status attempts) = some steps'

/-- Some rounds from `start` on, with the step each has run and the steps it has found. -/
inductive Rounds (start : List ExecutionStep) :
    List (List ExecutionStep × ExecutionStep) → List ExecutionStep → Prop where
  | start : Rounds start [] start
  | next {history steps ran steps'} : Rounds start history steps → Round steps ran steps' →
      Rounds start (history ++ [(steps, ran)]) steps'

variable {steps current result : List ExecutionStep} {step : ExecutionStep} {id : String}

/-! ## What stays true -/

/-- A plan without cycles, each of whose steps is pending or at an end. -/
structure Settled (steps : List ExecutionStep) : Prop where
  distinct : (steps.map (·.id)).Nodup
  closed : ∀ id dependency, DependsOn steps id dependency → dependency ∈ steps.map (·.id)
  acyclic : DepthFirst.Acyclic (DependsOn steps)
  settled : ∀ step ∈ steps, step.status = .pending ∨ step.status.isTerminal

theorem dependsOn_iff {dependency : String} :
    DependsOn steps id dependency ↔ ∃ dependencies, (id, dependencies) ∈ steps.map outline ∧
      dependency ∈ dependencies := by
  unfold DependsOn outline
  simp only [List.mem_map, Prod.mk.injEq]
  constructor
  · rintro ⟨step, hstep, rfl, hmem⟩
    exact ⟨step.dependencies, ⟨step, hstep, rfl, rfl⟩, hmem⟩
  · rintro ⟨_, ⟨step, hstep, rfl, rfl⟩, hmem⟩
    exact ⟨step, hstep, rfl, hmem⟩

theorem dependsOn_of_outline (h : result.map outline = steps.map outline) :
    DependsOn result = DependsOn steps := by
  funext id dependency
  apply propext
  rw [dependsOn_iff, dependsOn_iff, h]

/-- Only the statuses of the steps change. -/
theorem Settled.of_outline (h : Settled steps) (houtline : result.map outline = steps.map outline)
    (hsettled : ∀ step ∈ result, step.status = .pending ∨ step.status.isTerminal) :
    Settled result where
  distinct := ids_of_outline houtline ▸ h.distinct
  closed := by
    rw [dependsOn_of_outline houtline, ids_of_outline houtline]
    exact h.closed
  acyclic := by
    rw [dependsOn_of_outline houtline]
    exact h.acyclic
  settled := hsettled

theorem outline_finish (steps : List ExecutionStep) (id : String) (status : StepStatus)
    (attempts : UInt32) : (finish steps id status attempts).map outline = steps.map outline := by
  unfold finish
  rw [List.map_map]
  apply List.map_congr_left
  intro step _
  rw [Function.comp_apply]
  split_ifs <;> rfl

theorem Settled.finish (h : Settled steps) (id : String) {status : StepStatus}
    (hstatus : status.isTerminal) (attempts : UInt32) :
    Settled (finish steps id status attempts) := by
  apply h.of_outline (outline_finish steps id status attempts)
  intro now hnow
  obtain ⟨step, hstep, rfl⟩ := List.mem_map.mp hnow
  split_ifs
  · exact .inr hstatus
  · exact h.settled step hstep

theorem Settled.progress (h : Settled steps) (hprogress : Progress steps result) :
    Settled result := by
  apply h.of_outline hprogress.outline
  intro now hnow
  obtain ⟨step, hstep, hpartly⟩ := hprogress.origin hnow
  cases hpartly with
  | same => exact h.settled _ hstep
  | downstream => exact .inr (.inr (.inr (.inr rfl)))

theorem Settled.after_blocking (h : Settled steps) {rounds : ℕ}
    (hresult : blockDownstream rounds steps = some result) : Settled result ∧ Saturated result := by
  obtain ⟨hprogress, hsaturated⟩ := blockDownstream_some (Progress.refl steps) hresult
  exact ⟨h.progress hprogress, hsaturated⟩

/-- The plans of `validate_dag`. -/
theorem settled_of_accepted {depth : ℕ} (haccepted : validateDag depth steps = .ok (.ok ()))
    (hsettled : ∀ step ∈ steps, step.status = .pending ∨ step.status.isTerminal) :
    Settled steps := by
  have h := wellFormed_of_accepted haccepted
  refine ⟨h.distinct, ?_, h.acyclic, hsettled⟩
  rintro _ dependency ⟨step, hstep, rfl, hmem⟩
  obtain ⟨other, hother, -, rfl⟩ := h.dependencies step hstep dependency hmem
  exact List.mem_map_of_mem hother

/-! ## What can be run -/

theorem statusOf_byId (hdistinct : (steps.map (·.id)).Nodup) {p : StepStatus} :
    statusOf (byId steps) id = some p ↔ HasStatus steps (· = p) id := by
  unfold statusOf HasStatus
  constructor
  · intro h
    obtain ⟨step, hfound, hstatus⟩ := Option.map_eq_some_iff.mp h
    have hid : id ∈ steps.map (·.id) := find_byId_isSome.mp (by rw [hfound]; rfl)
    obtain ⟨other, hother, rfl⟩ := List.mem_map.mp hid
    rw [find_byId hdistinct hother] at hfound
    obtain rfl := Option.some.inj hfound
    exact ⟨other, hother, rfl, hstatus⟩
  · rintro ⟨step, hstep, rfl, rfl⟩
    rw [find_byId hdistinct hstep, Option.map_some]

theorem mem_runnable (hdistinct : (steps.map (·.id)).Nodup) :
    step ∈ runnable steps ↔ step ∈ steps ∧ step.status = .pending ∧
      ∀ dependency ∈ step.dependencies, HasStatus steps (· = .succeeded) dependency := by
  rw [runnable, List.mem_filter, decide_eq_true_eq]
  unfold isRunnable
  simp only [statusOf_byId hdistinct]

/-- As long as a step is pending one can be run. -/
theorem Settled.exists_runnable (h : Settled steps) (hsaturated : Saturated steps)
    (hpending : HasStatus steps (· = .pending) id) : runnable steps ≠ [] := by
  have hnodes : ∀ x y, DependsOn steps x y → y ∈ (steps.map (·.id)).toFinset :=
    fun x y hxy => List.mem_toFinset.mpr (h.closed x y hxy)
  obtain ⟨number, hnumber⟩ := (DepthFirst.acyclic_iff_numbered hnodes).mp h.acyclic
  -- down along a pending dependency, as long as there is one
  induction hn : number id using Nat.strong_induction_on generalizing id with
  | h n ih =>
    obtain ⟨step, hstep, rfl, hstatus⟩ := hpending
    by_cases hready : ∀ dependency ∈ step.dependencies,
        HasStatus steps (· = .succeeded) dependency
    · exact List.ne_nil_of_mem ((mem_runnable h.distinct).mpr ⟨hstep, hstatus, hready⟩)
    · push Not at hready
      obtain ⟨dependency, hmem, hnot⟩ := hready
      have hdepends : DependsOn steps step.id dependency := ⟨step, hstep, rfl, hmem⟩
      obtain ⟨other, hother, rfl⟩ := List.mem_map.mp (h.closed _ _ hdepends)
      have hless : number other.id < n := hn ▸ hnumber _ _ hdepends
      rcases h.settled other hother with hwaits | hsucceeded | hfailed
      · exact ih _ hless ⟨other, hother, rfl, hwaits⟩ rfl
      · exact absurd ⟨other, hother, rfl, hsucceeded⟩ hnot
      · exact absurd ⟨other, hother, rfl, hfailed⟩ (hsaturated step hstep hstatus _ hmem)

/-! ## How many rounds -/

theorem Progress.pendingCount_le (h : Progress steps result) :
    pendingCount result ≤ pendingCount steps := by
  have hall : ∀ {before after : List ExecutionStep},
      List.Forall₂ (Partly steps result) before after →
        pendingCount after ≤ pendingCount before := by
    intro before after hpartly
    unfold pendingCount
    induction hpartly with
    | nil => exact le_refl _
    | @cons step now _ _ hpartly _ ih =>
      rw [List.countP_cons, List.countP_cons]
      cases hpartly with
      | same => omega
      | downstream dependency =>
        have hblocked : (step.blockedBy dependency).status ≠ .pending := nofun
        rw [if_neg (by simpa using hblocked)]
        omega
  exact hall h

theorem pendingCount_finish (hstep : step ∈ steps) (hpending : step.status = .pending)
    {status : StepStatus} (hstatus : status.isTerminal) (attempts : UInt32) :
    pendingCount (finish steps step.id status attempts) < pendingCount steps := by
  have hended : status ≠ .pending := by
    rintro rfl
    revert hstatus
    decide
  refine Rows.countP_map_lt (fun other _ hafter => ?_) ⟨step, hstep, decide_eq_true hpending, ?_⟩
  · split_ifs at hafter with hid
    · exact absurd (of_decide_eq_true hafter) hended
    · exact hafter
  · rw [if_pos rfl]
    exact decide_eq_false hended

/-- A round leaves fewer steps pending. -/
theorem Round.descends (h : Settled steps) {ran : ExecutionStep} (hround : Round steps ran result) :
    (Settled result ∧ Saturated result) ∧ pendingCount result < pendingCount steps := by
  obtain ⟨hmem, hpending, -⟩ := (mem_runnable h.distinct).mp hround.chosen
  obtain ⟨status, attempts, rounds, hstatus, hresult⟩ := hround.ended
  obtain ⟨hprogress, -⟩ := blockDownstream_some (Progress.refl _) hresult
  refine ⟨(h.finish ran.id hstatus attempts).after_blocking hresult, ?_⟩
  exact lt_of_le_of_lt hprogress.pendingCount_le (pendingCount_finish hmem hpending hstatus attempts)

theorem Rounds.run {start : List ExecutionStep}
    {history : List (List ExecutionStep × ExecutionStep)} (h : Settled start ∧ Saturated start)
    (hrounds : Rounds start history current) :
    (Settled current ∧ Saturated current) ∧
      history.length + pendingCount current ≤ pendingCount start ∧
      ∀ found ran, (found, ran) ∈ history → ran ∈ runnable found ∧
        ∀ dependency ∈ ran.dependencies, HasStatus found (· = .succeeded) dependency := by
  induction hrounds with
  | start => exact ⟨h, by simp, nofun⟩
  | @next history found ran next _ hround ih =>
    obtain ⟨⟨hfound, -⟩, hcount, hready⟩ := ih
    obtain ⟨hnext, hfewer⟩ := hround.descends hfound
    refine ⟨hnext, ?_, ?_⟩
    · rw [List.length_append, List.length_singleton]
      omega
    · intro found' ran' hmem
      rcases List.mem_append.mp hmem with hbefore | hlast
      · exact hready found' ran' hbefore
      · obtain ⟨rfl, rfl⟩ := Prod.mk.inj (List.mem_singleton.mp hlast)
        exact ⟨hround.chosen, ((mem_runnable hfound.distinct).mp hround.chosen).2.2⟩

/-! ## Progress and safety -/

/-- In every run that starts with `block_downstream` only steps are run whose dependencies have
    succeeded. A step can be run, with whatever outcome, as long as one is pending, and there are
    at most as many rounds as steps. -/
theorem scheduler_progress (steps : List ExecutionStep) (depth : ℕ)
    (haccepted : validateDag depth steps = .ok (.ok ()))
    (hsettled : ∀ step ∈ steps, step.status = .pending ∨ step.status.isTerminal) :
    ∃ start, (∀ rounds, steps.length < rounds → blockDownstream rounds steps = some start) ∧
      (∀ step ∈ runnable steps, ∀ dependency ∈ step.dependencies,
        HasStatus steps (· = .succeeded) dependency) ∧
      ∀ history current, Rounds start history current →
        (∀ step ∈ runnable current, ∀ dependency ∈ step.dependencies,
          HasStatus current (· = .succeeded) dependency) ∧
        (runnable current = [] → ∀ step ∈ current, step.status.isTerminal) ∧
        (∀ ran ∈ runnable current, ∀ status attempts, status.isTerminal →
          ∃ next, (∀ rounds, current.length < rounds →
              blockDownstream rounds (finish current ran.id status attempts) = some next) ∧
            Round current ran next) ∧
        history.length ≤ steps.length ∧
        ∀ found ran, (found, ran) ∈ history → ran ∈ runnable found ∧
          ∀ dependency ∈ ran.dependencies, HasStatus found (· = .succeeded) dependency := by
  have hplan := settled_of_accepted haccepted hsettled
  obtain ⟨start, hreturns⟩ := blockDownstream_returns (Nat.lt_succ_of_le (List.countP_le_length))
  have hstart := hreturns _ (le_refl _)
  obtain ⟨hprogress, hsaturated⟩ := blockDownstream_some (Progress.refl steps) hstart
  refine ⟨start, fun rounds => hreturns rounds, ?_, ?_⟩
  · exact fun step hstep => ((mem_runnable hplan.distinct).mp hstep).2.2
  · intro history current hrounds
    obtain ⟨⟨hcurrent, hquiet⟩, hcount, hready⟩ :=
      hrounds.run ⟨hplan.progress hprogress, hsaturated⟩
    refine ⟨fun step hstep => ((mem_runnable hcurrent.distinct).mp hstep).2.2, ?_, ?_, ?_, hready⟩
    · intro hnone step hstep
      rcases hcurrent.settled step hstep with hpending | hterminal
      · exact absurd hnone (hcurrent.exists_runnable hquiet ⟨step, hstep, rfl, hpending⟩)
      · exact hterminal
    · intro ran hran status attempts hstatus
      have hlength : pendingCount (finish current ran.id status attempts) < current.length + 1 := by
        apply Nat.lt_succ_of_le
        exact List.countP_le_length.trans (by rw [finish, List.length_map])
      obtain ⟨next, hnext⟩ := blockDownstream_returns hlength
      exact ⟨next, fun rounds => hnext rounds, hran, status, attempts, _, hstatus,
        hnext _ (le_refl _)⟩
    · have hfewer := hprogress.pendingCount_le
      have hall : pendingCount steps ≤ steps.length := List.countP_le_length
      omega

/-- A plan of three steps, with the step that depends on both others first. -/
def smallPlan : List ExecutionStep := [
  { id := "verify", operationKey := "k3", connector := "http", action := .verify,
    dependencies := ["erase", "export"], status := .pending, attempts := 0,
    desiredState := .absent, blockReason := none },
  { id := "erase", operationKey := "k2", connector := "http", action := .erase,
    dependencies := ["export"], status := .pending, attempts := 0, desiredState := .absent,
    blockReason := none },
  { id := "export", operationKey := "k1", connector := "http", action := .export,
    dependencies := [], status := .pending, attempts := 0, desiredState := .exported,
    blockReason := none }]

theorem scheduler_progress_of_small_plan :
    ∃ start, blockDownstream 4 smallPlan = some start ∧
      ∀ history current, Rounds start history current → history.length ≤ 3 ∧
        (runnable current = [] → ∀ step ∈ current, step.status.isTerminal) := by
  obtain ⟨start, hreturns, -, hruns⟩ :=
    scheduler_progress smallPlan 4 (by decide +kernel) (by decide)
  refine ⟨start, hreturns 4 (by decide), fun history current hrounds => ?_⟩
  obtain ⟨-, hended, -, hlength, -⟩ := hruns history current hrounds
  exact ⟨hlength, hended⟩

end ForgetOps.Agent.Dag
