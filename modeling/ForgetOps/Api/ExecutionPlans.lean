import ForgetOps.Agent.Dag
import ForgetOps.Signer.AuthorizationSigner

/-
  The planner of the API (`apps/api/src/modules/execution-plans/plan-service.ts`) against the
  agent that is to carry out its plans.

  `validateSteps` looks at one edge at a time: it refuses unknown dependencies and steps that depend
  on themselves, and lets longer cycles through. The agent searches for cycles of any length, so
  that the two agree exactly on the plans whose steps can be put in order
  (`agent_accepts_iff_orderable`).

  Numbers are rationals, without NaN and the infinities. Canonical JSON and SHA-256 are arguments.
-/

namespace ForgetOps.Api.ExecutionPlans

open Agent.Dag (ExecutionStep DependsOn WellFormed validateDag)
open Signer (Date)
open Guards

inductive PlanRisk where
  | low
  | medium
  | high
  deriving DecidableEq, Repr

inductive PlanAction where
  | discover
  | export
  | erase
  | verify
  deriving DecidableEq, Repr

structure PlanStep where
  id : String
  connector : String
  resource : String
  action : PlanAction
  estimatedCount : ℚ
  risk : PlanRisk
  dependencies : List String
  deriving DecidableEq, Repr

inductive PlanStatus where
  | draft
  | awaitingApproval
  | approved
  | expired
  deriving DecidableEq, Repr

structure PlanProjection where
  id : String
  requestId : String
  version : ℚ
  fingerprint : String
  connectorConfigurationFingerprint : String
  steps : List PlanStep
  requiresApproval : Bool
  status : PlanStatus
  createdAt : String
  expiresAt : String
  deriving DecidableEq, Repr

structure CreatePlanInput where
  id : String
  requestId : String
  version : ℚ
  connectorConfigurationFingerprint : String
  steps : List PlanStep
  requiresApproval : Option Bool
  now : Option Date
  ttlMs : Option ℚ

inductive PlanServiceError where
  | planInvalid
  | planVersionMismatch
  | planNotFound
  | planExpired
  deriving DecidableEq, Repr

/-- What `create` throws: its own errors, and those of dates. -/
inductive PlanError where
  | service (code : PlanServiceError)
  | date (error : Signer.SignerError)
  deriving DecidableEq, Repr

/-- What is hashed to the fingerprint. -/
structure NormalizedPlan where
  connectorConfigurationFingerprint : String
  steps : List PlanStep

structure Libraries where
  canonicalize : NormalizedPlan → Option String
  sha256Hex : String → String

def isInteger (x : ℚ) : Prop := x.den = 1

instance : DecidablePred isInteger := fun _ => inferInstanceAs (Decidable (_ = _))

def planInvalid {α : Type} : Except PlanError α := throw (.service .planInvalid)

/-- The conditions on one step, given the ids before it. -/
def stepInvalid (ids : Finset String) (step : PlanStep) : Prop :=
  step.id = "" ∨ step.id ∈ ids ∨ step.connector = "" ∨ step.resource = "" ∨
    ¬ isInteger step.estimatedCount ∨ step.estimatedCount < 0 ∨ step.id ∈ step.dependencies

instance (ids : Finset String) : DecidablePred (stepInvalid ids) :=
  fun _ => inferInstanceAs (Decidable (_ ∨ _))

/-- The first loop of `validateSteps`; answers the set of ids. -/
def collectIds (ids : Finset String) : List PlanStep → Except PlanError (Finset String)
  | [] => pure ids
  | step :: steps => do
    refuse (stepInvalid ids step) (.service .planInvalid)
    collectIds (insert step.id ids) steps

def validateSteps (steps : List PlanStep) : Except PlanError Unit := do
  refuse (steps = []) (.service .planInvalid)
  let ids ← collectIds ∅ steps
  refuse (∃ step ∈ steps, ∃ dependency ∈ step.dependencies, dependency ∉ ids)
    (.service .planInvalid)

def planFingerprint (lib : Libraries) (value : NormalizedPlan) : Except PlanError String :=
  match lib.canonicalize value with
  | none => planInvalid
  | some serialized => pure ("sha256:" ++ lib.sha256Hex serialized)

/-- `create`, on the plans of the service; `clock` is `new Date()`. -/
def create (lib : Libraries) (clock : Date) (plans : Table String PlanProjection)
    (input : CreatePlanInput) : Except PlanError (PlanProjection × Table String PlanProjection) := do
  refuse (∃ existing, plans.find input.requestId = some existing ∧
    input.version ≤ existing.version) (.service .planVersionMismatch)
  validateSteps input.steps
  refuse (¬ isInteger input.version ∨ input.version ≤ 0) (.service .planInvalid)
  let now := input.now.getD clock
  let ttlMs := input.ttlMs.getD (30 * 60 * 1000)
  refuse (ttlMs ≤ 0 ∨ 24 * 60 * 60 * 1000 < ttlMs) (.service .planInvalid)
  let fingerprint ← planFingerprint lib
    { connectorConfigurationFingerprint := input.connectorConfigurationFingerprint
      steps := input.steps }
  let createdAt ← now.toISOString.mapError .date
  let expiresAt ← (now.plus ttlMs).toISOString.mapError .date
  let plan : PlanProjection :=
    { id := input.id
      requestId := input.requestId
      version := input.version
      fingerprint
      connectorConfigurationFingerprint := input.connectorConfigurationFingerprint
      steps := input.steps
      requiresApproval := input.requiresApproval.getD true
      status := if input.requiresApproval = some false then .draft else .awaitingApproval
      createdAt
      expiresAt }
  return (plan, plans.set input.requestId (some plan))

/-! ## What the planner accepts -/

/-- Everything `validateSteps` has checked. -/
structure Validated (steps : List PlanStep) : Prop where
  ids : ∀ step ∈ steps, step.id ≠ ""
  distinct : (steps.map (·.id)).Nodup
  noSelf : ∀ step ∈ steps, step.id ∉ step.dependencies
  known : ∀ step ∈ steps, ∀ dependency ∈ step.dependencies, dependency ∈ steps.map (·.id)

theorem collectIds_ok {ids ids' : Finset String} {steps : List PlanStep}
    (h : collectIds ids steps = .ok ids') :
    ids' = ids ∪ (steps.map (·.id)).toFinset ∧ (steps.map (·.id)).Nodup ∧
      ∀ step ∈ steps, step.id ≠ "" ∧ step.id ∉ ids ∧ step.id ∉ step.dependencies := by
  induction steps generalizing ids with
  | nil =>
    obtain rfl := pure_ok.mp h
    simp
  | cons step steps ih =>
    obtain ⟨hvalid, hrest⟩ := refuse_bind_ok.mp h
    obtain ⟨hids, hdistinct, hall⟩ := ih hrest
    simp only [stepInvalid, not_or] at hvalid
    obtain ⟨hid, hnew, -, -, -, -, hself⟩ := hvalid
    refine ⟨?_, ?_, ?_⟩
    · rw [hids, List.map_cons, List.toFinset_cons, Finset.insert_union, Finset.union_insert]
    · refine List.nodup_cons.mpr ⟨?_, hdistinct⟩
      intro hmem
      obtain ⟨other, hother, heq⟩ := List.mem_map.mp hmem
      exact (hall other hother).2.1 (heq ▸ Finset.mem_insert_self step.id ids)
    · refine List.forall_mem_cons.mpr ⟨⟨hid, hnew, hself⟩, ?_⟩
      intro other hother
      obtain ⟨hid', hnew', hself'⟩ := hall other hother
      exact ⟨hid', fun hmem => hnew' (Finset.mem_insert_of_mem hmem), hself'⟩

theorem validateSteps_ok {steps : List PlanStep} (h : validateSteps steps = .ok ()) :
    Validated steps := by
  obtain ⟨-, h⟩ := refuse_bind_ok.mp h
  obtain ⟨ids, hids, h⟩ := bind_ok.mp h
  obtain ⟨rfl, hdistinct, hall⟩ := collectIds_ok hids
  have hknown := refuse_ok.mp h
  push Not at hknown
  refine ⟨fun step hstep => (hall step hstep).1, hdistinct,
    fun step hstep => (hall step hstep).2.2, ?_⟩
  intro step hstep dependency hdependency
  simpa using hknown step hstep dependency hdependency

theorem create_ok {lib : Libraries} {clock : Date} {plans plans' : Table String PlanProjection}
    {input : CreatePlanInput} {plan : PlanProjection}
    (h : create lib clock plans input = .ok (plan, plans')) :
    Validated input.steps ∧ plan.steps = input.steps := by
  obtain ⟨-, h⟩ := refuse_bind_ok.mp h
  obtain ⟨_, hsteps, h⟩ := bind_ok.mp h
  obtain ⟨-, h⟩ := refuse_bind_ok.mp h
  obtain ⟨-, h⟩ := refuse_bind_ok.mp h
  obtain ⟨fingerprint, -, h⟩ := bind_ok.mp h
  obtain ⟨createdAt, -, h⟩ := bind_ok.mp h
  obtain ⟨expiresAt, -, h⟩ := bind_ok.mp h
  obtain ⟨rfl, -⟩ := Prod.mk.inj (pure_ok.mp h)
  exact ⟨validateSteps_ok hsteps, rfl⟩

/-! ## What the agent makes of it -/

/-- The step with the id `id` of the plan lists `dependency`. -/
def PlanDependsOn (steps : List PlanStep) (id dependency : String) : Prop :=
  ∃ step ∈ steps, step.id = id ∧ dependency ∈ step.dependencies

/-- The steps of the agent have the ids and dependencies of those of the plan, in some order. -/
def SameGraph (plan : List PlanStep) (steps : List ExecutionStep) : Prop :=
  (steps.map fun step => (step.id, step.dependencies)).Perm
    (plan.map fun step => (step.id, step.dependencies))

/-- `validate_dag` returns `Ok`. -/
def Accepts (steps : List ExecutionStep) : Prop :=
  ∀ depth, steps.length < depth → validateDag depth steps = .ok (.ok ())

/-- The plan has no cycle, and the agent accepts it however it fills in the rest. -/
structure Agreed (plan : List PlanStep) : Prop where
  acyclic : DepthFirst.Acyclic (PlanDependsOn plan)
  accepted : ∀ steps, SameGraph plan steps → (∀ step ∈ steps, step.operationKey ≠ "") →
    Accepts steps

/-- The steps can be numbered such that each of them comes after its dependencies. -/
def Orderable (plan : List PlanStep) : Prop :=
  ∃ number : String → ℕ, ∀ step ∈ plan, ∀ dependency ∈ step.dependencies,
    number dependency < number step.id

theorem orderable_iff {plan : List PlanStep} :
    Orderable plan ↔ DepthFirst.Numbered (PlanDependsOn plan) := by
  constructor
  · rintro ⟨number, h⟩
    refine ⟨number, ?_⟩
    rintro id dependency ⟨step, hstep, rfl, hdependency⟩
    exact h step hstep dependency hdependency
  · rintro ⟨number, h⟩
    exact ⟨number, fun step hstep dependency hdependency =>
      h _ _ ⟨step, hstep, rfl, hdependency⟩⟩

theorem orderable_iff_acyclic {plan : List PlanStep} (h : Validated plan) :
    Orderable plan ↔ DepthFirst.Acyclic (PlanDependsOn plan) := by
  rw [orderable_iff, DepthFirst.acyclic_iff_numbered]
  rintro id dependency ⟨step, hstep, -, hdependency⟩
  exact List.mem_toFinset.mpr (h.known step hstep dependency hdependency)

section SameGraph

variable {plan : List PlanStep} {steps : List ExecutionStep}

theorem SameGraph.mem_iff (h : SameGraph plan steps) (id : String) (dependencies : List String) :
    (∃ step ∈ steps, step.id = id ∧ step.dependencies = dependencies) ↔
      ∃ step ∈ plan, step.id = id ∧ step.dependencies = dependencies := by
  have hmem := List.Perm.mem_iff h (a := (id, dependencies))
  simpa using hmem

theorem SameGraph.dependsOn (h : SameGraph plan steps) : DependsOn steps = PlanDependsOn plan := by
  funext id dependency
  apply propext
  constructor
  · rintro ⟨step, hstep, rfl, hdependency⟩
    obtain ⟨step', hstep', hid, heq⟩ := (h.mem_iff _ _).mp ⟨step, hstep, rfl, rfl⟩
    exact ⟨step', hstep', hid, heq ▸ hdependency⟩
  · rintro ⟨step, hstep, rfl, hdependency⟩
    obtain ⟨step', hstep', hid, heq⟩ := (h.mem_iff _ _).mpr ⟨step, hstep, rfl, rfl⟩
    exact ⟨step', hstep', hid, heq ▸ hdependency⟩

theorem SameGraph.ids (h : SameGraph plan steps) :
    (steps.map (·.id)).Perm (plan.map (·.id)) := by
  simpa [Function.comp_def] using h.map Prod.fst

/-- The agent's steps are well formed if those of the plan were validated and have no cycle. -/
theorem SameGraph.wellFormed (h : SameGraph plan steps) (hplan : Validated plan)
    (hkeys : ∀ step ∈ steps, step.operationKey ≠ "")
    (hacyclic : DepthFirst.Acyclic (PlanDependsOn plan)) : WellFormed steps where
  ids := by
    intro step hstep
    obtain ⟨step', hstep', hid, -⟩ := (h.mem_iff _ _).mp ⟨step, hstep, rfl, rfl⟩
    exact hid ▸ hplan.ids step' hstep'
  distinct := h.ids.nodup_iff.mpr hplan.distinct
  operationKeys := hkeys
  dependencies := by
    intro step hstep dependency hdependency
    obtain ⟨step', hstep', hid, heq⟩ := (h.mem_iff _ _).mp ⟨step, hstep, rfl, rfl⟩
    rw [← heq] at hdependency
    have hknown := h.ids.mem_iff.mpr (hplan.known step' hstep' dependency hdependency)
    obtain ⟨other, hother, rfl⟩ := List.mem_map.mp hknown
    refine ⟨other, hother, ?_, rfl⟩
    rintro rfl
    exact hplan.noSelf step' hstep' (hid ▸ hdependency)
  acyclic := by
    rw [h.dependsOn]
    exact hacyclic

end SameGraph

/-- What the planner accepts, the agent accepts exactly if the steps can be put in order. -/
theorem agent_accepts_iff_orderable (lib : Libraries) (clock : Date)
    (plans plans' : Table String PlanProjection) (input : CreatePlanInput) (plan : PlanProjection)
    (h : create lib clock plans input = .ok (plan, plans')) :
    Agreed plan.steps ↔ Orderable input.steps := by
  obtain ⟨hvalid, hsteps⟩ := create_ok h
  rw [hsteps, orderable_iff_acyclic hvalid]
  refine ⟨fun hagreed => hagreed.acyclic, fun hacyclic => ⟨hacyclic, ?_⟩⟩
  intro steps hsame hkeys depth hdepth
  exact Agent.Dag.validateDag_of_wellFormed (hsame.wellFormed hvalid hkeys hacyclic) hdepth

/-! ## A plan in order, and one in a circle -/

def plainLibraries : Libraries where
  canonicalize _ := some "plan"
  sha256Hex _ := "f"

def planStep (id : String) (dependencies : List String) : PlanStep where
  id := id
  connector := "custom"
  resource := "profile"
  action := .erase
  estimatedCount := 1
  risk := .high
  dependencies := dependencies

def planInput (steps : List PlanStep) : CreatePlanInput where
  id := "plan_1"
  requestId := "req_1"
  version := 1
  connectorConfigurationFingerprint := "sha256:connector"
  steps := steps
  requiresApproval := none
  now := none
  ttlMs := none

/-- The plan that is made of the steps at the start of 1970. -/
def createdPlan (steps : List PlanStep) : PlanProjection where
  id := "plan_1"
  requestId := "req_1"
  version := 1
  fingerprint := "sha256:f"
  connectorConfigurationFingerprint := "sha256:connector"
  steps := steps
  requiresApproval := true
  status := .awaitingApproval
  createdAt := "1970-01-01T00:00:00.000Z"
  expiresAt := "1970-01-01T00:30:00.000Z"

/-- The planner accepts the steps, at the start of 1970. -/
theorem create_steps {steps : List PlanStep}
    (h : (create plainLibraries (some 0) .empty (planInput steps)).map Prod.fst =
      .ok (createdPlan steps)) :
    ∃ plans', create plainLibraries (some 0) .empty (planInput steps) =
      .ok (createdPlan steps, plans') := by
  cases hcreate : create plainLibraries (some 0) .empty (planInput steps) with
  | error e =>
    rw [hcreate] at h
    cases h
  | ok created =>
    rw [hcreate] at h
    exact ⟨created.2, by rw [← Except.ok.inj h]⟩

theorem agent_accepts_two_steps : Agreed [planStep "a" [], planStep "b" ["a"]] := by
  obtain ⟨plans', h⟩ := create_steps
    (show (create plainLibraries (some 0) .empty (planInput [planStep "a" [], planStep "b" ["a"]])).map
      Prod.fst = _ by decide +kernel)
  refine (agent_accepts_iff_orderable _ _ _ _ _ _ h).mpr
    ⟨fun id => if id = "b" then 1 else 0, ?_⟩
  simp [planInput, planStep]

/-- Two steps that wait for each other. -/
theorem agent_rejects_circle :
    (∃ plans', create plainLibraries (some 0) .empty
      (planInput [planStep "a" ["b"], planStep "b" ["a"]]) =
        .ok (createdPlan [planStep "a" ["b"], planStep "b" ["a"]], plans')) ∧
      ¬ Agreed [planStep "a" ["b"], planStep "b" ["a"]] := by
  refine ⟨create_steps (by decide +kernel), ?_⟩
  intro h
  have hab : PlanDependsOn [planStep "a" ["b"], planStep "b" ["a"]] "a" "b" :=
    ⟨planStep "a" ["b"], by simp, rfl, by simp [planStep]⟩
  have hba : PlanDependsOn [planStep "a" ["b"], planStep "b" ["a"]] "b" "a" :=
    ⟨planStep "b" ["a"], by simp, rfl, by simp [planStep]⟩
  exact h.acyclic "a" (.tail (.single hab) hba)

end ForgetOps.Api.ExecutionPlans
