import ForgetOps.Agent.Dag
import ForgetOps.Library.Rows

/-
  `block_downstream` (`agent/crates/agent-core/src/dag.rs`).

  A round blocks the pending steps with a dependency that had failed when the round began; rounds
  follow until one blocks nothing. `blocks_downstream`: what is blocked are the pending steps that a
  path through pending steps leads from to a step that had failed at entry, whatever the order of
  the list.
-/

namespace ForgetOps.Agent.Dag

def StepStatus.hasFailed (s : StepStatus) : Prop := s = .failed ∨ s = .needsReview ∨ s = .blocked

instance : DecidablePred StepStatus.hasFailed := fun _ => inferInstanceAs (Decidable (_ ∨ _ ∨ _))

def failedIds (steps : List ExecutionStep) : List String :=
  (steps.filter fun step => step.status.hasFailed).map (·.id)

/-- The step once it is blocked by `dependency`. -/
def ExecutionStep.blockedBy (step : ExecutionStep) (dependency : String) : ExecutionStep :=
  { step with status := .blocked, blockReason := some ("dependency_failed:" ++ dependency) }

/-- The step after a round, and whether the round has changed it. -/
def blockStep (failed : List String) (step : ExecutionStep) : ExecutionStep × Bool :=
  if step.status = .pending then
    match step.dependencies.find? fun dependency => dependency ∈ failed with
    | some dependency => (step.blockedBy dependency, true)
    | none => (step, false)
  else (step, false)

def blockRound (steps : List ExecutionStep) : List (ExecutionStep × Bool) :=
  steps.map (blockStep (failedIds steps))

/-- The loop, for at most so many rounds. -/
def blockDownstream : ℕ → List ExecutionStep → Option (List ExecutionStep)
  | 0, _ => none
  | rounds + 1, steps =>
    if (blockRound steps).any (·.2) then blockDownstream rounds ((blockRound steps).map (·.1))
    else some ((blockRound steps).map (·.1))

/-! ## What is downstream -/

/-- The step `id` has a status of this kind. -/
def HasStatus (steps : List ExecutionStep) (p : StepStatus → Prop) (id : String) : Prop :=
  ∃ step ∈ steps, step.id = id ∧ p step.status

/-- A step on which a step depends, and which is pending. -/
def PendingDependency (steps : List ExecutionStep) (id dependency : String) : Prop :=
  DependsOn steps id dependency ∧ HasStatus steps (· = .pending) dependency

/-- A path through pending steps leads to a step that has failed. -/
def Downstream (steps : List ExecutionStep) (id : String) : Prop :=
  ∃ last failed, Relation.ReflTransGen (PendingDependency steps) id last ∧
    DependsOn steps last failed ∧ HasStatus steps StepStatus.hasFailed failed

/-- What becomes of the steps one by one: `result` is the list they are in then. -/
inductive Blocked (steps result : List ExecutionStep) : ExecutionStep → ExecutionStep → Prop where
  | downstream (step : ExecutionStep) (dependency : String) : step.status = .pending →
      Downstream steps step.id → dependency ∈ step.dependencies →
      HasStatus result StepStatus.hasFailed dependency →
      Blocked steps result step (step.blockedBy dependency)
  | same (step : ExecutionStep) : ¬ (step.status = .pending ∧ Downstream steps step.id) →
      Blocked steps result step step

variable {steps current : List ExecutionStep} {step : ExecutionStep} {id : String}

theorem mem_failedIds : id ∈ failedIds steps ↔ HasStatus steps StepStatus.hasFailed id := by
  unfold failedIds HasStatus
  simp only [List.mem_map, List.mem_filter, decide_eq_true_eq]
  constructor
  · rintro ⟨step, ⟨hstep, hfailed⟩, rfl⟩
    exact ⟨step, hstep, rfl, hfailed⟩
  · rintro ⟨step, hstep, rfl, hfailed⟩
    exact ⟨step, ⟨hstep, hfailed⟩, rfl⟩

/-! ## One round -/

/-- What a round can do to a step. -/
theorem blockStep_cases (failed : List String) (step : ExecutionStep) :
    (∃ dependency ∈ step.dependencies, dependency ∈ failed ∧ step.status = .pending ∧
        blockStep failed step = (step.blockedBy dependency, true)) ∨
      (step.status = .pending → ∀ dependency ∈ step.dependencies, dependency ∉ failed) ∧
        blockStep failed step = (step, false) := by
  unfold blockStep
  split_ifs with hpending
  · split
    · next dependency hfound =>
      have hfailed : dependency ∈ failed := by simpa using List.find?_some hfound
      exact .inl ⟨dependency, List.mem_of_find?_eq_some hfound, hfailed, hpending, rfl⟩
    · next hnone =>
      refine .inr ⟨fun _ dependency hmem hfailed => ?_, rfl⟩
      exact List.find?_eq_none.mp hnone dependency hmem (decide_eq_true hfailed)
  · exact .inr ⟨fun h => absurd h hpending, rfl⟩

/-- No pending step has a dependency that has failed. -/
def Saturated (steps : List ExecutionStep) : Prop :=
  ∀ step ∈ steps, step.status = .pending →
    ∀ dependency ∈ step.dependencies, ¬ HasStatus steps StepStatus.hasFailed dependency

theorem saturated_iff : Saturated steps ↔ (blockRound steps).any (·.2) = false := by
  unfold Saturated blockRound
  simp only [List.any_map, List.any_eq_false, Function.comp_apply, Bool.not_eq_true,
    ← mem_failedIds]
  refine forall₂_congr fun step _ => ?_
  rcases blockStep_cases (failedIds steps) step with
    ⟨dependency, hmem, hfailed, hpending, heq⟩ | ⟨hnone, heq⟩
  · rw [heq]
    simp only [Bool.true_eq_false, iff_false]
    exact fun h => h hpending dependency hmem hfailed
  · rw [heq]
    simp only [iff_true]
    exact hnone

/-- A round of saturated steps changes nothing. -/
theorem blockRound_of_saturated (h : Saturated steps) : (blockRound steps).map (·.1) = steps := by
  have hsame : ∀ step ∈ steps, (blockStep (failedIds steps) step).1 = step := by
    intro step hstep
    rcases blockStep_cases (failedIds steps) step with
      ⟨dependency, hmem, hfailed, hpending, -⟩ | ⟨-, heq⟩
    · exact absurd (mem_failedIds.mp hfailed) (h step hstep hpending dependency hmem)
    · rw [heq]
  unfold blockRound
  rw [List.map_map]
  exact (List.map_congr_left hsame).trans (List.map_id steps)

/-- What has become of a step so far, with `current` the list the steps are in by now. -/
inductive Partly (steps current : List ExecutionStep) : ExecutionStep → ExecutionStep → Prop where
  | same (step : ExecutionStep) : Partly steps current step step
  | downstream (step : ExecutionStep) (dependency : String) : step.status = .pending →
      Downstream steps step.id → dependency ∈ step.dependencies →
      HasStatus current StepStatus.hasFailed dependency →
      Partly steps current step (step.blockedBy dependency)

/-- So far only steps downstream have been blocked. -/
def Progress (steps current : List ExecutionStep) : Prop :=
  List.Forall₂ (Partly steps current) steps current

theorem Progress.refl (steps : List ExecutionStep) : Progress steps steps :=
  List.forall₂_same.mpr fun step _ => .same step

/-- The step a step of the list has been. -/
theorem Progress.origin (h : Progress steps current) {now : ExecutionStep} (hnow : now ∈ current) :
    ∃ step ∈ steps, Partly steps current step now := by
  obtain ⟨i, hi, rfl⟩ := List.mem_iff_getElem.mp hnow
  have hlength := h.length_eq
  exact ⟨steps[i], List.getElem_mem _, (List.forall₂_iff_get.mp h).2 i (by omega) hi⟩

/-- What has failed by now had failed before, or is downstream. -/
theorem Progress.failed (h : Progress steps current)
    (hfailed : HasStatus current StepStatus.hasFailed id) :
    HasStatus steps StepStatus.hasFailed id ∨
      HasStatus steps (· = .pending) id ∧ Downstream steps id := by
  obtain ⟨now, hnow, rfl, hstatus⟩ := hfailed
  obtain ⟨step, hstep, hpartly⟩ := h.origin hnow
  cases hpartly with
  | same => exact .inl ⟨_, hstep, rfl, hstatus⟩
  | downstream _ hpending hdownstream => exact .inr ⟨⟨step, hstep, rfl, hpending⟩, hdownstream⟩

/-- A pending step with a dependency that has failed by now is downstream. -/
theorem Progress.downstream (h : Progress steps current) (hstep : step ∈ steps)
    {dependency : String} (hmem : dependency ∈ step.dependencies)
    (hfailed : HasStatus current StepStatus.hasFailed dependency) : Downstream steps step.id := by
  have hdepends : DependsOn steps step.id dependency := ⟨step, hstep, rfl, hmem⟩
  rcases h.failed hfailed with hbefore | ⟨hpending, last, failed, hpath, hedge, hend⟩
  · exact ⟨step.id, dependency, .refl, hdepends, hbefore⟩
  · exact ⟨last, failed, .head ⟨hdepends, hpending⟩ hpath, hedge, hend⟩

/-- What has failed stays so. -/
theorem hasStatus_blockRound (h : HasStatus steps StepStatus.hasFailed id) :
    HasStatus ((blockRound steps).map (·.1)) StepStatus.hasFailed id := by
  obtain ⟨step, hstep, rfl, hfailed⟩ := h
  refine ⟨(blockStep (failedIds steps) step).1, ?_, ?_⟩
  · unfold blockRound
    rw [List.map_map]
    exact List.mem_map_of_mem (f := fun s => (blockStep (failedIds steps) s).1) hstep
  · rcases blockStep_cases (failedIds steps) step with ⟨dependency, -, -, -, heq⟩ | ⟨-, heq⟩
    · rw [heq]
      exact ⟨rfl, .inr (.inr rfl)⟩
    · rw [heq]
      exact ⟨rfl, hfailed⟩

theorem Progress.round (h : Progress steps current) :
    Progress steps ((blockRound current).map (·.1)) := by
  have hall := (List.forall₂_and_left steps current).mpr ⟨fun _ hstep => hstep, h⟩
  unfold Progress
  nth_rewrite 2 [blockRound]
  rw [List.map_map, List.forall₂_map_right_iff]
  refine hall.imp fun step now ⟨hstep, hpartly⟩ => ?_
  show Partly steps _ step (blockStep (failedIds current) now).1
  cases hpartly with
  | same =>
    rcases blockStep_cases (failedIds current) step with
      ⟨dependency, hmem, hfailed, hpending, heq⟩ | ⟨-, heq⟩
    · have hnow := mem_failedIds.mp hfailed
      rw [heq]
      exact .downstream step dependency hpending (h.downstream hstep hmem hnow) hmem
        (hasStatus_blockRound hnow)
    · rw [heq]
      exact .same step
  | downstream dependency hpending hdownstream hmem hfailed =>
    exact .downstream step dependency hpending hdownstream hmem (hasStatus_blockRound hfailed)

/-! ## The loop -/

/-- How many steps are pending. -/
def pendingCount (steps : List ExecutionStep) : ℕ := steps.countP fun step => step.status = .pending

/-- A round that changes something leaves fewer steps pending. -/
theorem pendingCount_blockRound (h : (blockRound steps).any (·.2) = true) :
    pendingCount ((blockRound steps).map (·.1)) < pendingCount steps := by
  unfold pendingCount
  rw [blockRound, List.map_map]
  unfold blockRound at h
  rw [List.any_map, List.any_eq_true] at h
  obtain ⟨changed, hmem, hchanged⟩ := h
  refine Rows.countP_map_lt (fun step _ hafter => ?_) ⟨changed, hmem, ?_⟩
  · rcases blockStep_cases (failedIds steps) step with ⟨_, -, -, hpending, -⟩ | ⟨-, heq⟩
    · exact decide_eq_true hpending
    · rwa [Function.comp_apply, heq] at hafter
  · rcases blockStep_cases (failedIds steps) changed with ⟨_, -, -, hpending, heq⟩ | ⟨-, heq⟩
    · refine ⟨decide_eq_true hpending, ?_⟩
      rw [Function.comp_apply, heq]
      rfl
    · rw [Function.comp_apply, heq] at hchanged
      cases hchanged

theorem blockDownstream_of_saturated (h : Saturated steps) {rounds : ℕ} (hrounds : 0 < rounds) :
    blockDownstream rounds steps = some steps := by
  obtain ⟨rounds, rfl⟩ := Nat.exists_eq_add_of_lt hrounds
  have hquiet : ¬ (blockRound steps).any (·.2) = true := by
    rw [saturated_iff.mp h]
    decide
  rw [Nat.zero_add, blockDownstream, if_neg hquiet, blockRound_of_saturated h]

/-- The loop ends once there are more rounds than pending steps. -/
theorem blockDownstream_returns {rounds : ℕ} (hrounds : pendingCount current < rounds) :
    ∃ result, ∀ more, rounds ≤ more → blockDownstream more current = some result := by
  induction rounds generalizing current with
  | zero => omega
  | succ rounds ih =>
    by_cases hany : (blockRound current).any (·.2) = true
    · have hfewer : pendingCount ((blockRound current).map (·.1)) < rounds :=
        lt_of_lt_of_le (pendingCount_blockRound hany) (Nat.le_of_lt_succ hrounds)
      obtain ⟨result, hresult⟩ := ih hfewer
      refine ⟨result, fun more hmore => ?_⟩
      obtain ⟨more, rfl⟩ := Nat.exists_eq_add_of_le' hmore
      rw [← Nat.add_assoc, blockDownstream, if_pos hany]
      exact hresult _ (by omega)
    · have hsaturated : Saturated current := saturated_iff.mpr (Bool.eq_false_of_not_eq_true hany)
      exact ⟨current, fun more hmore => blockDownstream_of_saturated hsaturated (by omega)⟩

/-- What the loop returns with. -/
theorem blockDownstream_some {rounds : ℕ} {result : List ExecutionStep}
    (h : Progress steps current) (hresult : blockDownstream rounds current = some result) :
    Progress steps result ∧ Saturated result := by
  induction rounds generalizing current with
  | zero => cases hresult
  | succ rounds ih =>
    rw [blockDownstream] at hresult
    split_ifs at hresult with hany
    · exact ih h.round hresult
    · have hsaturated : Saturated current := saturated_iff.mpr (Bool.eq_false_of_not_eq_true hany)
      rw [blockRound_of_saturated hsaturated] at hresult
      obtain rfl := Option.some.inj hresult
      exact ⟨h, hsaturated⟩

/-! ## What is blocked -/

section Result

variable {result : List ExecutionStep}

/-- What no round changes of a step. -/
def outline (step : ExecutionStep) : String × List String := (step.id, step.dependencies)

theorem Progress.outline (h : Progress steps result) : result.map outline = steps.map outline := by
  have hall : ∀ {before after : List ExecutionStep},
      List.Forall₂ (Partly steps result) before after →
        after.map Dag.outline = before.map Dag.outline := by
    intro before after hpartly
    induction hpartly with
    | nil => rfl
    | cons hpartly _ ih =>
      rw [List.map_cons, List.map_cons, ih]
      cases hpartly <;> rfl
  exact hall h

theorem ids_of_outline (h : result.map outline = steps.map outline) :
    result.map (·.id) = steps.map (·.id) := by
  have hids := congrArg (List.map Prod.fst) h
  rwa [List.map_map, List.map_map] at hids

/-- The step a step of the list is now. -/
theorem Progress.now (h : Progress steps result) (hstep : step ∈ steps) :
    ∃ now ∈ result, Partly steps result step now := by
  obtain ⟨i, hi, rfl⟩ := List.mem_iff_getElem.mp hstep
  have hlength := h.length_eq
  exact ⟨result[i], List.getElem_mem _, (List.forall₂_iff_get.mp h).2 i hi (by omega)⟩

theorem Progress.keeps_failed (h : Progress steps result)
    (hfailed : HasStatus steps StepStatus.hasFailed id) :
    HasStatus result StepStatus.hasFailed id := by
  obtain ⟨step, hstep, rfl, hstatus⟩ := hfailed
  obtain ⟨now, hnow, hpartly⟩ := h.now hstep
  cases hpartly with
  | same => exact ⟨_, hnow, rfl, hstatus⟩
  | downstream => exact ⟨_, hnow, rfl, .inr (.inr rfl)⟩

variable (hdistinct : (steps.map (·.id)).Nodup)
include hdistinct

/-- In saturated steps a step has failed whose dependency has. -/
theorem Progress.spreads (h : Progress steps result) (hsaturated : Saturated result)
    (hpending : HasStatus steps (· = .pending) id) {dependency : String}
    (hdepends : DependsOn steps id dependency)
    (hfailed : HasStatus result StepStatus.hasFailed dependency) :
    HasStatus result StepStatus.hasFailed id := by
  obtain ⟨step, hstep, rfl, hstatus⟩ := hpending
  obtain ⟨other, hother, hid, hmem⟩ := hdepends
  obtain rfl := List.inj_on_of_nodup_map hdistinct hother hstep hid
  obtain ⟨now, hnow, hpartly⟩ := h.now hother
  cases hpartly with
  | same => exact absurd hfailed (hsaturated _ hnow hstatus dependency hmem)
  | downstream => exact ⟨_, hnow, rfl, .inr (.inr rfl)⟩

/-- Once the steps are saturated all pending steps downstream have failed. -/
theorem Progress.complete (h : Progress steps result) (hsaturated : Saturated result)
    (hdownstream : Downstream steps id) (hpending : HasStatus steps (· = .pending) id) :
    HasStatus result StepStatus.hasFailed id := by
  obtain ⟨last, failed, hpath, hedge, hfailed⟩ := hdownstream
  induction hpath using Relation.ReflTransGen.head_induction_on with
  | refl => exact h.spreads hdistinct hsaturated hpending hedge (h.keeps_failed hfailed)
  | head hstep _ ih => exact h.spreads hdistinct hsaturated hpending hstep.1 (ih hstep.2)

theorem Progress.blocked (h : Progress steps result) (hsaturated : Saturated result) :
    List.Forall₂ (Blocked steps result) steps result := by
  rw [List.forall₂_iff_get]
  refine ⟨h.length_eq, fun i hi hi' => ?_⟩
  have hpartly := (List.forall₂_iff_get.mp h).2 i hi hi'
  have hstep : steps.get ⟨i, hi⟩ ∈ steps := List.get_mem _ _
  have hnow : result.get ⟨i, hi'⟩ ∈ result := List.get_mem _ _
  have hids : (result.map (·.id)).Nodup := ids_of_outline h.outline ▸ hdistinct
  generalize steps.get ⟨i, hi⟩ = before at hpartly hstep
  generalize result.get ⟨i, hi'⟩ = now at hpartly hnow
  cases hpartly with
  | downstream dependency hpending hdownstream hmem hfailed =>
    exact .downstream before dependency hpending hdownstream hmem hfailed
  | same =>
    refine .same before fun ⟨hpending, hdownstream⟩ => ?_
    obtain ⟨other, hother, hid, hfailed⟩ :=
      h.complete hdistinct hsaturated hdownstream ⟨before, hstep, rfl, hpending⟩
    obtain rfl := List.inj_on_of_nodup_map hids hother hnow hid
    rw [hpending] at hfailed
    revert hfailed
    decide

end Result

/-! ## The order of the list -/

theorem Downstream.perm {steps' : List ExecutionStep} (hperm : steps.Perm steps')
    (h : Downstream steps id) : Downstream steps' id := by
  have hdepends : ∀ x y, DependsOn steps x y → DependsOn steps' x y :=
    fun x y ⟨step, hstep, hrest⟩ => ⟨step, hperm.mem_iff.mp hstep, hrest⟩
  have hstatus : ∀ p x, HasStatus steps p x → HasStatus steps' p x :=
    fun p x ⟨step, hstep, hrest⟩ => ⟨step, hperm.mem_iff.mp hstep, hrest⟩
  obtain ⟨last, failed, hpath, hedge, hfailed⟩ := h
  have hle : PendingDependency steps ≤ PendingDependency steps' :=
    fun x y hxy => ⟨hdepends x y hxy.1, hstatus _ y hxy.2⟩
  have hpath' := Relation.ReflTransGen.mono hle _ _ hpath
  exact ⟨last, failed, hpath', hdepends _ _ hedge, hstatus _ _ hfailed⟩

/-- The step a step of the result has been. -/
theorem origin_of_blocked {result : List ExecutionStep} {now : ExecutionStep}
    (h : List.Forall₂ (Blocked steps result) steps result) (hnow : now ∈ result) :
    ∃ before ∈ steps, Blocked steps result before now := by
  obtain ⟨i, hi, rfl⟩ := List.mem_iff_getElem.mp hnow
  have hlength := h.length_eq
  exact ⟨steps[i], List.getElem_mem _, (List.forall₂_iff_get.mp h).2 i (by omega) hi⟩

theorem status_of_perm (hdistinct : (steps.map (·.id)).Nodup)
    {steps' result result' : List ExecutionStep} (hperm : steps.Perm steps')
    (h : List.Forall₂ (Blocked steps result) steps result)
    (h' : List.Forall₂ (Blocked steps' result') steps' result')
    {now now' : ExecutionStep} (hnow : now ∈ result) (hnow' : now' ∈ result')
    (hid : now.id = now'.id) : now.status = now'.status := by
  obtain ⟨before, hbefore, hblocked⟩ := origin_of_blocked h hnow
  obtain ⟨before', hbefore', hblocked'⟩ := origin_of_blocked h' hnow'
  have hsame : ∀ {list list' : List ExecutionStep} {a b : ExecutionStep},
      Blocked list list' a b → b.id = a.id := fun hb => by cases hb <;> rfl
  have horigin : before = before' := by
    refine List.inj_on_of_nodup_map hdistinct hbefore (hperm.mem_iff.mpr hbefore') ?_
    rw [← hsame hblocked, ← hsame hblocked', hid]
  subst horigin
  cases hblocked with
  | downstream _ hpending hdownstream =>
    cases hblocked' with
    | downstream => rfl
    | same hkept => exact absurd ⟨hpending, hdownstream.perm hperm⟩ hkept
  | same hkept =>
    cases hblocked' with
    | downstream _ hpending hdownstream =>
      exact absurd ⟨hpending, hdownstream.perm hperm.symm⟩ hkept
    | same => rfl

/-- `block_downstream` returns. It blocks the pending steps downstream of a failed one, changes
    nothing else, changes nothing again, and does the same for each order of the steps. -/
theorem blocks_downstream (steps : List ExecutionStep) (hdistinct : (steps.map (·.id)).Nodup) :
    ∃ result, (∀ rounds, steps.length < rounds → blockDownstream rounds steps = some result) ∧
      List.Forall₂ (Blocked steps result) steps result ∧
      (∀ rounds, 0 < rounds → blockDownstream rounds result = some result) ∧
      ∀ steps' rounds result', steps.Perm steps' →
        blockDownstream rounds steps' = some result' →
        ∀ step ∈ result, ∀ step' ∈ result', step.id = step'.id → step.status = step'.status := by
  have hcount : pendingCount steps < steps.length + 1 := Nat.lt_succ_of_le List.countP_le_length
  obtain ⟨result, hresult⟩ := blockDownstream_returns hcount
  obtain ⟨hprogress, hsaturated⟩ :=
    blockDownstream_some (Progress.refl steps) (hresult _ (le_refl _))
  have hblocked := hprogress.blocked hdistinct hsaturated
  refine ⟨result, fun rounds hrounds => hresult rounds hrounds, hblocked,
    fun rounds hrounds => blockDownstream_of_saturated hsaturated hrounds, ?_⟩
  intro steps' rounds result' hperm hresult' step hstep step' hstep' hid
  obtain ⟨hprogress', hsaturated'⟩ := blockDownstream_some (Progress.refl steps') hresult'
  have hdistinct' : (steps'.map (·.id)).Nodup := (hperm.map _).nodup_iff.mp hdistinct
  exact status_of_perm hdistinct hperm hblocked (hprogress'.blocked hdistinct' hsaturated') hstep
    hstep' hid

/-- Three steps, the first of which has failed. -/
def failedChain : List ExecutionStep := [
  { id := "c", operationKey := "k3", connector := "http", action := .verify,
    dependencies := ["b"], status := .pending, attempts := 0, desiredState := .absent,
    blockReason := none },
  { id := "b", operationKey := "k2", connector := "http", action := .erase,
    dependencies := ["a"], status := .pending, attempts := 0, desiredState := .absent,
    blockReason := none },
  { id := "a", operationKey := "k1", connector := "http", action := .discover,
    dependencies := [], status := .failed, attempts := 1, desiredState := .absent,
    blockReason := none }]

theorem blocks_downstream_of_failed_chain :
    ∃ result, blockDownstream 4 failedChain = some result ∧
      result.map (·.status) = [.blocked, .blocked, .failed] ∧
      List.Forall₂ (Blocked failedChain result) failedChain result := by
  obtain ⟨result, hreturns, hblocked, -⟩ := blocks_downstream failedChain (by decide)
  have hresult := hreturns 4 (by decide)
  refine ⟨result, hresult, ?_, hblocked⟩
  have hrun : (blockDownstream 4 failedChain).map (fun steps => steps.map (·.status)) =
      some [.blocked, .blocked, .failed] := by
    decide +kernel
  rw [hresult] at hrun
  exact Option.some.inj hrun

end ForgetOps.Agent.Dag
