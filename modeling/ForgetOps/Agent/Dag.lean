import ForgetOps.Library.DepthFirst
import ForgetOps.Library.Table

/-
  The execution DAG of the agent (`agent/crates/agent-core/src/dag.rs`).

  `validate_dag` first checks every step by itself, then searches for a cycle from each of them.
  `validateDag_decides`: the search returns at a depth of one more than the number of steps, it
  never looks up an id that is not there, and what is accepted are the well-formed plans.
-/

namespace ForgetOps.Agent.Dag

open DepthFirst (Fault Edge Closed ComesBack)

inductive StepAction where
  | discover
  | export
  | erase
  | verify
  deriving DecidableEq, Repr

inductive StepStatus where
  | pending
  | prepared
  | inFlight
  | verifying
  | succeeded
  | failed
  | needsReview
  | blocked
  deriving DecidableEq, Repr

inductive VerificationExpectation where
  | absent
  | anonymized
  | exported
  | retained
  deriving DecidableEq, Repr

structure ExecutionStep where
  id : String
  operationKey : String
  connector : String
  action : StepAction
  dependencies : List String
  status : StepStatus
  attempts : UInt32
  desiredState : VerificationExpectation
  blockReason : Option String
  deriving DecidableEq, Repr

/-- `steps.iter().map(|step| (step.id, step)).collect()`: later steps replace earlier ones. -/
def byId (steps : List ExecutionStep) : Table String ExecutionStep :=
  steps.foldl (fun table step => table.set step.id (some step)) .empty

def dependenciesOf (table : Table String ExecutionStep) (id : String) : Option (List String) :=
  (table.find id).map (·.dependencies)

/-- `has_cycle`, with a bound on its depth; `by_id[id]` of a missing id is `Fault.missing`. -/
def hasCycle (table : Table String ExecutionStep) :
    ℕ → String → Finset String → Except Fault (Bool × Finset String) :=
  DepthFirst.search (dependenciesOf table)

/-- The conditions on one step. -/
def invalid (table : Table String ExecutionStep) (step : ExecutionStep) : Prop :=
  step.id = "" ∨ step.operationKey = "" ∨
    ∃ dependency ∈ step.dependencies, dependency = step.id ∨ table.find dependency = none

instance (table : Table String ExecutionStep) : DecidablePred (invalid table) :=
  fun _ => inferInstanceAs (Decidable (_ ∨ _ ∨ _))

/-- The loop over the steps, each with a path of its own. -/
def findCycle (table : Table String ExecutionStep) (depth : ℕ) :
    List ExecutionStep → Except Fault (Except String Unit)
  | [] => .ok (.ok ())
  | step :: steps =>
    match hasCycle table depth step.id ∅ with
    | .error fault => .error fault
    | .ok (true, _) => .ok (.error "EXECUTION_DAG_CYCLE")
    | .ok (false, _) => findCycle table depth steps

def validateDag (depth : ℕ) (steps : List ExecutionStep) : Except Fault (Except String Unit) :=
  let table := byId steps
  if table.entries.length ≠ steps.length ∨ ∃ step ∈ steps, invalid table step then
    .ok (.error "EXECUTION_DAG_INVALID")
  else findCycle table depth steps

/-! ## Well-formed plans -/

/-- The step with the id `id` lists `dependency`. -/
def DependsOn (steps : List ExecutionStep) (id dependency : String) : Prop :=
  ∃ step ∈ steps, step.id = id ∧ dependency ∈ step.dependencies

structure WellFormed (steps : List ExecutionStep) : Prop where
  ids : ∀ step ∈ steps, step.id ≠ ""
  distinct : (steps.map (·.id)).Nodup
  operationKeys : ∀ step ∈ steps, step.operationKey ≠ ""
  dependencies : ∀ step ∈ steps, ∀ dependency ∈ step.dependencies,
    ∃ other ∈ steps, other ≠ step ∧ other.id = dependency
  acyclic : DepthFirst.Acyclic (DependsOn steps)

variable {steps : List ExecutionStep} {step : ExecutionStep} {id : String}

/-! ## The table of the steps -/

theorem byId_concat (steps : List ExecutionStep) (step : ExecutionStep) :
    byId (steps ++ [step]) = (byId steps).set step.id (some step) := by
  simp [byId]

/-- Only ids of steps are found. -/
theorem find_byId_isSome : ((byId steps).find id).isSome = true ↔ id ∈ steps.map (·.id) := by
  induction steps using List.reverseRecOn with
  | nil => simp [byId]
  | append_singleton steps step ih =>
    rw [byId_concat]
    by_cases hid : id = step.id
    · subst hid
      simp
    · rw [Table.find_set_of_ne _ _ hid, ih]
      simp [hid]

theorem find_byId_eq_none : (byId steps).find id = none ↔ id ∉ steps.map (·.id) := by
  rw [← find_byId_isSome, Option.not_isSome_iff_eq_none]

/-- The table has as many entries as there are steps exactly if their ids are distinct. -/
theorem length_byId : (byId steps).entries.length = steps.length ↔ (steps.map (·.id)).Nodup := by
  have hkeys : ((byId steps).entries.map Prod.fst).toFinset = (steps.map (·.id)).toFinset := by
    ext id
    rw [List.mem_toFinset, List.mem_toFinset, ← find_byId_isSome, Table.find,
      Table.lookup_isSome_iff]
  have hlength : (byId steps).entries.length = (steps.map (·.id)).toFinset.card := by
    rw [← hkeys, List.toFinset_card_of_nodup (byId steps).nodup, List.length_map]
  rw [hlength, ← Multiset.coe_nodup, ← Multiset.toFinset_card_eq_card_iff_nodup]
  simp

/-- With distinct ids every step is found under its own. -/
theorem find_byId (hdistinct : (steps.map (·.id)).Nodup) (hstep : step ∈ steps) :
    (byId steps).find step.id = some step := by
  induction steps using List.reverseRecOn with
  | nil => cases hstep
  | append_singleton steps last ih =>
    rw [byId_concat]
    rw [List.map_append, List.nodup_append] at hdistinct
    rcases List.mem_append.mp hstep with hbefore | hlast
    · have hne : step.id ≠ last.id :=
        hdistinct.2.2 _ (List.mem_map_of_mem hbefore) _ (by simp)
      rw [Table.find_set_of_ne _ _ hne, ih hdistinct.1 hbefore]
    · rw [List.mem_singleton.mp hlast, Table.find_set_self]

/-! ## The checks on the steps -/

/-- What the first check lets through. -/
structure Checked (steps : List ExecutionStep) : Prop where
  distinct : (steps.map (·.id)).Nodup
  valid : ∀ step ∈ steps, ¬ invalid (byId steps) step

theorem checked_iff :
    (¬ ((byId steps).entries.length ≠ steps.length ∨ ∃ step ∈ steps, invalid (byId steps) step)) ↔
      Checked steps := by
  rw [not_or, not_not, length_byId]
  push Not
  exact ⟨fun h => ⟨h.1, h.2⟩, fun h => ⟨h.distinct, h.valid⟩⟩

theorem Checked.dependency (h : Checked steps) (hstep : step ∈ steps) {dependency : String}
    (hdependency : dependency ∈ step.dependencies) :
    ∃ other ∈ steps, other ≠ step ∧ other.id = dependency := by
  have hvalid := h.valid step hstep
  simp only [invalid, not_or, not_exists, not_and] at hvalid
  obtain ⟨hne, hfound⟩ := hvalid.2.2 dependency hdependency
  rw [find_byId_eq_none, not_not, List.mem_map] at hfound
  obtain ⟨other, hother, rfl⟩ := hfound
  exact ⟨other, hother, fun heq => hne (by rw [heq]), rfl⟩

/-- A plan that passes the first check is well formed but for cycles. -/
theorem wellFormed_iff :
    WellFormed steps ↔ Checked steps ∧ DepthFirst.Acyclic (DependsOn steps) := by
  constructor
  · intro h
    refine ⟨⟨h.distinct, ?_⟩, h.acyclic⟩
    rintro step hstep (hid | hkey | ⟨dependency, hdependency, hself | hmissing⟩)
    · exact h.ids step hstep hid
    · exact h.operationKeys step hstep hkey
    · obtain ⟨other, hother, hne, rfl⟩ := h.dependencies step hstep dependency hdependency
      exact hne (List.inj_on_of_nodup_map h.distinct hother hstep hself)
    · obtain ⟨other, hother, -, rfl⟩ := h.dependencies step hstep dependency hdependency
      exact find_byId_eq_none.mp hmissing (List.mem_map_of_mem hother)
  · rintro ⟨h, hacyclic⟩
    refine ⟨?_, h.distinct, ?_, fun step hstep _ => h.dependency hstep, hacyclic⟩
    · exact fun step hstep hid => h.valid step hstep (.inl hid)
    · exact fun step hstep hkey => h.valid step hstep (.inr (.inl hkey))

/-! ## The search -/

theorem dependenciesOf_byId (hdistinct : (steps.map (·.id)).Nodup) (hstep : step ∈ steps) :
    dependenciesOf (byId steps) step.id = some step.dependencies := by
  rw [dependenciesOf, find_byId hdistinct hstep, Option.map_some]

/-- The search follows the dependencies. -/
theorem edge_iff (hdistinct : (steps.map (·.id)).Nodup) (id dependency : String) :
    Edge (dependenciesOf (byId steps)) id dependency ↔ DependsOn steps id dependency := by
  constructor
  · rintro ⟨dependencies, hfound, hmem⟩
    obtain ⟨step, hstep, -⟩ := Option.map_eq_some_iff.mp hfound
    have hid : id ∈ steps.map (·.id) := find_byId_isSome.mp (by rw [hstep]; rfl)
    obtain ⟨step', hstep', rfl⟩ := List.mem_map.mp hid
    rw [dependenciesOf_byId hdistinct hstep'] at hfound
    obtain rfl := Option.some.inj hfound
    exact ⟨step', hstep', rfl, hmem⟩
  · rintro ⟨step, hstep, rfl, hmem⟩
    exact ⟨step.dependencies, dependenciesOf_byId hdistinct hstep, hmem⟩

theorem Checked.closed (h : Checked steps) :
    Closed (dependenciesOf (byId steps)) (steps.map (·.id)).toFinset := by
  intro id hid
  obtain ⟨step, hstep, rfl⟩ := List.mem_map.mp (List.mem_toFinset.mp hid)
  refine ⟨step.dependencies, dependenciesOf_byId h.distinct hstep, ?_⟩
  intro dependency hdependency
  obtain ⟨other, hother, -, rfl⟩ := h.dependency hstep hdependency
  exact List.mem_toFinset.mpr (List.mem_map_of_mem hother)

theorem Checked.acyclic_iff (h : Checked steps) :
    DepthFirst.Acyclic (DependsOn steps) ↔
      ∀ step ∈ steps, ¬ ComesBack (dependenciesOf (byId steps)) ∅ step.id := by
  have hedge : Edge (dependenciesOf (byId steps)) = DependsOn steps := by
    funext id dependency
    exact propext (edge_iff h.distinct id dependency)
  have hsource : ∀ id dependency, Edge (dependenciesOf (byId steps)) id dependency →
      id ∈ (steps.map (·.id)).toFinset := by
    intro id dependency hdepends
    rw [hedge] at hdepends
    obtain ⟨step, hstep, rfl, -⟩ := hdepends
    exact List.mem_toFinset.mpr (List.mem_map_of_mem hstep)
  rw [← hedge, DepthFirst.acyclic_iff_forall hsource]
  simp

/-- Each search of a checked plan returns, with an empty path again. -/
theorem Checked.hasCycle (h : Checked steps) (hstep : step ∈ steps) {depth : ℕ}
    (hdepth : steps.length < depth) :
    ∃ cycle, hasCycle (byId steps) depth step.id ∅ = .ok (cycle, ∅) ∧
      (cycle = true ↔ ComesBack (dependenciesOf (byId steps)) ∅ step.id) := by
  have hcard : ((steps.map (·.id)).toFinset \ ∅).card = steps.length := by
    rw [Finset.sdiff_empty, List.toFinset_card_of_nodup h.distinct, List.length_map]
  exact DepthFirst.search_returns h.closed (List.mem_toFinset.mpr (List.mem_map_of_mem hstep))
    (by rwa [hcard])

/-! ## The loop -/

section Loop

variable {table : Table String ExecutionStep} {depth : ℕ}

theorem findCycle_ok (h : ∀ step ∈ steps, hasCycle table depth step.id ∅ = .ok (false, ∅)) :
    findCycle table depth steps = .ok (.ok ()) := by
  induction steps with
  | nil => rfl
  | cons step steps ih =>
    rw [findCycle, h step List.mem_cons_self]
    exact ih fun s hs => h s (List.mem_cons_of_mem step hs)

/-- One search that finds a cycle is enough, if those before it return. -/
theorem findCycle_cycle
    (h : ∀ step ∈ steps, ∃ cycle, hasCycle table depth step.id ∅ = .ok (cycle, ∅))
    (hcycle : ∃ step ∈ steps, hasCycle table depth step.id ∅ = .ok (true, ∅)) :
    findCycle table depth steps = .ok (.error "EXECUTION_DAG_CYCLE") := by
  induction steps with
  | nil => simp at hcycle
  | cons step steps ih =>
    obtain ⟨cycle, hsearch⟩ := h step List.mem_cons_self
    rw [findCycle, hsearch]
    cases cycle with
    | true => rfl
    | false =>
      obtain ⟨step', hmem, hfound⟩ := hcycle
      rcases List.mem_cons.mp hmem with rfl | hmem
      · cases hsearch.symm.trans hfound
      · exact ih (fun s hs => h s (List.mem_cons_of_mem step hs)) ⟨step', hmem, hfound⟩

/-- What the searches have found they find at each greater depth. -/
theorem findCycle_mono {more : ℕ} (hle : depth ≤ more) {result : Except String Unit}
    (h : findCycle table depth steps = .ok result) :
    findCycle table more steps = .ok result := by
  induction steps with
  | nil => exact h
  | cons step steps ih =>
    rw [findCycle] at h ⊢
    cases hsearch : hasCycle table depth step.id ∅ with
    | error fault => simp [hsearch] at h
    | ok found =>
      rw [hasCycle, DepthFirst.search_mono hle hsearch]
      rw [hsearch] at h
      obtain ⟨_ | _, path⟩ := found
      · exact ih h
      · exact h

theorem findCycle_ne_missing
    (h : ∀ step ∈ steps, hasCycle table depth step.id ∅ ≠ .error .missing) :
    findCycle table depth steps ≠ .error .missing := by
  induction steps with
  | nil => exact nofun
  | cons step steps ih =>
    rw [findCycle]
    split
    · next fault hfault =>
      intro hmissing
      cases hmissing
      exact h step List.mem_cons_self hfault
    · exact nofun
    · exact ih fun s hs => h s (List.mem_cons_of_mem step hs)

end Loop

theorem validateDag_of_not_checked (h : ¬ Checked steps) (depth : ℕ) :
    validateDag depth steps = .ok (.error "EXECUTION_DAG_INVALID") :=
  if_pos (not_not.mp fun hnot => h (checked_iff.mp hnot))

theorem Checked.validateDag (h : Checked steps) (depth : ℕ) :
    validateDag depth steps = findCycle (byId steps) depth steps :=
  if_neg (checked_iff.mpr h)

theorem validateDag_of_wellFormed (h : WellFormed steps) {depth : ℕ}
    (hdepth : steps.length < depth) : validateDag depth steps = .ok (.ok ()) := by
  obtain ⟨hchecked, hacyclic⟩ := wellFormed_iff.mp h
  rw [hchecked.validateDag]
  apply findCycle_ok
  intro step hstep
  obtain ⟨cycle, hsearch, hcycle⟩ := hchecked.hasCycle hstep hdepth
  cases cycle with
  | true => exact absurd (hcycle.mp rfl) (hchecked.acyclic_iff.mp hacyclic step hstep)
  | false => exact hsearch

theorem validateDag_of_cycle (h : Checked steps) (hcycle : ¬ DepthFirst.Acyclic (DependsOn steps))
    {depth : ℕ} (hdepth : steps.length < depth) :
    validateDag depth steps = .ok (.error "EXECUTION_DAG_CYCLE") := by
  rw [h.validateDag]
  apply findCycle_cycle
  · intro step hstep
    obtain ⟨cycle, hsearch, -⟩ := h.hasCycle hstep hdepth
    exact ⟨cycle, hsearch⟩
  · rw [h.acyclic_iff] at hcycle
    push Not at hcycle
    obtain ⟨step, hstep, hback⟩ := hcycle
    obtain ⟨cycle, hsearch, hiff⟩ := h.hasCycle hstep hdepth
    obtain rfl := hiff.mpr hback
    exact ⟨step, hstep, hsearch⟩

theorem validateDag_ne_missing (steps : List ExecutionStep) (depth : ℕ) :
    validateDag depth steps ≠ .error .missing := by
  by_cases hchecked : Checked steps
  · rw [hchecked.validateDag]
    apply findCycle_ne_missing
    intro step hstep
    exact DepthFirst.search_ne_missing hchecked.closed
      (List.mem_toFinset.mpr (List.mem_map_of_mem hstep))
  · rw [validateDag_of_not_checked hchecked]
    exact nofun

/-- `validate_dag` returns, without a panic, and accepts the well-formed plans. -/
theorem validateDag_decides (steps : List ExecutionStep) :
    ∃ result, (∀ depth, steps.length < depth → validateDag depth steps = .ok result) ∧
      (result = .ok () ↔ WellFormed steps) ∧
      ∀ depth, validateDag depth steps ≠ .error .missing := by
  have hmissing := validateDag_ne_missing steps
  by_cases hchecked : Checked steps
  · by_cases hacyclic : DepthFirst.Acyclic (DependsOn steps)
    · have hformed : WellFormed steps := wellFormed_iff.mpr ⟨hchecked, hacyclic⟩
      exact ⟨.ok (), fun depth => validateDag_of_wellFormed hformed, by simp [hformed], hmissing⟩
    · refine ⟨.error _, fun depth => validateDag_of_cycle hchecked hacyclic, ?_, hmissing⟩
      simp [wellFormed_iff, hacyclic]
  · refine ⟨.error _, fun depth _ => validateDag_of_not_checked hchecked depth, ?_, hmissing⟩
    simp [wellFormed_iff, hchecked]

/-- Whatever the depth, what is accepted is well formed. -/
theorem wellFormed_of_accepted {depth : ℕ} (haccepted : validateDag depth steps = .ok (.ok ())) :
    WellFormed steps := by
  have hchecked : Checked steps := by
    by_contra hnot
    rw [validateDag_of_not_checked hnot] at haccepted
    cases haccepted
  obtain ⟨result, hreturns, hiff, -⟩ := validateDag_decides steps
  apply hiff.mp
  have hmore : findCycle (byId steps) (depth + steps.length + 1) steps = .ok (.ok ()) :=
    findCycle_mono (by omega) (hchecked.validateDag depth ▸ haccepted)
  rw [← hchecked.validateDag, hreturns _ (by omega)] at hmore
  exact Except.ok.inj hmore

end ForgetOps.Agent.Dag
