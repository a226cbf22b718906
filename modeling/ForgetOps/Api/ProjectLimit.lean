import ForgetOps.Api.TenantIntegrity
import ForgetOps.Library.Awaiting
import ForgetOps.Library.IsoTimestamp

/-
  The project limit of a tenant, in both stores: `createProjectWithinLimit` of
  `InMemoryHierarchyStore` (`apps/api/src/hierarchy-store.ts`) and of `PostgresHierarchyStore`
  (`packages/database/src/repositories/hierarchy-store.ts`).

  In memory a call counts the projects, waits once, and then compares what it counted: two calls can
  both find room for one project. In Postgres it counts behind the lock on the tenant, so that
  nobody else counts before it has committed. A limit is a natural number.
-/

namespace ForgetOps.Api.Tenants

open Awaiting Database ReadCommitted RowStore
open ReadCommitted (Script)

/-! ## In memory -/

structure ProjectRecord where
  id : String
  tenantId : String
  name : String
  slug : String
  createdAt : String
  deriving DecidableEq, Repr

/-- `HierarchyNotFoundError` and `ProjectLimitError`. -/
inductive HierarchyError where
  | hierarchyNotFound (message : String)
  | projectLimit (message : String)
  deriving DecidableEq, Repr

/-- Of a tenant no field but its identifier is read. -/
structure InMemoryHierarchyStore where
  tenants : List String
  projects : Table String ProjectRecord

/-- What `randomUUID()` and `new Date()` give a call that goes on. -/
structure Draw where
  uuid : String
  now : Int
  deriving DecidableEq, Repr

/-- What a call keeps while it waits for `listProjects`. -/
structure Counted where
  input : CreateProjectInput
  projects : List ProjectRecord
  deriving DecidableEq, Repr

namespace InMemoryHierarchyStore

def listProjects (s : InMemoryHierarchyStore) (tenantId : String) : List ProjectRecord :=
  s.projects.values.filter fun project => project.tenantId = tenantId

/-- `createProjectWithinLimit` behind its `await`. -/
def insertCounted (tenantId : String) (maxProjects : Nat) (s : InMemoryHierarchyStore)
    (counted : Counted) (draw : Draw) :
    Except HierarchyError ProjectRecord × InMemoryHierarchyStore :=
  if counted.projects.length ≥ maxProjects then
    (.error (.projectLimit "The tenant project limit has been reached"), s)
  else
    let project : ProjectRecord :=
      { id := "prj_" ++ draw.uuid
        tenantId
        name := counted.input.name
        slug := counted.input.slug
        createdAt := IsoTimestamp.toISOString draw.now }
    (.ok project, { s with projects := s.projects.set project.id (some project) })

/-- The calls of `createProjectWithinLimit` for one tenant with one limit. -/
def createProjectWithinLimit (tenantId : String) (maxProjects : Nat) :
    Method InMemoryHierarchyStore CreateProjectInput Counted Draw
      (Except HierarchyError ProjectRecord) Empty where
  start s input :=
    if tenantId ∉ s.tenants then .ended (.error (.hierarchyNotFound "Tenant not found")) s
    else .waits ⟨input, s.listProjects tenantId⟩
  resume := insertCounted tenantId maxProjects
  other s _ := s

end InMemoryHierarchyStore

abbrev HierarchyRun :=
  State InMemoryHierarchyStore CreateProjectInput Counted Draw (Except HierarchyError ProjectRecord)

abbrev HierarchyEvent := Event CreateProjectInput Draw Empty

section InMemory

variable (tenantId : String) (maxProjects : Nat)

/-- The run of these events on a store. -/
def creating (s : InMemoryHierarchyStore) (events : List HierarchyEvent) : HierarchyRun :=
  run (InMemoryHierarchyStore.createProjectWithinLimit tenantId maxProjects) (.initial s) events

/-- A call that has counted fewer projects than the limit goes on while there are fewer, or it draws
    the identifier of one of them. -/
def StillBelow (s : HierarchyRun) : HierarchyEvent → Prop
  | .answer n draw => ∀ input counted, s.waiting[n]? = some (some (input, counted)) →
      counted.projects.length < maxProjects →
      (s.store.listProjects tenantId).length < maxProjects ∨
        ∃ project, s.store.projects.find ("prj_" ++ draw.uuid) = some project ∧
          project.tenantId = tenantId
  | _ => True

theorem length_listProjects (s : InMemoryHierarchyStore) :
    (s.listProjects tenantId).length = s.projects.count fun project => project.tenantId = tenantId := by
  unfold InMemoryHierarchyStore.listProjects Table.count Table.values
  rw [List.filter_map, List.length_map]
  rfl

/-- What a call that goes on does to the number of projects. -/
theorem length_insertCounted (s : InMemoryHierarchyStore) (counted : Counted) (draw : Draw) :
    ((InMemoryHierarchyStore.insertCounted tenantId maxProjects s counted draw).2.listProjects
        tenantId).length =
      (s.listProjects tenantId).length +
        if counted.projects.length < maxProjects ∧
            ¬ ∃ project, s.projects.find ("prj_" ++ draw.uuid) = some project ∧
              project.tenantId = tenantId
          then 1 else 0 := by
  unfold InMemoryHierarchyStore.insertCounted
  by_cases hroom : counted.projects.length < maxProjects
  · rw [if_neg (by omega), length_listProjects tenantId, length_listProjects tenantId]
    dsimp only
    rw [Table.count_set (fun project : ProjectRecord => project.tenantId = tenantId) _ _ rfl]
    congr 1
    by_cases htaken : ∃ project, s.projects.find ("prj_" ++ draw.uuid) = some project ∧
        project.tenantId = tenantId
    · rw [if_pos htaken, if_neg fun h => h.2 htaken]
    · rw [if_neg htaken, if_pos ⟨hroom, htaken⟩]
  · rw [if_pos (by omega), if_neg fun h => hroom h.1]
    rfl

theorem start_cases (s : InMemoryHierarchyStore) (input : CreateProjectInput) :
    (∃ error, (InMemoryHierarchyStore.createProjectWithinLimit tenantId maxProjects).start s input =
        .ended (.error error) s) ∨
      (InMemoryHierarchyStore.createProjectWithinLimit tenantId maxProjects).start s input =
        .waits ⟨input, s.listProjects tenantId⟩ := by
  unfold InMemoryHierarchyStore.createProjectWithinLimit
  dsimp only
  by_cases htenant : tenantId ∉ s.tenants
  · rw [if_pos htenant]
    exact .inl ⟨_, rfl⟩
  · rw [if_neg htenant]
    exact .inr rfl

/-- No call counts fewer projects than there were at first. -/
theorem keeps_initial (s₀ : InMemoryHierarchyStore) :
    Keeps (InMemoryHierarchyStore.createProjectWithinLimit tenantId maxProjects)
      (fun s _ => (s₀.listProjects tenantId).length ≤ (s.listProjects tenantId).length)
      (fun _ _ counted => (s₀.listProjects tenantId).length ≤ counted.projects.length) where
  ended := by
    intro s log input result s' hs hstart
    rcases start_cases tenantId maxProjects s input with
      ⟨error, hended⟩ | hwaits
    · rw [hended] at hstart
      cases hstart
      exact ⟨hs, fun _ _ => id⟩
    · rw [hwaits] at hstart
      cases hstart
  waits := by
    intro s log input counted hs hstart
    rcases start_cases tenantId maxProjects s input with
      ⟨error, hended⟩ | hwaits
    · rw [hended] at hstart
      cases hstart
    · rw [hwaits] at hstart
      cases hstart
      exact hs
  resumed := by
    intro s log input counted draw hs _
    refine ⟨hs.trans ?_, fun _ _ => id⟩
    have hlength := length_insertCounted tenantId maxProjects s
      counted draw
    exact hlength.symm ▸ Nat.le_add_right _ _
  other := fun o _ => o.elim

/-- One step keeps the number within the limit exactly when it is `StillBelow`. -/
theorem within_step (s₀ : InMemoryHierarchyStore) (events : List HierarchyEvent)
    (e : HierarchyEvent) :
    ((step (InMemoryHierarchyStore.createProjectWithinLimit tenantId maxProjects)
          (creating tenantId maxProjects s₀ events) e).store.listProjects tenantId).length ≤
        max (s₀.listProjects tenantId).length maxProjects ↔
      ((creating tenantId maxProjects s₀ events).store.listProjects tenantId).length ≤
          max (s₀.listProjects tenantId).length maxProjects ∧
        StillBelow tenantId maxProjects (creating tenantId maxProjects s₀ events) e := by
  obtain ⟨hgrown, hcounted⟩ :=
    (keeps_initial tenantId maxProjects s₀).run le_rfl events
  unfold creating
  generalize run (InMemoryHierarchyStore.createProjectWithinLimit tenantId maxProjects)
    (.initial s₀) events = s at hgrown hcounted
  cases e with
  | call input =>
    have hstore : (step (InMemoryHierarchyStore.createProjectWithinLimit tenantId maxProjects) s
        (.call input)).store = s.store := by
      rcases start_cases tenantId maxProjects s.store input with
        ⟨error, hended⟩ | hwaits
      · rw [step_ended hended]
      · rw [step_waits hwaits]
    rw [hstore]
    exact (and_iff_left trivial).symm
  | answer n draw =>
    by_cases hasked : ∃ input counted, s.waiting[n]? = some (some (input, counted))
    · obtain ⟨input, counted, hasked⟩ := hasked
      have hinitial := hcounted input counted (List.mem_of_getElem? hasked)
      have hlength := length_insertCounted tenantId maxProjects
        s.store counted draw
      have hbelow : StillBelow tenantId maxProjects s (.answer n draw) ↔
          (counted.projects.length < maxProjects →
            (s.store.listProjects tenantId).length < maxProjects ∨
              ∃ project, s.store.projects.find ("prj_" ++ draw.uuid) = some project ∧
                project.tenantId = tenantId) := by
        constructor
        · intro h
          exact h input counted hasked
        · intro h input' counted' hasked'
          rw [hasked] at hasked'
          cases hasked'
          exact h
      rw [step_answer hasked, hbelow]
      change ((InMemoryHierarchyStore.insertCounted tenantId maxProjects s.store counted
        draw).2.listProjects tenantId).length ≤ _ ↔ _
      rw [hlength]
      by_cases hroom : counted.projects.length < maxProjects
      · by_cases htaken : ∃ project, s.store.projects.find ("prj_" ++ draw.uuid) = some project ∧
            project.tenantId = tenantId
        · rw [if_neg fun h => h.2 htaken]
          exact (and_iff_left fun _ => .inr htaken).symm
        · rw [if_pos ⟨hroom, htaken⟩, or_iff_left htaken]
          omega
      · rw [if_neg fun h => hroom h.1]
        exact (and_iff_left fun h => absurd h hroom).symm
    · have hnone : ∀ input counted, s.waiting[n]? ≠ some (some (input, counted)) :=
        fun input counted heq => hasked ⟨input, counted, heq⟩
      rw [step_unasked hnone]
      exact (and_iff_left fun input counted heq => absurd heq (hnone input counted)).symm
  | other o => exact o.elim

/-- The limit holds throughout a run precisely if every step of it is `StillBelow`. -/
theorem within_iff (s₀ : InMemoryHierarchyStore) (events : List HierarchyEvent) :
    (∀ before, before <+: events →
        ((creating tenantId maxProjects s₀ before).store.listProjects tenantId).length ≤
          max (s₀.listProjects tenantId).length maxProjects) ↔
      ∀ before e, before ++ [e] <+: events →
        StillBelow tenantId maxProjects (creating tenantId maxProjects s₀ before) e := by
  have hrun := fun events => run_iff
    (P := fun s : HierarchyRun => (s.store.listProjects tenantId).length ≤
      max (s₀.listProjects tenantId).length maxProjects)
    (s := .initial s₀) (le_max_left _ _) (within_step tenantId maxProjects s₀) events
  constructor
  · intro h
    exact (hrun events).mp (h events List.prefix_rfl)
  · intro h before hbefore
    exact (hrun before).mpr fun before' e hshorter => h before' e (hshorter.trans hbefore)

end InMemory

/-! ## In Postgres -/

/-- A call, with the identifier that it draws. -/
structure CreateProject where
  input : CreateProjectInput
  projectId : String
  deriving DecidableEq, Repr

section Postgres

variable (tenantId : String) (maxProjects : Nat)

/-- The calls for one tenant with one limit. -/
def projectSystem : System TenantWorld TenantWorldRow CreateProject ProjectRow where
  starts _ _ := True
  body call := createProjectWithinLimit tenantId call.input maxProjects call.projectId
  commits _ _ := True
  settle _ _ w := w
  environment _ _ _ := False

def projectCount (w : TenantWorld) : Nat :=
  w.2.projects.count fun project => project.tenantId = tenantId

/-- Who holds the row of the tenant can count on the number of its projects. -/
structure CountHeld (held : List (Key ⊕ TenancyKey)) (w w' : TenantWorld) : Prop where
  rows : HeldRows held w w'
  count : .inr (.tenant tenantId) ∈ held → projectCount tenantId w = projectCount tenantId w'

theorem rely_countHeld : Rely (CountHeld tenantId) where
  refl held w := ⟨rely_heldRows.refl held w, fun _ => rfl⟩
  trans h h' := ⟨rely_heldRows.trans h.rows h'.rows, fun hk => (h.count hk).trans (h'.count hk)⟩
  mono hsub h := ⟨rely_heldRows.mono hsub h.rows, fun hk => h.count (hsub hk)⟩
  agree h := rely_heldRows.agree h.rows

/-- A call that commits holds the row of the tenant, and inserts a project where there are fewer
    than the limit. -/
theorem createProjectWithinLimit_commits {Inv : TenantWorld → Prop} {w : TenantWorld}
    {p p' : Point TenantWorld TenantWorldRow} {call : CreateProject} {project : ProjectRow}
    (hlog : p.log = [])
    (h : Leads (Within Inv (CountHeld tenantId)) w
      (createProjectWithinLimit tenantId call.input maxProjects call.projectId) p project p') :
    .inr (.tenant tenantId) ∈ keys p'.log ∧ projectCount tenantId w < maxProjects ∧
      projectCount tenantId (view w p'.log) = projectCount tenantId w + 1 := by
  have hR : Rely (Within Inv (CountHeld tenantId)) := (rely_countHeld tenantId).within Inv
  unfold createProjectWithinLimit at h
  obtain ⟨tenant, p₁, hlocked, h⟩ := leads_bind hR h
  obtain ⟨_, p₂, hfound, h⟩ := leads_bind hR h
  obtain ⟨count, p₃, hcounted, h⟩ := leads_bind hR h
  obtain ⟨_, p₄, hbelow, h⟩ := leads_bind hR h
  obtain ⟨inserted, p₅, hinserted, h⟩ := leads_bind hR h
  obtain ⟨_, p₆, hnew, h⟩ := leads_bind hR h
  obtain ⟨-, hlog'⟩ := leads_pure hR h
  obtain ⟨hfound, hlog₂⟩ := leads_failIf hR hfound
  obtain ⟨hbelow, hlog₄⟩ := leads_failIf hR hbelow
  obtain ⟨hnew, hlog₆⟩ := leads_failIf hR hnew
  obtain ⟨b, v, -, hlock, hlog₁⟩ | ⟨hnone, -⟩ := leads_second_update hR hlocked
  swap
  · exact absurd hnone hfound
  obtain ⟨b', v', -, hinsert, hlog₅⟩ | ⟨hnone, -⟩ := leads_second_update hR hinserted
  swap
  · exact absurd hnone hnew
  obtain ⟨hlog₃, u, hread, -, hcommit⟩ := leads_read hR
    (show Leads (Within Inv (CountHeld tenantId)) w (Script.read fun w : TenantWorld =>
      (w.2.projects.entries.filter fun entry => entry.2.tenantId = tenantId).length) p₂ count p₃
      from hcounted)
  have hheld : p₂.log = [⟨.inr (.tenant tenantId), v⟩] := by
    rw [hlog₂, hlog₁, hlog, List.nil_append]
  -- the lock on the tenant leaves the projects alone, and keeps their number until the commit
  have hprojects (u : TenantWorld) : (view u p₂.log).2.projects = u.2.projects := by
    rw [hheld]
    rfl
  have hkey : .inr (.tenant tenantId) ∈ keys p₂.log := by
    rw [hheld]
    exact List.mem_singleton_self _
  have hcount : count = projectCount tenantId w := by
    rw [hread, hprojects, ← hcommit.1.count hkey]
    rfl
  rw [hlog₄, hlog₃] at hinsert hlog₅
  have habsent : w.2.projects.find call.projectId = none ∧
      v' = some ⟨tenantId, call.input.name, call.input.slug⟩ := by
    have hrow : row (view w p₂.log).2 (.project call.projectId) =
        w.2.projects.find call.projectId := congrArg (Table.find · call.projectId) (hprojects w)
    rw [hrow] at hinsert
    exact whenAbsent_eq_some.mp hinsert
  obtain ⟨habsent, rfl⟩ := habsent
  rw [hlog', hlog₆, hlog₅]
  refine ⟨?_, by omega, ?_⟩
  · rw [keys_append]
    exact List.mem_append_left _ hkey
  · have hset : (view w (p₂.log ++ [⟨.inr (.project call.projectId),
        some ⟨tenantId, call.input.name, call.input.slug⟩⟩])).2.projects =
          w.2.projects.set call.projectId (some ⟨tenantId, call.input.name, call.input.slug⟩) := by
      rw [view_concat_second, ← hprojects w]
      rfl
    unfold projectCount
    rw [hset, Table.count_set (fun project : ProjectRow => project.tenantId = tenantId) _ _ rfl,
      if_neg (by rw [habsent]; rintro ⟨_, ⟨⟩, _⟩)]

/-- The limit holds in every interleaving. -/
theorem guarantee_projectLimit (limit : Nat) (hlimit : maxProjects ≤ limit) :
    Guarantee (projectSystem tenantId maxProjects) (fun w => projectCount tenantId w ≤ limit)
      fun _ => CountHeld tenantId where
  rely _ := rely_countHeld tenantId
  environment _ henv := henv.elim
  commit := by
    intro w u call project log hw _ _ _ hcompletes
    obtain ⟨hlock, hbelow, hcount⟩ := createProjectWithinLimit_commits tenantId maxProjects rfl
      (hcompletes.leads ((rely_countHeld tenantId).within _))
    refine ⟨?_, fun _ held hdisjoint => ⟨fun k hk => ?_, fun hk => ?_⟩⟩
    · exact (hcount.le.trans hbelow).trans hlimit
    · exact (row_view_of_notMem (hdisjoint k hk)).symm
    · exact absurd hlock (hdisjoint _ hk)

end Postgres

/-! ## Both stores -/

/-- In Postgres the number of projects never exceeds the limit and what there was before. In memory
    it does not precisely if every call that goes on past its check is `StillBelow`. -/
theorem project_limit_iff (tenantId : String) (maxProjects : Nat) :
    (∀ (s₀ : InMemoryHierarchyStore) (events : List HierarchyEvent),
      (∀ before, before <+: events →
          ((creating tenantId maxProjects s₀ before).store.listProjects tenantId).length ≤
            max (s₀.listProjects tenantId).length maxProjects) ↔
        ∀ before e, before ++ [e] <+: events →
          StillBelow tenantId maxProjects (creating tenantId maxProjects s₀ before) e) ∧
    ∀ w c, ReadCommitted.Reachable (projectSystem tenantId maxProjects) w c →
      projectCount tenantId c.world ≤ max (projectCount tenantId w) maxProjects := by
  refine ⟨within_iff tenantId maxProjects, ?_⟩
  intro w c hc
  exact hc.invariant (guarantee_projectLimit tenantId maxProjects _ (le_max_right _ _))
    (le_max_left _ _)

/-- One call for a tenant without projects. -/
theorem project_limit_of_first_project :
    projectCount "ten_1" firstProject = 1 ∧
      projectCount "ten_1" firstProject ≤ max (projectCount "ten_1" firstTenant) 1 := by
  have hstarts : (projectSystem "ten_1" 1).starts firstTenant ⟨⟨"Shop", "shop"⟩, "prj_1"⟩ := trivial
  have hcreated : ReadCommitted.Reachable (projectSystem "ten_1" 1) firstTenant
      ⟨firstProject, fun _ => none⟩ :=
    steps_transaction (allowed_nil _) hstarts rfl trivial
  exact ⟨by decide, (project_limit_iff "ten_1" 1).2 _ _ hcreated⟩

/-- A tenant without projects, and two calls with a limit of one. -/
theorem two_projects_in_memory :
    ¬ ∀ before, before <+: ([.call ⟨"Shop", "shop"⟩, .call ⟨"Blog", "blog"⟩,
          .answer 0 ⟨"1", 0⟩, .answer 1 ⟨"2", 0⟩] : List HierarchyEvent) →
      ((creating "ten_1" 1 ⟨["ten_1"], .empty⟩ before).store.listProjects "ten_1").length ≤
        max ((⟨["ten_1"], .empty⟩ : InMemoryHierarchyStore).listProjects "ten_1").length 1 := by
  intro h
  exact absurd (h _ List.prefix_rfl) (by decide)

end ForgetOps.Api.Tenants
