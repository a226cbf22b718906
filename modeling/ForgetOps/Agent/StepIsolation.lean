import ForgetOps.Agent.Runner
import ForgetOps.Library.Unwinding

/-
  Several executions on one `EncryptedStore` (`agent/crates/agent-store/src/lib.rs`).

  The calls of an execution, `save_step`, `step` and `run_step`, are interleaved with those of the
  others at their awaits. What comes from outside to an await is part of the event: whether the store
  fails, and what the connector answers. The row of a step is found by its id alone, so what an
  execution is answered depends on nothing but its own operations exactly if no step id is in the
  plans of two executions: `stepsIsolated_iff`.
-/

namespace ForgetOps.Agent

open CrashLogic

/-- The steps of one execution, as the planner validates them. -/
structure PlannedExecution where
  steps : List ExecutionStep
  nodup : (steps.map ExecutionStep.id).Nodup

def PlannedExecution.ids (plan : PlannedExecution) : List String := plan.steps.map ExecutionStep.id

/-! ## The store -/

abbrev StepRows := String → Option ExecutionStep

/-- What comes from outside to an await. -/
structure Outside where
  /-- The store fails, -/
  failure : Option RunnerError
  /-- and a save may have taken effect all the same. -/
  takesEffect : Bool
  called : Except ConnectorError Unit
  verified : Except ConnectorError Bool
  deriving DecidableEq

def orFailure {α : Type} (o : Outside) (a : α) : Except RunnerError α :=
  match o.failure with
  | none => .ok a
  | some e => .error e

def saved (stored : StepRows) (o : Outside) (step : ExecutionStep) : StepRows :=
  if o.failure = none ∨ o.takesEffect then Function.update stored step.id (some step) else stored

/-- The answer to an await, and the rows after it. -/
def answer (stored : StepRows) (o : Outside) : (a : Await) → a.Answer × StepRows
  | .step id => (orFailure o (stored id), stored)
  | .saveStep step => (orFailure o (), saved stored o step)
  | .execute _ => (o.called, stored)
  | .reconcile _ => (o.called, stored)
  | .verify _ => (o.verified, stored)

/-- The answers are those that the runner is proved against. -/
theorem environment_answer (s : Execution) (o : Outside) (a : Await) :
    ∃ log, environment s a (answer s.stored o a).1 ⟨(answer s.stored o a).2, log⟩ := by
  cases a with
  | step id =>
    refine ⟨s.log, rfl, ?_⟩
    show orFailure o (s.stored id) = _ ∨ ∃ e, orFailure o (s.stored id) = .error e
    unfold orFailure
    cases o.failure with
    | none => exact .inl rfl
    | some e => exact .inr ⟨e, rfl⟩
  | saveStep step =>
    by_cases heffect : o.failure = none ∨ o.takesEffect
    · have hrows : (answer s.stored o (.saveStep step)).2 =
          Function.update s.stored step.id (some step) := if_pos heffect
      refine ⟨s.log ++ [.persisted step], .inl ?_⟩
      rw [hrows]
      rfl
    · have hrows : (answer s.stored o (.saveStep step)).2 = s.stored := if_neg heffect
      obtain ⟨e, he⟩ := Option.ne_none_iff_exists'.mp fun hnone => heffect (.inl hnone)
      refine ⟨s.log, .inr ⟨?_, e, ?_⟩⟩
      · rw [hrows]
      · show orFailure o () = .error e
        unfold orFailure
        rw [he]
  | execute step => exact ⟨_, rfl⟩
  | reconcile step => exact ⟨_, rfl⟩
  | verify step => exact ⟨_, rfl⟩

/-! ## Interleavings -/

inductive Operation where
  | saveStep (step : ExecutionStep) (o : Outside)
  | step (id : String) (o : Outside)
  | runStep (stepId : String)
  /-- The `n`-th call of `run_step` goes on from its await. -/
  | goOn (n : Nat) (o : Outside)

/-- What a call came back with; calls of `run_step` are numbered. -/
inductive Returned where
  | saved (r : Except RunnerError Unit)
  | loaded (r : Except RunnerError (Option ExecutionStep))
  | ran (n : Nat) (r : Except RunnerError ExecutionResult)
  deriving DecidableEq

abbrev RunCall := Prog Await Await.Answer (Except RunnerError ExecutionResult)

structure SharedStore (ε : Type) where
  stored : StepRows
  calls : ε → List RunCall
  returned : ε → List Returned

variable {ε : Type} [DecidableEq ε]

def SharedStore.empty : SharedStore ε := ⟨fun _ => none, fun _ => [], fun _ => []⟩

def SharedStore.note (s : SharedStore ε) (e : ε) (rs : List Returned) : ε → List Returned :=
  Function.update s.returned e (s.returned e ++ rs)

/-- What is returned once a call has come to its end. -/
def ended (n : Nat) : RunCall → List Returned
  | .pure r => [.ran n r]
  | .perform _ _ => []

def SharedStore.perform (s : SharedStore ε) (event : ε × Operation) : SharedStore ε :=
  match event.2 with
  | .saveStep step o =>
    { s with
      stored := (answer s.stored o (.saveStep step)).2
      returned := s.note event.1 [.saved (answer s.stored o (.saveStep step)).1] }
  | .step id o =>
    { s with returned := s.note event.1 [.loaded (answer s.stored o (.step id)).1] }
  | .runStep stepId =>
    { s with calls := Function.update s.calls event.1 (s.calls event.1 ++ [(runStep stepId).run]) }
  | .goOn n o =>
    match (s.calls event.1)[n]? with
    | some (.perform a next) =>
      let rest := next (answer s.stored o a).1
      { stored := (answer s.stored o a).2
        calls := Function.update s.calls event.1 ((s.calls event.1).set n rest)
        returned := s.note event.1 (ended n rest) }
    | _ => s

abbrev interleave (s : SharedStore ε) (events : List (ε × Operation)) : SharedStore ε :=
  Unwinding.run SharedStore.perform s events

/-- The operation is one on the steps of this plan. -/
def Operation.Of (plan : PlannedExecution) : Operation → Prop
  | .saveStep written _ => written.id ∈ plan.ids
  | .step id _ => id ∈ plan.ids
  | .runStep stepId => stepId ∈ plan.ids
  | .goOn _ _ => True

instance (plan : PlannedExecution) : DecidablePred (Operation.Of plan)
  | .saveStep written _ => inferInstanceAs (Decidable (written.id ∈ plan.ids))
  | .step id _ => inferInstanceAs (Decidable (id ∈ plan.ids))
  | .runStep stepId => inferInstanceAs (Decidable (stepId ∈ plan.ids))
  | .goOn _ _ => isTrue trivial

/-- What an execution is answered depends only on its own operations. -/
def Isolated (plans : ε → PlannedExecution) : Prop :=
  ∀ events : List (ε × Operation), (∀ event ∈ events, event.2.Of (plans event.1)) → ∀ e,
    (interleave .empty events).returned e =
      (interleave .empty (events.filter fun event => event.1 = e)).returned e

/-! ## The rows a call is about -/

/-- The row an await is about. -/
def Await.row : Await → Option String
  | .step id => some id
  | .saveStep written => some written.id
  | _ => none

def Await.On (ids : List String) (a : Await) : Prop := ∀ id, a.row = some id → id ∈ ids

def Keyed (stored : StepRows) : Prop := ∀ id step, stored id = some step → step.id = id

/-- A step that is answered has the id that was asked for. -/
def Await.KeyedAnswer : (a : Await) → a.Answer → Prop
  | .step id, r => ∀ step, r = .ok (some step) → step.id = id
  | _, _ => True

section Answers

variable {stored stored' : StepRows} {ids : List String} {a : Await}

theorem answer_other (o : Outside) {id : String} (h : a.row ≠ some id) :
    (answer stored o a).2 id = stored id := by
  cases a with
  | saveStep step =>
    show saved stored o step id = stored id
    unfold saved
    split_ifs
    · refine Function.update_of_ne ?_ _ _
      rintro rfl
      exact h rfl
    · rfl
  | step | execute | reconcile | verify => rfl

theorem answer_same (o : Outside) (ha : a.On ids) (h : ∀ id ∈ ids, stored id = stored' id) :
    (answer stored o a).1 = (answer stored' o a).1 ∧
      ∀ id ∈ ids, (answer stored o a).2 id = (answer stored' o a).2 id := by
  cases a with
  | step id =>
    refine ⟨?_, h⟩
    show orFailure o (stored id) = orFailure o (stored' id)
    rw [h id (ha id rfl)]
  | saveStep step =>
    refine ⟨rfl, fun id hid => ?_⟩
    show saved stored o step id = saved stored' o step id
    unfold saved
    split_ifs
    · by_cases heq : id = step.id
      · rw [heq, Function.update_self, Function.update_self]
      · rw [Function.update_of_ne heq, Function.update_of_ne heq]
        exact h id hid
    · exact h id hid
  | execute | reconcile | verify => exact ⟨rfl, h⟩

theorem answer_keyed (o : Outside) (h : Keyed stored) :
    a.KeyedAnswer (answer stored o a).1 ∧ Keyed (answer stored o a).2 := by
  cases a with
  | step id =>
    refine ⟨?_, h⟩
    intro step hstep
    have hloaded : orFailure o (stored id) = .ok (some step) := hstep
    unfold orFailure at hloaded
    split at hloaded
    · exact h id step (Except.ok.inj hloaded)
    · cases hloaded
  | saveStep step =>
    refine ⟨trivial, fun id step' hstep => ?_⟩
    have hsaved : saved stored o step id = some step' := hstep
    unfold saved at hsaved
    split_ifs at hsaved
    · by_cases heq : id = step.id
      · rw [heq, Function.update_self] at hsaved
        cases hsaved
        exact heq.symm
      · rw [Function.update_of_ne heq] at hsaved
        exact h id step' hsaved
    · exact h id step' hsaved
  | execute | reconcile | verify => exact ⟨trivial, h⟩

end Answers

/-! ## `run_step` stays on its step -/

/-- Awaits that are answered with steps of the right id; the state is the last await. -/
def confining : Env Await Await.Answer (Option Await) := fun _ a r last =>
  last = some a ∧ a.KeyedAnswer r

def LastOn (ids : List String) (last : Option Await) : Prop := ∀ a, last = some a → a.On ids

/-- The rest of a call awaits nothing on other rows. -/
def Confined (ids : List String) (call : RunCall) : Prop :=
  ∃ last, wp confining call (fun _ _ => True) (LastOn ids) last

theorem exists_keyedAnswer (a : Await) : ∃ r, a.KeyedAnswer r := by
  cases a with
  | step id => exact ⟨.error .stepNotFound, fun _ hstep => by cases hstep⟩
  | saveStep step => exact ⟨.ok (), trivial⟩
  | execute step => exact ⟨.ok (), trivial⟩
  | reconcile step => exact ⟨.ok (), trivial⟩
  | verify step => exact ⟨.ok true, trivial⟩

theorem Confined.next {ids : List String} {a : Await} {rest : a.Answer → RunCall}
    (h : Confined ids (.perform a rest)) :
    a.On ids ∧ ∀ r, a.KeyedAnswer r → Confined ids (rest r) := by
  obtain ⟨last, -, hnext⟩ := h
  refine ⟨?_, fun r hkeyed => ⟨some a, (hnext r (some a) ⟨rfl, hkeyed⟩).2⟩⟩
  obtain ⟨r, hkeyed⟩ := exists_keyedAnswer a
  exact (hnext r (some a) ⟨rfl, hkeyed⟩).1 a rfl

section Runner

variable {ids : List String} {current : ExecutionStep} {last : Option Await} {α : Type}

/-- A part of the runner returns a value with `P`, and was on these rows, or throws. -/
def Stays (ids : List String) (P : α → Prop) : Except RunnerError α → Option Await → Prop
  | .ok a, last => P a ∧ LastOn ids last
  | .error _, _ => True

theorem lastOn_saveStep (h : current.id ∈ ids) : LastOn ids (some (.saveStep current)) := by
  rintro a ⟨⟩ id hid
  cases hid
  exact h

/-- The other awaits but `step` are about no row. -/
theorem lastOn_of_row {a : Await} (h : a.row = none) : LastOn ids (some a) := by
  rintro a' ⟨⟩ id hid
  rw [h] at hid
  cases hid

theorem confined_saveStep {P : α → Prop} {f : Unit → Async α} (h : current.id ∈ ids)
    (hlast : LastOn ids last)
    (hnext : ∀ last, LastOn ids last → wp confining (f ()).run (Stays ids P) (LastOn ids) last) :
    wp confining (saveStep current >>= f).run (Stays ids P) (LastOn ids) last := by
  refine wp_try.mpr ⟨hlast, ?_⟩
  rintro r last ⟨rfl, -⟩
  refine ⟨lastOn_saveStep h, ?_⟩
  cases r with
  | ok u => exact hnext _ (lastOn_saveStep h)
  | error e => trivial

theorem confined_lift {P : α → Prop} {a : Await} {f : a.Answer → Async α} (ha : a.row = none)
    (hlast : LastOn ids last)
    (hnext : ∀ r last, LastOn ids last →
      wp confining (f r).run (Stays ids P) (LastOn ids) last) :
    wp confining (ExceptT.lift (Prog.effect a) >>= f : Async α).run (Stays ids P) (LastOn ids)
      last := by
  refine wp_try.mpr ⟨hlast, ?_⟩
  rintro r last ⟨rfl, -⟩
  exact ⟨lastOn_of_row ha, hnext r _ (lastOn_of_row ha)⟩

theorem prepare_confined (h : current.id ∈ ids) (hlast : LastOn ids last) :
    wp confining (prepare current).run (Stays ids fun step => step.id ∈ ids) (LastOn ids) last := by
  unfold prepare
  split
  · have hprepared : ({ current with
        status := .prepared, attempts := saturatingSucc current.attempts } :
        ExecutionStep).id ∈ ids := h
    exact confined_saveStep hprepared hlast fun _ hlast => ⟨hprepared, hlast⟩
  · exact ⟨h, hlast⟩

theorem call_confined (h : current.id ∈ ids) (hlast : LastOn ids last) :
    wp confining (call current).run (Stays ids fun _ => True) (LastOn ids) last := by
  unfold call
  refine confined_lift rfl hlast fun r last hlast => ?_
  cases r with
  | ok u => exact ⟨trivial, hlast⟩
  | error e =>
    cases huncertain : e.isUncertain with
    | true =>
      simp only [huncertain, if_true]
      refine confined_lift rfl hlast fun r last hlast => ?_
      cases r with
      | ok u => exact ⟨trivial, hlast⟩
      | error e => trivial
    | false =>
      have hfailed : ({ current with status := .failed } : ExecutionStep).id ∈ ids := h
      simp only [huncertain, Bool.false_eq_true, if_false]
      exact confined_saveStep hfailed hlast fun _ _ => trivial

theorem dispatch_confined (h : current.id ∈ ids) (hlast : LastOn ids last) :
    wp confining (dispatch current).run (Stays ids fun step => step.id ∈ ids) (LastOn ids) last := by
  have hstatus : ∀ status, ({ current with status } : ExecutionStep).id ∈ ids := fun _ => h
  unfold dispatch
  split
  · refine confined_saveStep (hstatus .inFlight) hlast fun last hlast => ?_
    refine wp_try.mpr (wp_mono ?_ (call_confined (hstatus .inFlight) hlast))
    intro r last hcalled
    cases r with
    | error e => trivial
    | ok u =>
      exact confined_saveStep (hstatus .verifying) hcalled.2 fun _ hlast =>
        ⟨hstatus .verifying, hlast⟩
  · split
    · refine confined_lift rfl hlast fun r last hlast => ?_
      cases r with
      | error e => trivial
      | ok u =>
        exact confined_saveStep (hstatus .verifying) hlast fun _ hlast =>
          ⟨hstatus .verifying, hlast⟩
    · exact ⟨h, hlast⟩

theorem conclude_confined (h : current.id ∈ ids) (hlast : LastOn ids last) :
    wp confining (conclude current).run (Stays ids fun _ => True) (LastOn ids) last := by
  have hstatus : ∀ status, ({ current with status } : ExecutionStep).id ∈ ids := fun _ => h
  unfold conclude
  by_cases hverifying : current.status = .verifying
  · simp only [hverifying, ne_eq, not_true_eq_false, if_false]
    refine confined_lift rfl hlast fun r last hlast => ?_
    match r with
    | .ok true => exact confined_saveStep (hstatus .succeeded) hlast fun _ hlast => ⟨trivial, hlast⟩
    | .ok false =>
      exact confined_saveStep (hstatus .needsReview) hlast fun _ hlast => ⟨trivial, hlast⟩
    | .error e => exact confined_saveStep (hstatus _) hlast fun _ _ => trivial
  · simp only [ne_eq, hverifying, not_false_eq_true, if_true]
    trivial

theorem resume_confined (h : current.id ∈ ids) (hlast : LastOn ids last) :
    wp confining (resume current).run (Stays ids fun _ => True) (LastOn ids) last := by
  unfold resume
  split
  · exact ⟨trivial, hlast⟩
  · exact ⟨trivial, hlast⟩
  · exact ⟨trivial, hlast⟩
  · exact ⟨trivial, hlast⟩
  · refine wp_try.mpr (wp_mono ?_ (prepare_confined h hlast))
    intro r last hprepared
    cases r with
    | error e => trivial
    | ok step =>
      refine wp_try.mpr (wp_mono ?_ (dispatch_confined hprepared.1 hprepared.2))
      intro r last hdispatched
      cases r with
      | error e => trivial
      | ok step => exact conclude_confined hdispatched.1 hdispatched.2

theorem runStep_confined {stepId : String} (h : stepId ∈ ids) :
    Confined ids (runStep stepId).run := by
  have hstays : wp confining (runStep stepId).run (Stays ids fun _ => True) (LastOn ids) none := by
    have hon : LastOn ids (some (.step stepId)) := by
      rintro a ⟨⟩ id hid
      cases hid
      exact h
    unfold runStep
    refine wp_try.mpr ⟨fun a ha => absurd ha.symm (Option.some_ne_none a), ?_⟩
    rintro r last ⟨rfl, hkeyed⟩
    refine ⟨hon, ?_⟩
    match r with
    | .error e => trivial
    | .ok none => trivial
    | .ok (some step) =>
      have hid : step.id = stepId := hkeyed step rfl
      exact resume_confined (hid ▸ h) hon
  exact ⟨none, wp_mono (fun _ _ _ => trivial) hstays⟩

end Runner

/-! ## One operation -/

section Operations

variable {plans : ε → PlannedExecution} {s t : SharedStore ε} {d e : ε}

/-- Rows hold steps of their id, and the calls of an execution stay on its plan. -/
structure Orderly (plans : ε → PlannedExecution) (s : SharedStore ε) : Prop where
  keyed : Keyed s.stored
  confined : ∀ e, ∀ call ∈ s.calls e, Confined (plans e).ids call

/-- The two stores look the same to the execution `d`. -/
structure Alike (plans : ε → PlannedExecution) (d : ε) (s t : SharedStore ε) : Prop where
  stored : ∀ id ∈ (plans d).ids, s.stored id = t.stored id
  calls : s.calls d = t.calls d
  returned : s.returned d = t.returned d

theorem mem_calls_update {calls : ε → List RunCall} {new : List RunCall} {call : RunCall}
    (h : call ∈ Function.update calls e new d) : d = e ∧ call ∈ new ∨ call ∈ calls d := by
  by_cases hde : d = e
  · subst hde
    rw [Function.update_self] at h
    exact .inl ⟨rfl, h⟩
  · rw [Function.update_of_ne hde] at h
    exact .inr h

theorem perform_goOn {n : Nat} {o : Outside} {a : Await} {next : a.Answer → RunCall}
    (h : (s.calls e)[n]? = some (.perform a next)) :
    s.perform (e, .goOn n o) =
      { stored := (answer s.stored o a).2
        calls := Function.update s.calls e ((s.calls e).set n (next (answer s.stored o a).1))
        returned := s.note e (ended n (next (answer s.stored o a).1)) } := by
  unfold SharedStore.perform
  dsimp only
  rw [h]

/-- A call that does not wait does not go on. -/
theorem perform_over {n : Nat} {o : Outside}
    (h : ∀ a next, (s.calls e)[n]? ≠ some (.perform a next)) : s.perform (e, .goOn n o) = s := by
  unfold SharedStore.perform
  dsimp only
  split
  · next a next heq => exact absurd heq (h a next)
  · rfl

theorem Orderly.perform (h : Orderly plans s) {op : Operation} (hop : op.Of (plans e)) :
    Orderly plans (s.perform (e, op)) := by
  cases op with
  | saveStep step o => exact ⟨(answer_keyed (a := .saveStep step) o h.keyed).2, h.confined⟩
  | step id o => exact ⟨h.keyed, h.confined⟩
  | runStep stepId =>
    refine ⟨h.keyed, fun d call hcall => ?_⟩
    rcases mem_calls_update hcall with ⟨rfl, hcall⟩ | hcall
    · rcases List.mem_append.mp hcall with hcall | hcall
      · exact h.confined d call hcall
      · rw [List.mem_singleton.mp hcall]
        exact runStep_confined hop
    · exact h.confined d call hcall
  | goOn n o =>
    by_cases hwaits : ∃ a next, (s.calls e)[n]? = some (.perform a next)
    · obtain ⟨a, next, hwaits⟩ := hwaits
      obtain ⟨hanswer, hkeyed⟩ := answer_keyed (a := a) o h.keyed
      rw [perform_goOn hwaits]
      refine ⟨hkeyed, fun d call hcall => ?_⟩
      rcases mem_calls_update hcall with ⟨rfl, hcall⟩ | hcall
      · rcases List.mem_or_eq_of_mem_set hcall with hcall | rfl
        · exact h.confined d call hcall
        · exact (h.confined d _ (List.mem_of_getElem? hwaits)).next.2 _ hanswer
      · exact h.confined d call hcall
    · rw [perform_over fun a next heq => hwaits ⟨a, next, heq⟩]
      exact h

theorem note_other {rs : List Returned} (hde : d ≠ e) : s.note e rs d = s.returned d :=
  Function.update_of_ne hde _ _

omit [DecidableEq ε] in
/-- Another execution does not write the rows of `d`. -/
theorem answer_disjoint {a : Await} (o : Outside) (ha : a.On (plans e).ids)
    (hdisjoint : List.Disjoint (plans d).ids (plans e).ids) :
    ∀ id ∈ (plans d).ids, (answer s.stored o a).2 id = s.stored id :=
  fun id hid => answer_other o fun hrow => hdisjoint hid (ha id hrow)

/-- What another execution does looks like nothing to `d`. -/
theorem Alike.others (hs : Orderly plans s) (h : Alike plans d s t) (hde : d ≠ e)
    (hdisjoint : List.Disjoint (plans d).ids (plans e).ids) {op : Operation}
    (hop : op.Of (plans e)) : Alike plans d (s.perform (e, op)) t := by
  cases op with
  | saveStep step o =>
    have hon : (Await.saveStep step).On (plans e).ids := by
      rintro id ⟨⟩
      exact hop
    refine ⟨fun id hid => ?_, h.calls, (note_other hde).trans h.returned⟩
    exact (answer_disjoint o hon hdisjoint id hid).trans (h.stored id hid)
  | step id o => exact ⟨h.stored, h.calls, (note_other hde).trans h.returned⟩
  | runStep stepId =>
    exact ⟨h.stored, (Function.update_of_ne hde _ _).trans h.calls, h.returned⟩
  | goOn n o =>
    by_cases hwaits : ∃ a next, (s.calls e)[n]? = some (.perform a next)
    · obtain ⟨a, next, hwaits⟩ := hwaits
      have hon := (hs.confined e _ (List.mem_of_getElem? hwaits)).next.1
      rw [perform_goOn hwaits]
      refine ⟨fun id hid => ?_, ?_, ?_⟩
      · exact (answer_disjoint o hon hdisjoint id hid).trans (h.stored id hid)
      · exact (Function.update_of_ne hde _ _).trans h.calls
      · exact (note_other hde).trans h.returned
    · rw [perform_over fun a next heq => hwaits ⟨a, next, heq⟩]
      exact h

theorem note_own (h : s.returned d = t.returned d) (rs : List Returned) :
    s.note d rs d = t.note d rs d := by
  unfold SharedStore.note
  rw [Function.update_self, Function.update_self, h]

/-- An operation of `d` itself answers the same where the stores look the same to it. -/
theorem Alike.own (hs : Orderly plans s) (h : Alike plans d s t) {op : Operation}
    (hop : op.Of (plans d)) : Alike plans d (s.perform (d, op)) (t.perform (d, op)) := by
  cases op with
  | saveStep step o =>
    have hon : (Await.saveStep step).On (plans d).ids := by
      rintro id ⟨⟩
      exact hop
    obtain ⟨hanswer, hstored⟩ := answer_same o hon h.stored
    refine ⟨hstored, h.calls, ?_⟩
    exact note_own h.returned _
  | step id o =>
    have hon : (Await.step id).On (plans d).ids := by
      rintro id' ⟨⟩
      exact hop
    obtain ⟨hanswer, -⟩ := answer_same o hon h.stored
    refine ⟨h.stored, h.calls, ?_⟩
    show s.note d [.loaded (answer s.stored o (.step id)).1] d =
      t.note d [.loaded (answer t.stored o (.step id)).1] d
    rw [hanswer]
    exact note_own h.returned _
  | runStep stepId =>
    refine ⟨h.stored, ?_, h.returned⟩
    show Function.update s.calls d _ d = Function.update t.calls d _ d
    rw [Function.update_self, Function.update_self, h.calls]
  | goOn n o =>
    by_cases hwaits : ∃ a next, (s.calls d)[n]? = some (.perform a next)
    · obtain ⟨a, next, hwaits⟩ := hwaits
      have hon := (hs.confined d _ (List.mem_of_getElem? hwaits)).next.1
      obtain ⟨hanswer, hstored⟩ := answer_same o hon h.stored
      have hwaits' : (t.calls d)[n]? = some (.perform a next) := h.calls ▸ hwaits
      rw [perform_goOn hwaits, perform_goOn hwaits', hanswer]
      refine ⟨hstored, ?_, note_own h.returned _⟩
      dsimp only
      rw [Function.update_self, Function.update_self, h.calls]
    · have hover : ∀ a next, (s.calls d)[n]? ≠ some (.perform a next) :=
        fun a next heq => hwaits ⟨a, next, heq⟩
      have hover' : ∀ a next, (t.calls d)[n]? ≠ some (.perform a next) := h.calls ▸ hover
      rw [perform_over hover, perform_over hover']
      exact h

end Operations

/-! ## Runs -/

/-- No step id is in the plans of two executions. -/
def IdsApart (plans : ε → PlannedExecution) : Prop :=
  ∀ d e, d ≠ e → List.Disjoint (plans d).ids (plans e).ids

theorem unwinds {plans : ε → PlannedExecution} (hapart : IdsApart plans) (d : ε) :
    Unwinding.Unwinds SharedStore.perform Prod.fst
      (fun event : ε × Operation => event.2.Of (plans event.1)) d (Orderly plans)
      (Alike plans d) where
  keeps := fun _ _ hs hop => hs.perform hop
  others := fun _ _ _ hs halike hop howner =>
    halike.others hs (Ne.symm howner) (hapart d _ (Ne.symm howner)) hop
  own := by
    rintro s t ⟨e, op⟩ hs - halike hop rfl
    exact halike.own hs hop

/-- The store works and so does the connector. -/
def works : Outside := ⟨none, true, .ok (), .ok true⟩

theorem loaded_after_save {d e : ε} (hde : d ≠ e) (step : ExecutionStep) :
    (interleave .empty [(e, .saveStep step works), (d, .step step.id works)]).returned d =
      [.loaded (.ok (some step))] := by
  have hrow : (Function.update (fun _ => none) step.id (some step) : StepRows) step.id =
      some step := Function.update_self _ _ _
  show Function.update (Function.update (fun _ => []) e [.saved (.ok ())]) d
    (Function.update (fun _ => []) e [.saved (.ok ())] d ++
      [Returned.loaded (.ok ((Function.update (fun _ => none) step.id (some step) : StepRows)
        step.id))]) d = _
  rw [Function.update_self, Function.update_of_ne hde, hrow]
  rfl

theorem loaded_alone (d : ε) (id : String) :
    (interleave .empty [(d, .step id works)]).returned d = [.loaded (.ok none)] :=
  Function.update_self _ _ _

/-- What an execution is answered depends only on its own operations exactly if no step id is in the
    plans of two executions. -/
theorem stepsIsolated_iff (plans : ε → PlannedExecution) : Isolated plans ↔ IdsApart plans := by
  constructor
  · intro h d e hde id hd he
    obtain ⟨step, -, rfl⟩ := List.mem_map.mp he
    have hloaded := h [(e, .saveStep step works), (d, .step step.id works)] (by
      rintro event hevent
      rcases List.mem_pair.mp hevent with rfl | rfl
      · exact he
      · exact hd) d
    have hown : [((e, .saveStep step works) : ε × Operation), (d, .step step.id works)].filter
        (fun event => event.1 = d) = [(d, .step step.id works)] := by
      simp [hde.symm]
    rw [hown, loaded_after_save hde, loaded_alone] at hloaded
    cases hloaded
  · intro hapart events hevents d
    have hempty : Orderly plans (SharedStore.empty : SharedStore ε) :=
      ⟨fun _ step hstep => absurd hstep.symm (Option.some_ne_none step),
        fun _ _ hcall => absurd hcall List.not_mem_nil⟩
    exact ((unwinds hapart d).run events hevents hempty hempty ⟨fun _ _ => rfl, rfl, rfl⟩).returned

def eraseProfiles : ExecutionStep where
  id := "erase-profiles"
  operationKey := "op_1"
  connector := "supabase"
  action := .erase
  dependencies := []
  status := .pending
  attempts := 0
  desiredState := .absent
  blockReason := none

/-- Two executions with plans of one step, of the same id. -/
def sameIds : Bool → PlannedExecution := fun _ => ⟨[eraseProfiles], by decide⟩

/-- The step of the second execution is done, then the first one runs its own pending step. -/
def skippedRun : List (Bool × Operation) :=
  [(false, .saveStep eraseProfiles works),
    (true, .saveStep { eraseProfiles with operationKey := "op_2", status := .succeeded } works),
    (false, .runStep "erase-profiles"), (false, .goOn 0 works)]

/-- It is skipped, as if it had succeeded. -/
theorem runStep_skips_pending :
    (interleave .empty skippedRun).returned false =
        [.saved (.ok ()), .ran 0 (.ok .succeeded)] ∧
      (interleave .empty (skippedRun.filter fun event => event.1 = false)).returned false =
        [.saved (.ok ())] ∧
      ¬ Isolated sameIds := by
  refine ⟨by decide +kernel, by decide +kernel, fun h => ?_⟩
  have hrun := h skippedRun (by decide) false
  revert hrun
  decide +kernel

end ForgetOps.Agent
