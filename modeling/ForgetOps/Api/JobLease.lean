import ForgetOps.Api.JobRepository
import ForgetOps.Library.SequentialRuns

/-
  Exclusive leases, under all interleavings of `enqueue`, `poll`, `lease`, `heartbeat` and
  replacements by force, with other transactions writing agents, environments and requests.

  The invariant is about one job at a time (`JobState`): as long as it is not completed its row
  carries the last promise made about it, no promise runs longer, and the promises made to other
  agents are over. `lease` and `heartbeat` hold the row, so that at their commit it is the row they
  decided on; `poll` holds nothing, and its offer is about the answers before its snapshot.
-/

namespace ForgetOps.Api.Gateway

open Database ReadCommitted RowStore

/-! ## The system -/

/-- A row written by a transaction that is not about jobs. -/
inductive GatewayWrite where
  | environment (id : String) (row : Option EnvironmentRow)
  | agent (id : String) (row : Option AgentRow)
  | request (id : String) (row : Option RequestScope)

def GatewayWrite.script : GatewayWrite → GatewayTransaction Unit
  | .environment id row => do
    let _ ← Script.update (.environment id) fun _ => some ((), row)
    return ()
  | .agent id row => do
    let _ ← Script.update (.agent id) fun _ => some ((), row)
    return ()
  | .request id row => do
    let _ ← Script.update (.request id) fun _ => some ((), row)
    return ()

inductive JobRequest where
  | enqueue (input : EnqueueAgentJobInput)
  | poll (input : AgentJobLookup)
  | lease (input : AgentJobMutation)
  | heartbeat (input : AgentJobMutation)
  | replace (input : ForceReplacement)
  | other (write : GatewayWrite)

inductive JobReply where
  | polled (offer : Option (String × AgentJobRow)) (seen : Nat)
  | leased (lease : Option (LeaseKind × AgentJobRow))
  | renewed (job : Option AgentJobRow)
  | completed (ids : List String)
  | done

namespace JobRequest

def script : JobRequest → GatewayTransaction JobReply
  | .enqueue input => do
    let _ ← Gateway.enqueue input
    return .done
  | .poll input => do
    let offer ← Gateway.poll input
    return .polled offer.1 offer.2
  | .lease input => do
    let answer ← Gateway.lease input
    return .leased answer
  | .heartbeat input => do
    let job ← Gateway.heartbeat input
    return .renewed job
  | .replace input => do
    let ids ← forceReplacement input
    return .completed ids
  | .other write => do
    write.script
    return .done

def now : JobRequest → Option Int
  | .poll input => some input.now
  | .lease input | .heartbeat input => some input.now
  | .replace input => some input.now
  | .enqueue _ | .other _ => none

/-- What the commit of a transaction that replied this has answered. -/
def event : JobRequest → JobReply → Option JobEvent
  | .poll input, .polled (some offer) seen =>
    some (.offered ⟨offer.1, input.agentId, input.now, offer.2⟩ seen)
  | .lease input, .leased (some answer) =>
    some (.leased answer.1 ⟨input.jobId, input.agentId, input.now, answer.2⟩)
  | .heartbeat input, .renewed (some job) =>
    some (.leased .renewed ⟨input.jobId, input.agentId, input.now, job⟩)
  | .replace _, .completed ids => some (.completed ids)
  | _, _ => none

end JobRequest

/-- `w` with an answer added and the clock moved on. -/
def Store.answer (w : Store) (event : Option JobEvent) (now : Option Int) : Store :=
  { w with answers := w.answers ++ event.toList, clock := now.getD w.clock }

/-- The answers by which a job was leased, in order. -/
def leasesOf (id : String) (answers : List JobEvent) : List (LeaseKind × JobAnswer) :=
  answers.filterMap fun
    | .leased kind a => if a.id = id then some (kind, a) else none
    | _ => none

/-- How often the job was granted. -/
def grantsOf (id : String) (answers : List JobEvent) : Nat :=
  (leasesOf id answers).countP (·.1 = .granted)

def CompletedIn (id : String) (answers : List JobEvent) : Prop :=
  ∃ ids, .completed ids ∈ answers ∧ id ∈ ids

/-- An offer after these answers: every lease of the job is over, the job itself is not. -/
structure OfferAdmissible (before : List JobEvent) (a : JobAnswer) : Prop where
  exclusive : ∀ l ∈ leasesOf a.id before, ∀ e, l.2.job.leaseExpiresAt = some e → e ≤ a.now
  uncompleted : ¬ CompletedIn a.id before
  unexpired : a.now < a.job.expiresAt

/-- A lease after these answers: the leases of other agents are over, and so is every lease before
    a grant; anything else goes to the holder of the last lease, which is not over. -/
structure LeaseAdmissible (before : List JobEvent) (kind : LeaseKind) (a : JobAnswer) : Prop where
  promised : ∃ e, a.job.leaseExpiresAt = some e ∧ a.now < e
  exclusive : ∀ l ∈ leasesOf a.id before, l.2.agentId ≠ a.agentId →
    ∀ e, l.2.job.leaseExpiresAt = some e → e ≤ a.now
  granted : kind = .granted →
    ∀ l ∈ leasesOf a.id before, ∀ e, l.2.job.leaseExpiresAt = some e → e ≤ a.now
  held : kind ≠ .granted → ∃ l, (leasesOf a.id before).getLast? = some l ∧
    l.2.agentId = a.agentId ∧ ∃ e, l.2.job.leaseExpiresAt = some e ∧ a.now < e
  increasing : ∀ l ∈ leasesOf a.id before, ∀ e e', l.2.job.leaseExpiresAt = some e →
    a.job.leaseExpiresAt = some e' → e ≤ e'
  attempt : a.job.attempt = grantsOf a.id before + if kind = .granted then 1 else 0
  uncompleted : ¬ CompletedIn a.id before
  unexpired : a.now < a.job.expiresAt

/-- What may be answered after these answers. -/
def Admissible (before : List JobEvent) : JobEvent → Prop
  | .offered a seen => seen ≤ before.length ∧ OfferAdmissible (before.take seen) a
  | .leased kind a => LeaseAdmissible before kind a
  | .completed _ => True

/-- The job as it was answered, if the event is an answer. -/
def JobEvent.answer : JobEvent → Option JobAnswer
  | .offered a _ | .leased _ a => some a
  | .completed _ => none

structure JobsExclusive (w : Store) : Prop where
  answers : ∀ before event after, w.answers = before ++ event :: after → Admissible before event
  attempts : ∀ id row, w.jobs.find id = some row → row.attempt = grantsOf id w.answers
  completed : ∀ id row, w.jobs.find id = some row →
    (row.completedAt ≠ none ↔ CompletedIn id w.answers)
  expiry : ∀ event ∈ w.answers, ∀ a ∈ event.answer,
    ∃ row, w.jobs.find a.id = some row ∧ row.expiresAt = a.job.expiresAt

/-- No job has been enqueued yet. -/
structure Store.Jobless (w : Store) : Prop where
  jobs : w.jobs = .empty
  answers : w.answers = []

/-! ## Answers -/

theorem leasesOf_append (id : String) (answers answers' : List JobEvent) :
    leasesOf id (answers ++ answers') = leasesOf id answers ++ leasesOf id answers' :=
  List.filterMap_append

theorem grantsOf_append (id : String) (answers answers' : List JobEvent) :
    grantsOf id (answers ++ answers') = grantsOf id answers + grantsOf id answers' := by
  unfold grantsOf
  rw [leasesOf_append, List.countP_append]

theorem completedIn_append {id : String} {answers answers' : List JobEvent} :
    CompletedIn id (answers ++ answers') ↔ CompletedIn id answers ∨ CompletedIn id answers' := by
  unfold CompletedIn
  constructor
  · rintro ⟨ids, mem, completed⟩
    rcases List.mem_append.mp mem with mem | mem
    · exact Or.inl ⟨ids, mem, completed⟩
    · exact Or.inr ⟨ids, mem, completed⟩
  · rintro (⟨ids, mem, completed⟩ | ⟨ids, mem, completed⟩)
    · exact ⟨ids, List.mem_append_left _ mem, completed⟩
    · exact ⟨ids, List.mem_append_right _ mem, completed⟩

/-- One more answer is admissible, and those before it stay so. -/
theorem admissible_concat {answers : List JobEvent} {event : JobEvent}
    (all : ∀ before x after, answers = before ++ x :: after → Admissible before x)
    (last : Admissible answers event) :
    ∀ before x after, answers ++ [event] = before ++ x :: after → Admissible before x := by
  intro before x after split
  rcases concat_eq_append_cons split with ⟨-, rfl, rfl⟩ | ⟨after', -, earlier⟩
  · exact last
  · exact all before x after' earlier

theorem leasesOf_leased (id : String) (kind : LeaseKind) (a : JobAnswer) :
    leasesOf id [.leased kind a] = if a.id = id then [(kind, a)] else [] := by
  unfold leasesOf
  by_cases same : a.id = id
  · simp [same]
  · simp [same]

theorem grantsOf_leased (id : String) (kind : LeaseKind) (a : JobAnswer) :
    grantsOf id [.leased kind a] = if a.id = id ∧ kind = .granted then 1 else 0 := by
  unfold grantsOf
  rw [leasesOf_leased]
  by_cases same : a.id = id
  · by_cases granted : kind = .granted
    · simp [same, granted]
    · simp [same, granted]
  · simp [same]

theorem not_completedIn_leased (id : String) (kind : LeaseKind) (a : JobAnswer) :
    ¬ CompletedIn id [.leased kind a] := by
  rintro ⟨ids, mem, -⟩
  rw [List.mem_singleton] at mem
  cases mem

/-! ## One job -/

/-- The row carries the last promise about the job. -/
structure Promised (answers : List JobEvent) (clock : Int) (id : String) (row : AgentJobRow)
    (e : Int) (l : LeaseKind × JobAnswer) : Prop where
  last : (leasesOf id answers).getLast? = some l
  promise : l.2.job.leaseExpiresAt = some e
  holder : row.leasedByAgentId = some l.2.agentId
  soon : e ≤ clock + jobLeaseMs
  greatest : ∀ l' ∈ leasesOf id answers, ∀ e', l'.2.job.leaseExpiresAt = some e' → e' ≤ e
  others : ∀ l' ∈ leasesOf id answers, l'.2.agentId ≠ l.2.agentId →
    ∀ e', l'.2.job.leaseExpiresAt = some e' → e' ≤ clock

structure JobState (answers : List JobEvent) (clock : Int) (id : String) (row : AgentJobRow) :
    Prop where
  attempt : row.attempt = grantsOf id answers
  completed : row.completedAt ≠ none ↔ CompletedIn id answers
  unleased : row.completedAt = none → row.leaseExpiresAt = none → leasesOf id answers = []
  leased : row.completedAt = none → ∀ e, row.leaseExpiresAt = some e →
    ∃ l, Promised answers clock id row e l

section OneJob

variable {answers : List JobEvent} {clock now : Int} {id : String} {row : AgentJobRow}

theorem JobState.uncompleted (h : JobState answers clock id row) (pending : row.completedAt = none) :
    ¬ CompletedIn id answers :=
  fun completed => h.completed.mpr completed pending

/-- Where no lease of the job runs, every promise about it is over. -/
theorem JobState.ended (h : JobState answers clock id row) (pending : row.completedAt = none)
    (free : Gateway.unleased now row) :
    ∀ l ∈ leasesOf id answers, ∀ e, l.2.job.leaseExpiresAt = some e → e ≤ now := by
  intro l mem e promise
  cases lease : row.leaseExpiresAt with
  | none =>
    rw [h.unleased pending lease] at mem
    cases mem
  | some e' =>
    obtain ⟨l', promised⟩ := h.leased pending e' lease
    exact (promised.greatest l mem e promise).trans (free e' lease)

theorem Promised.later {e : Int} {l : LeaseKind × JobAnswer} {clock' : Int}
    (h : Promised answers clock id row e l) (hclock : clock ≤ clock') :
    Promised answers clock' id row e l :=
  { h with
    soon := by
      have := h.soon
      omega
    others := fun l' mem other e' promise => (h.others l' mem other e' promise).trans hclock }

theorem JobState.later {clock' : Int} (h : JobState answers clock id row)
    (hclock : clock ≤ clock') : JobState answers clock' id row :=
  { h with
    leased := by
      intro pending e lease
      obtain ⟨l, promised⟩ := h.leased pending e lease
      exact ⟨l, promised.later hclock⟩ }

/-- An answer that is no lease of the job and does not complete it. -/
theorem JobState.append {event : JobEvent} (h : JobState answers clock id row)
    (leases : leasesOf id [event] = []) (completed : ¬ CompletedIn id [event]) :
    JobState (answers ++ [event]) clock id row := by
  have same : leasesOf id (answers ++ [event]) = leasesOf id answers := by
    rw [leasesOf_append, leases, List.append_nil]
  refine ⟨?_, ?_, ?_, ?_⟩
  · rw [h.attempt]
    unfold grantsOf
    rw [same]
  · rw [h.completed, completedIn_append]
    exact ⟨Or.inl, fun either => either.resolve_right completed⟩
  · rw [same]
    exact h.unleased
  · intro pending e lease
    obtain ⟨l, promised⟩ := h.leased pending e lease
    exact ⟨l, same.symm ▸ promised.last, promised.promise, promised.holder, promised.soon,
      same.symm ▸ promised.greatest, same.symm ▸ promised.others⟩

/-- The job is leased to `a.agentId` until `e`, later than every promise before. -/
theorem JobState.lease {kind : LeaseKind} {a : JobAnswer} {row' : AgentJobRow} {e : Int}
    (h : JobState answers clock id row) (about : a.id = id) (pending : row.completedAt = none)
    (still : row'.completedAt = none) (promise : a.job.leaseExpiresAt = some e)
    (written : row'.leaseExpiresAt = some e) (holder : row'.leasedByAgentId = some a.agentId)
    (soon : e ≤ clock + jobLeaseMs)
    (greatest : ∀ l ∈ leasesOf id answers, ∀ e', l.2.job.leaseExpiresAt = some e' → e' ≤ e)
    (others : ∀ l ∈ leasesOf id answers, l.2.agentId ≠ a.agentId →
      ∀ e', l.2.job.leaseExpiresAt = some e' → e' ≤ clock)
    (attempt : row'.attempt = row.attempt + if kind = .granted then 1 else 0) :
    JobState (answers ++ [.leased kind a]) clock id row' := by
  have leases : leasesOf id (answers ++ [.leased kind a]) = leasesOf id answers ++ [(kind, a)] := by
    rw [leasesOf_append, leasesOf_leased, if_pos about]
  refine ⟨?_, ?_, ?_, ?_⟩
  · rw [attempt, h.attempt, grantsOf_append, grantsOf_leased]
    simp [about]
  · rw [completedIn_append, ← h.completed]
    constructor
    · intro completed
      exact absurd still completed
    · rintro (completed | completed)
      · exact absurd pending completed
      · exact absurd completed (not_completedIn_leased id kind a)
  · intro _ none_written
    rw [written] at none_written
    cases none_written
  · intro _ e' lease
    rw [written] at lease
    cases lease
    refine ⟨(kind, a), ?_, promise, holder, soon, ?_, ?_⟩
    · rw [leases]
      simp
    · intro l mem e' promise'
      rw [leases, List.mem_append, List.mem_singleton] at mem
      rcases mem with mem | rfl
      · exact greatest l mem e' promise'
      · rw [promise] at promise'
        cases promise'
        exact le_refl _
    · intro l mem other e' promise'
      rw [leases, List.mem_append, List.mem_singleton] at mem
      rcases mem with mem | rfl
      · exact others l mem other e' promise'
      · exact absurd rfl other

/-- A lease that runs may be answered again to its holder, and renewed. -/
theorem JobState.hold {kind : LeaseKind} {a : JobAnswer} {e e' : Int}
    (h : JobState answers clock a.id row) (hclock : clock ≤ a.now) (kept : kind ≠ .granted)
    (pending : row.completedAt = none) (lease : row.leaseExpiresAt = some e) (runs : a.now < e)
    (holder : row.leasedByAgentId = some a.agentId) (still : a.job.completedAt = none)
    (promise : a.job.leaseExpiresAt = some e') (no_earlier : e ≤ e')
    (soon : e' ≤ a.now + jobLeaseMs) (same_holder : a.job.leasedByAgentId = some a.agentId)
    (attempt : a.job.attempt = row.attempt) (unexpired : a.now < a.job.expiresAt) :
    LeaseAdmissible answers kind a ∧
      JobState (answers ++ [.leased kind a]) a.now a.id a.job := by
  obtain ⟨l, promised⟩ := h.leased pending e lease
  have same : l.2.agentId = a.agentId := by
    have held := promised.holder
    rw [holder] at held
    exact (Option.some.inj held).symm
  have others : ∀ l' ∈ leasesOf a.id answers, l'.2.agentId ≠ a.agentId →
      ∀ e', l'.2.job.leaseExpiresAt = some e' → e' ≤ a.now := by
    intro l' mem other e'' promise'
    exact (promised.others l' mem (same ▸ other) e'' promise').trans hclock
  have greatest : ∀ l' ∈ leasesOf a.id answers, ∀ e'', l'.2.job.leaseExpiresAt = some e'' →
      e'' ≤ e' := by
    intro l' mem e'' promise'
    exact (promised.greatest l' mem e'' promise').trans no_earlier
  constructor
  · refine ⟨⟨e', promise, by omega⟩, others, fun granted => absurd granted kept, ?_, ?_, ?_,
      h.uncompleted pending, unexpired⟩
    · exact fun _ => ⟨l, promised.last, same, e, promised.promise, runs⟩
    · intro l' mem e'' e₂ promise' promise₂
      rw [promise] at promise₂
      cases promise₂
      exact greatest l' mem e'' promise'
    · rw [if_neg kept, attempt, h.attempt]
      rfl
  · refine (h.later hclock).lease rfl pending still promise promise same_holder soon greatest
      others ?_
    rw [if_neg kept, attempt]
    rfl

end OneJob

/-! ## What a commit does to the jobs -/

/-- The jobs of `w'` are those of `w`, but that the jobs `ids` are completed. -/
def Completes (now : Int) (ids : List String) (w w' : Store) : Prop :=
  ∀ id, (w'.jobs.find id = w.jobs.find id ∧ id ∉ ids) ∨
    ∃ row, w.jobs.find id = some row ∧ row.completedAt = none ∧
      w'.jobs.find id = some (completedRow now row) ∧ id ∈ ids

/-- From `w` to `w'`, with this answer at this time. -/
inductive JobStep (w w' : Store) : Option JobEvent → Option Int → Prop
  | write {now} (jobs : w'.jobs = w.jobs) : JobStep w w' none now
  | enqueue {input} (fresh : w.jobs.find input.id = none)
      (jobs : w'.jobs = w.jobs.set input.id (some (newJob input))) : JobStep w w' none none
  | offer {a seen row} (jobs : w'.jobs = w.jobs) (before : seen ≤ w.answers.length)
      (admissible : OfferAdmissible (w.answers.take seen) a)
      (stored : w.jobs.find a.id = some row) (expiry : row.expiresAt = a.job.expiresAt) :
      JobStep w w' (some (.offered a seen)) (some a.now)
  | lease {kind a row} (stored : w.jobs.find a.id = some row)
      (jobs : w'.jobs = w.jobs.set a.id (some a.job)) (expiry : row.expiresAt = a.job.expiresAt)
      (effect : w.clock ≤ a.now → JobState w.answers w.clock a.id row →
        LeaseAdmissible w.answers kind a ∧
          JobState (w.answers ++ [.leased kind a]) a.now a.id a.job) :
      JobStep w w' (some (.leased kind a)) (some a.now)
  | complete {ids now} (jobs : Gateway.Completes now ids w w') :
      JobStep w w' (some (.completed ids)) (some now)

/-- What the invariant says of a store. -/
structure JobsConsistent (w : Store) : Prop where
  answers : ∀ before event after, w.answers = before ++ event :: after → Admissible before event
  rows : ∀ id row, w.jobs.find id = some row → JobState w.answers w.clock id row
  absent : ∀ id, w.jobs.find id = none →
    leasesOf id w.answers = [] ∧ ¬ CompletedIn id w.answers
  expiry : ∀ event ∈ w.answers, ∀ a ∈ event.answer,
    ∃ row, w.jobs.find a.id = some row ∧ row.expiresAt = a.job.expiresAt

theorem Store.Jobless.consistent {w : Store} (h : w.Jobless) : JobsConsistent w where
  answers := by simp [h.answers]
  rows := by simp [h.jobs]
  absent := by simp [h.answers, leasesOf, CompletedIn]
  expiry := by simp [h.answers]

theorem JobsConsistent.exclusive {w : Store} (h : JobsConsistent w) : JobsExclusive w where
  answers := h.answers
  attempts id row stored := (h.rows id row stored).attempt
  completed id row stored := (h.rows id row stored).completed
  expiry := h.expiry

section Steps

variable {w w' : Store} {event : Option JobEvent} {now : Option Int}

/-- Every job stays, with the time it expires. -/
theorem JobStep.jobs (h : JobStep w w' event now) (id : String) (row : AgentJobRow)
    (found : w.jobs.find id = some row) :
    ∃ row', w'.jobs.find id = some row' ∧ row'.expiresAt = row.expiresAt := by
  cases h with
  | write jobs => exact ⟨row, jobs ▸ found, rfl⟩
  | offer jobs => exact ⟨row, jobs ▸ found, rfl⟩
  | @enqueue input fresh jobs =>
    have other : id ≠ input.id := by
      rintro rfl
      rw [fresh] at found
      cases found
    exact ⟨row, by rw [jobs, Table.find_set_of_ne _ _ other, found], rfl⟩
  | @lease kind a row' stored jobs expiry _ =>
    by_cases same : id = a.id
    · subst same
      rw [stored] at found
      cases found
      exact ⟨a.job, by rw [jobs, Table.find_set_self], expiry.symm⟩
    · exact ⟨row, by rw [jobs, Table.find_set_of_ne _ _ same, found], rfl⟩
  | complete jobs =>
    rcases jobs id with ⟨same, -⟩ | ⟨row', found', -, written, -⟩
    · exact ⟨row, same.trans found, rfl⟩
    · rw [found] at found'
      cases found'
      exact ⟨_, written, rfl⟩

/-- One more answer, about jobs that are stored. -/
theorem JobsConsistent.record {event : JobEvent} (hw : JobsConsistent w) (clock : Int)
    (jobs : Table String AgentJobRow) (admissible : Admissible w.answers event)
    (rows : ∀ id row, jobs.find id = some row →
      JobState (w.answers ++ [event]) clock id row)
    (silent : ∀ id, jobs.find id = none →
      w.jobs.find id = none ∧ leasesOf id [event] = [] ∧ ¬ CompletedIn id [event])
    (grown : ∀ id row, w.jobs.find id = some row →
      ∃ row', jobs.find id = some row' ∧ row'.expiresAt = row.expiresAt)
    (expiry : ∀ a ∈ event.answer,
      ∃ row, jobs.find a.id = some row ∧ row.expiresAt = a.job.expiresAt)
    (hjobs : w'.jobs = jobs) (hanswers : w'.answers = w.answers ++ [event])
    (hclock : w'.clock = clock) : JobsConsistent w' := by
  subst hjobs hclock
  refine ⟨?_, ?_, ?_, ?_⟩
  · rw [hanswers]
    exact admissible_concat hw.answers admissible
  · rw [hanswers]
    exact rows
  · intro id none_stored
    obtain ⟨absent, leases, completed⟩ := silent id none_stored
    obtain ⟨leases', completed'⟩ := hw.absent id absent
    rw [hanswers, leasesOf_append, leases, leases', completedIn_append]
    exact ⟨rfl, not_or.mpr ⟨completed', completed⟩⟩
  · intro event' mem a about
    rw [hanswers, List.mem_append, List.mem_singleton] at mem
    rcases mem with mem | rfl
    · obtain ⟨row, stored, same⟩ := hw.expiry event' mem a about
      obtain ⟨row', stored', same'⟩ := grown a.id row stored
      exact ⟨row', stored', same'.trans same⟩
    · exact expiry a about

theorem not_completedIn_offered (id : String) (a : JobAnswer) (seen : Nat) :
    ¬ CompletedIn id [.offered a seen] := by
  rintro ⟨ids, mem, -⟩
  rw [List.mem_singleton] at mem
  cases mem

theorem completedIn_completed {id : String} {ids : List String} :
    CompletedIn id [.completed ids] ↔ id ∈ ids := by
  unfold CompletedIn
  simp

/-- A row that a step without an answer leaves as it is, and a new one. -/
theorem JobsConsistent.rewrite (hw : JobsConsistent w) (clock : Int)
    (rows : ∀ id row, w'.jobs.find id = some row → JobState w.answers clock id row)
    (kept : ∀ id row, w.jobs.find id = some row →
      ∃ row', w'.jobs.find id = some row' ∧ row'.expiresAt = row.expiresAt)
    (hanswers : w'.answers = w.answers) (hclock : w'.clock = clock) : JobsConsistent w' := by
  refine ⟨hanswers ▸ hw.answers, by rw [hanswers, hclock]; exact rows, ?_, ?_⟩
  · intro id none_stored
    rw [hanswers]
    refine hw.absent id ?_
    by_contra stored
    obtain ⟨row, stored⟩ := Option.ne_none_iff_exists'.mp stored
    obtain ⟨row', stored', -⟩ := kept id row stored
    rw [none_stored] at stored'
    cases stored'
  · intro event mem a about
    rw [hanswers] at mem
    obtain ⟨row, stored, same⟩ := hw.expiry event mem a about
    obtain ⟨row', stored', same'⟩ := kept a.id row stored
    exact ⟨row', stored', same'.trans same⟩

theorem JobState.new {answers : List JobEvent} {clock : Int} {input : EnqueueAgentJobInput}
    (leases : leasesOf input.id answers = []) (completed : ¬ CompletedIn input.id answers) :
    JobState answers clock input.id (newJob input) where
  attempt := by
    unfold grantsOf
    rw [leases]
    rfl
  completed := iff_of_false (fun h => h rfl) completed
  unleased _ _ := leases
  leased _ e lease := by cases lease

/-- Completed once, a job carries no promise any more. -/
theorem JobState.complete {answers : List JobEvent} {clock t : Int} {id : String}
    {ids : List String} {row : AgentJobRow} (h : JobState answers clock id row) (mem : id ∈ ids) :
    JobState (answers ++ [.completed ids]) clock id (completedRow t row) where
  attempt := by
    have none_granted : grantsOf id [.completed ids] = 0 := rfl
    rw [grantsOf_append, none_granted, ← h.attempt]
    rfl
  completed := by
    rw [completedIn_append, completedIn_completed]
    exact iff_of_true (fun none_completed => by cases none_completed) (Or.inr mem)
  unleased pending := by cases pending
  leased pending := by cases pending

theorem JobStep.consistent (h : JobStep w w' event now) (answers : w'.answers = w.answers)
    (clock : w'.clock = w.clock) (order : ∀ t ∈ now, w.clock ≤ t) (hw : JobsConsistent w) :
    JobsConsistent (w'.answer event now) := by
  have later : w.clock ≤ now.getD w.clock := by
    cases now with
    | none => exact le_rfl
    | some t => exact order t rfl
  have kept := h.jobs
  cases h with
  | @write now jobs =>
    refine hw.rewrite (now.getD w.clock) ?_ kept ?_ ?_
    · intro id row stored
      exact (hw.rows id row (jobs ▸ stored)).later later
    · rw [← answers]
      exact List.append_nil _
    · rw [← clock]
      rfl
  | @enqueue input fresh jobs =>
    obtain ⟨leases, completed⟩ := hw.absent input.id fresh
    refine hw.rewrite w.clock ?_ kept ?_ ?_
    · intro id row stored
      have stored : w'.jobs.find id = some row := stored
      rw [jobs] at stored
      by_cases same : id = input.id
      · subst same
        rw [Table.find_set_self] at stored
        cases stored
        exact JobState.new leases completed
      · rw [Table.find_set_of_ne _ _ same] at stored
        exact hw.rows id row stored
    · rw [← answers]
      exact List.append_nil _
    · exact clock
  | @offer a seen row jobs before admissible stored expiry =>
    have admissible : Admissible w.answers (.offered a seen) := ⟨before, admissible⟩
    refine hw.record a.now w.jobs admissible ?_ ?_ (fun _ row found => ⟨row, found, rfl⟩) ?_
      jobs ?_ rfl
    · intro id row' found
      exact ((hw.rows id row' found).later (order _ rfl)).append rfl
        (not_completedIn_offered id a seen)
    · exact fun id absent => ⟨absent, rfl, not_completedIn_offered id a seen⟩
    · rintro _ ⟨⟩
      exact ⟨row, stored, expiry⟩
    · rw [← answers]
      rfl
  | @lease kind a row stored jobs expiry effect =>
    obtain ⟨admissible, state⟩ := effect (order _ rfl) (hw.rows a.id row stored)
    have admissible : Admissible w.answers (.leased kind a) := admissible
    refine hw.record a.now (w.jobs.set a.id (some a.job)) admissible ?_ ?_ ?_ ?_ jobs ?_ rfl
    · intro id row' found
      by_cases same : id = a.id
      · subst same
        rw [Table.find_set_self] at found
        cases found
        exact state
      · rw [Table.find_set_of_ne _ _ same] at found
        refine ((hw.rows id row' found).later (order _ rfl)).append ?_
          (not_completedIn_leased id kind a)
        rw [leasesOf_leased, if_neg (Ne.symm same)]
    · intro id absent
      have other : id ≠ a.id := by
        rintro rfl
        rw [Table.find_set_self] at absent
        cases absent
      rw [Table.find_set_of_ne _ _ other] at absent
      refine ⟨absent, ?_, not_completedIn_leased id kind a⟩
      rw [leasesOf_leased, if_neg (Ne.symm other)]
    · intro id row' found
      obtain ⟨row'', found', same⟩ := kept id row' found
      exact ⟨row'', jobs ▸ found', same⟩
    · rintro _ ⟨⟩
      exact ⟨a.job, Table.find_set_self _ _ _, rfl⟩
    · rw [← answers]
      rfl
  | @complete ids t jobs =>
    have admissible : Admissible w.answers (.completed ids) := trivial
    refine hw.record t w'.jobs admissible ?_ ?_ kept
      (fun _ none_answered => by cases none_answered) rfl ?_ rfl
    · intro id row found
      rcases jobs id with ⟨same, notMem⟩ | ⟨row', found', -, written, mem⟩
      · rw [same] at found
        refine ((hw.rows id row found).later (order _ rfl)).append rfl ?_
        rwa [completedIn_completed]
      · rw [written] at found
        cases found
        exact ((hw.rows id row' found').later (order _ rfl)).complete mem
    · intro id absent
      rcases jobs id with ⟨same, notMem⟩ | ⟨row', -, -, written, -⟩
      · refine ⟨same ▸ absent, rfl, ?_⟩
        rwa [completedIn_completed]
      · rw [written] at absent
        cases absent
    · rw [← answers]
      rfl

end Steps

/-! ## The transactions -/

section Transactions

variable {w : Store} {p p' : Point Store GatewayRow}

end Transactions

/-! ## Runs -/

def firstJob : EnqueueAgentJobInput where
  id := "job_1"
  tenantId := "ten_1"
  requestId := "req_1"
  environmentId := "env_1"
  kind := .execute
  planVersion := some 1
  payloadCiphertext := none
  authorization := none
  availableAt := 0
  expiresAt := 600000

def firstLease : AgentJobMutation where
  tenantId := "ten_1"
  agentId := "agt_1"
  environmentId := "env_1"
  now := 1000
  jobId := "job_1"

def firstEnqueued : Store :=
  { firstAgents with jobs := Table.empty.set "job_1" (some (newJob firstJob)) }

/-- The store after the first job was enqueued and leased. -/
def firstLeased : Store :=
  { firstAgents with
    jobs := Table.empty.set "job_1" (some (leasedRow firstLease (newJob firstJob)))
    answers := [.leased .granted ⟨"job_1", "agt_1", 1000, leasedRow firstLease (newJob firstJob)⟩]
    clock := 1000 }

end ForgetOps.Api.Gateway
