import ForgetOps.Database.Evolution
import ForgetOps.Database.Sequential

/-
  The audit chain of an environment, under all interleavings.

  The audit rows of an environment stand in the table in the order of their sequence numbers, each
  sealed behind the one before it, and the head names the last (`LinearChain`). Only `appendEvent`
  writes audit rows, and it writes them behind the head.
-/

namespace ForgetOps.Database

open Domain HashChain
open ReadCommitted RowStore

/-- The audit rows of the environment, in the order of their insertion. -/
def environmentEvents (w : World) (environmentId : String) : List (String × AuditRow) :=
  w.auditEvents.entries.filter fun e => e.2.environmentId = environmentId

/-- The audit rows of the environment, `order by sequence`. -/
def auditChain (w : World) (environmentId : String) : List (String × AuditRow) :=
  (environmentEvents w environmentId).mergeSort fun e e' => e.2.sequence ≤ e'.2.sequence

/-- The rows as the domain reads them back. -/
def readBackChain (events : List (String × AuditRow)) : List (CanonicalAuditEvent Payload) :=
  events.map fun e => e.2.readBack e.1

/-- `(n, hash of the n-th event)`, or `(0, null)` without one; no head before the first append. -/
def HeadOf (events : List (String × AuditRow)) : Option HeadRow → Prop
  | none => events = []
  | some head => head.sequence = events.length ∧
    head.eventHash = events.getLast?.map (·.2.eventHash)

structure LinearChain (rt : Runtime) (events : List (String × AuditRow))
    (chainHead : Option HeadRow) : Prop where
  numbered : events.map (·.2.sequence) = List.range' 1 events.length
  head : HeadOf events chainHead
  sealed : EventChain rt.sha256 rt.canonicalize none (readBackChain events)

/-- The chains of all environments are linear. -/
def ChainsLinear (rt : Runtime) (w : World) : Prop :=
  ∀ environmentId, LinearChain rt (environmentEvents w environmentId)
    (w.chainHeads.find environmentId)

section Append

variable {rt : Runtime} {events : List (String × AuditRow)} {head : HeadRow}

theorem linearChain_nil (rt : Runtime) {chainHead : Option HeadRow} (h : HeadOf [] chainHead) :
    LinearChain rt [] chainHead :=
  ⟨rfl, h, chained_nil⟩

theorem readBack_auditRow {event : AuditEventWithoutHashes Payload} {n : Nat}
    {previousHash : Option String} {hash : String} (hsequence : event.sequence = toString n) :
    (auditRow event n previousHash hash).readBack event.id =
      { event with previousEventHash := previousHash, eventHash := hash } := by
  cases event
  cases hsequence
  rfl

/-- An event recorded behind the head. -/
theorem LinearChain.append {event : AuditEventWithoutHashes Payload} {hash : String}
    (h : LinearChain rt events (some head))
    (hsequence : event.sequence = toString (head.sequence + 1))
    (hhash : auditEventHash rt.sha256 rt.canonicalize head.eventHash event = .ok hash) :
    LinearChain rt
      (events ++ [(event.id, auditRow event (head.sequence + 1) head.eventHash hash)])
      (some { head with sequence := head.sequence + 1, eventHash := some hash }) := by
  obtain ⟨hlength, hlast⟩ := h.head
  refine ⟨?_, ⟨?_, ?_⟩, ?_⟩
  · rw [List.map_append, h.numbered, List.length_append, List.range'_append_1.symm, hlength]
    simp [auditRow, Nat.add_comm]
  · rw [List.length_append, hlength]
    rfl
  · rw [List.getLast?_concat]
    rfl
  · rw [readBackChain, List.map_append, EventChain, chained_append]
    refine ⟨h.sealed, ?_⟩
    rw [List.map_singleton, readBack_auditRow hsequence, head_eq_getLast?, List.getLast?_map,
      Option.map_map]
    refine ⟨?_, hhash, chained_nil⟩
    rw [hlast]
    rfl

end Append

theorem environmentEvents_appendEvent {w : World} {event : AuditEventWithoutHashes Payload}
    {requestId hash : String} {head : HeadRow} (hfresh : w.auditEvents.find event.id = none)
    (environmentId : String) :
    environmentEvents (appendEvent w event requestId head hash) environmentId =
      environmentEvents w environmentId ++ if event.environmentId = environmentId then
        [(event.id, auditRow event (head.sequence + 1) head.eventHash hash)] else [] := by
  rw [environmentEvents, appendEvent, Table.entries_set_of_none hfresh, List.filter_append,
    environmentEvents]
  by_cases h : event.environmentId = environmentId <;> simp [auditRow, h]

/-- Appending keeps every chain linear. -/
theorem Appends.chainsLinear {rt : Runtime} {events : List (AuditEventWithoutHashes Payload)}
    {w w' : World} (happ : Appends rt events w w') (h : ChainsLinear rt w) :
    ChainsLinear rt w' := by
  induction happ with
  | nil => exact h
  | @lock events w w' tenantId environmentId _ ih =>
    apply ih
    intro environmentId'
    rw [environmentEvents, withHead_auditEvents, ← environmentEvents]
    unfold withHead
    split
    · next hnone =>
      by_cases he : environmentId' = environmentId
      · subst he
        have hchain := h environmentId'
        rw [hnone] at hchain
        have hnil : environmentEvents w environmentId' = [] := hchain.head
        rw [hnil]
        dsimp only
        rw [Table.find_set_self]
        exact linearChain_nil rt ⟨rfl, rfl⟩
      · dsimp only
        rw [Table.find_set_of_ne _ _ he]
        exact h environmentId'
    · exact h environmentId'
  | @append event events requestId head hash w w' _ hhead hsequence hhash haudit _ _ ih =>
    apply ih
    intro environmentId'
    rw [environmentEvents_appendEvent haudit]
    by_cases he : event.environmentId = environmentId'
    · subst he
      have hchain := h event.environmentId
      rw [hhead] at hchain
      rw [if_pos rfl, appendEvent, Table.find_set_self]
      exact hchain.append hsequence hhash
    · rw [if_neg he, List.append_nil, appendEvent, Table.find_set_of_ne _ _ (Ne.symm he)]
      exact h environmentId'

theorem ChainsLinear.of_eq {rt : Runtime} {w w' : World} (h : ChainsLinear rt w)
    (haudit : w'.auditEvents = w.auditEvents) (hheads : w'.chainHeads = w.chainHeads) :
    ChainsLinear rt w' := by
  intro environmentId
  rw [environmentEvents, haudit, hheads]
  exact h environmentId

/-- Every transaction keeps every chain linear. -/
theorem ChainsLinear.commit {R : List Key → World → World → Prop} {rt : Runtime} {u w : World}
    {log : Log Row} {request : TransactionRequest} (hR : Rely R) (h : ChainsLinear rt w)
    (hrun : Completes R w (request.script rt) ⟨u, []⟩ () ⟨w, log⟩) :
    ChainsLinear rt (request.settle (view w log)) := by
  cases request with
  | save input =>
    obtain ⟨row', W, sequence, -, -, haudit, -, hheads, happ⟩ :=
      PrivacyRequestRepository.save_records hR hrun
    have hlinear := happ.chainsLinear (h.of_eq haudit hheads)
    exact hlinear.of_eq rfl rfl
  | bindSubject input =>
    obtain ⟨a, hbind⟩ := completes_discard hR hrun
    rcases Api.SubjectBinding.bindSubject_effect hR hbind with hsame | ⟨_, row, candidates, hb⟩
    · exact h.of_eq hsame.auditEvents hsame.chainHeads
    · obtain ⟨W, events, -, -, haudit, -, hheads, -, happ⟩ := hb.decided.written
      exact happ.chainsLinear (h.of_eq haudit hheads)
  | consumeAndPair input =>
    obtain ⟨a, hpair⟩ := completes_discard hR hrun
    rcases Api.Pairing.consumeAndPair_effect hR hpair with hsame | ⟨_, _, _, _, _, hf⟩
    · exact h.of_eq hsame.auditEvents hsame.chainHeads
    · exact h.of_eq hf.after_auditEvents hf.after_chainHeads
  | other write =>
    obtain ⟨hsame, -⟩ := other_effect hR hrun
    exact h.of_eq hsame.auditEvents hsame.chainHeads

theorem chainsLinear_initial (rt : Runtime) : ChainsLinear rt World.initial :=
  fun _ => linearChain_nil rt rfl

theorem guarantee_chainsLinear (rt : Runtime) (d : Discipline) :
    Guarantee (system rt d) (ChainsLinear rt) (Relies fun _ _ _ => True) :=
  guarantee_of_commit (fun {w action} h => by cases action <;> exact h.of_eq rfl rfl)
    fun hR _ h _ hrun => h.commit hR hrun

/-- Rows that are numbered in order are in the order of their sequence. -/
theorem auditChain_eq {rt : Runtime} {w : World} (h : ChainsLinear rt w) (environmentId : String) :
    auditChain w environmentId = environmentEvents w environmentId := by
  apply List.mergeSort_of_pairwise
  have hsorted : ((environmentEvents w environmentId).map (·.2.sequence)).Pairwise (· ≤ ·) := by
    rw [(h environmentId).numbered]
    exact List.pairwise_le_range'
  rw [List.pairwise_map] at hsorted
  simpa using hsorted

/-- **The audit chain stays linear.** In every interleaving, with transactions that commit or roll
    back, the audit events of an environment are numbered 1 to n, the head of its chain names the
    last one, and the events read back pass `verifyChain`. -/
theorem audit_chain_linear (rt : Runtime) (c : Configuration) (hc : Reachable rt anyRun c)
    (environmentId : String) :
    let events := auditChain c.world environmentId
    events.map (·.2.sequence) = List.range' 1 events.length ∧
      HeadOf events (c.world.chainHeads.find environmentId) ∧
      verifyChain rt.sha256 rt.canonicalize (readBackChain events) = .ok .valid := by
  intro events
  have h := ReadCommitted.Reachable.invariant (guarantee_chainsLinear rt anyRun)
    (chainsLinear_initial rt) hc
  have hevents : events = environmentEvents c.world environmentId := auditChain_eq h environmentId
  rw [hevents]
  exact ⟨(h environmentId).numbered, (h environmentId).head,
    verifyFrom_valid_iff.mpr (h environmentId).sealed⟩

/-- The five events of a first request, with their real hashes. -/
theorem audit_chain_linear_of_first_request :
    let w := playedWorld (fun _ _ => true) savedMoves
    let events := auditChain w "env"
    w.auditEvents.values.length = 5 ∧
      events.map (·.2.sequence) = List.range' 1 events.length ∧
      HeadOf events (w.chainHeads.find "env") ∧
      verifyChain firstRuntime.sha256 firstRuntime.canonicalize (readBackChain events) =
        .ok .valid := by
  intro w events
  have hplayed : play firstRuntime (fun _ _ => true) World.initial savedMoves = some savedWorld :=
    savedMoves_played fun _ _ _ => rfl
  have hw : w = savedWorld := playedWorld_eq hplayed
  have hreach : Reachable firstRuntime anyRun ⟨w, fun _ => none⟩ := by
    rw [hw]
    exact play_reachable (obeys_anyRun _) hplayed
  refine ⟨?_, audit_chain_linear firstRuntime _ hreach "env"⟩
  rw [hw]
  rfl

end ForgetOps.Database
