import ForgetOps.Database.AuditAppend
import ForgetOps.Database.PrivacyRequestRepository

/-
  What a committed `save` has done.

  Seen from its commit it wrote the snapshot over the row of the version it expected (`Persisted`),
  upserted the ledger the aggregate had at some time on the way, and appended its events behind
  the head of the chain.
-/

namespace ForgetOps.Database

open Domain
open ReadCommitted RowStore

namespace PrivacyRequestRepository

variable {R : List Key → World → World → Prop} {w : World} {p p' : Point World Row}

/-- The row `persistSnapshot` writes over `old`. -/
def Persisted (tenantId : String) (snapshot : PrivacyRequestSnapshot) (expectedVersion : Int)
    (persistedAt : Timestamp) (old : Option RequestRow) (row' : RequestRow) : Prop :=
  (expectedVersion = 0 ∧ old = none ∧ row' = insertedRow tenantId snapshot persistedAt) ∨
    (expectedVersion ≠ 0 ∧ ∃ row, old = some row ∧ row.tenantId = tenantId ∧
      row.environmentId = snapshot.environmentId ∧ row.version = expectedVersion ∧
      row' = updatedRow snapshot persistedAt row)

theorem leads_persistSnapshot {tenantId : String} {snapshot : PrivacyRequestSnapshot}
    {expectedVersion : Int} {persistedAt : Timestamp} {a : Unit} (hR : Rely R)
    (h : Leads R w (persistSnapshot tenantId snapshot expectedVersion persistedAt) p a p') :
    ∃ row', Persisted tenantId snapshot expectedVersion persistedAt
        ((view w p.log).requests.find snapshot.id) row' ∧
      p'.log = p.log ++ [⟨.request snapshot.id, some row'⟩] := by
  unfold persistSnapshot at h
  split at h
  · next hzero =>
    obtain ⟨rows, mid, hinsert, hcheck⟩ := leads_bind hR h
    obtain ⟨hrows, hlog⟩ := leads_failIf hR hcheck
    rcases leads_update hR hinsert with ⟨_, v, -, hq, hmid⟩ | ⟨hnone, -⟩
    · obtain ⟨habsent, rfl⟩ := whenAbsent_eq_some.mp hq
      exact ⟨_, .inl ⟨hzero, habsent, rfl⟩, by rw [hlog, hmid]⟩
    · exact absurd hnone hrows
  · next hzero =>
    obtain ⟨rows, mid, hupdate, hcheck⟩ := leads_bind hR h
    obtain ⟨hrows, hlog⟩ := leads_failIf hR hcheck
    rcases leads_update hR hupdate with ⟨row, v, -, hq, hmid⟩ | ⟨hnone, -⟩
    · obtain ⟨hfound, ⟨htenant, henv, hversion⟩, rfl⟩ := whenRow_eq_some.mp hq
      exact ⟨_, .inr ⟨hzero, row, hfound, htenant, henv, hversion, rfl⟩, by rw [hlog, hmid]⟩
    · exact absurd hnone hrows

theorem touches_persistAttempts (tenantId : String) (snapshot : PrivacyRequestSnapshot)
    (attempts : List ExecutionAttempt) :
    (persistAttempts tenantId snapshot attempts).Touches fun k => ∃ id, k = .attempt id := by
  induction attempts with
  | nil => trivial
  | cons attempt attempts ih =>
    refine Script.Writes.bind ?_ fun _ => Script.Writes.bind (Script.writes_failIf _ _)
      fun _ => ih
    simp

/-- The events `persistEventsFrom` records. -/
def recordedEvents (tenantId : String) (snapshot : PrivacyRequestSnapshot) (stamps : Nat → Stamp)
    (i sequence : Nat) : List DomainEvent → List (AuditEventWithoutHashes Payload)
  | [] => []
  | domainEvent :: events =>
    eventWithoutHashes tenantId snapshot (stamps i) (sequence + 1) domainEvent ::
      recordedEvents tenantId snapshot stamps (i + 1) (sequence + 1) events

theorem length_recordedEvents (tenantId : String) (snapshot : PrivacyRequestSnapshot)
    (stamps : Nat → Stamp) (i sequence : Nat) (events : List DomainEvent) :
    (recordedEvents tenantId snapshot stamps i sequence events).length = events.length := by
  induction events generalizing i sequence with
  | nil => rfl
  | cons event events ih => simp [recordedEvents, ih]

theorem requestId_of_mem_recordedEvents {tenantId : String} {snapshot : PrivacyRequestSnapshot}
    {stamps : Nat → Stamp} {i sequence : Nat} {events : List DomainEvent}
    {event : AuditEventWithoutHashes Payload}
    (h : event ∈ recordedEvents tenantId snapshot stamps i sequence events) :
    event.requestId = some snapshot.id := by
  induction events generalizing i sequence with
  | nil => simp [recordedEvents] at h
  | cons _ events ih =>
    rcases List.mem_cons.mp h with rfl | h
    · rfl
    · exact ih h

theorem leads_persistEventsFrom {rt : Runtime} {tenantId : String}
    {snapshot : PrivacyRequestSnapshot} {stamps : Nat → Stamp} {i : Nat} {head : HeadRow}
    {events : List DomainEvent} {a : Unit} (hR : Rely R)
    (hhead : (view w p.log).chainHeads.find snapshot.environmentId = some head)
    (hheld : .chainHead snapshot.environmentId ∈ keys p.log)
    (h : Leads R w (persistEventsFrom rt tenantId snapshot stamps i head.sequence head.eventHash
      events) p a p') :
    Appends rt (recordedEvents tenantId snapshot stamps i head.sequence events) (view w p.log)
      (view w p'.log) := by
  induction events generalizing i p head with
  | nil =>
    obtain ⟨-, hlog⟩ := leads_pure hR h
    rw [hlog]
    exact .nil
  | cons domainEvent events ih =>
    obtain ⟨hash, mid, hhash, h⟩ := leads_bind hR h
    obtain ⟨_, mid', hrecord, hrest⟩ := leads_bind hR h
    obtain ⟨hhash, hlog⟩ := leads_orFail hR hhash
    have hsub := hrecord.keys_subset
    rw [← hlog] at hhead hheld
    obtain ⟨haudit, houtbox, hview⟩ := leads_recordEvent hR hhead hheld hrecord
    have hhead' : (view w mid'.log).chainHeads.find snapshot.environmentId =
        some { head with sequence := head.sequence + 1, eventHash := some hash } := by
      rw [hview]
      exact Table.find_set_self _ _ _
    have hnext := ih hhead' (hsub hheld) hrest
    rw [hview, hlog] at hnext
    rw [hlog] at haudit houtbox hhead
    exact .append rfl hhead rfl (chainHash_ok_iff.mp hhash) haudit houtbox hnext

theorem leads_persistEvents {rt : Runtime} {tenantId : String}
    {snapshot : PrivacyRequestSnapshot} {stamps : Nat → Stamp} {events : List DomainEvent}
    {a : Unit} (hR : Rely R)
    (h : Leads R w (persistEvents rt tenantId snapshot stamps events) p a p') :
    ∃ sequence, Appends rt (recordedEvents tenantId snapshot stamps 0 sequence events)
      (view w p.log) (view w p'.log) := by
  obtain ⟨head, mid, hlock, hevents⟩ := leads_bind hR h
  obtain ⟨hview, hhead, hheld⟩ := leads_lockChainHead hR hlock
  have happ := leads_persistEventsFrom hR hhead hheld hevents
  rw [hview] at happ
  exact ⟨head.sequence, .lock _ _ happ⟩

/-- The ledger of the aggregate at the index `i`. -/
def ledgerAt (i : Nat) (w : World) : List ExecutionAttempt :=
  (w.aggregates[i]?.map PrivacyRequestAggregate.executionAttempts).getD []

/-- What a committed save has done. The ledger is the one of a time `t` on the way. -/
theorem save_effect {rt : Runtime} {input : SaveRequest} {u : World} {log : Log Row} {a : Unit}
    (hR : Rely R) (h : Completes R w (save rt input) ⟨u, []⟩ a ⟨w, log⟩) :
    0 ≤ input.expectedVersion ∧ 0 < input.pendingEvents.length ∧
      input.snapshot.version = input.expectedVersion + input.pendingEvents.length ∧
      ∃ row' t mid mid' sequence,
        Persisted input.tenantId input.snapshot input.expectedVersion input.persistedAt
          (w.requests.find input.snapshot.id) row' ∧
        R [] u t ∧ R [.request input.snapshot.id] t w ∧ R [] u mid.time ∧
        mid.log = [⟨.request input.snapshot.id, some row'⟩] ∧
        Leads R w (persistAttempts input.tenantId input.snapshot (ledgerAt input.aggregate t))
          mid () mid' ∧
        Appends rt (recordedEvents input.tenantId input.snapshot input.stamps 0 sequence
          input.pendingEvents) (view w mid'.log) (view w log) := by
  obtain ⟨_, p₁, hguard, h⟩ := leads_bind hR (h.leads hR)
  obtain ⟨_, p₂, howner, h⟩ := leads_bind hR h
  obtain ⟨_, p₃, hsnapshot, h⟩ := leads_bind hR h
  obtain ⟨attempts, p₄, hread, h⟩ := leads_bind hR h
  obtain ⟨_, p₅, hattempts, hevents⟩ := leads_bind hR h
  obtain ⟨hguards, hlog₁⟩ := leads_failIf hR hguard
  obtain ⟨_, p₂', howned, hcheck⟩ := leads_bind hR howner
  obtain ⟨hlog₂', -⟩ := leads_read hR howned
  obtain ⟨-, hlog₂⟩ := leads_failIf hR hcheck
  have hempty : p₂.log = [] := by rw [hlog₂, hlog₂', hlog₁]
  obtain ⟨row', hpersisted, hlog₃⟩ := leads_persistSnapshot hR hsnapshot
  rw [hempty, List.nil_append] at hlog₃
  obtain ⟨hlog₄, t, rfl, hpt, htw⟩ := leads_read hR hread
  obtain ⟨sequence, happ⟩ := leads_persistEvents hR hevents
  have hkeys : keys p₃.log = [.request input.snapshot.id] := by rw [hlog₃]; rfl
  rw [not_or, not_or, not_not, not_lt] at hguards
  -- time from the start to the read, holding nothing
  have hstart : R [] u p₃.time :=
    hR.trans (hguard.rely hR) (hR.trans (hR.mono (by simp) (howner.rely hR))
      (hR.mono (by simp) (hsnapshot.rely hR)))
  have hafter : R [] p₃.time p₄.time := hR.mono (by simp) (hread.rely hR)
  refine ⟨hguards.1, Nat.pos_of_ne_zero hguards.2.1, hguards.2.2, row', t, p₄, p₅, sequence, ?_,
    hR.trans hstart (hR.mono (by simp) hpt), hkeys ▸ htw, hR.trans hstart hafter,
    hlog₄.trans hlog₃, ?_, happ⟩
  · rw [hempty] at hpersisted
    exact hpersisted
  · have hledger : ledgerAt input.aggregate (view t p₃.log) = ledgerAt input.aggregate t := by
      unfold ledgerAt
      rw [view_aggregates]
    rw [← hledger]
    exact hattempts

/-- The tables of requests and records behind a committed save. -/
theorem save_records {rt : Runtime} {input : SaveRequest} {u : World} {log : Log Row} {a : Unit}
    (hR : Rely R) (h : Completes R w (save rt input) ⟨u, []⟩ a ⟨w, log⟩) :
    ∃ row' W sequence,
      Persisted input.tenantId input.snapshot input.expectedVersion input.persistedAt
        (w.requests.find input.snapshot.id) row' ∧
      W.requests = w.requests.set input.snapshot.id (some row') ∧
      W.auditEvents = w.auditEvents ∧ W.outboxEvents = w.outboxEvents ∧
      W.chainHeads = w.chainHeads ∧
      Appends rt (recordedEvents input.tenantId input.snapshot input.stamps 0 sequence
        input.pendingEvents) W (view w log) := by
  obtain ⟨-, -, -, row', t, mid, mid', sequence, hpersisted, -, -, -, hmid, hattempts, happ⟩ :=
    save_effect hR h
  obtain ⟨more, hlog, hmore⟩ := hattempts.1.log_eq (touches_persistAttempts _ _ _)
  have hne {K : String → Key} (hK : ∀ id id', K id ≠ .attempt id') :
      ∀ k ∈ keys more, ∀ id, k ≠ K id := by
    rintro k hk id rfl
    obtain ⟨id', hid'⟩ := hmore _ hk
    exact hK id id' hid'
  refine ⟨row', view w mid'.log, sequence, hpersisted, ?_, ?_, ?_, ?_, happ⟩ <;>
    rw [hlog, hmid, view_append]
  · exact view_requests (hne fun _ _ => nofun)
  · exact view_auditEvents (hne fun _ _ => nofun)
  · exact view_outboxEvents (hne fun _ _ => nofun)
  · exact view_chainHeads (hne fun _ _ => nofun)

end PrivacyRequestRepository

end ForgetOps.Database
