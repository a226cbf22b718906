import ForgetOps.Database.Statements
import ForgetOps.Domain.AuditTamper

/-
  The append procedure, in both of its copies (`persistEvents` of the repository,
  `appendAuditEvent` of the subject binding).

  `Appends` is what a transaction does to the chains and the outbox: it makes sure that a chain
  has a head, and records events one by one behind the head. `leads_lockChainHead` and
  `leads_recordEvent` show that the scripts do just that, and `chainHash_ok_iff` that the hash they
  compute is the one of the domain.
-/

namespace ForgetOps.Database

open Domain
open ReadCommitted RowStore

/-- The two transaction scripts hash an event as the domain does. -/
theorem chainHash_ok_iff {notCanonical headInvalid : String} {rt : Runtime}
    {previousHash : Option String} {event : AuditEventWithoutHashes Payload} {hash : String} :
    chainHash notCanonical headInvalid rt previousHash event = .ok hash ↔
      auditEventHash rt.sha256 rt.canonicalize previousHash event = .ok hash := by
  rw [auditEventHash_ok_iff]
  cases hcanon : rt.canonicalize event with
  | none => simp [chainHash, hcanon]
  | some text =>
    cases previousHash with
    | none => simp [chainHash, hcanon, previousBytes, hashInput, AUDIT_HASH_CONTEXT, eq_comm]
    | some previous =>
      by_cases hempty : previous = ""
      · simp [chainHash, hcanon, previousBytes, hashInput, AUDIT_HASH_CONTEXT, hempty, eq_comm]
      · by_cases hlen : (fromHex previous).length = 32 <;>
          simp [chainHash, hcanon, previousBytes, hashInput, AUDIT_HASH_CONTEXT, hempty, hlen,
            eq_comm]

/-! ## Appending to the chains -/

def auditRow (event : AuditEventWithoutHashes Payload) (sequence : Nat)
    (previousHash : Option String) (hash : String) : AuditRow :=
  { event with sequence, previousEventHash := previousHash, eventHash := hash }

def outboxRow (event : AuditEventWithoutHashes Payload) (requestId : String) : OutboxRow where
  tenantId := event.tenantId
  environmentId := event.environmentId
  aggregateId := requestId
  type := event.action
  payload := event.metadata
  occurredAt := event.createdAt

/-- The store with the event recorded behind `head`. -/
def appendEvent (w : World) (event : AuditEventWithoutHashes Payload) (requestId : String)
    (head : HeadRow) (hash : String) : World :=
  { w with
    auditEvents := w.auditEvents.set event.id
      (some (auditRow event (head.sequence + 1) head.eventHash hash))
    chainHeads := w.chainHeads.set event.environmentId
      (some { head with sequence := head.sequence + 1, eventHash := some hash })
    outboxEvents := w.outboxEvents.set event.id (some (outboxRow event requestId)) }

/-- The store with a head for the chain of the environment. -/
def withHead (tenantId environmentId : String) (w : World) : World :=
  if w.chainHeads.find environmentId = none then
    { w with
      chainHeads := w.chainHeads.set environmentId
        (some { tenantId, sequence := 0, eventHash := none }) }
  else w

/-- From one store to the other the events are recorded, in order, each behind the head its
    environment has by then. -/
inductive Appends (rt : Runtime) : List (AuditEventWithoutHashes Payload) → World → World → Prop
  | nil {w : World} : Appends rt [] w w
  | lock {events : List (AuditEventWithoutHashes Payload)} {w w' : World}
      (tenantId environmentId : String) (h : Appends rt events (withHead tenantId environmentId w) w') :
      Appends rt events w w'
  | append {event : AuditEventWithoutHashes Payload}
      {events : List (AuditEventWithoutHashes Payload)} {requestId : String} {head : HeadRow}
      {hash : String} {w w' : World} (hrequest : event.requestId = some requestId)
      (hhead : w.chainHeads.find event.environmentId = some head)
      (hsequence : event.sequence = toString (head.sequence + 1))
      (hhash : auditEventHash rt.sha256 rt.canonicalize head.eventHash event = .ok hash)
      (haudit : w.auditEvents.find event.id = none)
      (houtbox : w.outboxEvents.find event.id = none)
      (h : Appends rt events (appendEvent w event requestId head hash) w') :
      Appends rt (event :: events) w w'

section Appends

variable {rt : Runtime} {events events' : List (AuditEventWithoutHashes Payload)}
  {w w' w'' : World}

theorem Appends.trans (h : Appends rt events w w') (h' : Appends rt events' w' w'') :
    Appends rt (events ++ events') w w'' := by
  induction h with
  | nil => exact h'
  | lock tenantId environmentId _ ih => exact .lock tenantId environmentId (ih h')
  | append hrequest hhead hsequence hhash haudit houtbox _ ih =>
    exact .append hrequest hhead hsequence hhash haudit houtbox (ih h')

/-- What an append leaves alone. -/
theorem Appends.frame {γ : Type} (f : World → γ) (hhead : ∀ t e w, f (withHead t e w) = f w)
    (happend : ∀ w e r head hash, f (appendEvent w e r head hash) = f w)
    (h : Appends rt events w w') : f w' = f w := by
  induction h with
  | nil => rfl
  | lock t e _ ih => rw [ih, hhead]
  | append _ _ _ _ _ _ _ ih => rw [ih, happend]

@[simp] theorem withHead_requests (t e : String) (w : World) :
    (withHead t e w).requests = w.requests := by
  unfold withHead
  split <;> rfl

@[simp] theorem withHead_attempts (t e : String) (w : World) :
    (withHead t e w).attempts = w.attempts := by
  unfold withHead
  split <;> rfl

@[simp] theorem withHead_auditEvents (t e : String) (w : World) :
    (withHead t e w).auditEvents = w.auditEvents := by
  unfold withHead
  split <;> rfl

@[simp] theorem withHead_outboxEvents (t e : String) (w : World) :
    (withHead t e w).outboxEvents = w.outboxEvents := by
  unfold withHead
  split <;> rfl

theorem Appends.requests (h : Appends rt events w w') : w'.requests = w.requests :=
  h.frame World.requests withHead_requests fun _ _ _ _ _ => rfl

theorem Appends.attempts (h : Appends rt events w w') : w'.attempts = w.attempts :=
  h.frame World.attempts withHead_attempts fun _ _ _ _ _ => rfl

/-- Setting a row that was not there leaves the rows alone that are unlike the new one. -/
theorem find_set_iff {α : Type} {t : Table String α} {id id' : String} {v r : α}
    (hnone : t.find id = none) (hne : r ≠ v) :
    (t.set id (some v)).find id' = some r ↔ t.find id' = some r := by
  by_cases hid : id' = id
  · rw [hid, Table.find_set_self, hnone]
    simp [hne.symm]
  · rw [Table.find_set_of_ne _ _ hid]

/-- Events of one request leave the records of all others alone. -/
theorem Appends.otherAuditEvents {requestId : String} (h : Appends rt events w w')
    (hid : ∀ e ∈ events, e.requestId = some requestId) {id : String} {r : AuditRow}
    (hr : r.requestId ≠ some requestId) :
    w'.auditEvents.find id = some r ↔ w.auditEvents.find id = some r := by
  induction h with
  | nil => rfl
  | lock t e _ ih => rw [ih hid, withHead_auditEvents]
  | @append event _ _ _ _ _ _ _ _ _ _ haudit _ _ ih =>
    rw [ih fun e he => hid e (List.mem_cons_of_mem _ he)]
    refine find_set_iff haudit ?_
    rintro rfl
    exact hr (hid event List.mem_cons_self)

theorem Appends.otherOutboxEvents {requestId : String} (h : Appends rt events w w')
    (hid : ∀ e ∈ events, e.requestId = some requestId) {id : String} {r : OutboxRow}
    (hr : r.aggregateId ≠ requestId) :
    w'.outboxEvents.find id = some r ↔ w.outboxEvents.find id = some r := by
  induction h with
  | nil => rfl
  | lock t e _ ih => rw [ih hid, withHead_outboxEvents]
  | @append event _ _ _ _ _ _ hrequest _ _ _ _ houtbox _ ih =>
    rw [ih fun e he => hid e (List.mem_cons_of_mem _ he)]
    refine find_set_iff houtbox ?_
    rintro rfl
    exact hr (Option.some.inj (hrequest.symm.trans (hid event List.mem_cons_self)))

end Appends

/-! ## The scripts append -/

section Scripts

variable {R : List Key → World → World → Prop} {w : World} {p p' : Point World Row}

theorem leads_lockChainHead {tenantId environmentId missing : String} {head : HeadRow}
    (hR : Rely R)
    (h : Leads R w (lockChainHead tenantId environmentId missing) p head p') :
    view w p'.log = withHead tenantId environmentId (view w p.log) ∧
      (view w p'.log).chainHeads.find environmentId = some head ∧
      .chainHead environmentId ∈ keys p'.log := by
  obtain ⟨inserted, mid, hinsert, h⟩ := leads_bind hR h
  obtain ⟨locked, mid', hlock, h⟩ := leads_bind hR h
  cases locked with
  | none => exact (leads_fail h).elim
  | some found =>
    obtain ⟨rfl, hlog⟩ := leads_pure hR h
    rw [hlog]
    rcases leads_update hR hlock with ⟨b, v, hb, hq, hlog'⟩ | ⟨hnone, -⟩
    swap
    · cases hnone
    obtain rfl := Option.some.inj hb
    obtain ⟨hrow, -, rfl⟩ := lockRow_eq_some.mp hq
    have hview : view w mid'.log = view w mid.log := by
      rw [hlog', view_concat, write_row]
    have hfind : (view w mid.log).chainHeads.find environmentId = some found := hrow
    rw [hview]
    refine ⟨?_, hfind, by simp [hlog']⟩
    rcases leads_update hR hinsert with ⟨_, v, -, hq, hmid⟩ | ⟨-, hmid, -⟩
    · obtain ⟨habsent, rfl⟩ := whenAbsent_eq_some.mp hq
      have hnone : (view w p.log).chainHeads.find environmentId = none := habsent
      rw [hmid, view_concat, withHead, if_pos hnone]
      rfl
    · rw [hmid] at hfind ⊢
      rw [withHead, if_neg (by simp [hfind])]

theorem leads_recordEvent {event : AuditEventWithoutHashes Payload} {head : HeadRow}
    {requestId hash : String} {a : Unit} (hR : Rely R)
    (hhead : (view w p.log).chainHeads.find event.environmentId = some head)
    (hheld : .chainHead event.environmentId ∈ keys p.log)
    (h : Leads R w (recordEvent event (head.sequence + 1) requestId head.eventHash hash) p a p') :
    (view w p.log).auditEvents.find event.id = none ∧
      (view w p.log).outboxEvents.find event.id = none ∧
      view w p'.log = appendEvent (view w p.log) event requestId head hash := by
  obtain ⟨inserted, mid, haudit, h⟩ := leads_bind hR h
  obtain ⟨_, mid₁, hcheck, h⟩ := leads_bind hR h
  obtain ⟨_, mid₂, hmove, h⟩ := leads_bind hR h
  obtain ⟨inserted', mid₃, houtbox, hcheck'⟩ := leads_bind hR h
  obtain ⟨hinserted, hlog₁⟩ := leads_failIf hR hcheck
  obtain ⟨hinserted', hlog'⟩ := leads_failIf hR hcheck'
  rcases leads_update hR haudit with ⟨_, v, -, hq, hlog⟩ | ⟨hnone, -⟩
  swap
  · exact absurd hnone hinserted
  obtain ⟨habsent, rfl⟩ := whenAbsent_eq_some.mp hq
  -- the head is held, so its update finds it
  have hhead₁ : row (view w mid₁.log) (.chainHead event.environmentId) = some head := by
    rw [hlog₁, hlog, view_concat]
    exact hhead
  have hheld₁ : .chainHead event.environmentId ∈ keys mid₁.log := by
    rw [hlog₁, hlog]
    simp [hheld]
  rcases leads_update_held hR hheld₁ hmove with ⟨_, v, -, hq, hlog₂⟩ | ⟨-, -, hnone⟩
  swap
  · exact absurd trivial (whenRow_eq_none.mp hnone head hhead₁)
  obtain ⟨hfound, -, rfl⟩ := whenRow_eq_some.mp hq
  rw [hhead₁] at hfound
  obtain rfl := Option.some.inj hfound
  rcases leads_update hR houtbox with ⟨_, v, -, hq, hlog₃⟩ | ⟨hnone, -⟩
  swap
  · exact absurd hnone hinserted'
  obtain ⟨habsent', rfl⟩ := whenAbsent_eq_some.mp hq
  rw [hlog₂, hlog₁, hlog, view_concat, view_concat] at habsent'
  refine ⟨habsent, habsent', ?_⟩
  rw [hlog', hlog₃, hlog₂, hlog₁, hlog, view_concat, view_concat, view_concat]
  rfl

theorem leads_orFail {α : Type} {x : Except String α} {a : α} (hR : Rely R)
    (h : Leads R w (orFail x) p a p') : x = .ok a ∧ p'.log = p.log := by
  cases x with
  | error code => exact (leads_fail h).elim
  | ok b =>
    obtain ⟨rfl, hlog⟩ := leads_pure hR h
    exact ⟨rfl, hlog⟩

end Scripts

end ForgetOps.Database
