import ForgetOps.Database.Consistency

/-
  The commits of the three scripts keep requests and attempts consistent.

  A save writes its aggregate's ledger over the stored one, which it continues. A binding moves
  between statuses without an open attempt. A forced replacement ends the open attempt of every
  request it moves, and of no other: the rows it found affected are held until the commit.
-/

namespace ForgetOps.Database

open Domain Api
open ReadCommitted RowStore

variable {R : List Key → World → World → Prop} {rt : Runtime} {u w : World} {log : Log Row}

/-! ## Saves -/

section Save

open PrivacyRequestRepository

theorem Persisted.row_eq {tenantId : String} {snapshot : PrivacyRequestSnapshot}
    {expectedVersion : Int} {persistedAt : Timestamp} {old : Option RequestRow} {row' : RequestRow}
    (h : Persisted tenantId snapshot expectedVersion persistedAt old row') :
    row'.tenantId = tenantId ∧ row'.environmentId = snapshot.environmentId ∧
      row'.status = snapshot.status ∧ row'.currentAttemptId = snapshot.currentAttemptId ∧
      row'.completedAt = completedAtOf snapshot persistedAt ∧ row'.version = snapshot.version := by
  rcases h with ⟨-, -, rfl⟩ | ⟨-, row, -, htenant, henv, -, rfl⟩
  · exact ⟨rfl, rfl, rfl, rfl, rfl, rfl⟩
  · exact ⟨htenant, henv, rfl, rfl, rfl, rfl⟩

theorem completedAtOf_isSome (snapshot : PrivacyRequestSnapshot) (persistedAt : Timestamp) :
    (completedAtOf snapshot persistedAt).isSome = true ↔ finished snapshot.status := by
  simp [completedAtOf, terminalStatuses, finished]

variable {input : SaveRequest} {w' : World} {a₀ a : PrivacyRequestAggregate} {row' : RequestRow}

theorem Saved.id_eq (h : Saved input u w w' a₀ a row') : input.snapshot.id = a.id := by
  rw [h.snapshot]
  exact congrArg CreatePrivacyRequest.id h.progress.input.symm

/-- The attempts that are stored of the request `id` are ones that `ys` continues. -/
def ContinuesStored (w : World) (id : String) (ys : List ExecutionAttempt) : Prop :=
  ∀ row, w.requests.find id = some row →
    ∃ xs, StoresLedger w id row xs ∧ (∀ x ∈ xs, completedAtCheck x) ∧ LedgerContinues xs ys

section Ledger

variable {ys : List ExecutionAttempt}

/-- Attempts that are stored for the request are stored as the ledger had them before. -/
theorem Saved.upsertable_of (h : Saved input u w w' a₀ a row')
    (hstored : ContinuesStored w a.id ys) (hnodup : (ys.map (·.id)).Nodup)
    (hown : ∀ y ∈ ys, ∀ r, w.attempts.find y.id = some r →
      r.requestId = a.id ∧ ∃ row, w.requests.find a.id = some row) :
    ∀ y ∈ ys, Upsertable input.tenantId input.snapshot w y := by
  intro y hy
  cases hr : w.attempts.find y.id with
  | none => exact .inl hr
  | some r =>
    obtain ⟨hid, row, hrow⟩ := hown y hy r hr
    obtain ⟨xs, hxs, hcheck, hcont⟩ := hstored row hrow
    obtain ⟨x, hx, hxy, hattempt⟩ := (hxs y.id r).mp ⟨hr, hid⟩
    obtain ⟨k, hk⟩ := List.getElem?_of_mem hx
    obtain ⟨y', hy', hcontinues⟩ := hcont k x hk
    have hyy' : y' = y := by
      obtain ⟨⟨status, completedAt, rfl⟩, -⟩ := hcontinues
      exact List.inj_on_of_nodup_map hnodup (List.mem_of_getElem? hy') hy hxy
    subst hyy'
    refine .inr ⟨x, hcontinues, hcheck x hx, ?_⟩
    rw [hr, hattempt]
    rcases h.persisted with ⟨-, hnone, -⟩ | ⟨-, row₂, hrow₂, htenant, henv, -⟩
    · rw [hrow] at hnone
      cases hnone
    · obtain rfl := Option.some.inj (hrow.symm.trans hrow₂)
      rw [storedAttempt, attemptRow, htenant, henv, h.id_eq]

/-- The attempts of the row that was written are stored as `persistAttempts` writes them. -/
theorem Saved.storedAttempt_eq (h : Saved input u w w' a₀ a row') (y : ExecutionAttempt) :
    storedAttempt a.id row' y = attemptRow input.tenantId input.snapshot y := by
  obtain ⟨htenant, henv, -⟩ := Persisted.row_eq h.persisted
  rw [storedAttempt, attemptRow, htenant, henv, h.id_eq]

/-- Behind a save the rows of its request are the ledger that was read. -/
theorem Saved.storesLedger_of (h : Saved input u w w' a₀ a row')
    (hstored : ContinuesStored w a.id ys)
    (hrows : ∀ attemptId r, w.attempts.find attemptId = some r →
      ∃ row, w.requests.find r.requestId = some row)
    (hall : ∀ y ∈ ys,
      w'.attempts.find y.id = some (attemptRow input.tenantId input.snapshot y))
    (hothers : ∀ id ∉ ys.map (·.id), w'.attempts.find id = w.attempts.find id) :
    StoresLedger w' a.id row' ys := by
  intro attemptId r
  simp only [h.storedAttempt_eq]
  constructor
  · rintro ⟨hr, hid⟩
    by_cases hmem : attemptId ∈ ys.map (·.id)
    · obtain ⟨y, hy, rfl⟩ := List.mem_map.mp hmem
      exact ⟨y, hy, rfl, Option.some.inj (hr.symm.trans (hall y hy))⟩
    · rw [hothers attemptId hmem] at hr
      obtain ⟨row, hrow⟩ := hrows attemptId r hr
      rw [hid] at hrow
      obtain ⟨xs, hxs, -, hcont⟩ := hstored row hrow
      obtain ⟨x, hx, rfl, -⟩ := (hxs attemptId r).mp ⟨hr, hid⟩
      obtain ⟨k, hk⟩ := List.getElem?_of_mem hx
      obtain ⟨y, hy, ⟨status, completedAt, rfl⟩, -⟩ := hcont k x hk
      exact absurd (List.mem_map_of_mem (List.mem_of_getElem? hy)) hmem
  · rintro ⟨y, hy, rfl, rfl⟩
    exact ⟨hall y hy, h.id_eq⟩

/-- The attempts of other requests have other ids. -/
theorem Saved.sameAttempts (hup : ∀ y ∈ ys, Upsertable input.tenantId input.snapshot w y)
    (hall : ∀ y ∈ ys,
      w'.attempts.find y.id = some (attemptRow input.tenantId input.snapshot y))
    (hothers : ∀ id ∉ ys.map (·.id), w'.attempts.find id = w.attempts.find id)
    {id : String} (hid : id ≠ input.snapshot.id) : SameAttempts w w' id := by
  intro attemptId r hr
  by_cases hmem : attemptId ∈ ys.map (·.id)
  swap
  · rw [hothers attemptId hmem]
  obtain ⟨y, hy, rfl⟩ := List.mem_map.mp hmem
  have hne (x : ExecutionAttempt) : attemptRow input.tenantId input.snapshot x ≠ r := by
    rintro rfl
    exact hid hr.symm
  rw [hall y hy]
  constructor
  · exact fun heq => absurd (Option.some.inj heq) (hne y)
  · intro hold
    rcases hup y hy with hnone | ⟨x, -, -, hx⟩
    · rw [hnone] at hold
      cases hold
    · exact absurd (Option.some.inj (hx.symm.trans hold)) (hne x)

/-- A row that has ended is not written over. -/
theorem Saved.ended (hup : ∀ y ∈ ys, Upsertable input.tenantId input.snapshot w y)
    (hall : ∀ y ∈ ys,
      w'.attempts.find y.id = some (attemptRow input.tenantId input.snapshot y))
    (hothers : ∀ id ∉ ys.map (·.id), w'.attempts.find id = w.attempts.find id)
    {attemptId : String} {r : AttemptRow} (hr : w.attempts.find attemptId = some r)
    (hended : r.completedAt ≠ none) : w'.attempts.find attemptId = some r := by
  by_cases hmem : attemptId ∈ ys.map (·.id)
  · obtain ⟨y, hy, rfl⟩ := List.mem_map.mp hmem
    rw [hall y hy, ← hr]
    exact ((hup y hy).stored_of_ended hr hended).symm
  · rw [hothers attemptId hmem]
    exact hr

end Ledger

/-- What is stored of the request is what the ledger in memory continues. -/
theorem Saved.continuesStored (hw : Consistency w) (h : Saved input u w w' a₀ a row') :
    ContinuesStored w a.id a.attempts := by
  intro row hrow
  rcases h.before hw.coupling with ⟨hnone, -⟩ | ⟨row₁, hrow₁, hbase, -⟩
  · rw [hnone] at hrow
    cases hrow
  obtain rfl := Option.some.inj (hrow.symm.trans hrow₁)
  obtain ⟨xs, hledger⟩ := hw.requests _ row hrow
  exact ⟨xs, hledger.stores, hledger.inv.check,
    hledger.behind _ a h.current rfl ⟨0, .inl rfl, by simpa using hbase⟩⟩

theorem Saved.upsertable (hw : Consistency w) (h : Saved input u w w' a₀ a row') :
    ∀ y ∈ a.attempts, Upsertable input.tenantId input.snapshot w y := by
  refine h.upsertable_of (h.continuesStored hw) (hw.ledgers _ a h.current).nodup ?_
  intro y hy r hr
  obtain ⟨⟨row, hrow⟩, j, b, hb, hid, x, hx, hxy⟩ := hw.owned y.id r hr
  -- the attempt is the aggregate's own
  obtain rfl := hw.unique j input.aggregate b a hb h.current x hx y hy hxy
  obtain rfl := Option.some.inj (h.current.symm.trans hb)
  rw [← hid] at hrow
  exact ⟨hid.symm, row, hrow⟩

theorem Saved.lt (hw : Coupling w) (h : Saved input u w w' a₀ a row') :
    ∀ row, w.requests.find a.id = some row → row.version < row'.version := by
  intro row hrow
  have hversion := h.row.2
  have hpending := h.pending
  rcases h.before hw with ⟨hnone, -⟩ | ⟨row₁, hrow₁, hbase, -⟩
  · rw [hnone] at hrow
    cases hrow
  · obtain rfl := Option.some.inj (hrow.symm.trans hrow₁)
    omega

/-- An aggregate that was saved before is behind the row by now. -/
theorem Saved.not_lastSaved (hw : Coupling w) (h : Saved input u w w' a₀ a row') {i : Nat}
    {b : PrivacyRequestAggregate} (hb : w.aggregates[i]? = some b) (hid : b.id = a.id) :
    ¬ LastSaved w i b row'.version := by
  intro hsaved
  rcases h.before hw with ⟨hnone, -⟩ | ⟨row, hrow, -⟩
  swap
  · exact hw.not_lastSaved hrow (h.lt hw row hrow) hb hid hsaved
  have hstored : ∃ row, w.requests.find b.id = some row := by
    obtain ⟨n, rfl | hack, hversion⟩ := hsaved
    · have hpos := h.row.2
      have hpending := h.pending
      have hbase := (hw.aggregates _ a h.current).base
      obtain ⟨row, hrow, -⟩ := (hw.aggregates i b hb).saved (by omega)
      exact ⟨row, hrow⟩
    · obtain ⟨b', hb', -, -, row, hrow, -⟩ := hw.acknowledgements _ hack
      obtain rfl := Option.some.inj (hb.symm.trans hb')
      exact ⟨row, hrow⟩
  obtain ⟨row, hrow⟩ := hstored
  rw [hid, hnone] at hrow
  cases hrow

/-- The acknowledgements behind a save. -/
theorem mem_settle {ack : Acknowledgement}
    (h : ack ∈ ((TransactionRequest.save input).settle (view w log)).acknowledgements) :
    ack ∈ w.acknowledgements ∨ ack = ⟨input.aggregate, input.pendingEvents.length⟩ := by
  change ack ∈ (view w log).acknowledgements ++ [_] at h
  rw [view_acknowledgements] at h
  exact (List.mem_append.mp h).imp_right List.mem_singleton.mp

theorem lastSaved_settle {i : Nat} {b : PrivacyRequestAggregate} {version : Nat}
    (h : LastSaved ((TransactionRequest.save input).settle (view w log)) i b version) :
    LastSaved w i b version ∨ i = input.aggregate := by
  obtain ⟨n, rfl | hack, hversion⟩ := h
  · exact .inl ⟨0, .inl rfl, hversion⟩
  · rcases mem_settle hack with hack | hack
    · exact .inl ⟨n, .inr hack, hversion⟩
    · exact .inr (congrArg Acknowledgement.aggregate hack)

theorem Saved.requestLedger (hw : Consistency w) (h : Saved input u w (view w log) a₀ a row')
    (hsame : a.snapshot = a₀.snapshot) (hstores : StoresLedger (view w log) a.id row' a.attempts) :
    RequestLedger ((TransactionRequest.save input).settle (view w log)) a.id row' a.attempts := by
  have hinv := hw.ledgers _ a h.current
  obtain ⟨-, -, hstatus, hcurrent, hcompleted, -⟩ := Persisted.row_eq h.persisted
  have hversion := h.row.2
  have hpending := h.pending
  have hbase := (hw.coupling.aggregates _ a h.current).base
  constructor
  · omega
  · exact hstores.congr (fun _ _ _ => Iff.rfl) rfl rfl
  · refine hinv.congr rfl (hcurrent.trans ?_) (hstatus.trans ?_) <;> rw [h.snapshot, ← hsame] <;> rfl
  · rw [hcompleted, hstatus]
    exact completedAtOf_isSome _ _
  · intro i b hb hid hlast
    change (view w log).aggregates[i]? = some b at hb
    rw [view_aggregates] at hb
    rcases lastSaved_settle hlast with hsaved | rfl
    · exact absurd hsaved (h.not_lastSaved hw.coupling hb hid)
    · obtain rfl := Option.some.inj (h.current.symm.trans hb)
      exact .refl _

theorem ledgersMove_save (hR : Rely R)
    (hS : ∀ {held w w'}, R held w w' → Stays (.save input) w w') (hw : Consistency w)
    (h : Saved input u w (view w log) a₀ a row')
    (hrun : Completes R w (save rt input) ⟨u, []⟩ () ⟨w, log⟩) :
    LedgersMove w ((TransactionRequest.save input).settle (view w log)) := by
  obtain ⟨-, -, -, _, t, mid, mid', _, -, hut, -, -, hmid, hattempts, happ⟩ := save_effect hR hrun
  -- no command has run on the aggregate since the call
  obtain ⟨a₁, ha₁, hsnapshot, hledger⟩ := (hS (hrun.rely hR)).2 a₀ h.called
  obtain rfl := Option.some.inj (h.current.symm.trans ha₁)
  have hread : ledgerAt input.aggregate t = a.attempts := by
    obtain ⟨a₁, ha₁, -, hledger₁⟩ := (hS hut).2 a₀ h.called
    rw [ledgerAt, ha₁]
    exact hledger₁.trans hledger.symm
  rw [hread] at hattempts
  have hup := h.upsertable hw
  obtain ⟨hall, hothers⟩ := leads_persistAttempts hR (fun huw => (hS huw).frozen.ended)
    (hw.ledgers _ a h.current).nodup (by simp [hmid, keys]) hup hattempts
  have hbefore : (view w mid.log).attempts = w.attempts := by
    rw [hmid]
    rfl
  have hafter : (view w log).attempts = (view w mid'.log).attempts := happ.attempts
  rw [← hafter] at hall hothers
  rw [hbefore] at hothers
  have hstored : (view w log).requests.find a.id = some row' := by
    rw [h.requests]
    exact Table.find_set_self _ _ _
  constructor
  · intro id row₁ hrow₁
    change (view w log).requests.find id = some row₁ at hrow₁
    by_cases hid : id = a.id
    · subst hid
      obtain rfl := Option.some.inj (hstored.symm.trans hrow₁)
      exact .inr ⟨h.lt hw.coupling, a.attempts,
        h.requestLedger hw hsnapshot
          (h.storesLedger_of (h.continuesStored hw) (fun id r hr => (hw.owned id r hr).1) hall hothers)⟩
    · rw [h.requests, Table.find_set_of_ne _ _ hid] at hrow₁
      refine .inl ⟨hrow₁, ?_, fun ack hack => (mem_settle hack).imp_right ?_⟩
      · have hsame := Saved.sameAttempts hup hall hothers (h.id_eq ▸ hid)
        exact fun attemptId r hr => hsame attemptId r hr
      · rintro rfl b hb
        obtain rfl := Option.some.inj (h.current.symm.trans hb)
        exact Ne.symm hid
  · intro attemptId r hr hended
    have hsame : (view w log).attempts.find attemptId = some r :=
      Saved.ended hup hall hothers hr hended
    exact hsame
  · intro attemptId r' hr'
    change (view w log).attempts.find attemptId = some r' at hr'
    by_cases hmem : attemptId ∈ a.attempts.map (·.id)
    · obtain ⟨y, hy, rfl⟩ := List.mem_map.mp hmem
      obtain rfl := Option.some.inj ((hall y hy).symm.trans hr')
      rw [← h.id_eq] at hstored
      exact .inr ⟨⟨row', hstored⟩, input.aggregate, a, h.current, h.id_eq.symm, y, hy, rfl⟩
    · rw [hothers attemptId hmem] at hr'
      exact .inl ⟨r', hr', rfl⟩

end Save

/-! ## Bindings -/

section Bind

open SubjectBinding

/-- A request that moves between statuses without an open attempt. -/
theorem RequestLedger.idle {w' : World} {id : String} {row row' : RequestRow}
    {xs : List ExecutionAttempt} (h : RequestLedger w id row xs) (hw : Coupling w)
    (hrow : w.requests.find id = some row) (hlt : row.version < row'.version)
    (haggregates : w'.aggregates = w.aggregates)
    (hacks : w'.acknowledgements = w.acknowledgements) (hattempts : w'.attempts = w.attempts)
    (htenant : row'.tenantId = row.tenantId) (henv : row'.environmentId = row.environmentId)
    (hcurrent : row'.currentAttemptId = row.currentAttemptId) (hidle : row.status.idle = true)
    (hidle' : row'.status.idle = true)
    (hcompleted : row'.completedAt.isSome = true ↔ finished row'.status) :
    RequestLedger w' id row' xs := by
  refine h.advance hw hrow hlt haggregates hacks ?_ (h.inv.move rfl hcurrent hidle hidle') hcompleted
  refine h.stores.congr (fun _ _ _ => ?_) htenant henv
  rw [hattempts]

theorem idle_of_cancellable {s : PrivacyRequestStatus} (h : cancellableDuplicateStatus s = true) :
    s.idle = true := by
  cases s <;> first | rfl | cases h

theorem ledgersMove_bound {input : BindSubjectRequest} {initial row : RequestRow}
    {candidates : List (String × RequestRow)} (hw : Consistency w)
    (hb : Bound R rt input u w log initial row candidates) : LedgersMove w (view w log) := by
  obtain ⟨W, events, hrequests, hattempts, -, -, -, -, happ⟩ := hb.decided.written
  have hattempts' : (view w log).attempts = w.attempts := happ.attempts.trans hattempts
  have hsame (id : String) : SameAttempts w (view w log) id := by
    intro attemptId r _
    rw [hattempts']
  have hkeep {id : String} {row' : RequestRow} (hrow' : w.requests.find id = some row') :
      w.requests.find id = some row' ∧ SameAttempts w (view w log) id ∧
        ∀ ack ∈ (view w log).acknowledgements, ack ∈ w.acknowledgements ∨
          ∀ a, w.aggregates[ack.aggregate]? = some a → a.id ≠ id := by
    rw [view_acknowledgements]
    exact ⟨hrow', hsame id, fun ack hack => .inl hack⟩
  have hmove {id : String} {row row' : RequestRow} (hrow : w.requests.find id = some row)
      (hversion : row'.version = row.version + 1) (htenant : row'.tenantId = row.tenantId)
      (henv : row'.environmentId = row.environmentId)
      (hcurrent : row'.currentAttemptId = row.currentAttemptId)
      (hstatus : cancellableDuplicateStatus row.status = true) (hidle' : row'.status.idle = true)
      (hcompleted : row'.completedAt.isSome = true ↔ finished row'.status) :
      (∀ row₁, w.requests.find id = some row₁ → row₁.version < row'.version) ∧
        ∃ xs, RequestLedger (view w log) id row' xs := by
    obtain ⟨xs, h⟩ := hw.requests id row hrow
    refine ⟨fun row₁ hrow₁ => ?_, xs, h.idle hw.coupling hrow (by omega) (view_aggregates w log)
      (view_acknowledgements w log) hattempts' htenant henv hcurrent (idle_of_cancellable hstatus)
      hidle' hcompleted⟩
    obtain rfl := Option.some.inj (hrow.symm.trans hrow₁)
    omega
  constructor
  · intro id row' hrow'
    rw [happ.requests, hrequests, decidedRequests] at hrow'
    by_cases hid : id = input.requestId
    · subst hid
      obtain rfl : boundRow input _ row = row' := by simpa using hrow'
      refine .inr (hmove hb.stored rfl rfl rfl rfl hb.status ?_ ?_) <;>
        cases decideBinding rt input row candidates.head? <;>
        simp [boundRow, Decision.currentStatus, PrivacyRequestStatus.idle, finished]
    rw [Table.find_set_of_ne _ _ hid] at hrow'
    split at hrow'
    · next id' hid' =>
      obtain ⟨candidate, hmem, hstatus⟩ := cancelled_decideBinding hid'
      obtain ⟨hfound, -⟩ := hb.duplicates.valid _ hmem
      by_cases heq : id = id'
      · subst heq
        rw [hfound, Table.find_set_self] at hrow'
        cases hrow'
        exact .inr (hmove hfound rfl rfl rfl rfl hstatus rfl (by simp [cancelledRow, finished]))
      · rw [Table.find_set_of_ne _ _ heq] at hrow'
        exact .inl (hkeep hrow')
    · exact .inl (hkeep hrow')
  · rw [hattempts']
    exact fun _ _ hr _ => hr
  · rw [hattempts']
    exact fun _ r hr => .inl ⟨r, hr, rfl⟩

end Bind

/-! ## Forced replacements -/

section Force

open Pairing

/-- The ledger behind a review. -/
def reviewedLedger (now : Timestamp) (xs : List ExecutionAttempt) : List ExecutionAttempt :=
  xs.map fun x =>
    if openAttempt x.status then { x with status := .needsReview, completedAt := some now } else x

theorem not_open_of_terminal {s : ExecutionAttemptStatus} (h : s.terminal = true) :
    ¬ openAttempt s := by
  cases s <;> simp_all [ExecutionAttemptStatus.terminal, openAttempt]

theorem open_of_lastStatus {s : PrivacyRequestStatus} {t : ExecutionAttemptStatus}
    (hs : s.idle = false) (h : LastStatus s t) : openAttempt t := by
  cases s <;> simp_all [LastStatus, PrivacyRequestStatus.idle, openAttempt]

theorem reviewedLedger_of_ended {now : Timestamp} {xs : List ExecutionAttempt}
    (h : ∀ x ∈ xs, x.status.terminal = true) : reviewedLedger now xs = xs := by
  rw [reviewedLedger, List.map_congr_left (g := id), List.map_id]
  exact fun x hx => if_neg (not_open_of_terminal (h x hx))

/-- The review moves the request and its open attempt together. -/
theorem ledgerInv_reviewed {id : String} {row : RequestRow} {xs : List ExecutionAttempt}
    (now : Timestamp) (h : LedgerInv (storedAggregate id row xs)) :
    LedgerInv (storedAggregate id (reviewedRow row) (reviewedLedger now xs)) := by
  cases hs : row.status.idle with
  | true => exact h.move (reviewedLedger_of_ended (h.ended hs)) rfl hs rfl
  | false =>
    obtain ⟨_, last, -, -, -, -, hlast⟩ := h.last hs
    obtain ⟨before, happ, -, hbefore, hst, hupdate⟩ := h.update hs hlast
    have hterminal : ExecutionAttemptStatus.needsReview.terminal = (some now).isSome := rfl
    refine h.replace hs hlast hterminal ?_ rfl rfl
    rw [hupdate]
    show reviewedLedger now xs = _
    rw [show xs = before ++ [last] from happ, reviewedLedger, List.map_append,
      ← reviewedLedger, reviewedLedger_of_ended hbefore]
    simp [open_of_lastStatus hs hst]

variable {input : ConsumeAndPairInput} {w' : World} {token : TokenRow} {affected : List String}
  {p₀ p₁ p₂ : Point World Row}

/-- The request of an affected attempt is reviewed. -/
theorem reviewed_of_affected
    (hS : ∀ {held w w'}, R held w w' → Evolves held w w' ∧ Frozen w w')
    (hinv : ∀ {held w w'}, R held w w' → Consistency w → Consistency w') (hu : Consistency u)
    (hw : Consistency w) (h : Forced R input u w w' token affected p₀ p₁ p₂) {attemptId : String}
    {r : AttemptRow} (hr : w.attempts.find attemptId = some r)
    (haffected : isAffectedAttempt token affected r) :
    ∃ row, w.requests.find r.requestId = some row ∧
      isAffectedRequest token affected r.requestId row ∧
      w'.requests.find r.requestId = some (reviewedRow row) ∧ .request r.requestId ∈ keys p₁.log := by
  obtain ⟨htenant, hmem, hopen⟩ := haffected
  obtain ⟨⟨row, hrow⟩, -⟩ := hw.owned attemptId r hr
  obtain ⟨xs, hledger⟩ := hw.requests _ row hrow
  obtain ⟨x, hx, -, hstored⟩ := (hledger.stores attemptId r).mp ⟨hr, rfl⟩
  have hrowtenant : row.tenantId = token.tenantId := by
    rw [← htenant, hstored]
    rfl
  have hunfinished : ¬ finished row.status := by
    intro hf
    have hended := hledger.inv.ended (by rcases hf with hf | hf <;> rw [storedAggregate, hf] <;> rfl)
    rw [hstored] at hopen
    exact not_open_of_terminal (hended x hx) hopen
  rw [h.after_requests]
  rcases h.requests r.requestId with ⟨row₁, hrow₁, hall⟩ | ⟨-, v, hpassed, hp₀v, hvw⟩
  · exact ⟨row₁, hrow₁, hall⟩
  · -- the work that was found is held, so the request was there to be reviewed
    exfalso
    have hv : Consistency v := hinv hp₀v (hinv h.start hu)
    have hthere : ∃ row, v.requests.find r.requestId = some row := by
      rcases h.work _ hmem with ⟨envelope, henvelope, -, hheld⟩ | ⟨id, r', hr', -, hid, hheld⟩
      · have hsame := (hS hvw).1.agree _ hheld
        exact hv.envelopes _ envelope (hsame.trans henvelope)
      · have hsame := (hS hvw).1.agree _ hheld
        rw [← hid]
        exact (hv.owned id r' (hsame.trans hr')).1
    obtain ⟨row₀, hrow₀⟩ := hthere
    obtain ⟨row₁, hrow₁, hgrows⟩ := (hS hvw).2.requests _ row₀ hrow₀
    obtain rfl := Option.some.inj (hrow.symm.trans hrow₁)
    refine hpassed row₀ hrow₀ ⟨hgrows.tenantId.symm.trans hrowtenant, hmem, fun hf => ?_⟩
    obtain rfl := Option.some.inj (((hS hvw).2.settled _ row₀ hrow₀ hf).symm.trans hrow)
    exact hunfinished hf

/-- Every open attempt of a reviewed request is reviewed. -/
theorem attempts_of_reviewed
    (hS : ∀ {held w w'}, R held w w' → Evolves held w w' ∧ Frozen w w')
    (h : Forced R input u w w' token affected p₀ p₁ p₂) {id : String} {row : RequestRow}
    (hrow : w.requests.find id = some row) (haffected : isAffectedRequest token affected id row)
    (hheld : .request id ∈ keys p₁.log) {attemptId : String} {r : AttemptRow}
    (hr : w.attempts.find attemptId = some r) (hid : r.requestId = id)
    (htenant : r.tenantId = row.tenantId) :
    w'.attempts.find attemptId =
      some (if openAttempt r.status then reviewedAttempt input.now r else r) := by
  rw [h.after_attempts]
  rcases h.attempts attemptId with ⟨r₁, hr₁, ⟨-, -, hopen⟩, hafter⟩ | ⟨hafter, v, hpassed, -, hvw⟩
  · obtain rfl := Option.some.inj (hr.symm.trans hr₁)
    rw [hafter, if_pos hopen]
  · -- the request is held, so its attempts are as they were when it was locked
    have hrow' : v.requests.find id = some row := ((hS hvw).1.agree _ hheld).trans hrow
    have hsame := ((hS hvw).2.attempts id row row hrow' hrow rfl attemptId r hid).mp hr
    rw [hafter, hr, if_neg]
    exact fun hopen => hpassed r hsame
      ⟨htenant.trans haffected.1, by rw [hid]; exact haffected.2.1, hopen⟩

theorem ledgersMove_forced
    (hS : ∀ {held w w'}, R held w w' → Evolves held w w' ∧ Frozen w w')
    (hinv : ∀ {held w w'}, R held w w' → Consistency w → Consistency w') (hu : Consistency u)
    (hw : Consistency w) (haggregates : w'.aggregates = w.aggregates)
    (hacks : w'.acknowledgements = w.acknowledgements)
    (h : Forced R input u w w' token affected p₀ p₁ p₂) : LedgersMove w w' := by
  -- an attempt is reviewed together with its request, or neither changes
  have hattempt (attemptId : String) (r : AttemptRow) (hr : w.attempts.find attemptId = some r) :
      w'.attempts.find attemptId = some r ∨
        (openAttempt r.status ∧ w'.attempts.find attemptId = some (reviewedAttempt input.now r) ∧
          ∃ row, w.requests.find r.requestId = some row ∧
            w'.requests.find r.requestId = some (reviewedRow row)) := by
    rw [h.after_attempts]
    rcases h.attempts attemptId with ⟨r₁, hr₁, haffected, hafter⟩ | ⟨hafter, -⟩
    · obtain rfl := Option.some.inj (hr.symm.trans hr₁)
      obtain ⟨row, hrow, -, hreviewed, -⟩ := reviewed_of_affected hS hinv hu hw h hr haffected
      exact .inr ⟨haffected.2.2, hafter, row, hrow, hreviewed⟩
    · exact .inl (hafter.trans hr)
  have hback (attemptId : String) (r' : AttemptRow)
      (hr' : w'.attempts.find attemptId = some r') :
      ∃ r, w.attempts.find attemptId = some r ∧ r.requestId = r'.requestId := by
    rw [h.after_attempts] at hr'
    rcases h.attempts attemptId with ⟨r, hr, -, hafter⟩ | ⟨hafter, -⟩
    · obtain rfl := Option.some.inj (hafter.symm.trans hr')
      exact ⟨r, hr, rfl⟩
    · exact ⟨r', hafter.symm.trans hr', rfl⟩
  constructor
  · intro id row' hrow'
    rw [h.after_requests] at hrow'
    rcases h.requests id with ⟨row, hrow, haffected, hafter, hheld⟩ | ⟨hafter, -⟩
    · obtain rfl := Option.some.inj (hafter.symm.trans hrow')
      obtain ⟨xs, hledger⟩ := hw.requests id row hrow
      refine .inr ⟨fun row₁ hrow₁ => ?_, reviewedLedger input.now xs, ?_⟩
      · obtain rfl := Option.some.inj (hrow.symm.trans hrow₁)
        exact Nat.lt_succ_self _
      refine hledger.advance hw.coupling hrow (Nat.lt_succ_self _) haggregates hacks ?_
        (ledgerInv_reviewed input.now hledger.inv) (by simp [reviewedRow, finished])
      intro attemptId r'
      constructor
      · rintro ⟨hr', hid⟩
        obtain ⟨r, hr, hrr'⟩ := hback attemptId r' hr'
        obtain ⟨x, hx, rfl, rfl⟩ := (hledger.stores attemptId r).mp ⟨hr, hrr'.trans hid⟩
        have hnow := attempts_of_reviewed hS h hrow haffected hheld hr rfl rfl
        refine ⟨_, List.mem_map_of_mem hx, ?_, ?_⟩
        · split <;> rfl
        · rw [Option.some.inj (hr'.symm.trans hnow)]
          show (if openAttempt x.status then _ else _) = _
          split <;> rfl
      · rintro ⟨y, hy, rfl, rfl⟩
        obtain ⟨x, hx, rfl⟩ := List.mem_map.mp hy
        have hr := hledger.stores.stored hx
        have hnow := attempts_of_reviewed hS h hrow haffected hheld hr rfl rfl
        change w'.attempts.find x.id = some (if openAttempt x.status then _ else _) at hnow
        refine ⟨?_, rfl⟩
        split at hnow
        · next hopen => rw [if_pos hopen, hnow]; rfl
        · next hclosed => rw [if_neg hclosed, hnow]; rfl
    · refine .inl ⟨hafter.symm.trans hrow', ?_, by rw [hacks]; exact fun ack hack => .inl hack⟩
      intro attemptId r hid
      constructor
      · intro hr'
        obtain ⟨r₀, hr₀, hrr⟩ := hback attemptId r hr'
        rcases hattempt attemptId r₀ hr₀ with hsame | ⟨-, -, row, hrow, hreviewed⟩
        · obtain rfl := Option.some.inj (hr'.symm.trans hsame)
          exact hr₀
        · rw [hrr, hid, h.after_requests, hafter] at hreviewed
          rw [hrr, hid, hreviewed] at hrow
          have hversion := congrArg RequestRow.version (Option.some.inj hrow)
          exact absurd hversion (Nat.succ_ne_self _)
      · intro hr
        rcases hattempt attemptId r hr with hsame | ⟨-, -, row, hrow, hreviewed⟩
        · exact hsame
        · rw [hid, h.after_requests, hafter] at hreviewed
          rw [hid, hreviewed] at hrow
          have hversion := congrArg RequestRow.version (Option.some.inj hrow)
          exact absurd hversion (Nat.succ_ne_self _)
  · intro attemptId r hr hended
    rcases hattempt attemptId r hr with hsame | ⟨hopen, -⟩
    · exact hsame
    · obtain ⟨⟨row, hrow⟩, -⟩ := hw.owned attemptId r hr
      obtain ⟨xs, hledger⟩ := hw.requests _ row hrow
      obtain ⟨x, hx, -, hstored⟩ := (hledger.stores attemptId r).mp ⟨hr, rfl⟩
      rw [hstored] at hended hopen
      have hterminal := (hledger.inv.check x hx).trans (Option.isSome_iff_ne_none.mpr hended)
      exact absurd hopen (not_open_of_terminal hterminal)
  · exact fun attemptId r' hr' => .inl (hback attemptId r' hr')

end Force

/-! ## Envelopes -/

theorem envelopes_of_kept {α : Type} {s : Transaction α} {a : α} (hs : s.Writes Kept)
    (h : Completes R w s ⟨u, []⟩ a ⟨w, log⟩) {id : String} {envelope : EnvelopeRow}
    (he : (view w log).envelopes.find id = some envelope) :
    w.envelopes.find id = some envelope :=
  h.writes kept_refl kept_trans hs (.envelope id) envelope he

/-- An envelope that is written belongs to a request. -/
theorem envelopes_other {write : OtherWrite} (hR : Rely R)
    (hreq : ∀ {held w w'}, R held w w' → RequestsEvolve w.requests w'.requests)
    (hw : Consistency w) (h : Completes R w write.script ⟨u, []⟩ () ⟨w, log⟩) {id : String}
    {envelope : EnvelopeRow} (he : (view w log).envelopes.find id = some envelope) :
    ∃ row, w.requests.find id = some row := by
  have hunwritten {k : Key} {v : Row k} (hk : ∀ id, k ≠ .envelope id)
      (h : Completes R w (writeRow k v) ⟨u, []⟩ () ⟨w, log⟩) :
      (view w log).envelopes = w.envelopes := by
    obtain ⟨more, hlog, hmore⟩ := h.log_eq (K := fun k => ∀ id, k ≠ .envelope id)
      ((Script.touches_update hk _).bind fun _ => Script.writes_pure _)
    obtain rfl : log = more := hlog
    exact view_envelopes hmore
  cases write with
  | environment | agent | job | «alias» =>
    rw [hunwritten (by exact fun _ => nofun) h] at he
    exact hw.envelopes id envelope he
  | token tokenId row =>
    obtain ⟨more, hlog, hmore⟩ := h.log_eq (K := fun k => ∀ id, k ≠ .envelope id)
      ((Script.touches_update (fun _ => nofun) _).bind fun _ => Script.writes_failIf _ _)
    obtain rfl : log = more := hlog
    rw [view_envelopes hmore] at he
    exact hw.envelopes id envelope he
  | envelope requestId row =>
    obtain ⟨_, mid, hscope, hwrite⟩ := leads_bind hR (h.leads hR)
    obtain ⟨_, mid', hupdate, hdone⟩ := leads_bind hR hwrite
    obtain ⟨-, hlog⟩ := leads_pure hR hdone
    have hmid : mid.log = [] := by
      cases row with
      | none => exact (leads_pure hR hscope).2
      | some row =>
        obtain ⟨_, q, hread, hcheck⟩ := leads_bind hR hscope
        rw [(leads_failIf hR hcheck).2, (leads_read hR hread).1]
    have hview : (view w log).envelopes = w.envelopes.set requestId row := by
      rcases leads_update hR hupdate with ⟨_, v, -, hq, hlog'⟩ | ⟨-, -, _, hskip, -⟩
      · simp only [Option.some.injEq, Prod.mk.injEq, true_and] at hq
        rw [show log = mid'.log from hlog, hlog', hmid, ← hq]
        rfl
      · cases hskip
    rw [hview] at he
    by_cases hid : id = requestId
    swap
    · rw [Table.find_set_of_ne _ _ hid] at he
      exact hw.envelopes id envelope he
    subst hid
    rw [Table.find_set_self] at he
    subst he
    -- the request was there when the trigger looked
    obtain ⟨request, q, hread, hcheck⟩ := leads_bind hR hscope
    obtain ⟨hsome, -⟩ := leads_failIf hR hcheck
    obtain ⟨-, v, rfl, -, hvw⟩ := leads_read hR hread
    rw [not_not] at hsome
    obtain ⟨row₀, hrow₀, -⟩ := Option.map_eq_some_iff.mp hsome
    obtain ⟨row, hrow, -⟩ := hreq hvw id row₀ hrow₀
    exact ⟨row, hrow⟩

/-! ## The claim about runs -/

theorem ledgersMove_sameRecords {w' : World} (h : SameRecords w w') : LedgersMove w w' where
  requests := by
    rw [h.requests, h.acknowledgements]
    refine fun id row' hrow' => .inl ⟨hrow', fun attemptId r _ => ?_, fun ack hack => .inl hack⟩
    rw [h.attempts]
  ended := by
    rw [h.attempts]
    exact fun _ _ hr _ => hr
  owned := by
    rw [h.attempts]
    exact fun _ r hr => .inl ⟨r, hr, rfl⟩

/-- What a commit does to requests and attempts. -/
theorem ledgersMove_commit {request : TransactionRequest}
    (hw : Consistency w) (hu : Consistency u) (hstart : request.Starts u)
    (hrun : Completes (Within Consistency (Relies Stays request)) w (request.script rt) ⟨u, []⟩ ()
      ⟨w, log⟩) :
    LedgersMove w (request.settle (view w log)) ∧
      ∀ id envelope, (view w log).envelopes.find id = some envelope →
        ∃ row, w.requests.find id = some row := by
  have hR := rely_stays request
  cases request with
  | save input =>
    obtain ⟨a₀, a, row', hsaved⟩ := saved_of_completes hR (fun h => h.1.1) hw.coupling hstart hrun
    exact ⟨ledgersMove_save hR (fun h => h.1.2) hw hsaved hrun, fun id envelope he =>
      hw.envelopes id envelope (envelopes_of_kept (writes_save rt input) hrun he)⟩
  | bindSubject input =>
    have hkept := (writes_bindSubject rt input).bind fun _ => Script.writes_pure ()
    refine ⟨?_, fun id envelope he => hw.envelopes id envelope (envelopes_of_kept hkept hrun he)⟩
    obtain ⟨b, hbind⟩ := completes_discard hR hrun
    rcases SubjectBinding.bindSubject_effect hR hbind with hsame | ⟨_, row, candidates, hb⟩
    · exact ledgersMove_sameRecords hsame
    · exact ledgersMove_bound hw hb
  | consumeAndPair input =>
    have hkept := (writes_consumeAndPair input).bind fun _ => Script.writes_pure ()
    refine ⟨?_, fun id envelope he => hw.envelopes id envelope (envelopes_of_kept hkept hrun he)⟩
    obtain ⟨b, hpair⟩ := completes_discard hR hrun
    rcases Pairing.consumeAndPair_effect hR hpair with hsame | ⟨_, _, _, _, _, hf⟩
    · exact ledgersMove_sameRecords hsame
    · exact ledgersMove_forced (fun h => ⟨h.1.1, Stays.frozen h.1.2⟩) (fun h => h.2) hu hw
        (view_aggregates w log) (view_acknowledgements w log) hf
  | other write =>
    exact ⟨ledgersMove_sameRecords (other_effect hR hrun).1,
      fun _ _ he => envelopes_other hR (fun h => h.1.1.requests) hw hrun he⟩

theorem guarantee_consistency (rt : Runtime) :
    Guarantee (system rt exclusiveSaves) Consistency (Relies Stays) := by
  refine guarantee_system stays_refl stays_trans ?_ ?_
  · intro live w action hw hen hok
    exact ⟨hw.act hen hok.1, fun _ hlive => stays_act hok hlive⟩
  · intro w u request log hw hu hstart _ hrun
    have hR := rely_stays request
    obtain ⟨hmove, henvelopes⟩ := ledgersMove_commit hw hu hstart hrun
    have hevolves : Evolves [] w (request.settle (view w log)) :=
      evolves_commit hR (fun h => h.1.1) hrun (by simp)
    have hsettled : Settled w (request.settle (view w log)) :=
      settled_commit hR (fun h => h.1.1) hw.coupling hstart hrun
    have haggregates : (request.settle (view w log)).aggregates = w.aggregates := by
      cases request <;> exact view_aggregates w log
    refine ⟨hw.of_ledgersMove hmove (hw.coupling.commit hR (fun h => h.1.1) hstart hrun)
      haggregates hevolves.requests ?_, fun request' => ?_⟩
    · cases request <;> exact henvelopes
    · refine stays_of (hmove.frozen hevolves.requests hsettled) fun input _ a ha => ?_
      rw [haggregates]
      exact ⟨a, ha, rfl, rfl⟩

/-- What the invariant says about the attempts of a request, in the order of their numbers. -/
theorem RequestLedger.attemptsOf {id : String} {row : RequestRow} {xs : List ExecutionAttempt}
    (h : RequestLedger w id row xs) :
    row.currentAttemptId = (attemptsOf w id).getLast?.map Prod.fst ∧
      (attemptsOf w id).map (·.2.attemptNumber) = List.range' 1 (attemptsOf w id).length ∧
      (∀ e ∈ (attemptsOf w id).dropLast, e.2.status.terminal = true) ∧
      ((∃ e, (attemptsOf w id).getLast? = some e ∧ e.2.status = .authorized) ↔
        row.status = .executionAuthorized) ∧
      ((∃ e, (attemptsOf w id).getLast? = some e ∧ e.2.status = .running) ↔
        row.status = .executing) := by
  rw [h.stores.attemptsOf_eq h.inv]
  have hlast (t : ExecutionAttemptStatus) :
      (∃ e, (xs.map fun x => (x.id, storedAttempt id row x)).getLast? = some e ∧ e.2.status = t) ↔
        ∃ x, xs.getLast? = some x ∧ x.status = t := by
    rw [List.getLast?_map]
    constructor
    · rintro ⟨e, he, rfl⟩
      obtain ⟨x, hx, rfl⟩ := Option.map_eq_some_iff.mp he
      exact ⟨x, hx, rfl⟩
    · rintro ⟨x, hx, rfl⟩
      exact ⟨_, by rw [hx]; rfl, rfl⟩
  refine ⟨?_, ?_, ?_, ?_, ?_⟩
  · rw [List.getLast?_map, Option.map_map]
    exact h.inv.current_eq
  · apply List.ext_getElem
    · simp
    · intro i hi _
      have hi' : i < xs.length := by simpa using hi
      have hnumber := h.inv.numbered i xs[i] (List.getElem?_eq_getElem hi')
      simp only [List.getElem_map, List.getElem_range', storedAttempt]
      omega
  · rw [← List.map_dropLast]
    intro e he
    obtain ⟨x, hx, rfl⟩ := List.mem_map.mp he
    exact h.inv.closed x hx
  · rw [hlast]
    refine h.inv.open_iff ?_ rfl
    intro s t hst
    cases s <;> cases t <;> simp_all [LastStatus, ExecutionAttemptStatus.terminal]
  · rw [hlast]
    refine h.inv.open_iff ?_ rfl
    intro s t hst
    cases s <;> cases t <;> simp_all [LastStatus, ExecutionAttemptStatus.terminal]

/-- An attempt row has a `completed_at` exactly when it has ended. -/
theorem Consistency.completedAt_iff (hw : Consistency w) {attemptId : String} {r : AttemptRow}
    (hr : w.attempts.find attemptId = some r) :
    r.completedAt.isSome = true ↔ r.status.terminal = true := by
  obtain ⟨⟨row, hrow⟩, -⟩ := hw.owned attemptId r hr
  obtain ⟨xs, hledger⟩ := hw.requests _ row hrow
  obtain ⟨x, hx, -, hstored⟩ := (hledger.stores attemptId r).mp ⟨hr, rfl⟩
  have hcheck : x.status.terminal = x.completedAt.isSome := hledger.inv.check x hx
  rw [hstored]
  show x.completedAt.isSome = true ↔ x.status.terminal = true
  rw [hcheck]

/-- **Requests and attempts stay consistent across the writers**, in every run with exclusive
    saves: the attempts of a request are numbered from 1, the current one is the last, the others
    have ended, and the last is open exactly as the status says. A row of an attempt that has
    ended never changes again. -/
theorem requests_and_attempts_consistent {rt : Runtime} {c : Configuration}
    (hc : Reachable rt exclusiveSaves c) :
    (∀ id row, c.world.requests.find id = some row →
      let attempts := attemptsOf c.world id
      (row.currentAttemptId = none ↔ attempts = []) ∧
        row.currentAttemptId = attempts.getLast?.map Prod.fst ∧
        attempts.map (·.2.attemptNumber) = List.range' 1 attempts.length ∧
        (∀ e ∈ attempts.dropLast, e.2.status.terminal = true) ∧
        ((∃ e, attempts.getLast? = some e ∧ e.2.status = .authorized) ↔
          row.status = .executionAuthorized) ∧
        ((∃ e, attempts.getLast? = some e ∧ e.2.status = .running) ↔ row.status = .executing) ∧
        (row.completedAt.isSome = true ↔ row.status = .completed ∨ row.status = .cancelled)) ∧
      ∀ c', Relation.ReflTransGen (Step (system rt exclusiveSaves)) c c' →
        ∀ attemptId r, c.world.attempts.find attemptId = some r → r.status.terminal = true →
          c'.world.attempts.find attemptId = some r := by
  have hG := guarantee_consistency rt
  have hw : Consistency c.world := ReadCommitted.Reachable.invariant hG consistency_initial hc
  constructor
  · intro id row hrow attempts
    obtain ⟨xs, h⟩ := hw.requests id row hrow
    obtain ⟨hcurrent, hnumbers, hclosed, hauthorized, hrunning⟩ := h.attemptsOf
    refine ⟨?_, hcurrent, hnumbers, hclosed, hauthorized, hrunning, h.completedAt⟩
    rw [hcurrent, Option.map_eq_none_iff, List.getLast?_eq_none_iff]
  · intro c' hsteps attemptId r hr hterminal
    have hfrozen : Frozen c.world c'.world := by
      refine ReadCommitted.Reachable.evolves hG Frozen.refl Frozen.trans ?_ ?_ consistency_initial
        hc hsteps
      · rintro live w _ - ⟨action, -, -, rfl⟩
        exact frozen_act w action
      · intro w u request a log hw hu hstart hok hrun
        obtain ⟨-, hrely⟩ := hG.commit hw hu hstart hok hrun
        exact (hrely request [] (by simp)).2.frozen
    refine hfrozen.ended attemptId r hr ?_
    exact Option.isSome_iff_ne_none.mp ((hw.completedAt_iff hr).mpr hterminal)

theorem obeys_exclusiveSaves : Obeys oneAggregate exclusiveSaves where
  acts w action hok := by
    simp only [oneAggregate, Bool.and_eq_true, decide_eq_true_eq] at hok
    obtain ⟨hlen, hacks⟩ := hok
    constructor
    · intro i j a b ha hb _ _ _ _ _
      have hi := (List.getElem?_eq_some_iff.mp ha).1
      have hj := (List.getElem?_eq_some_iff.mp hb).1
      omega
    · cases action with
      | command j call =>
        have hnone : w.acknowledgements = [] := List.isEmpty_iff.mp hacks
        exact ⟨fun _ hlive => hlive.elim, by simp [hnone]⟩
      | _ => trivial
  commits _ _ _ := trivial

/-- A first request that has been authorized, with its attempt. -/
theorem requests_and_attempts_consistent_of_first_request :
    let w := playedWorld oneAggregate savedMoves
    ∃ row, w.requests.find "r" = some row ∧ row.status = .executionAuthorized ∧
      row.currentAttemptId = (attemptsOf w "r").getLast?.map Prod.fst ∧
      ∃ e, (attemptsOf w "r").getLast? = some e ∧ e.2.status = .authorized := by
  intro w
  have hplayed : play firstRuntime oneAggregate World.initial savedMoves = some savedWorld :=
    savedMoves_played fun _ _ h => (Bool.and_eq_true_iff.mp h).2
  have hsaved : w = savedWorld := playedWorld_eq hplayed
  have hw : Reachable firstRuntime exclusiveSaves ⟨w, fun _ => none⟩ := by
    rw [hsaved]
    exact play_reachable obeys_exclusiveSaves hplayed
  have hstatus : (w.requests.find "r").map (·.status) = some .executionAuthorized := by
    rw [hsaved]
    rfl
  obtain ⟨row, hrow, hauthorized⟩ := Option.map_eq_some_iff.mp hstatus
  obtain ⟨-, hcurrent, -, -, hlast, -⟩ := (requests_and_attempts_consistent hw).1 "r" row hrow
  exact ⟨row, hrow, hauthorized, hcurrent, hlast.mpr hauthorized⟩

end ForgetOps.Database
