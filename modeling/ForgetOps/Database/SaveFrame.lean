import ForgetOps.Database.ConsistentCommits

/-
  A save persists its own request and nothing else.

  `persistAttempts` goes by the id of the attempt alone, and the domain keeps ids apart only within
  one aggregate: an attempt with the id of another request's open attempt is written over that
  one. `OwnAttempts` says that there is no such id. In runs whose saves all meet it, whatever
  commands run during them, a save writes its own rows alone, and only then (`saved_alone_iff`).
-/

namespace ForgetOps.Database

open Domain Api
open ReadCommitted RowStore

/-- No attempt of the aggregate has the id of an attempt that is stored for another request. -/
def OwnAttempts (w : World) (input : SaveRequest) : Prop :=
  ∀ a, w.aggregates[input.aggregate]? = some a → ∀ x ∈ a.attempts, ∀ r,
    w.attempts.find x.id = some r → r.requestId = a.id

/-- Between `w` and `w'` the aggregate was persisted, and no row of another request changed. -/
structure SavedAlone (input : SaveRequest) (a : PrivacyRequestAggregate) (w w' : World) :
    Prop where
  attempts : ∀ attemptId r, w'.attempts.find attemptId = some r ∧ r.requestId = a.id ↔
    ∃ x ∈ a.executionAttempts, x.id = attemptId ∧
      r = PrivacyRequestRepository.attemptRow input.tenantId input.snapshot x
  otherRequests : ∀ id, id ≠ a.id → w'.requests.find id = w.requests.find id
  otherAttempts : ∀ attemptId r, r.requestId ≠ a.id →
    (w'.attempts.find attemptId = some r ↔ w.attempts.find attemptId = some r)
  otherAuditEvents : ∀ id r, r.requestId ≠ some a.id →
    (w'.auditEvents.find id = some r ↔ w.auditEvents.find id = some r)
  otherOutboxEvents : ∀ id r, r.aggregateId ≠ a.id →
    (w'.outboxEvents.find id = some r ↔ w.outboxEvents.find id = some r)

/-- Requests and attempts are written by saves, and requests by bindings. -/
def withoutPairing : Discipline where
  commits _ request :=
    match request with
    | .consumeAndPair _ => False
    | _ => True
  acts _ _ _ := True

/-- Besides, every save that commits meets `OwnAttempts`. -/
def ownSaves : Discipline where
  commits w request :=
    match request with
    | .save input => OwnAttempts w input
    | .consumeAndPair _ => False
    | _ => True
  acts _ _ _ := True

/-! ## The invariant -/

/-- What is stored of a request is what the ledger of the aggregate that was saved last
    continues. -/
structure SavedRows (w : World) : Prop where
  coupling : Coupling w
  ledgers : ∀ (i : Nat) a, w.aggregates[i]? = some a → LedgerInv a
  rows : ∀ attemptId r, w.attempts.find attemptId = some r →
    ∃ row, w.requests.find r.requestId = some row
  positive : ∀ id row, w.requests.find id = some row → 0 < row.version
  stored : ∀ (i : Nat) a row, w.aggregates[i]? = some a → w.requests.find a.id = some row →
    LastSaved w i a row.version → ContinuesStored w a.id a.attempts

theorem savedRows_initial : SavedRows World.initial where
  coupling := coupling_initial
  ledgers := by simp [World.initial]
  rows := by simp [World.initial]
  positive := by simp [World.initial]
  stored := by simp [World.initial]

/-- The aggregate has moved on to `a'`: each command that it accepted has a version of its own. -/
structure Grows (a a' : PrivacyRequestAggregate) : Prop where
  ledger : LedgerContinues a.attempts a'.attempts
  version : a.version ≤ a'.version
  same : a'.version = a.version → a'.attempts = a.attempts

theorem Grows.refl (a : PrivacyRequestAggregate) : Grows a a := ⟨.refl _, le_refl _, fun _ => rfl⟩

theorem Grows.trans {a a' a'' : PrivacyRequestAggregate} (h : Grows a a') (h' : Grows a' a'') :
    Grows a a'' where
  ledger := h.ledger.trans h'.ledger
  version := h.version.trans h'.version
  same := by
    intro heq
    have hle := h.version
    have hle' := h'.version
    rw [h'.same (by omega), h.same (by omega)]

/-- What any transaction can count on in these runs. -/
structure Carries (w w' : World) : Prop where
  frozen : Frozen w w'
  aggregates : ∀ (i : Nat) a, w.aggregates[i]? = some a →
    ∃ a', w'.aggregates[i]? = some a' ∧ Grows a a'

theorem Carries.refl (w : World) : Carries w w := ⟨.refl w, fun _ a ha => ⟨a, ha, .refl a⟩⟩

theorem Carries.trans {w w' w'' : World} (h : Carries w w') (h' : Carries w' w'') :
    Carries w w'' where
  frozen := h.frozen.trans h'.frozen
  aggregates := by
    intro i a ha
    obtain ⟨a', ha', hgrows⟩ := h.aggregates i a ha
    obtain ⟨a'', ha'', hgrows'⟩ := h'.aggregates i a' ha'
    exact ⟨a'', ha'', hgrows.trans hgrows'⟩

/-! ## Process actions -/

section Actions

variable {w : World} {action : ProcessAction}

theorem grows_invoke {a : PrivacyRequestAggregate} (h : LedgerInv a) (call : Call) :
    Grows a (invoke a call).2 := by
  have hledger : LedgerContinues a.attempts (invoke a call).2.attempts :=
    ledgerContinues_after h [call]
  rcases invoke_cases a call with ⟨-, hstep⟩ | ⟨-, hsame⟩
  · obtain ⟨-, -, hversion, -⟩ := hstep.records
    exact ⟨hledger, by omega, fun heq => by omega⟩
  · rw [hsame]
    exact .refl a

theorem acknowledged_version (a : PrivacyRequestAggregate) (count : Nat) :
    (acknowledged a count).version = a.version := by
  unfold acknowledged
  split <;> rfl

theorem SavedRows.act (hw : SavedRows w) (hen : w.Enabled action) : SavedRows (w.act action) where
  coupling := hw.coupling.act hen
  ledgers _ _ ha' := ledgerInv_act hw.ledgers ha'
  rows := by
    rw [act_attempts, act_requests]
    exact hw.rows
  positive := by
    rw [act_requests]
    exact hw.positive
  stored := by
    intro i a' row ha' hrow hlast row₁ hrow₁
    rw [act_requests] at hrow hrow₁
    obtain ⟨a, ha, hid, hsaved, hcont⟩ :=
      hlast.of_act hw.coupling hen (hw.positive _ row hrow) ha'
    rw [← hid] at hrow hrow₁ ⊢
    obtain ⟨xs, hxs, hcheck, hledger⟩ := hw.stored i a row ha hrow hsaved row₁ hrow₁
    refine ⟨xs, hxs.congr (fun _ _ _ => ?_) rfl rfl, hcheck,
      hledger.trans (hcont (hw.ledgers i a ha))⟩
    rw [act_attempts]

theorem SavedRows.carries_act (hw : SavedRows w) : Carries w (w.act action) where
  frozen := frozen_act w action
  aggregates := by
    intro i a ha
    obtain ⟨a', ha', -⟩ := (evolves_act [] w action).aggregates i a ha
    refine ⟨a', ha', ?_⟩
    rcases act_aggregates_cases ha' with h | ⟨input, -, rfl, -⟩ | ⟨a₁, call, -, h, rfl⟩ |
      ⟨a₁, count, -, h, rfl⟩
    · rw [Option.some.inj (ha.symm.trans h)]
      exact .refl _
    · simp at ha
    · rw [Option.some.inj (ha.symm.trans h)]
      exact grows_invoke (hw.ledgers i a₁ h) call
    · rw [Option.some.inj (ha.symm.trans h)]
      refine ⟨?_, (acknowledged_version a₁ count).ge, fun _ => acknowledged_attempts a₁ count⟩
      rw [acknowledged_attempts]
      exact .refl _

end Actions

/-! ## Saves -/

section Save

open PrivacyRequestRepository

variable {R : List Key → World → World → Prop} {rt : Runtime} {u w : World} {log : Log Row}
  {input : SaveRequest} {a₀ a : PrivacyRequestAggregate} {row' : RequestRow}

/-- What a save has made of the attempts, where `ys` is the ledger it read. -/
structure Upserted (input : SaveRequest) (a : PrivacyRequestAggregate)
    (ys : List ExecutionAttempt) (w w' : World) : Prop where
  ledger : LedgerContinues ys a.attempts
  check : ∀ y ∈ ys, completedAtCheck y
  stored : ContinuesStored w a.id ys
  upsertable : ∀ y ∈ ys, Upsertable input.tenantId input.snapshot w y
  written : ∀ y ∈ ys,
    w'.attempts.find y.id = some (attemptRow input.tenantId input.snapshot y)
  others : ∀ id ∉ ys.map (·.id), w'.attempts.find id = w.attempts.find id

/-- A save whose attempts are its own. If no command was accepted since the call, the ledger it
    read is the one in memory. -/
theorem Saved.upserted (hR : Rely R) (hE : ∀ {held w w'}, R held w w' → Evolves held w w')
    (hS : ∀ {held w w'}, R held w w' → Carries w w')
    (hinv : ∀ {held w w'}, R held w w' → SavedRows w → SavedRows w') (hu : SavedRows u)
    (hw : SavedRows w) (h : Saved input u w (view w log) a₀ a row')
    (hrun : Completes R w (save rt input) ⟨u, []⟩ () ⟨w, log⟩) (hown : OwnAttempts w input) :
    ∃ ys, Upserted input a ys w (view w log) ∧ (a.version = a₀.version → ys = a.attempts) := by
  obtain ⟨-, -, -, _, t, mid, mid', _, -, hut, htw, -, hmid, hattempts, happ⟩ :=
    save_effect hR hrun
  have ht : SavedRows t := hinv hut hu
  -- the aggregate at the time it was read
  obtain ⟨b, hb, hgrows⟩ := (hS hut).aggregates _ a₀ h.called
  obtain ⟨a₁, ha₁, hgrows'⟩ := (hS htw).aggregates _ b hb
  obtain rfl := Option.some.inj (h.current.symm.trans ha₁)
  have hread : ledgerAt input.aggregate t = b.attempts := by
    rw [ledgerAt, hb]
    rfl
  rw [hread] at hattempts
  have hledger := ht.ledgers _ b hb
  have hstored : ContinuesStored w a.id b.attempts := by
    intro row hrow
    rcases h.before hw.coupling with ⟨hnone, -⟩ | ⟨row₁, hrow₁, hbase, -⟩
    · rw [hnone] at hrow
      cases hrow
    obtain rfl := Option.some.inj (hrow.symm.trans hrow₁)
    -- the row was held by then
    have hagree : t.requests.find input.snapshot.id = w.requests.find input.snapshot.id :=
      (hE htw).agree (.request input.snapshot.id) (by simp)
    rw [h.id_eq, hrow] at hagree
    obtain ⟨b₁, hb₁, hprogress⟩ := (hE hut).aggregates _ a₀ h.called
    obtain rfl := Option.some.inj (hb.symm.trans hb₁)
    obtain ⟨a₂, ha₂, hprogress'⟩ := (hE htw).aggregates _ b hb
    obtain rfl := Option.some.inj (h.current.symm.trans ha₂)
    have hid : b.id = a.id := (congrArg CreatePrivacyRequest.id hprogress'.input).symm
    have hle := hprogress.base
    have hle' := hprogress'.base
    have hsame := h.base
    obtain ⟨xs, hxs, hcheck, hcont⟩ := ht.stored _ b row hb (hid ▸ hagree)
      ⟨0, .inl rfl, by omega⟩ row (hid ▸ hagree)
    rw [hid] at hxs
    refine ⟨xs, hxs.congr (fun attemptId r hr => ?_) rfl rfl, hcheck, hcont⟩
    exact (hS htw).frozen.attempts a.id row row hagree hrow rfl attemptId r hr
  have hup : ∀ y ∈ b.attempts, Upsertable input.tenantId input.snapshot w y := by
    refine h.upsertable_of hstored hledger.nodup ?_
    intro y hy r hr
    obtain ⟨k, hk⟩ := List.getElem?_of_mem hy
    obtain ⟨y', hy', ⟨status, completedAt, rfl⟩, -⟩ := hgrows'.ledger k y hk
    have hid : r.requestId = a.id := hown a h.current _ (List.mem_of_getElem? hy') r hr
    exact ⟨hid, hid ▸ hw.rows _ r hr⟩
  obtain ⟨hall, hothers⟩ := leads_persistAttempts hR (fun huw => (hS huw).frozen.ended)
    hledger.nodup (by simp [hmid, keys]) hup hattempts
  have hbefore : (view w mid.log).attempts = w.attempts := by
    rw [hmid]
    rfl
  have hafter : (view w log).attempts = (view w mid'.log).attempts := happ.attempts
  rw [← hafter] at hall hothers
  rw [hbefore] at hothers
  refine ⟨b.attempts, ⟨hgrows'.ledger, hledger.check, hstored, hup, hall, hothers⟩, fun heq => ?_⟩
  have hle := hgrows.version
  have hle' := hgrows'.version
  exact (hgrows'.same (by omega)).symm

variable {ys : List ExecutionAttempt}

theorem Saved.storesLedger (hw : SavedRows w) (h : Saved input u w (view w log) a₀ a row')
    (hy : Upserted input a ys w (view w log)) : StoresLedger (view w log) a.id row' ys :=
  h.storesLedger_of hy.stored hw.rows hy.written hy.others

theorem SavedRows.save (hw : SavedRows w) (h : Saved input u w (view w log) a₀ a row')
    (hy : Upserted input a ys w (view w log))
    (hcoupling : Coupling ((TransactionRequest.save input).settle (view w log))) :
    SavedRows ((TransactionRequest.save input).settle (view w log)) where
  coupling := hcoupling
  ledgers := by
    show ∀ (i : Nat) a, (view w log).aggregates[i]? = some a → LedgerInv a
    rw [view_aggregates]
    exact hw.ledgers
  rows := by
    intro attemptId r hr
    change (view w log).attempts.find attemptId = some r at hr
    show ∃ row, (view w log).requests.find r.requestId = some row
    have hthere {id : String} (hid : ∃ row, w.requests.find id = some row) :
        ∃ row, (view w log).requests.find id = some row := by
      rw [h.requests]
      by_cases heq : id = a.id
      · exact ⟨row', by rw [heq, Table.find_set_self]⟩
      · rw [Table.find_set_of_ne _ _ heq]
        exact hid
    by_cases hmem : attemptId ∈ ys.map (·.id)
    · obtain ⟨y, hy', rfl⟩ := List.mem_map.mp hmem
      obtain rfl := Option.some.inj ((hy.written y hy').symm.trans hr)
      refine ⟨row', ?_⟩
      rw [h.requests]
      show (w.requests.set a.id (some row')).find input.snapshot.id = some row'
      rw [h.id_eq, Table.find_set_self]
    · rw [hy.others attemptId hmem] at hr
      exact hthere (hw.rows attemptId r hr)
  positive := by
    intro id row hrow
    change (view w log).requests.find id = some row at hrow
    rw [h.requests] at hrow
    by_cases hid : id = a.id
    · rw [hid, Table.find_set_self, Option.some.injEq] at hrow
      have hversion := h.row.2
      have hpending := h.pending
      have hbase := (hw.coupling.aggregates _ a h.current).base
      rw [hrow] at hversion
      omega
    · rw [Table.find_set_of_ne _ _ hid] at hrow
      exact hw.positive id row hrow
  stored := by
    intro i b row hb hrow hlast row₁ hrow₁
    obtain rfl : row = row₁ := Option.some.inj (hrow.symm.trans hrow₁)
    change (view w log).aggregates[i]? = some b at hb
    rw [view_aggregates] at hb
    change (view w log).requests.find b.id = some row at hrow
    rw [h.requests] at hrow
    by_cases hid : b.id = a.id
    · rw [hid, Table.find_set_self, Option.some.injEq] at hrow
      subst hrow
      rcases lastSaved_settle hlast with hsaved | rfl
      · exact absurd hsaved (h.not_lastSaved hw.coupling hb hid)
      · obtain rfl := Option.some.inj (h.current.symm.trans hb)
        refine ⟨ys, ?_, hy.check, hy.ledger⟩
        exact (h.storesLedger hw hy).congr (fun _ _ _ => Iff.rfl) rfl rfl
    · rw [Table.find_set_of_ne _ _ hid] at hrow
      have hsaved : LastSaved w i b row.version := by
        refine (lastSaved_settle hlast).resolve_right ?_
        rintro rfl
        obtain rfl := Option.some.inj (h.current.symm.trans hb)
        exact hid rfl
      obtain ⟨xs, hxs, hcheck, hcont⟩ := hw.stored i b row hb hrow hsaved row hrow
      refine ⟨xs, hxs.congr (fun attemptId r hr => ?_) rfl rfl, hcheck, hcont⟩
      exact Saved.sameAttempts hy.upsertable hy.written hy.others (h.id_eq ▸ hid) attemptId r hr

theorem Saved.frozen (hw : SavedRows w) (h : Saved input u w (view w log) a₀ a row')
    (hy : Upserted input a ys w (view w log))
    (hreq : RequestsEvolve w.requests (view w log).requests) (hsettled : Settled w (view w log)) :
    Frozen w (view w log) where
  requests := hreq
  settled := hsettled
  attempts := by
    intro id row row₁ hrow hrow₁ hversion
    have hid : id ≠ a.id := by
      rintro rfl
      rw [h.requests, Table.find_set_self, Option.some.injEq] at hrow₁
      have hlt := h.lt hw.coupling row hrow
      rw [hrow₁] at hlt
      omega
    exact Saved.sameAttempts hy.upsertable hy.written hy.others (h.id_eq ▸ hid)
  ended _ _ hr hended := Saved.ended hy.upsertable hy.written hy.others hr hended

theorem Saved.alone (hR : Rely R) (hw : SavedRows w)
    (h : Saved input u w (view w log) a₀ a row')
    (hy : Upserted input a a.attempts w (view w log))
    (hrun : Completes R w (save rt input) ⟨u, []⟩ () ⟨w, log⟩) :
    SavedAlone input a w ((TransactionRequest.save input).settle (view w log)) := by
  obtain ⟨_, W, sequence, -, -, haudit, houtbox, -, happ⟩ := save_records hR hrun
  have hevents : ∀ e ∈ recordedEvents input.tenantId input.snapshot input.stamps 0 sequence
      input.pendingEvents, e.requestId = some a.id := by
    intro e he
    rw [requestId_of_mem_recordedEvents he, h.id_eq]
  constructor
  · intro attemptId r
    refine (h.storesLedger hw hy attemptId r).trans ?_
    simp only [h.storedAttempt_eq]
    rfl
  · intro id hid
    show (view w log).requests.find id = w.requests.find id
    rw [h.requests, Table.find_set_of_ne _ _ hid]
  · intro attemptId r hr
    exact Saved.sameAttempts hy.upsertable hy.written hy.others (h.id_eq ▸ hr) attemptId r rfl
  · intro id r hr
    rw [← haudit]
    exact happ.otherAuditEvents hevents hr
  · intro id r hr
    rw [← houtbox]
    exact happ.otherOutboxEvents hevents hr

end Save

/-- A foreign attempt under one of the ids would have been lost. -/
theorem SavedAlone.ownAttempts {input : SaveRequest} {a : PrivacyRequestAggregate} {w w' : World}
    (ha : w.aggregates[input.aggregate]? = some a) (h : SavedAlone input a w w') :
    OwnAttempts w input := by
  intro a' ha' x hx r hr
  obtain rfl := Option.some.inj (ha.symm.trans ha')
  by_contra hne
  obtain ⟨hwritten, hid⟩ := (h.attempts x.id _).mpr ⟨x, hx, rfl, rfl⟩
  have hkept : w'.attempts.find x.id = some r := (h.otherAttempts x.id r hne).mpr hr
  rw [hwritten, Option.some.injEq] at hkept
  rw [hkept] at hid
  exact hne hid

/-! ## Bindings and other writes -/

section Others

variable {w w' : World}

/-- What moves requests on, and leaves attempts and aggregates alone. -/
theorem SavedRows.of_attempts (hw : SavedRows w) (hcoupling : Coupling w')
    (hreq : RequestsEvolve w.requests w'.requests)
    (hold : ∀ id row', w'.requests.find id = some row' → ∃ row, w.requests.find id = some row)
    (hattempts : w'.attempts = w.attempts) (haggregates : w'.aggregates = w.aggregates)
    (hacks : w'.acknowledgements = w.acknowledgements) : SavedRows w' where
  coupling := hcoupling
  ledgers := by
    rw [haggregates]
    exact hw.ledgers
  rows := by
    rw [hattempts]
    intro attemptId r hr
    obtain ⟨row, hrow⟩ := hw.rows attemptId r hr
    obtain ⟨row', hrow', -⟩ := hreq _ row hrow
    exact ⟨row', hrow'⟩
  positive := by
    intro id row' hrow'
    obtain ⟨row, hrow⟩ := hold id row' hrow'
    obtain ⟨row₁, hrow₁, hgrows⟩ := hreq id row hrow
    obtain rfl := Option.some.inj (hrow'.symm.trans hrow₁)
    exact (hw.positive id row hrow).trans_le hgrows.version
  stored := by
    intro i a row' ha hrow' hlast row₁ hrow₁
    obtain rfl := Option.some.inj (hrow'.symm.trans hrow₁)
    obtain ⟨row, hrow⟩ := hold _ row' hrow'
    obtain ⟨row₁, hrow₁, hgrows⟩ := hreq _ row hrow
    obtain rfl := Option.some.inj (hrow'.symm.trans hrow₁)
    rw [haggregates] at ha
    have hsaved : LastSaved w i a row'.version := by
      rw [LastSaved, ← hacks]
      exact hlast
    rcases hgrows.version.lt_or_eq with hlt | heq
    · exact absurd hsaved (hw.coupling.not_lastSaved hrow hlt ha rfl)
    · obtain rfl := hgrows.same heq.symm
      obtain ⟨xs, hxs, hrest⟩ := hw.stored i a _ ha hrow hsaved _ hrow
      refine ⟨xs, hxs.congr (fun _ _ _ => ?_) rfl rfl, hrest⟩
      rw [hattempts]

theorem frozen_of_attempts (hreq : RequestsEvolve w.requests w'.requests)
    (hsettled : Settled w w') (hattempts : w'.attempts = w.attempts) : Frozen w w' where
  requests := hreq
  settled := hsettled
  attempts := by
    intro _ _ _ _ _ _ attemptId r _
    rw [hattempts]
  ended := by
    rw [hattempts]
    exact fun _ _ hr _ => hr

theorem bound_keeps {R : List Key → World → World → Prop} {rt : Runtime} {u : World}
    {log : Log Row} {input : BindSubjectRequest} {initial row : RequestRow}
    {candidates : List (String × RequestRow)}
    (hb : SubjectBinding.Bound R rt input u w log initial row candidates) :
    (view w log).attempts = w.attempts ∧ ∀ id row',
      (view w log).requests.find id = some row' → ∃ row, w.requests.find id = some row := by
  constructor
  · obtain ⟨W, events, -, hattempts, -, -, -, -, happ⟩ := hb.decided.written
    exact happ.attempts.trans hattempts
  · have hset {t : Table String RequestRow} {id : String} {row₀ row₁ : RequestRow}
        (hrow₀ : w.requests.find id = some row₀)
        (ht : ∀ id row', t.find id = some row' → ∃ row, w.requests.find id = some row) :
        ∀ id₁ row', (t.set id (some row₁)).find id₁ = some row' →
          ∃ row, w.requests.find id₁ = some row := by
      intro id₁ row' hrow'
      by_cases hid : id₁ = id
      · exact ⟨row₀, hid ▸ hrow₀⟩
      · rw [Table.find_set_of_ne _ _ hid] at hrow'
        exact ht id₁ row' hrow'
    refine decidedRequests_cases hb (Q := fun t => ∀ id row', t.find id = some row' →
      ∃ row, w.requests.find id = some row) ?_ ?_ fun id row' hrow' => ⟨row', hrow'⟩
    · exact fun t decision _ ht => hset hb.stored ht
    · exact fun id candidate hfound _ => hset hfound fun id row' hrow' => ⟨row', hrow'⟩

end Others

/-! ## The runs -/

theorem guarantee_savedRows (rt : Runtime) :
    Guarantee (system rt ownSaves) SavedRows (Relies fun _ => Carries) := by
  refine guarantee_system (fun _ => Carries.refl) (fun h h' => h.trans h') ?_ ?_
  · intro live w action hw hen _
    exact ⟨hw.act hen, fun _ _ => hw.carries_act⟩
  · intro w u request log hw hu hstart hok hrun
    have hR : Rely (Within SavedRows (Relies (fun _ => Carries) request)) :=
      (rely_relies (fun _ => Carries.refl) (fun h h' => h.trans h') request).within SavedRows
    have hevolves : Evolves [] w (request.settle (view w log)) :=
      evolves_commit hR (fun h => h.1.1) hrun (by simp)
    have hsettled : Settled w (request.settle (view w log)) :=
      settled_commit hR (fun h => h.1.1) hw.coupling hstart hrun
    have hcoupling := hw.coupling.commit hR (fun h => h.1.1) hstart hrun
    have haggregates : (request.settle (view w log)).aggregates = w.aggregates := by
      cases request <;> exact view_aggregates w log
    have hcarries (h : Frozen w (request.settle (view w log))) :
        Carries w (request.settle (view w log)) := by
      refine ⟨h, fun i a ha => ⟨a, ?_, .refl a⟩⟩
      rw [haggregates]
      exact ha
    have hkept (hattempts : (request.settle (view w log)).attempts = w.attempts)
        (hold : ∀ id row', (request.settle (view w log)).requests.find id = some row' →
          ∃ row, w.requests.find id = some row)
        (hacks : (request.settle (view w log)).acknowledgements = w.acknowledgements) :
        SavedRows (request.settle (view w log)) ∧
          ∀ _ : TransactionRequest, Carries w (request.settle (view w log)) :=
      ⟨hw.of_attempts hcoupling hevolves.requests hold hattempts haggregates hacks,
        fun _ => hcarries (frozen_of_attempts hevolves.requests hsettled hattempts)⟩
    cases request with
    | save input =>
      obtain ⟨a₀, a, row', hsaved⟩ := saved_of_completes hR (fun h => h.1.1) hw.coupling hstart hrun
      obtain ⟨ys, hy, -⟩ := hsaved.upserted hR (fun h => h.1.1) (fun h => h.1.2) (fun h => h.2) hu
        hw hrun hok
      have hfrozen := hsaved.frozen hw hy hevolves.requests hsettled
      exact ⟨hw.save hsaved hy hcoupling,
        fun _ => hcarries ⟨hfrozen.requests, hfrozen.settled, hfrozen.attempts, hfrozen.ended⟩⟩
    | bindSubject input =>
      obtain ⟨b, hbind⟩ := completes_discard hR hrun
      rcases SubjectBinding.bindSubject_effect hR hbind with hsame | ⟨_, row, candidates, hb⟩
      · exact hkept hsame.attempts (fun id row' hrow' => ⟨row', hsame.requests ▸ hrow'⟩)
          hsame.acknowledgements
      · obtain ⟨hattempts, hold⟩ := bound_keeps hb
        exact hkept hattempts hold (view_acknowledgements w log)
    | consumeAndPair input => exact hok.elim
    | other write =>
      obtain ⟨hsame, -⟩ := other_effect hR hrun
      exact hkept hsame.attempts (fun id row' hrow' => ⟨row', hsame.requests ▸ hrow'⟩)
        hsame.acknowledgements

/-- A transaction that is not running any more was committed, or has left everything as it was. -/
theorem step_ends {rt : Runtime} {d : Discipline} {c c' : Configuration} {i : Nat}
    {request : TransactionRequest} {script : Transaction Unit} {log : Log Row}
    (hlive : c.live i = some ⟨request, script, log⟩) (hstep : Step (system rt d) c c')
    (hend : c'.live i = none) :
    script = .done () ∧ c'.world = request.settle (view c.world log) ∨ c'.world = c.world := by
  have hset {j : Nat} {t : Live World Row TransactionRequest Unit} :
      (c.set j (some t)).live i ≠ none := by
    rw [Conf.live_set]
    split
    · exact Option.some_ne_none t
    · rw [hlive]
      exact Option.some_ne_none _
  cases hstep with
  | start | select | take | skip => exact absurd hend hset
  | @commit j _ _ _ hj _ =>
    change (c.set j none).live i = none at hend
    rw [Conf.live_set] at hend
    split at hend
    · next hij =>
      rw [← hij, hlive] at hj
      cases hj
      exact .inl ⟨rfl, rfl⟩
    · rw [hlive] at hend
      cases hend
  | abort => exact .inr rfl
  | environment =>
    change c.live i = none at hend
    rw [hlive] at hend
    cases hend

/-- **A save persists its own request and nothing else**: whatever commits before it in a run
    whose saves all meet `OwnAttempts`, a save on whose aggregate no command was accepted since
    its call commits the aggregate's rows alone if and only if it meets the condition too. A save
    that does not commit leaves every row and the pending events as they were. -/
theorem saved_alone_iff {rt : Runtime} {c : Configuration} {i : Nat} {input : SaveRequest}
    {script : Transaction Unit} {log : Log Row} (hc : Reachable rt ownSaves c)
    (hlive : c.live i = some ⟨.save input, script, log⟩) :
    (∀ c', Step (system rt ownSaves) c c' → c'.live i = none →
        script = .done () ∧
            c'.world = (TransactionRequest.save input).settle (view c.world log) ∨
          c'.world = c.world) ∧
      (script = .done () → ∀ a, c.world.aggregates[input.aggregate]? = some a →
        a.snapshot = input.snapshot →
        (SavedAlone input a c.world ((TransactionRequest.save input).settle (view c.world log)) ↔
          OwnAttempts c.world input)) := by
  refine ⟨fun c' hstep hend => step_ends hlive hstep hend, ?_⟩
  rintro rfl a ha hsnapshot
  refine ⟨fun h => h.ownAttempts ha, fun hown => ?_⟩
  have hR : Rely (Within SavedRows (Relies (fun _ => Carries) (.save input))) :=
    (rely_relies (fun _ => Carries.refl) (fun h h' => h.trans h') _).within SavedRows
  obtain ⟨hw, u, hu, hstart, hrun⟩ :=
    ReadCommitted.Reachable.completes (guarantee_savedRows rt) savedRows_initial hc hlive
  obtain ⟨a₀, a₁, row', hsaved⟩ := saved_of_completes hR (fun h => h.1.1) hw.coupling hstart hrun
  obtain rfl := Option.some.inj (ha.symm.trans hsaved.current)
  obtain ⟨ys, hy, hread⟩ := hsaved.upserted hR (fun h => h.1.1) (fun h => h.1.2) (fun h => h.2) hu
    hw hrun hown
  have hversion : a.version = a₀.version :=
    congrArg PrivacyRequestSnapshot.version (hsnapshot.trans hsaved.snapshot)
  obtain rfl := hread hversion
  exact hsaved.alone hR hw hy hrun

/-! ## A request of its own, and one that takes another's attempt -/

/-- Nothing but rows of other tables is written. -/
def onlyOthers (w : World) : Move → Bool
  | .act _ => true
  | .transact request =>
    match request w with
    | .other _ => true
    | _ => false

theorem obeys_ownSaves : Obeys onlyOthers ownSaves where
  acts _ _ _ := trivial
  commits w request hok := by
    rw [onlyOthers] at hok
    split at hok
    · next heq => rw [heq]; trivial
    · cases hok

/-- The store before the first request is saved. -/
def plannedWorld : World :=
  { World.initial with
    environments := ⟨[("env", ⟨"t", 1, 1⟩)], List.nodup_singleton "env"⟩
    aggregates := [after (PrivacyRequestAggregate.create firstRequest) firstCalls] }

theorem plannedWorld_played : play firstRuntime onlyOthers World.initial
    (firstMoves ++ firstCalls.map fun call => .act (.command 0 call)) = some plannedWorld := by
  rfl

/-- The save of a first request, with its first attempt. -/
theorem saved_alone_of_first_request :
    ∃ (c : Configuration) (i : Nat) (input : SaveRequest) (log : Log Row) (a : _),
      c.world = plannedWorld ∧ c.live i = some ⟨.save input, .done (), log⟩ ∧
      a.executionAttempts.map (·.id) = ["attempt-1"] ∧
      SavedAlone input a c.world ((TransactionRequest.save input).settle (view c.world log)) := by
  have hsaved := savedMoves_played fun _ _ _ => rfl
  have hcreated : play firstRuntime (fun _ _ => true) World.initial
      (firstMoves ++ firstCalls.map fun call => .act (.command 0 call)) = some plannedWorld :=
    play_weaken (fun _ _ _ => rfl) plannedWorld_played
  rw [savedMoves, play_append, hcreated, Option.bind_some] at hsaved
  obtain ⟨hstart, hrun, -⟩ := played_transact hsaved
  obtain ⟨c, hc, hworld, i, log, hlive, -⟩ :=
    exists_commits (play_reachable obeys_ownSaves plannedWorld_played) hstart hrun
  refine ⟨c, i, _, log, after (PrivacyRequestAggregate.create firstRequest) firstCalls, hworld,
    hlive, rfl,
    ((saved_alone_iff hc hlive).2 rfl _ ?_ rfl).mpr ?_⟩
  · rw [hworld]
    rfl
  · rw [hworld]
    intro a _ x _ r hr
    cases hr

/-- A request whose first attempt has failed and is retried. -/
def retriedRequest : CreatePrivacyRequest := { firstRequest with id := "q" }

def retriedCalls : List Call := firstCalls ++ [
  ⟨some noon, .markExecuting "agent-1"⟩,
  ⟨some noon, .fail "connector"⟩,
  ⟨some noon, .beginRetry "attempt-2" ["step-1"] 7⟩]

def retriedAggregate : PrivacyRequestAggregate :=
  after (PrivacyRequestAggregate.create retriedRequest) retriedCalls

def retriedStamps (i : Nat) : Stamp := ⟨"q" ++ toString i, noon⟩

/-- The store before that request is saved, behind the first one. -/
def retriedWorld : World := { savedWorld with aggregates := [savedAggregate, retriedAggregate] }

def retriedSave : TransactionRequest := callSave 1 "t" 0 noon retriedStamps retriedWorld

/-- The first request's open attempt has failed behind the save of the other one. -/
theorem retriedSave_run :
    (match (retriedSave.script firstRuntime).run retriedWorld [] [] with
    | .ok o => ((view retriedWorld o.log).attempts.find "attempt-1").map fun r =>
        (r.requestId, r.status)
    | .error _ => none) = some ("r", .failed) := by
  decide +kernel

theorem obeys_withoutPairing : Obeys onlySaves withoutPairing where
  acts _ _ _ := trivial
  commits w request hok := by
    rw [onlySaves] at hok
    split at hok
    · next heq => rw [heq]; trivial
    · next heq => rw [heq]; trivial
    · cases hok

/-- The retried request's first attempt has the id of the first request's open one. -/
theorem foreign_attempt_overwritten :
    ¬ ∀ (rt : Runtime) (c : Configuration) (i : Nat) (input : SaveRequest) (log : Log Row) a,
      Reachable rt withoutPairing c → c.live i = some ⟨.save input, .done (), log⟩ →
        c.world.aggregates[input.aggregate]? = some a → a.snapshot = input.snapshot →
          SavedAlone input a c.world
            ((TransactionRequest.save input).settle (view c.world log)) := by
  intro h
  have hplayed : play firstRuntime onlySaves World.initial (savedMoves ++
      (.act (.create retriedRequest) :: retriedCalls.map fun call => .act (.command 1 call))) =
        some retriedWorld := by
    rw [play_append, savedMoves_played fun _ _ hok => (Bool.and_eq_true_iff.mp hok).1,
      Option.bind_some]
    rfl
  have hresult := retriedSave_run
  cases hrun : (retriedSave.script firstRuntime).run retriedWorld [] [] with
  | error code =>
    rw [hrun] at hresult
    cases hresult
  | ok o =>
    rw [hrun] at hresult
    have hstart : retriedSave.Starts retriedWorld := ⟨_, rfl, rfl, rfl⟩
    obtain ⟨c, hc, hworld, i, log, hlive, hafter⟩ :=
      exists_commits (play_reachable obeys_withoutPairing hplayed) hstart (by rw [hrun]; rfl)
    have halone := h _ c i _ log retriedAggregate hc hlive (by rw [hworld]; rfl) rfl
    have hforeign := halone.otherAttempts "attempt-1" savedAttempt (by decide)
    rw [hworld] at hafter hforeign
    rw [afterRun, hrun] at hafter
    have hlost : (view retriedWorld log).attempts.find "attempt-1" = some savedAttempt :=
      hforeign.mpr rfl
    have hsame : (retriedSave.settle (view retriedWorld o.log)).attempts =
        (retriedSave.settle (view retriedWorld log)).attempts := congrArg World.attempts hafter
    change (view retriedWorld o.log).attempts = (view retriedWorld log).attempts at hsame
    change ((view retriedWorld o.log).attempts.find "attempt-1").map _ = _ at hresult
    rw [hsame, hlost] at hresult
    revert hresult
    decide

end ForgetOps.Database
