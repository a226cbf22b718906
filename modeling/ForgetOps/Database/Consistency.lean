import ForgetOps.Database.AttemptRows
import ForgetOps.Database.Transitions

/-
  Requests and attempts stay consistent: the invariant, and what keeps it.

  Each stored request has a ledger that goes with its status as in the domain (`RequestLedger`).
  The ledger of an aggregate in memory continues the stored one as long as the row is the one it
  was saved as last; a row that another writer has touched since has a higher version, and the
  aggregate is stale for good. `exclusiveSaves` are the runs in which attempt ids are globally
  unique and no command runs on an aggregate during its own save.
-/

namespace ForgetOps.Database

open Domain Api
open ReadCommitted RowStore

/-! ## The discipline -/

/-- No two aggregates have an attempt id in common. -/
def UniqueAttemptIds (w : World) : Prop :=
  ∀ (i j : Nat) a b, w.aggregates[i]? = some a → w.aggregates[j]? = some b →
    ∀ x ∈ a.attempts, ∀ y ∈ b.attempts, x.id = y.id → i = j

/-- A save lasts from its call to its acknowledgement. -/
def exclusiveSaves : Discipline where
  commits _ _ := True
  acts live w action :=
    UniqueAttemptIds (w.act action) ∧
      match action with
      | .command j _ => (∀ input, live (.save input) → input.aggregate ≠ j) ∧
          ∀ ack ∈ w.acknowledgements, ack.aggregate ≠ j
      | _ => True

/-! ## The invariant -/

/-- The aggregate at the index `i` was saved last when the row had the version `version`. -/
def LastSaved (w : World) (i : Nat) (a : PrivacyRequestAggregate) (version : Nat) : Prop :=
  ∃ n : Nat, (n = 0 ∨ ⟨i, n⟩ ∈ w.acknowledgements) ∧ baseVersion a + n = version

/-- The ledger `xs` of a stored request. -/
structure RequestLedger (w : World) (id : String) (row : RequestRow) (xs : List ExecutionAttempt) :
    Prop where
  version : 0 < row.version
  stores : StoresLedger w id row xs
  inv : LedgerInv (storedAggregate id row xs)
  completedAt : row.completedAt.isSome = true ↔ finished row.status
  behind : ∀ (i : Nat) a, w.aggregates[i]? = some a → a.id = id → LastSaved w i a row.version →
    LedgerContinues xs a.attempts

/-- The attempt `attemptId` of the request `requestId` is in the ledger of an aggregate. -/
def Owned (w : World) (requestId attemptId : String) : Prop :=
  ∃ (i : Nat) (a : PrivacyRequestAggregate), w.aggregates[i]? = some a ∧ a.id = requestId ∧
    ∃ x ∈ a.attempts, x.id = attemptId

structure Consistency (w : World) : Prop where
  coupling : Coupling w
  requests : ∀ id row, w.requests.find id = some row → ∃ xs, RequestLedger w id row xs
  ledgers : ∀ (i : Nat) a, w.aggregates[i]? = some a → LedgerInv a
  unique : UniqueAttemptIds w
  owned : ∀ attemptId r, w.attempts.find attemptId = some r →
    (∃ row, w.requests.find r.requestId = some row) ∧ Owned w r.requestId attemptId
  envelopes : ∀ id envelope, w.envelopes.find id = some envelope →
    ∃ row, w.requests.find id = some row

theorem consistency_initial : Consistency World.initial where
  coupling := coupling_initial
  requests := by simp [World.initial]
  ledgers := by simp [World.initial]
  unique := by simp [UniqueAttemptIds, World.initial]
  owned := by simp [World.initial]
  envelopes := by simp [World.initial]

/-! ## What the others do meanwhile -/

/-- The attempt rows of the request are the same. -/
def SameAttempts (w w' : World) (id : String) : Prop :=
  ∀ attemptId r, r.requestId = id →
    (w'.attempts.find attemptId = some r ↔ w.attempts.find attemptId = some r)

/-- Attempts change only together with their request, and not at all once they have ended. -/
structure Frozen (w w' : World) : Prop where
  requests : RequestsEvolve w.requests w'.requests
  settled : Settled w w'
  attempts : ∀ id row row', w.requests.find id = some row → w'.requests.find id = some row' →
    row'.version = row.version → SameAttempts w w' id
  ended : ∀ attemptId r, w.attempts.find attemptId = some r → r.completedAt ≠ none →
    w'.attempts.find attemptId = some r

theorem Frozen.refl (w : World) : Frozen w w :=
  ⟨.refl _, fun _ _ hrow _ => hrow, fun _ _ _ _ _ _ _ _ _ => Iff.rfl, fun _ _ hr _ => hr⟩

theorem Frozen.trans {w w' w'' : World} (h : Frozen w w') (h' : Frozen w' w'') :
    Frozen w w'' where
  requests := h.requests.trans h'.requests
  settled := settled_trans h.settled h'.settled
  attempts := by
    intro id row row'' hrow hrow'' hversion attemptId r hid
    obtain ⟨row', hrow', hgrows⟩ := h.requests id row hrow
    obtain ⟨row₁, hrow₁, hgrows'⟩ := h'.requests id row' hrow'
    obtain rfl := Option.some.inj (hrow''.symm.trans hrow₁)
    have hle := hgrows.version
    have hle' := hgrows'.version
    rw [h'.attempts id row' row'' hrow' hrow'' (by omega) attemptId r hid,
      h.attempts id row row' hrow hrow' (by omega) attemptId r hid]
  ended attemptId r hr hended := h'.ended attemptId r (h.ended attemptId r hr hended) hended

/-- Besides its events the aggregate is the same. -/
def SameAggregate (i : Nat) (w w' : World) : Prop :=
  ∀ a, w.aggregates[i]? = some a →
    ∃ a', w'.aggregates[i]? = some a' ∧ a'.snapshot = a.snapshot ∧ a'.attempts = a.attempts

/-- What a transaction can count on in runs with exclusive saves. -/
def Stays : TransactionRequest → World → World → Prop
  | .save input, w, w' => Frozen w w' ∧ SameAggregate input.aggregate w w'
  | _, w, w' => Frozen w w'

theorem Stays.frozen {request : TransactionRequest} {w w' : World} (h : Stays request w w') :
    Frozen w w' := by
  cases request with
  | save => exact h.1
  | _ => exact h

theorem stays_of {request : TransactionRequest} {w w' : World} (h : Frozen w w')
    (hsame : ∀ input, request = .save input → SameAggregate input.aggregate w w') :
    Stays request w w' := by
  cases request with
  | save input => exact ⟨h, hsame input rfl⟩
  | _ => exact h

theorem stays_refl (request : TransactionRequest) (w : World) : Stays request w w :=
  stays_of (.refl w) fun _ _ a ha => ⟨a, ha, rfl, rfl⟩

theorem stays_trans {request : TransactionRequest} {w w' w'' : World} (h : Stays request w w')
    (h' : Stays request w' w'') : Stays request w w'' := by
  refine stays_of (h.frozen.trans h'.frozen) ?_
  rintro input rfl a ha
  obtain ⟨a', ha', hsnapshot, hattempts⟩ := h.2 a ha
  obtain ⟨a'', ha'', hsnapshot', hattempts'⟩ := h'.2 a' ha'
  exact ⟨a'', ha'', hsnapshot'.trans hsnapshot, hattempts'.trans hattempts⟩

theorem rely_stays (request : TransactionRequest) :
    Rely (Within Consistency (Relies Stays request)) :=
  (rely_relies stays_refl stays_trans request).within Consistency

/-! ## Process actions -/

section Actions

variable {w : World} {action : ProcessAction}

theorem getElem?_modify_cases {aggregates : List PrivacyRequestAggregate}
    {f : PrivacyRequestAggregate → PrivacyRequestAggregate} {i j : Nat}
    {a' : PrivacyRequestAggregate} (h : (aggregates.modify j f)[i]? = some a') :
    aggregates[i]? = some a' ∨ ∃ a, j = i ∧ aggregates[i]? = some a ∧ a' = f a := by
  rw [List.getElem?_modify] at h
  obtain ⟨a, ha, rfl⟩ := Option.map_eq_some_iff.mp h
  by_cases hij : j = i
  · exact .inr ⟨a, hij, ha, if_pos hij⟩
  · rw [if_neg hij]
    exact .inl ha

/-- What a process action has made of the aggregate at the index `i`. -/
theorem act_aggregates_cases {i : Nat} {a' : PrivacyRequestAggregate}
    (h : (w.act action).aggregates[i]? = some a') :
    w.aggregates[i]? = some a' ∨
      (∃ input, action = .create input ∧ i = w.aggregates.length ∧
        a' = PrivacyRequestAggregate.create input) ∨
      (∃ a call, action = .command i call ∧ w.aggregates[i]? = some a ∧ a' = (invoke a call).2) ∨
      ∃ a count, action = .acknowledge ⟨i, count⟩ ∧ w.aggregates[i]? = some a ∧
        a' = acknowledged a count := by
  cases action with
  | create input =>
    change (w.aggregates ++ [_])[i]? = some a' at h
    rw [List.getElem?_append] at h
    split at h
    · exact .inl h
    · next hi =>
      rw [List.getElem?_singleton] at h
      split at h
      · cases h
        exact .inr (.inl ⟨input, rfl, by omega, rfl⟩)
      · cases h
  | command j call =>
    rcases getElem?_modify_cases h with h | ⟨a, rfl, ha, rfl⟩
    · exact .inl h
    · exact .inr (.inr (.inl ⟨a, call, rfl, ha, rfl⟩))
  | acknowledge ack =>
    rcases getElem?_modify_cases h with h | ⟨a, rfl, ha, rfl⟩
    · exact .inl h
    · exact .inr (.inr (.inr ⟨a, ack.count, rfl, ha, markEventsCommitted_exec a ack.count⟩))
  | lose ack => exact .inl h

theorem act_requests (w : World) (action : ProcessAction) :
    (w.act action).requests = w.requests := by
  cases action <;> rfl

theorem act_attempts (w : World) (action : ProcessAction) :
    (w.act action).attempts = w.attempts := by
  cases action <;> rfl

theorem act_envelopes (w : World) (action : ProcessAction) :
    (w.act action).envelopes = w.envelopes := by
  cases action <;> rfl

theorem mem_of_mem_act_acknowledgements {ack : Acknowledgement}
    (h : ack ∈ (w.act action).acknowledgements) : ack ∈ w.acknowledgements := by
  cases action with
  | create | command => exact h
  | acknowledge | lose => exact List.mem_of_mem_erase h

theorem acknowledged_attempts (a : PrivacyRequestAggregate) (count : Nat) :
    (acknowledged a count).attempts = a.attempts := by
  unfold acknowledged
  split <;> rfl

theorem acknowledged_snapshot (a : PrivacyRequestAggregate) (count : Nat) :
    (acknowledged a count).snapshot = a.snapshot := by
  unfold acknowledged
  split <;> rfl

theorem ledgerInv_invoke {a : PrivacyRequestAggregate} (h : LedgerInv a) (call : Call) :
    LedgerInv (invoke a call).2 := by
  rcases invoke_cases a call with ⟨_, hstep⟩ | ⟨_, heq⟩
  · exact hstep.ledgerMove.ledgerInv h
  · rw [heq]
    exact h

theorem ledgerInv_act (hw : ∀ (i : Nat) a, w.aggregates[i]? = some a → LedgerInv a) {i : Nat}
    {a' : PrivacyRequestAggregate} (ha' : (w.act action).aggregates[i]? = some a') :
    LedgerInv a' := by
  rcases act_aggregates_cases ha' with ha | ⟨input, -, -, rfl⟩ | ⟨a, call, -, ha, rfl⟩ |
    ⟨a, count, -, ha, rfl⟩
  · exact hw i a' ha
  · exact ledgerInv_create input
  · exact ledgerInv_invoke (hw i a ha) call
  · refine (hw i a ha).congr (acknowledged_attempts a count) ?_ ?_
    · exact congrArg PrivacyRequestSnapshot.currentAttemptId (acknowledged_snapshot a count)
    · exact congrArg PrivacyRequestSnapshot.status (acknowledged_snapshot a count)

/-- The ledger in memory goes on. -/
theorem Consistency.act_continues (hw : Consistency w) {i : Nat} {a : PrivacyRequestAggregate}
    (ha : w.aggregates[i]? = some a) : ∃ a', (w.act action).aggregates[i]? = some a' ∧
      a'.id = a.id ∧ LedgerContinues a.attempts a'.attempts := by
  obtain ⟨a', ha', hprogress⟩ := (evolves_act [] w action).aggregates i a ha
  refine ⟨a', ha', congrArg CreatePrivacyRequest.id hprogress.input, ?_⟩
  rcases act_aggregates_cases ha' with h | ⟨input, rfl, rfl, -⟩ | ⟨a₁, call, -, h, rfl⟩ |
    ⟨a₁, count, -, h, rfl⟩
  · rw [Option.some.inj (ha.symm.trans h)]
    exact .refl _
  · simp at ha
  · rw [Option.some.inj (ha.symm.trans h)]
    exact ledgerContinues_after (hw.ledgers i a₁ h) [call]
  · rw [Option.some.inj (ha.symm.trans h), acknowledged_attempts]
    exact .refl _

/-- An aggregate that was saved last at this version was so before the action, and its ledger goes
    on from there. -/
theorem LastSaved.of_act (hw : Coupling w) (hen : w.Enabled action) {version : Nat}
    (hpos : 0 < version) {i : Nat} {a' : PrivacyRequestAggregate}
    (ha' : (w.act action).aggregates[i]? = some a') (h : LastSaved (w.act action) i a' version) :
    ∃ a, w.aggregates[i]? = some a ∧ a.id = a'.id ∧ LastSaved w i a version ∧
      (LedgerInv a → LedgerContinues a.attempts a'.attempts) := by
  obtain ⟨n, hn, hversion⟩ := h
  have hold : n = 0 ∨ ⟨i, n⟩ ∈ w.acknowledgements := hn.imp_right mem_of_mem_act_acknowledgements
  rcases act_aggregates_cases ha' with ha | ⟨input, rfl, rfl, rfl⟩ | ⟨a, call, rfl, ha, rfl⟩ |
    ⟨a, count, rfl, ha, rfl⟩
  · exact ⟨a', ha, rfl, ⟨n, hold, hversion⟩, fun _ => .refl _⟩
  · -- a new aggregate has never been saved
    have hbase : baseVersion (PrivacyRequestAggregate.create input) = 0 := rfl
    rcases hold with rfl | hack
    · omega
    · obtain ⟨a, ha, -⟩ := hw.acknowledgements _ hack
      exact absurd (List.getElem?_eq_some_iff.mp ha).1 (lt_irrefl _)
  · refine ⟨a, ha, ?_, ⟨n, hold, ?_⟩, fun hinv => ledgerContinues_after hinv [call]⟩
    · exact (congrArg CreatePrivacyRequest.id (progress_invoke a call).input).symm
    · rw [baseVersion_invoke a call]
      exact hversion
  · have hid : a.id = (acknowledged a count).id :=
      (congrArg CreatePrivacyRequest.id (progress_acknowledged a count).input).symm
    refine ⟨a, ha, hid, ?_, fun _ => ?_⟩
    · obtain ⟨a₁, ha₁, -, hle, -⟩ := hw.acknowledgements _ hen
      obtain rfl := Option.some.inj (ha.symm.trans ha₁)
      rw [baseVersion_acknowledged (show count ≤ a.events.length from hle)] at hversion
      rcases hn with rfl | hack
      · exact ⟨count, .inr hen, by omega⟩
      · have hother : (⟨i, n⟩ : Acknowledgement) ∈ w.acknowledgements.erase ⟨i, count⟩ := hack
        exact (hw.aggregate_ne hen hother rfl).elim
    · rw [acknowledged_attempts]
      exact .refl _

theorem Consistency.act_requestLedger (hw : Consistency w) (hen : w.Enabled action) {id : String}
    {row : RequestRow} {xs : List ExecutionAttempt} (h : RequestLedger w id row xs) :
    RequestLedger (w.act action) id row xs where
  version := h.version
  stores := by
    refine h.stores.congr (fun _ _ _ => ?_) rfl rfl
    rw [act_attempts]
  inv := h.inv
  completedAt := h.completedAt
  behind := by
    intro i a' ha' hid hsaved
    obtain ⟨a, ha, haid, hlast, hcont⟩ := hsaved.of_act hw.coupling hen h.version ha'
    exact (h.behind i a ha (haid.trans hid) hlast).trans (hcont (hw.ledgers i a ha))

theorem Consistency.act (hw : Consistency w) (hen : w.Enabled action)
    (hunique : UniqueAttemptIds (w.act action)) : Consistency (w.act action) where
  coupling := hw.coupling.act hen
  requests := by
    intro id row hrow
    rw [act_requests] at hrow
    obtain ⟨xs, h⟩ := hw.requests id row hrow
    exact ⟨xs, hw.act_requestLedger hen h⟩
  ledgers _ _ ha' := ledgerInv_act hw.ledgers ha'
  unique := hunique
  owned := by
    intro attemptId r hr
    rw [act_attempts] at hr
    rw [act_requests]
    obtain ⟨hrow, i, a, ha, hid, x, hx, rfl⟩ := hw.owned attemptId r hr
    have hcontinued : ∃ a', (w.act action).aggregates[i]? = some a' ∧ a'.id = a.id ∧
        LedgerContinues a.attempts a'.attempts := hw.act_continues ha
    obtain ⟨a', ha', hid', hcont⟩ := hcontinued
    obtain ⟨k, hk⟩ := List.getElem?_of_mem hx
    obtain ⟨y, hy, ⟨status, completedAt, rfl⟩, -⟩ := hcont k x hk
    exact ⟨hrow, i, a', ha', hid'.trans hid, _, List.mem_of_getElem? hy, rfl⟩
  envelopes := by
    rw [act_envelopes, act_requests]
    exact hw.envelopes

theorem frozen_act (w : World) (action : ProcessAction) : Frozen w (w.act action) where
  requests := by rw [act_requests]; exact .refl _
  settled := settled_act w action
  attempts := by
    intro _ _ _ _ _ _ attemptId r _
    rw [act_attempts]
  ended := by
    rw [act_attempts]
    exact fun _ _ hr _ => hr

theorem stays_act {live : TransactionRequest → Prop} (hok : exclusiveSaves.acts live w action)
    {request : TransactionRequest} (hlive : live request) :
    Stays request w (w.act action) := by
  refine stays_of (frozen_act w action) ?_
  rintro input rfl a ha
  obtain ⟨a', ha', -⟩ := (evolves_act [] w action).aggregates _ a ha
  refine ⟨a', ha', ?_⟩
  rcases act_aggregates_cases ha' with h | ⟨_, rfl, h, -⟩ | ⟨_, call, rfl, h, rfl⟩ |
    ⟨a₁, count, -, h, rfl⟩
  · rw [Option.some.inj (ha.symm.trans h)]
    exact ⟨rfl, rfl⟩
  · rw [h] at ha
    simp at ha
  · exact absurd rfl (hok.2.1 input hlive)
  · rw [Option.some.inj (ha.symm.trans h)]
    exact ⟨acknowledged_snapshot a₁ count, acknowledged_attempts a₁ count⟩

end Actions

/-! ## Commits -/

/-- What a commit does to requests and attempts: a request and its attempts stay as they are, or
    the request gets a higher version and has a ledger again. -/
structure LedgersMove (w w' : World) : Prop where
  requests : ∀ id row', w'.requests.find id = some row' →
    (w.requests.find id = some row' ∧ SameAttempts w w' id ∧
      ∀ ack ∈ w'.acknowledgements, ack ∈ w.acknowledgements ∨
        ∀ a, w.aggregates[ack.aggregate]? = some a → a.id ≠ id) ∨
    ((∀ row, w.requests.find id = some row → row.version < row'.version) ∧
      ∃ xs, RequestLedger w' id row' xs)
  ended : ∀ attemptId r, w.attempts.find attemptId = some r → r.completedAt ≠ none →
    w'.attempts.find attemptId = some r
  owned : ∀ attemptId r', w'.attempts.find attemptId = some r' →
    (∃ r, w.attempts.find attemptId = some r ∧ r.requestId = r'.requestId) ∨
      ((∃ row, w'.requests.find r'.requestId = some row) ∧ Owned w r'.requestId attemptId)

section Commit

variable {w w' : World}

theorem LedgersMove.frozen (h : LedgersMove w w')
    (hreq : RequestsEvolve w.requests w'.requests) (hsettled : Settled w w') : Frozen w w' where
  requests := hreq
  settled := hsettled
  attempts := by
    intro id row row' hrow hrow' hversion
    rcases h.requests id row' hrow' with ⟨-, hsame, -⟩ | ⟨hlt, -⟩
    · exact hsame
    · have := hlt row hrow
      omega
  ended := h.ended

theorem Consistency.of_ledgersMove (hw : Consistency w) (h : LedgersMove w w')
    (hcoupling : Coupling w') (haggregates : w'.aggregates = w.aggregates)
    (hreq : RequestsEvolve w.requests w'.requests)
    (henvelopes : ∀ id envelope, w'.envelopes.find id = some envelope →
      ∃ row, w.requests.find id = some row) : Consistency w' where
  coupling := hcoupling
  requests := by
    intro id row' hrow'
    rcases h.requests id row' hrow' with ⟨hrow, hsame, hacks⟩ | ⟨-, hledger⟩
    · obtain ⟨xs, hledger⟩ := hw.requests id row' hrow
      refine ⟨xs, hledger.version, hledger.stores.congr hsame rfl rfl, hledger.inv,
        hledger.completedAt, ?_⟩
      rintro i a ha hid ⟨n, hn, hversion⟩
      rw [haggregates] at ha
      refine hledger.behind i a ha hid ⟨n, hn.imp_right fun hack => ?_, hversion⟩
      exact (hacks _ hack).resolve_right fun hother => hother a ha hid
    · exact hledger
  ledgers := by
    rw [haggregates]
    exact hw.ledgers
  unique := by
    unfold UniqueAttemptIds
    rw [haggregates]
    exact hw.unique
  owned := by
    intro attemptId r' hr'
    have hsame : Owned w r'.requestId attemptId → Owned w' r'.requestId attemptId := by
      unfold Owned
      rw [haggregates]
      exact id
    rcases h.owned attemptId r' hr' with ⟨r, hr, hid⟩ | ⟨hrow, howned⟩
    · obtain ⟨⟨row, hrow⟩, howned⟩ := hw.owned attemptId r hr
      rw [hid] at hrow howned
      obtain ⟨row', hrow', -⟩ := hreq _ row hrow
      exact ⟨⟨row', hrow'⟩, hsame howned⟩
    · exact ⟨hrow, hsame howned⟩
  envelopes := by
    intro id envelope henvelope
    obtain ⟨row, hrow⟩ := henvelopes id envelope henvelope
    obtain ⟨row', hrow', -⟩ := hreq id row hrow
    exact ⟨row', hrow'⟩

/-- No aggregate was saved as late as this. -/
theorem Coupling.not_lastSaved (hw : Coupling w) {id : String} {row : RequestRow}
    (hrow : w.requests.find id = some row) {version : Nat} (hlt : row.version < version) {i : Nat}
    {a : PrivacyRequestAggregate} (ha : w.aggregates[i]? = some a) (hid : a.id = id) :
    ¬ LastSaved w i a version := by
  subst hid
  rintro ⟨n, hn | hack, hversion⟩
  · obtain ⟨row₁, hrow₁, hle, -⟩ := (hw.aggregates i a ha).saved (by omega)
    obtain rfl := Option.some.inj (hrow.symm.trans hrow₁)
    omega
  · obtain ⟨a₁, ha₁, -, -, row₁, hrow₁, hle, -⟩ := hw.acknowledgements _ hack
    obtain rfl := Option.some.inj (ha.symm.trans ha₁)
    obtain rfl := Option.some.inj (hrow.symm.trans hrow₁)
    change baseVersion a + n ≤ row.version at hle
    omega

/-- A request that a writer other than `save` has moved on. -/
theorem RequestLedger.advance {id : String} {row row' : RequestRow} {xs ys : List ExecutionAttempt}
    (h : RequestLedger w id row xs) (hw : Coupling w) (hrow : w.requests.find id = some row)
    (hlt : row.version < row'.version) (haggregates : w'.aggregates = w.aggregates)
    (hacks : w'.acknowledgements = w.acknowledgements) (hstores : StoresLedger w' id row' ys)
    (hinv : LedgerInv (storedAggregate id row' ys))
    (hcompleted : row'.completedAt.isSome = true ↔ finished row'.status) :
    RequestLedger w' id row' ys where
  version := h.version.trans hlt
  stores := hstores
  inv := hinv
  completedAt := hcompleted
  behind := by
    intro i a ha hid hsaved
    rw [haggregates] at ha
    rw [LastSaved, hacks] at hsaved
    exact absurd hsaved (hw.not_lastSaved hrow hlt ha hid)

end Commit

end ForgetOps.Database
