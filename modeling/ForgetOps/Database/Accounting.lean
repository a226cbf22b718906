import ForgetOps.Database.Evolution
import ForgetOps.Database.Sequential

/-
  Versions and their audit and outbox events, under all interleavings.

  A save moves the version by the number of its events, a binding by one for each request it
  writes. A forced replacement moves it without recording anything: `noForcedWork` are the runs in
  which no forced replacement finds open work.
-/

namespace ForgetOps.Database

open Domain Api
open ReadCommitted RowStore

/-- The stored version of the request, or 0. -/
def storedVersion (w : World) (id : String) : Nat := ((w.requests.find id).map (·.version)).getD 0

/-- The number of audit rows of the request. -/
def auditCount (w : World) (id : String) : Nat :=
  w.auditEvents.values.countP fun row => row.requestId = some id

/-- The number of outbox rows of the request. -/
def outboxCount (w : World) (id : String) : Nat :=
  w.outboxEvents.values.countP fun row => row.aggregateId = id

/-- Every request has as many audit rows, and as many outbox rows, as its version says. -/
def Accounted (w : World) : Prop :=
  ∀ id, auditCount w id = storedVersion w id ∧ outboxCount w id = storedVersion w id

/-- No forced replacement finds open work. -/
def noForcedWork : Discipline where
  commits w request :=
    match request with
    | .consumeAndPair input =>
      ∀ token, Presented w input token → ∀ id row, ¬ Reviewable w token id row
    | _ => True
  acts _ _ _ := True

/-! ## Counting -/

theorem countP_values_set {ρ : Type} {t : Table String ρ} {k : String} (h : t.find k = none)
    (v : ρ) (p : ρ → Bool) :
    (t.set k (some v)).values.countP p = t.values.countP p + if p v then 1 else 0 := by
  rw [Table.values_set_of_none h, List.countP_append, List.countP_singleton]

/-- Appending counts every event once in each table. -/
theorem Appends.counts {rt : Runtime} {events : List (AuditEventWithoutHashes Payload)}
    {w w' : World} (h : Appends rt events w w') (id : String) :
    auditCount w' id = auditCount w id + (events.map (·.requestId)).count (some id) ∧
      outboxCount w' id = outboxCount w id + (events.map (·.requestId)).count (some id) := by
  induction h with
  | nil => simp
  | @lock _ w _ t e _ ih =>
    have ha : auditCount (withHead t e w) id = auditCount w id := by
      rw [auditCount, withHead_auditEvents, ← auditCount]
    have ho : outboxCount (withHead t e w) id = outboxCount w id := by
      rw [outboxCount, withHead_outboxEvents, ← outboxCount]
    rw [ha, ho] at ih
    exact ih
  | @append event events requestId head hash w w' hrequest _ _ _ haudit houtbox _ ih =>
    obtain ⟨iha, iho⟩ := ih
    have ha : auditCount (appendEvent w event requestId head hash) id =
        auditCount w id + if event.requestId = some id then 1 else 0 := by
      rw [auditCount, appendEvent, countP_values_set haudit, ← auditCount]
      by_cases hid : event.requestId = some id <;> simp [auditRow, hid]
    have ho : outboxCount (appendEvent w event requestId head hash) id =
        outboxCount w id + if event.requestId = some id then 1 else 0 := by
      rw [outboxCount, appendEvent, countP_values_set houtbox, hrequest, ← outboxCount]
      by_cases hid : requestId = id <;> simp [outboxRow, hid]
    rw [iha, iho, ha, ho, List.map_cons, List.count_cons]
    by_cases hid : event.requestId = some id
    · simp only [hid, if_true, beq_self_eq_true]
      omega
    · simp [hid]

theorem storedVersion_set {w : World} {W : World} {id : String} {row : RequestRow}
    (h : W.requests = w.requests.set id (some row)) (id' : String) :
    storedVersion W id' = if id' = id then row.version else storedVersion w id' := by
  rw [storedVersion, h]
  by_cases hid : id' = id
  · simp [hid]
  · simp [hid, storedVersion]

theorem storedVersion_congr {w W : World} (h : W.requests = w.requests) (id : String) :
    storedVersion W id = storedVersion w id := by
  rw [storedVersion, h, storedVersion]

/-- The events recorded since `w` account for the versions since. -/
theorem Accounted.of_appends {rt : Runtime} {events : List (AuditEventWithoutHashes Payload)}
    {w W w' : World} (hw : Accounted w) (haudit : W.auditEvents = w.auditEvents)
    (houtbox : W.outboxEvents = w.outboxEvents) (happ : Appends rt events W w')
    (hversion : ∀ id, storedVersion W id =
      storedVersion w id + (events.map (·.requestId)).count (some id)) : Accounted w' := by
  intro id
  obtain ⟨ha, ho⟩ := happ.counts id
  obtain ⟨hwa, hwo⟩ := hw id
  rw [ha, ho, storedVersion_congr happ.requests, hversion, ← hwa]
  rw [auditCount, haudit, outboxCount, houtbox, ← auditCount, ← outboxCount, hwo, hwa]
  exact ⟨rfl, rfl⟩

theorem Accounted.of_eq {w w' : World} (h : Accounted w) (hrequests : w'.requests = w.requests)
    (haudit : w'.auditEvents = w.auditEvents) (houtbox : w'.outboxEvents = w.outboxEvents) :
    Accounted w' := by
  intro id
  rw [auditCount, haudit, outboxCount, houtbox, storedVersion, hrequests]
  exact h id

/-! ## The three transactions -/

section Commit

variable {R : List Key → World → World → Prop} {rt : Runtime} {u w : World} {log : Log Row}

open PrivacyRequestRepository in
theorem accounted_save {input : SaveRequest} {a : Unit} (hR : Rely R) (h : Accounted w)
    (hrun : Completes R w (save rt input) ⟨u, []⟩ a ⟨w, log⟩) : Accounted (view w log) := by
  obtain ⟨-, -, hversion, -⟩ := save_effect hR hrun
  obtain ⟨row', W, sequence, hpersisted, hrequests, haudit, houtbox, -, happ⟩ :=
    save_records hR hrun
  refine h.of_appends haudit houtbox happ fun id => ?_
  have hids : (recordedEvents input.tenantId input.snapshot input.stamps 0 sequence
      input.pendingEvents).map (·.requestId) =
      List.replicate input.pendingEvents.length (some input.snapshot.id) := by
    rw [List.eq_replicate_iff, List.length_map, length_recordedEvents]
    refine ⟨rfl, fun requestId hmem => ?_⟩
    obtain ⟨event, hevent, rfl⟩ := List.mem_map.mp hmem
    exact requestId_of_mem_recordedEvents hevent
  -- the row was at the expected version, or was not there and 0 was expected
  have hrow : row'.version = storedVersion w input.snapshot.id + input.pendingEvents.length := by
    rcases hpersisted with ⟨hzero, hnone, rfl⟩ | ⟨-, row, hrow, -, -, hexpected, rfl⟩
    · rw [storedVersion, hnone]
      show input.snapshot.version = _
      simp only [Option.map_none, Option.getD_none]
      omega
    · rw [storedVersion, hrow]
      show input.snapshot.version = _
      simp only [Option.map_some, Option.getD_some]
      omega
  rw [storedVersion_set hrequests, hids, List.count_replicate]
  by_cases hid : id = input.snapshot.id
  · subst hid
    simpa using hrow
  · simp [hid, Ne.symm hid]

open SubjectBinding in
theorem accounted_bindSubject {input : BindSubjectRequest} {a : SubjectBindingResult}
    (hR : Rely R) (h : Accounted w)
    (hrun : Completes R w (bindSubjectInTransaction rt input) ⟨u, []⟩ a ⟨w, log⟩) :
    Accounted (view w log) := by
  rcases bindSubject_effect hR hrun with hsame | ⟨initial, row, candidates, hb⟩
  · exact h.of_eq hsame.requests hsame.auditEvents hsame.outboxEvents
  obtain ⟨W, events, hrequests, -, haudit, houtbox, -, hids, happ⟩ := hb.decided.written
  refine h.of_appends haudit houtbox happ fun id => ?_
  rw [hids, storedVersion, hrequests, decidedRequests, storedVersion]
  have hversion : ((w.requests.find input.requestId).map (·.version)).getD 0 = row.version := by
    rw [hb.stored]
    rfl
  cases hc : (decideBinding rt input row candidates.head?).cancelled with
  | none =>
    by_cases hid : id = input.requestId
    · subst hid
      rw [hversion]
      simp [boundRow]
    · simp [hid, Ne.symm hid]
  | some other =>
    obtain ⟨candidate, hmem, -⟩ := cancelled_decideBinding hc
    obtain ⟨hfound, -, hne⟩ := hb.duplicates.valid _ hmem
    dsimp only at hfound hne
    by_cases hid : id = input.requestId
    · subst hid
      rw [hversion]
      simp [boundRow, hne]
    · by_cases hother : id = other
      · subst hother
        simp [hid, hfound, cancelledRow]
      · simp [hid, hother, Ne.symm hid, Ne.symm hother]

open Pairing in
theorem accounted_consumeAndPair {input : ConsumeAndPairInput} {a : AgentRow} (hR : Rely R)
    (hE : ∀ {held w w'}, R held w w' → Evolves held w w') (h : Accounted w)
    (hwork : ∀ token, Presented w input token → ∀ id row, ¬ Reviewable w token id row)
    (hrun : Completes R w (consumeAndPair input) ⟨u, []⟩ a ⟨w, log⟩) : Accounted (view w log) := by
  rcases consumeAndPair_effect hR hrun with hsame | ⟨token, affected, p₀, p₁, p₂, hf⟩
  · exact h.of_eq hsame.requests hsame.auditEvents hsame.outboxEvents
  intro id
  have hrequest : (view w log).requests.find id = w.requests.find id := by
    rw [hf.after_requests]
    rcases hf.requests id with ⟨row, hrow, haffected, -⟩ | ⟨hsame, -⟩
    · exact absurd (reviewable_of_forced hf hrow haffected)
        (hwork token (presented_of_forced hE hf) id row)
    · exact hsame
  rw [auditCount, hf.after_auditEvents, outboxCount, hf.after_outboxEvents, storedVersion,
    hrequest]
  exact h id

end Commit

theorem accounted_initial : Accounted World.initial := fun _ => ⟨rfl, rfl⟩

theorem guarantee_accounted (rt : Runtime) :
    Guarantee (system rt noForcedWork) Accounted (Relies fun _ _ _ => True) := by
  refine guarantee_of_commit ?_ ?_
  · intro w action h
    cases action <;> exact h.of_eq rfl rfl rfl
  · intro w u request log R hR hE h hok hrun
    cases request with
    | save input => exact (accounted_save hR h hrun).of_eq rfl rfl rfl
    | bindSubject input =>
      obtain ⟨a, hbind⟩ := completes_discard hR hrun
      exact accounted_bindSubject hR h hbind
    | consumeAndPair input =>
      obtain ⟨a, hpair⟩ := completes_discard hR hrun
      exact accounted_consumeAndPair hR hE h hok hpair
    | other write =>
      obtain ⟨hsame, -⟩ := other_effect hR hrun
      exact h.of_eq hsame.requests hsame.auditEvents hsame.outboxEvents

/-- **Version and audit accounting.** In every run in which no forced replacement finds open work,
    every request has exactly as many audit rows and outbox rows as its version says. -/
theorem version_accounted_without_forcedWork (rt : Runtime) (c : Configuration)
    (hc : Reachable rt noForcedWork c) (id : String) :
    auditCount c.world id = storedVersion c.world id ∧
      outboxCount c.world id = storedVersion c.world id :=
  ReadCommitted.Reachable.invariant (guarantee_accounted rt) accounted_initial hc id

theorem obeys_noForcedWork : Obeys onlySaves noForcedWork where
  acts _ _ _ := trivial
  commits w request hok := by
    rw [onlySaves] at hok
    split at hok
    · next heq => rw [heq]; trivial
    · next heq => rw [heq]; trivial
    · cases hok

/-- A first request is at version 5, with five audit rows and five outbox rows. -/
theorem version_accounted_of_first_request :
    let w := playedWorld onlySaves savedMoves
    storedVersion w "r" = 5 ∧ auditCount w "r" = storedVersion w "r" ∧
      outboxCount w "r" = storedVersion w "r" := by
  intro w
  have hplayed : play firstRuntime onlySaves World.initial savedMoves = some savedWorld :=
    savedMoves_played fun _ _ h => (Bool.and_eq_true_iff.mp h).1
  have hw : w = savedWorld := playedWorld_eq hplayed
  have hreach : Reachable firstRuntime noForcedWork ⟨w, fun _ => none⟩ := by
    rw [hw]
    exact play_reachable obeys_noForcedWork hplayed
  refine ⟨?_, version_accounted_without_forcedWork firstRuntime _ hreach "r"⟩
  rw [hw]
  rfl

/-- A forced replacement of its agent puts the request to version 6 and records nothing. -/
theorem version_accounting_fails_when_forced :
    ¬ ∀ (rt : Runtime) (c : Configuration), Reachable rt anyRun c → ∀ id,
      auditCount c.world id = storedVersion c.world id ∧
        outboxCount c.world id = storedVersion c.world id := by
  intro h
  have hplayed : play firstRuntime (fun _ _ => true) World.initial
      (tokenMoves ++ [.transact fun _ => .consumeAndPair firstPairing]) = some forcedWorld := by
    rw [play_append, tokenMoves_played, Option.bind_some, forcedMoves_played]
  have hcount := (h firstRuntime _ (play_reachable (obeys_anyRun _) hplayed) "r").1
  revert hcount
  decide

end ForgetOps.Database
