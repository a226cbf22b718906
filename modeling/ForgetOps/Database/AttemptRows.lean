import ForgetOps.Database.SaveEffect
import ForgetOps.Domain.Ledger

/-
  The attempt rows of a request, as the ledger they store.

  `StoresLedger w id row xs` says that the rows of the request `id` are just the attempts `xs`.
  `storedAggregate` reads a request and its ledger back as an aggregate, so that what the domain
  keeps of a ledger (`LedgerInv`) can be said of the tables. `leads_persistAttempts` is the loop of
  `persistAttempts` over a ledger that continues the stored one.
-/

namespace ForgetOps.Database

open Domain
open ReadCommitted RowStore

/-- The row the attempt `x` of the request `id` is stored as. -/
def storedAttempt (id : String) (row : RequestRow) (x : ExecutionAttempt) : AttemptRow :=
  { x with tenantId := row.tenantId, environmentId := row.environmentId, requestId := id }

def storedAggregate (id : String) (row : RequestRow) (xs : List ExecutionAttempt) :
    PrivacyRequestAggregate where
  id := id
  environmentId := row.environmentId
  type := row.type
  source := row.source
  policyVersion := row.policyVersion
  createdByActorId := row.createdByActorId
  deadlineAt := row.deadlineAt
  status := row.status
  version := row.version
  currentAttemptId := row.currentAttemptId
  plan := none
  approval := none
  latestPlanVersion := 0
  attempts := xs
  events := []

def StoresLedger (w : World) (id : String) (row : RequestRow) (xs : List ExecutionAttempt) :
    Prop :=
  ∀ attemptId r, w.attempts.find attemptId = some r ∧ r.requestId = id ↔
    ∃ x ∈ xs, x.id = attemptId ∧ r = storedAttempt id row x

/-- The attempts of a request, by their numbers. -/
def attemptsOf (w : World) (id : String) : List (String × AttemptRow) :=
  (w.attempts.entries.filter fun entry => entry.2.requestId = id).mergeSort
    fun a b => a.2.attemptNumber ≤ b.2.attemptNumber

section Reading

variable {w : World} {id : String} {row : RequestRow} {xs : List ExecutionAttempt}

theorem StoresLedger.stored (h : StoresLedger w id row xs) {x : ExecutionAttempt} (hx : x ∈ xs) :
    w.attempts.find x.id = some (storedAttempt id row x) :=
  ((h x.id _).mpr ⟨x, hx, rfl, rfl⟩).1

theorem StoresLedger.congr {w' : World} {row' : RequestRow} (h : StoresLedger w id row xs)
    (hrows : ∀ attemptId r, r.requestId = id →
      (w'.attempts.find attemptId = some r ↔ w.attempts.find attemptId = some r))
    (htenant : row'.tenantId = row.tenantId) (henv : row'.environmentId = row.environmentId) :
    StoresLedger w' id row' xs := by
  intro attemptId r
  have hsame (x : ExecutionAttempt) : storedAttempt id row' x = storedAttempt id row x := by
    rw [storedAttempt, htenant, henv]
    rfl
  simp only [hsame]
  rw [← h attemptId r]
  exact and_congr_left fun hid => hrows attemptId r hid

theorem nodup_attemptsOf (w : World) (id : String) : (attemptsOf w id).Nodup := by
  have hnodup : w.attempts.entries.Nodup := List.Nodup.of_map _ w.attempts.nodup
  exact (List.mergeSort_perm _ _).nodup_iff.mpr (hnodup.filter _)

theorem mem_attemptsOf {attemptId : String} {r : AttemptRow} :
    (attemptId, r) ∈ attemptsOf w id ↔ w.attempts.find attemptId = some r ∧ r.requestId = id := by
  rw [attemptsOf, List.mem_mergeSort, List.mem_filter, Table.mem_entries_iff, decide_eq_true_eq]

theorem attemptsOf_sorted (w : World) (id : String) :
    (attemptsOf w id).Pairwise fun e f => e.2.attemptNumber ≤ f.2.attemptNumber := by
  have hsorted : (attemptsOf w id).Pairwise fun e f =>
      decide (e.2.attemptNumber ≤ f.2.attemptNumber) = true := by
    unfold attemptsOf
    apply List.pairwise_mergeSort
    · intro e f g hef hfg
      rw [decide_eq_true_eq] at hef hfg ⊢
      exact hef.trans hfg
    · intro e f
      rw [Bool.or_eq_true, decide_eq_true_eq, decide_eq_true_eq]
      exact le_total _ _
  exact hsorted.imp of_decide_eq_true

/-- By their numbers the attempts come in the order of the ledger. -/
theorem StoresLedger.attemptsOf_eq (h : StoresLedger w id row xs)
    (hinv : LedgerInv (storedAggregate id row xs)) :
    attemptsOf w id = xs.map fun x => (x.id, storedAttempt id row x) := by
  have hnumbered : ∀ (i : Nat) (hi : i < xs.length), xs[i].attemptNumber = i + 1 :=
    fun i hi => hinv.numbered i xs[i] (List.getElem?_eq_getElem hi)
  have hids : (xs.map (·.id)).Nodup := hinv.nodup
  have hmem (e : String × AttemptRow) :
      e ∈ attemptsOf w id ↔ e ∈ xs.map fun x => (x.id, storedAttempt id row x) := by
    obtain ⟨attemptId, r⟩ := e
    rw [mem_attemptsOf, h attemptId r, List.mem_map]
    simp only [Prod.mk.injEq, eq_comm]
  have hnodup : (xs.map fun x => (x.id, storedAttempt id row x)).Nodup := by
    refine List.Nodup.of_map Prod.fst ?_
    rw [List.map_map]
    exact hids
  -- the number says which attempt it is
  have hnumber : ∀ e f : String × AttemptRow, e ∈ attemptsOf w id →
      f ∈ xs.map (fun x => (x.id, storedAttempt id row x)) →
      e.2.attemptNumber ≤ f.2.attemptNumber → f.2.attemptNumber ≤ e.2.attemptNumber → e = f := by
    intro e f he hf hef hfe
    rw [hmem] at he
    obtain ⟨x, hx, rfl⟩ := List.mem_map.mp he
    obtain ⟨y, hy, rfl⟩ := List.mem_map.mp hf
    obtain ⟨i, hi, rfl⟩ := List.getElem_of_mem hx
    obtain ⟨j, hj, rfl⟩ := List.getElem_of_mem hy
    have hxy : xs[i].attemptNumber = xs[j].attemptNumber := le_antisymm hef hfe
    rw [hnumbered i hi, hnumbered j hj] at hxy
    obtain rfl : i = j := by omega
    rfl
  refine List.Perm.eq_of_pairwise hnumber (attemptsOf_sorted w id) ?_
    ((List.perm_ext_iff_of_nodup (nodup_attemptsOf w id) hnodup).mpr hmem)
  rw [List.pairwise_map, List.pairwise_iff_getElem]
  intro i j hi hj hij
  show xs[i].attemptNumber ≤ xs[j].attemptNumber
  rw [hnumbered i hi, hnumbered j hj]
  omega

end Reading

/-! ## The loop of `persistAttempts` -/

section Loop

open PrivacyRequestRepository

variable {R : List Key → World → World → Prop} {w : World} {p p' : Point World Row}
  {tenantId : String} {snapshot : PrivacyRequestSnapshot}

theorem upsertAttempt_eq_none {attempt : ExecutionAttempt} {r : Option AttemptRow} :
    upsertAttempt tenantId snapshot attempt r = none ↔
      ∃ row, r = some row ∧ row.tenantId = tenantId ∧ row.completedAt ≠ none := by
  cases r with
  | none => simp [upsertAttempt]
  | some row =>
    by_cases htenant : row.tenantId = tenantId <;> by_cases hopen : row.completedAt = none <;>
      simp [upsertAttempt, htenant, hopen]

/-- What is stored under the id of the attempt `y`: nothing yet, or `y` as it was before. -/
def Upsertable (tenantId : String) (snapshot : PrivacyRequestSnapshot) (w : World)
    (y : ExecutionAttempt) : Prop :=
  w.attempts.find y.id = none ∨
    ∃ x, Continues x y ∧ completedAtCheck x ∧
      w.attempts.find y.id = some (attemptRow tenantId snapshot x)

/-- An upsert that takes the row leaves `y` in it. -/
theorem upsertAttempt_taken {y : ExecutionAttempt} {v : Option AttemptRow}
    (hup : Upsertable tenantId snapshot w y)
    (h : upsertAttempt tenantId snapshot y (w.attempts.find y.id) = some (true, v)) :
    v = some (attemptRow tenantId snapshot y) := by
  rcases hup with hnone | ⟨x, ⟨⟨status, completedAt, rfl⟩, -⟩, -, hrow⟩
  · rw [hnone] at h
    simpa [upsertAttempt, eq_comm] using h
  · rw [hrow] at h
    by_cases hopen : x.completedAt = none
    · simp only [upsertAttempt, attemptRow, ne_eq, not_true_eq_false, if_false, hopen, if_true,
        Option.some.injEq, Prod.mk.injEq, true_and] at h
      rw [← h]
      rfl
    · simp [upsertAttempt, attemptRow, hopen] at h

/-- An attempt that has ended is stored already. -/
theorem Upsertable.stored_of_ended {y : ExecutionAttempt} {r : AttemptRow}
    (hup : Upsertable tenantId snapshot w y) (hrow : w.attempts.find y.id = some r)
    (hended : r.completedAt ≠ none) :
    w.attempts.find y.id = some (attemptRow tenantId snapshot y) := by
  rcases hup with hnone | ⟨x, ⟨-, hsame⟩, hcheck, hx⟩
  · rw [hnone] at hrow
    cases hrow
  · obtain rfl := Option.some.inj (hx.symm.trans hrow)
    obtain rfl := hsame (hcheck.trans (Option.isSome_iff_ne_none.mpr hended))
    exact hx

theorem leads_persistAttempts {ys : List ExecutionAttempt} {a : Unit} (hR : Rely R)
    (hended : ∀ {u}, R (keys p.log) u w → ∀ id r, u.attempts.find id = some r →
      r.completedAt ≠ none → w.attempts.find id = some r)
    (hnodup : (ys.map (·.id)).Nodup) (hfree : ∀ y ∈ ys, .attempt y.id ∉ keys p.log)
    (hup : ∀ y ∈ ys, Upsertable tenantId snapshot w y)
    (h : Leads R w (persistAttempts tenantId snapshot ys) p a p') :
    (∀ y ∈ ys, (view w p'.log).attempts.find y.id = some (attemptRow tenantId snapshot y)) ∧
      ∀ id ∉ ys.map (·.id),
        (view w p'.log).attempts.find id = (view w p.log).attempts.find id := by
  induction ys generalizing p with
  | nil =>
    obtain ⟨-, hlog⟩ := leads_pure hR h
    rw [hlog]
    exact ⟨by simp, fun _ _ => rfl⟩
  | cons y ys ih =>
    obtain ⟨answer, mid, hupsert, h⟩ := leads_bind hR h
    obtain ⟨_, mid', hcheck, hrest⟩ := leads_bind hR h
    obtain ⟨hanswer, hlog⟩ := leads_failIf hR hcheck
    rw [List.map_cons, List.nodup_cons] at hnodup
    have hrow (u : World) : (view u p.log).attempts.find y.id = u.attempts.find y.id := by
      show row (view u p.log) (Key.attempt y.id) = row u (Key.attempt y.id)
      exact row_view_of_notMem (hfree y List.mem_cons_self)
    -- what the upsert leaves behind, and that it holds no other row
    have hthis : (view w mid'.log).attempts.find y.id = some (attemptRow tenantId snapshot y) ∧
        (∀ id, id ≠ y.id →
          (view w mid'.log).attempts.find id = (view w p.log).attempts.find id) ∧
        ∀ k ∈ keys mid'.log, k ∈ keys p.log ∨ k = Key.attempt y.id := by
      rw [hlog]
      have hupy := hup y List.mem_cons_self
      rcases leads_update hR hupsert with ⟨b, v, rfl, hq, hmid⟩ | ⟨-, hmid, u, hq, -, huw⟩
      · have hb : b = true := by
          cases b with
          | true => rfl
          | false => exact absurd rfl hanswer
        subst hb
        change upsertAttempt _ _ _ ((view w p.log).attempts.find y.id) = _ at hq
        rw [hrow w] at hq
        have hv := upsertAttempt_taken hupy hq
        rw [hmid, view_concat, keys_concat, hv]
        refine ⟨Table.find_set_self _ _ _, fun id hid => Table.find_set_of_ne _ _ hid, ?_⟩
        simp
      · obtain ⟨r, hr, -, hended'⟩ := upsertAttempt_eq_none.mp hq
        have hr' : u.attempts.find y.id = some r := (hrow u).symm.trans hr
        rw [hmid]
        refine ⟨?_, fun _ _ => rfl, fun k hk => .inl hk⟩
        rw [hrow w]
        exact hupy.stored_of_ended (hended huw _ _ hr' hended') hended'
    obtain ⟨hstored, hframe, hkeys⟩ := hthis
    have hsub : keys p.log ⊆ keys mid'.log :=
      List.Subset.trans hupsert.keys_subset hcheck.keys_subset
    obtain ⟨hall, hothers⟩ := ih (fun huw => hended (hR.mono hsub huw)) hnodup.2
      (by
        intro y' hy' hmem
        rcases hkeys _ hmem with hmem | heq
        · exact hfree y' (List.mem_cons_of_mem _ hy') hmem
        · injection heq with heq
          exact hnodup.1 (heq ▸ List.mem_map_of_mem hy'))
      (fun y' hy' => hup y' (List.mem_cons_of_mem _ hy')) hrest
    constructor
    · intro y' hy'
      rcases List.mem_cons.mp hy' with rfl | hy'
      · rw [hothers _ hnodup.1]
        exact hstored
      · exact hall y' hy'
    · intro id hid
      rw [List.map_cons, List.mem_cons, not_or] at hid
      rw [hothers id hid.2, hframe id hid.1]

end Loop

end ForgetOps.Database
