import ForgetOps.Database.IdempotencyRepository
import ForgetOps.Library.ThrownScripts
import ForgetOps.Library.SequentialRuns

/-
  The idempotency protocol, over all interleavings of claims and completions.

  The record of a key says what has been returned for it: the hash of the one claim that returned
  `claimed`, and the response of the one completion (`RecordInv`). Records are never taken back,
  keep their hash, and stay as they are once they are completed (`Keeps`), so that whatever a claim
  has read of its record still goes with it when the claim commits.
-/

namespace ForgetOps.Database.Idempotency

open ReadCommitted RowStore

variable {Value : Type}

/-! ## The history of a key -/

/-- The hash of a claim of the key that has returned `claimed`. -/
def Entry.claimedHash (k : RecordKey) (e : Entry Value) : Option String :=
  match e.request, e.answer with
  | .claim tenantId command _ _, some .claimed =>
    if command.key tenantId = k then some command.requestHash else none
  | _, _ => none

/-- The hash of a completion of the key, and what is replayed of it. -/
def Entry.completion (json : JsonColumn Value) (k : RecordKey) (e : Entry Value) :
    Option (String × IdempotencyClaim Value) :=
  match e.request with
  | .complete tenantId command =>
    if command.key tenantId = k then
      some (command.requestHash,
        .replay command.responseStatus (json.reread command.responseBody))
    else none
  | .claim .. => none

/-- The hashes of the claims of the key that returned `claimed`, in order. -/
def claimedHashes (k : RecordKey) (history : List (Entry Value)) : List String :=
  history.filterMap (Entry.claimedHash k)

def completions (json : JsonColumn Value) (k : RecordKey) (history : List (Entry Value)) :
    List (String × IdempotencyClaim Value) :=
  history.filterMap (Entry.completion json k)

/-- A claim that has returned behind `before`, of which it had seen the first `since` entries when
    it was called: it is the first one, or has the hash of the first one and answers for the
    completion, if there is one. A completion that returned during the claim counts or not. -/
def ClaimFits (json : JsonColumn Value) (k : RecordKey) (before : List (Entry Value))
    (requestHash : String) (since : Nat) (answer : Option (IdempotencyClaim Value)) : Prop :=
  (answer = some .claimed ∧ claimedHashes k before = [] ∧ completions json k before = []) ∨
    (claimedHashes k before = [requestHash] ∧
      ((answer = some .inProgress ∧ completions json k (before.take since) = []) ∨
        ∃ replay, answer = some replay ∧ completions json k before = [(requestHash, replay)]))

/-- A completion that has returned behind `before`: it is the first one, and has the hash of the
    claim. -/
def CompletionFits (json : JsonColumn Value) (k : RecordKey) (before : List (Entry Value))
    (requestHash : String) : Prop :=
  claimedHashes k before = [requestHash] ∧ completions json k before = []

def Fits (json : JsonColumn Value) (before : List (Entry Value)) (e : Entry Value) : Prop :=
  match e.request with
  | .claim tenantId command _ since =>
    ClaimFits json (command.key tenantId) before command.requestHash since e.answer
  | .complete tenantId command =>
    CompletionFits json (command.key tenantId) before command.requestHash

/-! ## The invariant -/

/-- What a completed record is replayed as. -/
def IdempotencyRow.replay (json : JsonColumn Value) (row : IdempotencyRow) :
    Option (IdempotencyClaim Value) :=
  row.responseStatus.map fun status =>
    .replay status ((row.responseBody.map json.parse).getD json.null)

/-- The record of the key, if there is one, goes with what was returned. -/
def RecordInv (json : JsonColumn Value) (k : RecordKey) (history : List (Entry Value)) :
    Option IdempotencyRow → Prop
  | none => claimedHashes k history = [] ∧ completions json k history = []
  | some row => claimedHashes k history = [row.requestHash] ∧
      completions json k history = (row.replay json).toList.map fun replay =>
        (row.requestHash, replay)

structure ProtocolInv (json : JsonColumn Value) (w : Store Value) : Prop where
  records : ∀ k, RecordInv json k w.history (w.records.find k)
  history : ∀ before e after, w.history = before ++ e :: after → Fits json before e

/-- Records are there for good, and a completed one does not change. -/
structure RowKept (row row' : IdempotencyRow) : Prop where
  requestHash : row'.requestHash = row.requestHash
  same : row.responseStatus ≠ none → row' = row

/-- What any transaction can count on. -/
structure Keeps (held : List RecordKey) (w w' : Store Value) : Prop where
  agree : ∀ k ∈ held, w.records.find k = w'.records.find k
  records : ∀ k row, w.records.find k = some row →
    ∃ row', w'.records.find k = some row' ∧ RowKept row row'
  history : w.history <+: w'.history

section Scripts

variable {R : List RecordKey → Store Value → Store Value → Prop} {json : JsonColumn Value}
  {tenantId : String} {u w : Store Value} {log : Log fun _ : RecordKey => Option IdempotencyRow}

end Scripts

/-! ## The commits -/

section Commits

variable {json : JsonColumn Value} {k : RecordKey} {request : Request Value}
  {answer : Option (IdempotencyClaim Value)} {u w : Store Value}
  {log : Log fun _ : RecordKey => Option IdempotencyRow}

theorem forall_concat {α : Type} {P : List α → α → Prop} {xs : List α} {x : α}
    (hxs : ∀ before y after, xs = before ++ y :: after → P before y) (hx : P xs x) :
    ∀ before y after, xs ++ [x] = before ++ y :: after → P before y := by
  intro before y after h
  rcases List.eq_nil_or_concat after with rfl | ⟨after, z, rfl⟩
  · obtain ⟨rfl, heq⟩ := List.append_inj' h rfl
    cases heq
    exact hx
  · rw [List.concat_eq_append, ← List.cons_append, ← List.append_assoc] at h
    exact hxs before y after (List.append_inj' h rfl).1

theorem view_history (w : Store Value) (log : Log fun _ : RecordKey => Option IdempotencyRow) :
    (view w log).history = w.history :=
  view_frame (K := fun _ => True) Store.history (fun _ _ _ _ => rfl) fun _ _ => trivial

theorem settle_history : ((system json).settle request answer (view w log)).history =
    w.history ++ [⟨request, answer⟩] := by
  show (view w log).history ++ [⟨request, answer⟩] = _
  rw [view_history]

variable (json) in
/-- An entry of another key. -/
theorem Entry.other_key {e : Entry Value} (hk : e.request.key ≠ k) :
    e.claimedHash k = none ∧ e.completion json k = none := by
  obtain ⟨request, answer⟩ := e
  cases request with
  | claim tenantId command now since =>
    refine ⟨?_, rfl⟩
    rcases answer with _ | _ | _ | _
    · rfl
    · exact if_neg hk
    · rfl
    · rfl
  | complete tenantId command => exact ⟨rfl, if_neg hk⟩

/-- What goes on with other keys does not matter. -/
theorem RecordInv.concat {history : List (Entry Value)} {row : Option IdempotencyRow}
    (h : RecordInv json k history row) {e : Entry Value} (hclaimed : e.claimedHash k = none)
    (hcompletion : e.completion json k = none) : RecordInv json k (history ++ [e]) row := by
  have hhashes : claimedHashes k (history ++ [e]) = claimedHashes k history := by
    simp [claimedHashes, hclaimed]
  have hcompletions : completions json k (history ++ [e]) = completions json k history := by
    simp [completions, hcompletion]
  cases row with
  | none => exact ⟨hhashes.trans h.1, hcompletions.trans h.2⟩
  | some row => exact ⟨hhashes.trans h.1, hcompletions.trans h.2⟩

/-- A commit that writes its own record, or none. -/
theorem ProtocolInv.settle (hw : ProtocolInv json w) (hfits : Fits json w.history ⟨request, answer⟩)
    (hthis : RecordInv json request.key (w.history ++ [⟨request, answer⟩])
      ((view w log).records.find request.key))
    (hothers : ∀ k, k ≠ request.key → (view w log).records.find k = w.records.find k) :
    ProtocolInv json ((system json).settle request answer (view w log)) where
  records := by
    intro k
    rw [settle_history]
    by_cases hk : k = request.key
    · rw [hk]
      exact hthis
    · obtain ⟨hclaimed, hcompletion⟩ :=
        Entry.other_key json (e := ⟨request, answer⟩) (Ne.symm hk)
      show RecordInv json k _ ((view w log).records.find k)
      rw [hothers k hk]
      exact (hw.records k).concat hclaimed hcompletion
  history := by
    rw [settle_history]
    exact forall_concat hw.history hfits

end Commits

/-! ## The protocol -/

section Runs

variable {json : JsonColumn Value} {k : RecordKey} {w : Store Value}

end Runs

/-! ### A key that is claimed, completed and replayed -/

def firstClaim : IdempotencyCommand where
  scope := "privacy_requests.create"
  actorId := "usr_1"
  idempotencyKey := "idem_1"
  requestHash := "sha256:request-a"
  expiresAt := 10

def firstKey : RecordKey := firstClaim.key "t"

end ForgetOps.Database.Idempotency
