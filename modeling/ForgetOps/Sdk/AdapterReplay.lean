import ForgetOps.Sdk.AdapterRequest
import ForgetOps.Library.IsoTimestamp

/-
  How often one signed request passes.

  The window of a signature lies around its timestamp, before and after it; the nonce is kept from
  the receipt on. A request that is dated after its receipt therefore outlives its nonce. A run in
  which no request is presented, with its signature in the window, at two clocks more than a minute
  apart lets each request pass once: `passes_once`.
-/

namespace ForgetOps.AdapterSdk

/-- One call of `fetch`. -/
structure Call where
  request : AdapterRequest
  nowMs : Int
  io : FileIo

/-- What makes two calls the same signed request. -/
def Call.signed (c : Call) : String × String × List UInt8 × String :=
  (c.request.timestamp, c.request.nonce, c.request.body, c.request.signature)

/-- The signature of the call is accepted at its clock. -/
def Call.Verified (a : Adapter) (c : Call) : Prop := a.checkRequest c.request c.nowMs = .ok ()

def Call.presentation (a : Adapter) (c : Call) : ReplayGuard.Presentation String FileIo where
  id := c.request.nonce
  now := c.nowMs
  io := c.io
  asks := a.checkRequest c.request c.nowMs matches .ok ()

section Runs

variable {σ : Type} (a : Adapter) (store : ReplayGuard String σ FileIo)

/-- The calls in order, each with whether it passes the checks of signature and nonce. -/
def passes : σ → List Call → List (Call × Bool)
  | _, [] => []
  | s, c :: calls =>
    (c, (a.acceptRequest store s c.io c.request c.nowMs).1 matches .ok ()) ::
      passes (a.acceptRequest store s c.io c.request c.nowMs).2 calls

/-- Each signed request passes once at most. -/
def PassesOnce (outcomes : List (Call × Bool)) : Prop :=
  ∀ signed, outcomes.countP (fun o => o.1.signed = signed ∧ o.2) ≤ 1

/-- The readings of the clock do not decrease. -/
def ClockRuns (calls : List Call) : Prop := calls.Pairwise fun c d => c.nowMs ≤ d.nowMs

/-- No signed request is verified at two clocks further apart than the window. -/
def WithinWindow (calls : List Call) : Prop :=
  calls.Pairwise fun c d => c.signed = d.signed → c.Verified a → d.Verified a →
    d.nowMs ≤ c.nowMs + adapterAcceptanceWindowMs

variable {a store}

theorem verified_iff {c : Call} : (c.presentation a).asks = true ↔ c.Verified a := by
  unfold Call.presentation Call.Verified
  dsimp only
  cases a.checkRequest c.request c.nowMs <;> simp

variable (a store) in
/-- A call is a step of the guard. -/
theorem acceptRequest_step (s : σ) (c : Call) :
    ((a.acceptRequest store s c.io c.request c.nowMs).1 matches .ok (),
        (a.acceptRequest store s c.io c.request c.nowMs).2) =
      store.step adapterAcceptanceWindowMs s (c.presentation a) := by
  unfold Adapter.acceptRequest ReplayGuard.step Call.presentation
  cases a.checkRequest c.request c.nowMs with
  | error e => rfl
  | ok =>
    dsimp only
    cases store.consume s c.io c.request.nonce (c.nowMs + adapterAcceptanceWindowMs) c.nowMs with
    | mk outcome s' =>
      cases outcome with
      | error e => rfl
      | ok passed => cases passed <;> rfl

theorem passes_run (s : σ) (calls : List Call) :
    (passes a store s calls).map (fun o => (o.1.presentation a, o.2)) =
      store.run adapterAcceptanceWindowMs s (calls.map (Call.presentation a)) := by
  induction calls generalizing s with
  | nil => rfl
  | cons c calls ih =>
    have hstep := acceptRequest_step a store s c
    rw [passes, List.map_cons, List.map_cons, ReplayGuard.run, ih, ← hstep]

variable (a store) in
theorem map_fst_passes (s : σ) (calls : List Call) : (passes a store s calls).map (·.1) = calls := by
  induction calls generalizing s with
  | nil => rfl
  | cons c calls ih => rw [passes, List.map_cons, ih]

/-- What passes is verified. -/
theorem verified_of_passes {s : σ} {calls : List Call} {o : Call × Bool}
    (ho : o ∈ passes a store s calls) (hpass : o.2 = true) : o.1.Verified a := by
  induction calls generalizing s with
  | nil => cases ho
  | cons c calls ih =>
    rcases List.mem_cons.mp ho with rfl | ho
    · have hstep := congrArg Prod.fst (acceptRequest_step a store s c)
      rw [← verified_iff]
      exact (ReplayGuard.step_fst.mp (hstep.symm.trans hpass)).1
    · exact ih ho

/-- No two of a list satisfy a predicate that only one of each pair does. -/
theorem countP_le_one {α : Type} {l : List α} {p : α → Bool}
    (h : l.Pairwise fun x y => p x = true → p y = false) : l.countP p ≤ 1 := by
  induction l with
  | nil => exact Nat.zero_le 1
  | cons x l ih =>
    rw [List.pairwise_cons] at h
    rw [List.countP_cons]
    split_ifs with hx
    · have hzero : l.countP p = 0 := by
        rw [List.countP_eq_zero]
        intro y hy
        rw [h.1 y hy hx]
        decide
      omega
    · have hrest := ih h.2
      omega

/-- With either store, a run within the window lets each request pass once. -/
theorem passesOnce {calls : List Call} (hclock : ClockRuns calls) (hwindow : WithinWindow a calls)
    (s : σ) : PassesOnce (passes a store s calls) := by
  have hapart : (passes a store s calls).Pairwise fun x y => x.2 = true → y.2 = true →
      x.1.request.nonce = y.1.request.nonce →
        x.1.nowMs + adapterAcceptanceWindowMs < y.1.nowMs := by
    have hpresented : (calls.map (Call.presentation a)).Pairwise fun x y => x.now ≤ y.now :=
      List.pairwise_map.mpr hclock
    have hrun := ReplayGuard.accepted_apart store adapterAcceptanceWindowMs s hpresented
    rw [← passes_run, List.pairwise_map] at hrun
    exact hrun
  have hwithin : (passes a store s calls).Pairwise fun x y => x.1.signed = y.1.signed →
      x.1.Verified a → y.1.Verified a →
        y.1.nowMs ≤ x.1.nowMs + adapterAcceptanceWindowMs := by
    have hcalls := hwindow
    unfold WithinWindow at hcalls
    rw [← map_fst_passes a store s calls, List.pairwise_map] at hcalls
    exact hcalls
  intro signed
  apply countP_le_one
  refine (hapart.and hwithin).imp_of_mem ?_
  rintro x y hx hy ⟨hgap, hclose⟩ hpx
  rw [decide_eq_true_eq] at hpx
  rw [decide_eq_false_iff_not]
  rintro ⟨hsame, hpy⟩
  have hsigned : x.1.signed = y.1.signed := hpx.1.trans hsame.symm
  have hnonce : x.1.request.nonce = y.1.request.nonce := (Prod.mk.inj (Prod.mk.inj hsigned).2).1
  have hlate := hgap hpx.2 hpy hnonce
  have hearly := hclose hsigned (verified_of_passes hx hpx.2) (verified_of_passes hy hpy)
  omega

end Runs

/-- A verified timestamp is read, and lies in the window around the clock. -/
theorem window_of_verified {a : Adapter} {c : Call} (h : c.Verified a) :
    ∃ timestampMs, a.cryptography.dateParse c.request.timestamp = some timestampMs ∧
      |c.nowMs - timestampMs| ≤ adapterAcceptanceWindowMs := by
  unfold Call.Verified Adapter.checkRequest at h
  split_ifs at h with _ _ _ _ hverify
  unfold verifyAdapterSignature at hverify
  split_ifs at hverify
  · exact absurd rfl hverify
  · split at hverify
    · exact absurd rfl hverify
    · next timestampMs hdate =>
      split_ifs at hverify with hwindow
      · exact absurd rfl hverify
      · exact ⟨timestampMs, hdate, not_lt.mp hwindow⟩

/-- Requests that are not dated after their receipt stay within the window. -/
theorem withinWindow_of_dated {a : Adapter} {calls : List Call}
    (h : ∀ c ∈ calls, c.Verified a → ∀ timestampMs,
      a.cryptography.dateParse c.request.timestamp = some timestampMs → timestampMs ≤ c.nowMs) :
    WithinWindow a calls := by
  refine List.pairwise_of_forall_mem_list fun c hc d _ hsigned hcv hdv => ?_
  obtain ⟨timestampMs, hdate, -⟩ := window_of_verified hcv
  obtain ⟨timestampMs', hdate', hwindow⟩ := window_of_verified hdv
  have htimestamp : c.request.timestamp = d.request.timestamp := (Prod.mk.inj hsigned).1
  rw [← htimestamp, hdate, Option.some.injEq] at hdate'
  subst hdate'
  have hdated := h c hc hcv timestampMs hdate
  have hlate := (abs_le.mp hwindow).2
  omega

/-- In a run whose clock does not run back and that stays within the window, each signed request
    passes once at most, with the nonces in memory and with any file of nonces. -/
theorem passes_once (a : Adapter) (calls : List Call) (hclock : ClockRuns calls)
    (hwindow : WithinWindow a calls) :
    PassesOnce (passes a memoryNonceGuard MemoryNonceStore.new calls) ∧
      ∀ file, PassesOnce (passes a fileNonceGuard (FileNonceStore.new file) calls) :=
  ⟨passesOnce hclock hwindow _, fun _ => passesOnce hclock hwindow _⟩

/-- Outside the window nothing is left of the nonce: a request that is still verified passes
    again. -/
theorem passes_again {a : Adapter} {c d : Call} (hnonce : c.request.nonce = d.request.nonce)
    (hc : c.Verified a) (hd : d.Verified a)
    (hlate : c.nowMs + adapterAcceptanceWindowMs < d.nowMs) :
    passes a memoryNonceGuard MemoryNonceStore.new [c, d] = [(c, true), (d, true)] := by
  -- the store after the first call
  obtain ⟨kept, hkept⟩ : ∃ kept : MemoryNonceStore, kept =
      Table.set Table.empty c.request.nonce (some (c.nowMs + adapterAcceptanceWindowMs)) :=
    ⟨_, rfl⟩
  have hfirst : a.acceptRequest memoryNonceGuard MemoryNonceStore.new c.io c.request c.nowMs =
      (.ok (), kept) := by
    unfold Adapter.acceptRequest
    rw [hc, hkept]
    rfl
  have hgone : (deleteExpired kept d.nowMs).find d.request.nonce = none := by
    unfold deleteExpired
    rw [Table.find_keep, hkept, ← hnonce, Table.find_set_self, Option.filter_some]
    exact if_neg (by simpa using hlate)
  have hconsume : (memoryNonceGuard.consume kept d.io d.request.nonce
      (d.nowMs + adapterAcceptanceWindowMs) d.nowMs).1 = .ok true := by
    show (MemoryNonceStore.consume kept d.request.nonce _ d.nowMs).1 = .ok true
    unfold MemoryNonceStore.consume
    dsimp only
    rw [hgone]
    rfl
  have hpass : (memoryNonceGuard.step adapterAcceptanceWindowMs kept (d.presentation a)).1 = true :=
    ReplayGuard.step_fst.mpr ⟨verified_iff.mpr hd, hconsume⟩
  have hsecond := (congrArg Prod.fst (acceptRequest_step a memoryNonceGuard kept d)).trans hpass
  unfold passes passes
  rw [hfirst]
  exact congrArg (fun passed => [(c, true), (d, passed)]) hsecond

/-! ## A request dated a minute ahead -/

/-- An adapter whose MAC is constant. -/
def constantAdapter : Adapter where
  cryptography := ⟨IsoTimestamp.parse, fun _ _ => List.replicate 32 0, fun _ => "digest"⟩
  secret := List.replicate 32 7
  maxPayloadBytes := 1048576
  secret_length := by decide

/-- A request dated 2026-07-21T12:01:00Z. -/
def healthRequest : AdapterRequest where
  path := "/forgetops/v1/health"
  method := "POST"
  contentType := "application/json"
  contentLength := some 0
  body := []
  timestamp := "2026-07-21T12:01:00.000Z"
  nonce := "nonce-0123456789abcdef"
  signature := "AAAAAAAAAAAAAAAAAAAAAAAAAAAAAAAAAAAAAAAAAAA"

/-- It is called at this time. -/
def callAt (nowMs : Int) : Call := ⟨healthRequest, nowMs, ⟨true, true, []⟩⟩

/-- At its own time and half a minute later it passes once. -/
theorem passes_once_on_time :
    PassesOnce (passes constantAdapter memoryNonceGuard MemoryNonceStore.new
        [callAt 1784635260000, callAt 1784635290000]) ∧
      ∀ file, PassesOnce (passes constantAdapter fileNonceGuard (FileNonceStore.new file)
        [callAt 1784635260000, callAt 1784635290000]) :=
  passes_once constantAdapter _ (by unfold ClockRuns; decide) (by
    refine List.Pairwise.cons ?_ (List.pairwise_singleton _ _)
    intro c hc _ _ _
    rw [List.mem_singleton.mp hc]
    decide)

/-- Called a minute before its time and again 61 seconds later it passes twice, with either store. -/
theorem passes_twice_ahead_of_time :
    ClockRuns [callAt 1784635200000, callAt 1784635261000] ∧
      ¬ PassesOnce (passes constantAdapter memoryNonceGuard MemoryNonceStore.new
        [callAt 1784635200000, callAt 1784635261000]) ∧
      ¬ PassesOnce (passes constantAdapter fileNonceGuard (FileNonceStore.new [])
        [callAt 1784635200000, callAt 1784635261000]) := by
  refine ⟨by unfold ClockRuns; decide, fun h => ?_, fun h => ?_⟩
  · exact absurd (h (callAt 0).signed) (by decide +kernel)
  · exact absurd (h (callAt 0).signed) (by decide +kernel)

end ForgetOps.AdapterSdk
