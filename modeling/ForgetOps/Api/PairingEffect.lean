import ForgetOps.Api.Pairing
import ForgetOps.Database.Statements

/-
  What a committed `consumeAndPair` has done.

  Only a forced replacement of an active agent writes requests and attempts (`Forced`): those it
  found affected and still open when it came to them. `Passed u` is how a row escaped: at the time
  `u` the statement found it unaffected.
-/

namespace ForgetOps.Api.Pairing

open Domain Database
open ReadCommitted RowStore

variable {R : List Key → World → World → Prop} {w : World} {p p' : Point World Row}

/-! ## Selecting rows, and a statement on each -/

section Selected

variable {α ρ : Type} {key : String → Key} {q : (id : String) → Row (key id) → Option (α × Row (key id))}
  {table : World → Table String ρ} {P : String → ρ → Prop} [∀ id, DecidablePred (P id)]

theorem leads_selectKeys {ids : List String} (hR : Rely R)
    (h : Leads R w (selectKeys table P) p ids p') :
    p'.log = p.log ∧ ids.Nodup ∧ ∃ u, R (keys p.log) p.time u ∧ R (keys p.log) u w ∧
      ∀ id, id ∈ ids ↔ ∃ r, (table (view u p.log)).find id = some r ∧ P id r := by
  obtain ⟨hlog, u, rfl, hpu, huw⟩ := leads_read hR h
  refine ⟨hlog, ?_, u, hpu, huw, fun id => ?_⟩
  · exact (table (view u p.log)).nodup.sublist (List.filter_sublist.map Prod.fst)
  · simp only [List.mem_map, List.mem_filter, decide_eq_true_eq, Prod.exists, exists_and_right,
      exists_eq_right, Table.mem_entries_iff]

/-- The rows selected are locked. -/
theorem leads_lockSelected {answers : List (String × α)} (hR : Rely R) (hp : Locks w p.log)
    (hq : ∀ id r b v, q id r = some (b, v) → v = r)
    (h : Leads R w (selectKeys table P >>= onRows fun id => Script.update (key id) (q id)) p
      answers p') :
    Locks w p'.log ∧ ∀ e ∈ answers,
      q e.1 (row w (key e.1)) = some (e.2, row w (key e.1)) ∧ key e.1 ∈ keys p'.log := by
  obtain ⟨ids, mid, hselect, h⟩ := leads_bind hR h
  obtain ⟨hlog, -⟩ := leads_selectKeys hR hselect
  obtain ⟨hlocks, -, htaken, -⟩ := leads_onRows_lock hR (hlog ▸ hp) hq h
  exact ⟨hlocks, htaken⟩

/-- A row that is selected whenever the statement may run is locked. -/
theorem mem_lockSelected {answers : List (String × α)} {id : String} (hR : Rely R)
    (hp : Locks w p.log) (hq : ∀ id r b v, q id r = some (b, v) → v = r)
    (hlasting : ∀ u, R (keys p.log) p.time u → R (keys p.log) u w →
      ∃ r, (table u).find id = some r ∧ P id r ∧ q id (row u (key id)) ≠ none)
    (h : Leads R w (selectKeys table P >>= onRows fun id => Script.update (key id) (q id)) p
      answers p') : id ∈ answers.map Prod.fst := by
  obtain ⟨ids, mid, hselect, h⟩ := leads_bind hR h
  obtain ⟨hlog, -, u, hpu, huw, hids⟩ := leads_selectKeys hR hselect
  have hid : id ∈ ids := by
    obtain ⟨r, hr, hP, -⟩ := hlasting u hpu huw
    rw [hids, (hp.at hR huw).view_eq]
    exact ⟨r, hr, hP⟩
  obtain ⟨-, -, -, hall⟩ := leads_onRows_lock hR (hlog ▸ hp) hq h
  obtain hmem | ⟨u', hskip, hpu', hu'w⟩ := hall id hid
  · exact hmem
  · rw [hlog] at hpu' hu'w
    obtain ⟨-, -, -, htake⟩ := hlasting u' (hR.trans (hselect.rely hR) hpu') hu'w
    exact absurd hskip htake

/-- A row that a statement on selected rows left alone: at a time on the way it was not
    affected. -/
def Passed (R : List Key → World → World → Prop) (w : World) (p : Point World Row)
    (unaffected : World → Prop) : Prop :=
  ∃ u, unaffected u ∧ R (keys p.log) p.time u ∧ R (keys p.log) u w

/-- A statement takes every row that is affected from the selection to the commit. -/
theorem leads_onSelected {a : Unit} (hR : Rely R) (hkey : Function.Injective key)
    (hq : ∀ (u : World) id, q id (row u (key id)) = none ↔
      ∀ r, (table u).find id = some r → ¬ P id r)
    (hview : ∀ u, R (keys p.log) u w → table (view u p.log) = table u ∧
      ∀ id, row (view u p.log) (key id) = row u (key id))
    (h : Leads R w (do
      let ids ← selectKeys table P
      let _ ← onRows (fun id => Script.update (key id) (q id)) ids
      return ()) p a p') (id : String) :
    (∃ b v, q id (row w (key id)) = some (b, v) ∧ row (view w p'.log) (key id) = v ∧
        key id ∈ keys p'.log) ∨
      (row (view w p'.log) (key id) = row w (key id) ∧
        Passed R w p fun u => ∀ r, (table u).find id = some r → ¬ P id r) := by
  obtain ⟨ids, mid, hselect, h⟩ := leads_bind hR h
  obtain ⟨answers, mid', hrows, h⟩ := leads_bind hR h
  obtain ⟨-, hlog'⟩ := leads_pure hR h
  obtain ⟨hlog, hnodup, u, hpu, huw, hids⟩ := leads_selectKeys hR hselect
  obtain ⟨-, hframe, hall⟩ := leads_onRows hR hkey hnodup hrows
  rw [hlog'] at *
  have hnow := (hview w (hR.refl _ _)).2
  by_cases hid : id ∈ ids
  · rcases hall id hid with ⟨b, v, -, hheld, htake, hv⟩ | ⟨-, hsame, u', hskip, hpu', hu'w⟩
    · rw [hlog, hnow] at htake
      exact .inl ⟨b, v, htake, hv, hheld⟩
    · rw [hlog] at hsame hu'w hpu'
      rw [hlog, (hview u' hu'w).2] at hskip
      refine .inr ⟨hsame.trans (hnow id), u', (hq u' id).mp hskip, ?_, hu'w⟩
      exact hR.trans (hselect.rely hR) hpu'
  · rw [hids id, (hview u huw).1] at hid
    refine .inr ⟨?_, u, fun r hr hP => hid ⟨r, hr, hP⟩, hpu, huw⟩
    rw [hframe (key id) ?_, hlog, hnow]
    rintro id' hid' heq
    rw [← hkey heq, hids id, (hview u huw).1] at hid'
    exact hid hid'

end Selected

/-! ## The forced replacement -/

def reviewedRow (row : RequestRow) : RequestRow :=
  { row with status := .needsReview, version := row.version + 1, completedAt := none }

def reviewedAttempt (now : Timestamp) (row : AttemptRow) : AttemptRow :=
  { row with status := .needsReview, completedAt := some now }

/-- What the review did to the request `id`. -/
def RequestReviewed (R : List Key → World → World → Prop) (token : TokenRow)
    (affected : List String) (w : World) (p p' : Point World Row) (id : String) : Prop :=
  (∃ row, w.requests.find id = some row ∧ isAffectedRequest token affected id row ∧
      (view w p'.log).requests.find id = some (reviewedRow row) ∧ .request id ∈ keys p'.log) ∨
    ((view w p'.log).requests.find id = w.requests.find id ∧
      Passed R w p fun u =>
        ∀ row, u.requests.find id = some row → ¬ isAffectedRequest token affected id row)

/-- What the review did to the attempt `id`. -/
def AttemptReviewed (R : List Key → World → World → Prop) (token : TokenRow)
    (affected : List String) (now : Timestamp) (w : World) (p p' : Point World Row)
    (id : String) : Prop :=
  (∃ row, w.attempts.find id = some row ∧ isAffectedAttempt token affected row ∧
      (view w p'.log).attempts.find id = some (reviewedAttempt now row)) ∨
    ((view w p'.log).attempts.find id = w.attempts.find id ∧
      Passed R w p fun u =>
        ∀ row, u.attempts.find id = some row → ¬ isAffectedAttempt token affected row)

theorem writes_onSelected {α ρ : Type} {C : (k : Key) → Row k → Row k → Prop}
    {table : World → Table String ρ} {P : String → ρ → Prop} [∀ id, DecidablePred (P id)]
    (statement : String → Transaction (Option α)) (h : ∀ id, (statement id).Writes C) :
    (do
      let ids ← selectKeys table P
      let _ ← onRows statement ids
      return () : Transaction Unit).Writes C :=
  (Script.writes_read _).bind fun ids => (writes_onRows statement h ids).bind fun _ =>
    Script.writes_pure _

theorem leads_reviewRequests {token : TokenRow} {affected : List String} {a : Unit} (hR : Rely R)
    (hp : Locks w p.log) (h : Leads R w (reviewRequests token affected) p a p') (id : String) :
    RequestReviewed R token affected w p p' id := by
  rcases leads_onSelected hR (fun _ _ => Key.request.inj) (fun _ _ => whenRow_eq_none)
      (fun u hu => by rw [(hp.at hR hu).view_eq]; exact ⟨rfl, fun _ => rfl⟩) h id with
    ⟨row, v, hq, hv, hkey⟩ | ⟨hsame, hpassed⟩
  · obtain ⟨hrow, haffected, rfl⟩ := whenRow_eq_some.mp hq
    exact .inl ⟨row, hrow, haffected, hv, hkey⟩
  · exact .inr ⟨hsame, hpassed⟩

theorem leads_reviewAttempts {token : TokenRow} {affected : List String} {now : Timestamp}
    {a : Unit} (hR : Rely R)
    (hview : ∀ u, R (keys p.log) u w → (view u p.log).attempts = u.attempts)
    (h : Leads R w (reviewAttempts token affected now) p a p') (id : String) :
    AttemptReviewed R token affected now w p p' id := by
  rcases leads_onSelected hR (fun _ _ => Key.attempt.inj) (fun _ _ => whenRow_eq_none)
      (fun u hu => ⟨hview u hu, fun id => congrArg (·.find id) (hview u hu)⟩) h id with
    ⟨row, v, hq, hv, -⟩ | ⟨hsame, hpassed⟩
  · obtain ⟨hrow, haffected, rfl⟩ := whenRow_eq_some.mp hq
    exact .inl ⟨row, hrow, haffected, hv⟩
  · exact .inr ⟨hsame, hpassed⟩

/-- A part of the script that leaves requests, attempts and records alone. -/
theorem sameRecords_of_touches {α : Type} {s : Transaction α} {a : α}
    (hs : s.Touches fun k => k.isRecord = false) (h : Leads R w s p a p') :
    SameRecords (view w p.log) (view w p'.log) := by
  obtain ⟨more, hlog, hmore⟩ := h.1.log_eq hs
  rw [hlog, view_append]
  exact sameRecords_view hmore

/-- What a part of the script does not write looks the same behind it. -/
theorem frame_of_writes {α γ : Type} {s : Transaction α} {a : α} {K : Key → Prop} (hs : s.Touches K)
    (h : Leads R w s p a p') (f : World → γ) (hf : ∀ v k x, K k → f (write v k x) = f v)
    (u : World) : f (view u p'.log) = f (view u p.log) := by
  obtain ⟨more, hlog, hmore⟩ := h.1.log_eq hs
  rw [hlog, view_append]
  exact view_frame (K := K) f hf hmore

/-- A part of the script that only writes requests, or only attempts. -/
theorem frame_of_touches {α : Type} {s : Transaction α} {a : α} {K : String → Key}
    (hs : s.Touches fun k => ∃ id, k = K id) (h : Leads R w s p a p') :
    ∀ (γ : Type) (f : World → γ), (∀ v id x, f (write v (K id) x) = f v) →
      ∀ u : World, f (view u p'.log) = f (view u p.log) := by
  intro γ f hf u
  refine frame_of_writes hs h f ?_ u
  rintro v k x ⟨id, rfl⟩
  exact hf v id x

/-- A forced replacement that found work. Until `p₀` rows were only locked, the affected ones
    among them; between `p₀` and `p₁` requests were reviewed, then until `p₂` their attempts. -/
structure Forced (R : List Key → World → World → Prop) (input : ConsumeAndPairInput)
    (u w w' : World) (token : TokenRow) (affected : List String) (p₀ p₁ p₂ : Point World Row) :
    Prop where
  found : ∃ id bootstrap u₁, R [] u u₁ ∧ R [] u₁ w ∧ u₁.tokens.find id = some bootstrap ∧
    bootstrap.tokenHash = input.tokenHash ∧ w.tokens.find id = some token
  mode : token.replacementMode = .force
  active : ∃ id agent, w.agents.find id = some agent ∧ isActive token.environmentId agent
  work : ∀ id ∈ affected,
    (∃ envelope, w.envelopes.find id = some envelope ∧ isUnconsumed token envelope ∧
      .envelope id ∈ keys p₀.log) ∨
    ∃ attemptId row, w.attempts.find attemptId = some row ∧ isOpen token row ∧
      row.requestId = id ∧ .attempt attemptId ∈ keys p₀.log
  locks : Locks w p₀.log
  start : R [] u p₀.time
  reviewed : R (keys p₀.log) p₀.time p₁.time
  requests : ∀ id, RequestReviewed R token affected w p₀ p₁ id
  attempts : ∀ id, AttemptReviewed R token affected input.now w p₁ p₂ id
  after_requests : w'.requests = (view w p₁.log).requests
  after_attempts : w'.attempts = (view w p₂.log).attempts
  after_auditEvents : w'.auditEvents = w.auditEvents
  after_outboxEvents : w'.outboxEvents = w.outboxEvents
  after_chainHeads : w'.chainHeads = w.chainHeads

/-- What the transaction has done by `p'` to the tables of requests, attempts and records. -/
def Replaced (R : List Key → World → World → Prop) (input : ConsumeAndPairInput) (u w : World)
    (p' : Point World Row) : Prop :=
  SameRecords w (view w p'.log) ∨
    ∃ token affected p₀ p₁ p₂, Forced R input u w (view w p'.log) token affected p₀ p₁ p₂

theorem Forced.of_sameRecords {input : ConsumeAndPairInput} {u w' w'' : World} {token : TokenRow}
    {affected : List String} {p₀ p₁ p₂ : Point World Row} (hsame : SameRecords w' w'')
    (h : Forced R input u w w' token affected p₀ p₁ p₂) :
    Forced R input u w w'' token affected p₀ p₁ p₂ :=
  { h with
    after_requests := hsame.requests.trans h.after_requests
    after_attempts := hsame.attempts.trans h.after_attempts
    after_auditEvents := hsame.auditEvents.trans h.after_auditEvents
    after_outboxEvents := hsame.outboxEvents.trans h.after_outboxEvents
    after_chainHeads := hsame.chainHeads.trans h.after_chainHeads }

theorem Replaced.of_sameRecords {input : ConsumeAndPairInput} {u : World}
    (hsame : SameRecords (view w p.log) (view w p'.log)) (h : Replaced R input u w p) :
    Replaced R input u w p' := by
  rcases h with h | ⟨token, affected, p₀, p₁, p₂, h⟩
  · exact .inl ⟨hsame.requests.trans h.requests, hsame.attempts.trans h.attempts,
      hsame.auditEvents.trans h.auditEvents, hsame.outboxEvents.trans h.outboxEvents,
      hsame.chainHeads.trans h.chainHeads, hsame.aggregates.trans h.aggregates,
      hsame.acknowledgements.trans h.acknowledgements⟩
  · exact .inr ⟨token, affected, p₀, p₁, p₂, h.of_sameRecords hsame⟩

theorem leads_lockToken {input : ConsumeAndPairInput} {bootstrap : String × TokenRow}
    {token : TokenRow} (hR : Rely R) (hp : Locks w p.log)
    (h : Leads R w (lockToken input bootstrap) p token p') :
    Locks w p'.log ∧ w.tokens.find bootstrap.1 = some token := by
  obtain ⟨found, mid, hlock, h⟩ := leads_bind hR h
  obtain ⟨hmid, htaken⟩ := leads_lock hR hp lockRow_locks hlock
  cases found with
  | none => exact (leads_fail h).elim
  | some row =>
    obtain ⟨_, mid₁, hused, h⟩ := leads_bind hR h
    obtain ⟨_, mid₂, hother, h⟩ := leads_bind hR h
    obtain ⟨-, hlog₁⟩ := leads_failIf hR hused
    obtain ⟨-, hlog₂⟩ := leads_failIf hR hother
    obtain ⟨rfl, hlog₃⟩ := leads_pure hR h
    rw [hlog₃, hlog₂, hlog₁]
    rcases htaken with ⟨_, hsome, htake, -⟩ | ⟨hnone, -⟩
    · cases hsome
      exact ⟨hmid, (lockRow_eq_some.mp htake).1⟩
    · cases hnone

theorem leads_lockEnvironment {input : ConsumeAndPairInput} {token : TokenRow} {a : Unit}
    (hR : Rely R) (hp : Locks w p.log) (h : Leads R w (lockEnvironment input token) p a p') :
    Locks w p'.log := by
  obtain ⟨found, mid, hlock, h⟩ := leads_bind hR h
  obtain ⟨hmid, -⟩ := leads_lock hR hp lockRow_locks hlock
  cases found with
  | none => exact (leads_fail h).elim
  | some row =>
    obtain ⟨-, hlog⟩ := leads_failIf hR h
    rwa [hlog]

theorem sameRecords_of_locks (hp : Locks w p.log) : SameRecords w (view w p.log) := by
  rw [hp.view_eq]
  exact ⟨rfl, rfl, rfl, rfl, rfl, rfl, rfl⟩

theorem touches_deleteEnvelopes (token : TokenRow) :
    (deleteEnvelopes token).Touches fun k => k.isRecord = false :=
  writes_onSelected _ fun _ => by simp [Key.isRecord]

theorem touches_revokeJobs (token : TokenRow) (now : Timestamp) :
    (revokeJobs token now).Touches fun k => k.isRecord = false :=
  writes_onSelected _ fun _ => by simp [Key.isRecord]

/-- The replacement of the work, from its locks on. -/
theorem leads_replaceWork {input : ConsumeAndPairInput} {token : TokenRow} {u : World} {a : Unit}
    (hR : Rely R) (hp : Locks w p.log) (hstart : R [] u p.time)
    (hfound : ∃ id bootstrap u₁, R [] u u₁ ∧ R [] u₁ w ∧ u₁.tokens.find id = some bootstrap ∧
      bootstrap.tokenHash = input.tokenHash ∧ w.tokens.find id = some token)
    (hactive : ∃ id agent, w.agents.find id = some agent ∧ isActive token.environmentId agent)
    (h : Leads R w (replaceWork token input.now) p a p') : Replaced R input u w p' := by
  obtain ⟨envelopes, p₁, henvelopes, h⟩ := leads_bind hR h
  obtain ⟨attempts, p₂, hattempts, h⟩ := leads_bind hR h
  obtain ⟨_, p₃, hdrain, h⟩ := leads_bind hR h
  obtain ⟨hp₁, henvelope⟩ := leads_lockSelected hR hp (fun _ => lockRow_locks) henvelopes
  obtain ⟨hp₂, hattempt⟩ := leads_lockSelected hR hp₁ (fun _ => lockRow_locks) hattempts
  obtain ⟨-, hlog₃⟩ := leads_failIf hR hdrain
  have hp₃ : Locks w p₃.log := hlog₃ ▸ hp₂
  split at h
  swap
  · obtain ⟨-, hlog⟩ := leads_pure hR h
    exact .inl (sameRecords_of_locks (hlog ▸ hp₃))
  next hmode =>
  obtain ⟨_, p₄, hreview, h⟩ := leads_bind hR h
  obtain ⟨_, p₅, hdelete, hrevoke⟩ := leads_bind hR h
  have hrest₁ := sameRecords_of_touches (touches_deleteEnvelopes token) hdelete
  have hrest₂ := sameRecords_of_touches (touches_revokeJobs token input.now) hrevoke
  refine Replaced.of_sameRecords hrest₂ (Replaced.of_sameRecords hrest₁ ?_)
  unfold reviewWork at hreview
  split at hreview
  · obtain ⟨-, hlog⟩ := leads_pure hR hreview
    exact .inl (sameRecords_of_locks (hlog ▸ hp₃))
  obtain ⟨_, q₁, hrequests, hreviewed⟩ := leads_bind hR hreview
  have hframe₁ := frame_of_touches (K := .request) (writes_onSelected _ fun _ => by simp) hrequests
  have hframe₂ := frame_of_touches (K := .attempt) (writes_onSelected _ fun _ => by simp) hreviewed
  have hbefore : R [] p.time p₃.time :=
    hR.mono (by simp) (hR.trans (henvelopes.rely hR) (hR.mono henvelopes.keys_subset
      (hR.trans (hattempts.rely hR) (hR.mono hattempts.keys_subset (hdrain.rely hR)))))
  have hunwritten : ∀ v, R (keys q₁.log) v w → (view v q₁.log).attempts = v.attempts := by
    intro v hv
    have hv₃ : R (keys p₃.log) v w := hR.mono hrequests.keys_subset hv
    rw [hframe₁ _ World.attempts (fun _ _ _ => rfl) v, (hp₃.at hR hv₃).view_eq]
  have hsame {γ : Type} (f : World → γ) (h₁ : ∀ v id x, f (write v (.request id) x) = f v)
      (h₂ : ∀ v id x, f (write v (.attempt id) x) = f v) : f (view w p₄.log) = f w := by
    rw [hframe₂ _ f h₂ w, hframe₁ _ f h₁ w, hp₃.view_eq]
  have hwork : ∀ id ∈ (envelopes.map (·.1) ++ attempts.map (·.2.requestId)).eraseDups,
      (∃ envelope, w.envelopes.find id = some envelope ∧ isUnconsumed token envelope ∧
        .envelope id ∈ keys p₃.log) ∨
      ∃ attemptId row, w.attempts.find attemptId = some row ∧ isOpen token row ∧
        row.requestId = id ∧ .attempt attemptId ∈ keys p₃.log := by
    intro id hid
    rw [List.mem_eraseDups, List.mem_append, List.mem_map, List.mem_map] at hid
    rcases hid with ⟨e, he, rfl⟩ | ⟨e, he, rfl⟩
    · obtain ⟨htake, hkey⟩ := henvelope e he
      obtain ⟨hrow, hunconsumed, -⟩ := lockRow_eq_some.mp htake
      exact .inl ⟨e.2, hrow, hunconsumed, hlog₃ ▸ hattempts.keys_subset hkey⟩
    · obtain ⟨htake, hkey⟩ := hattempt e he
      obtain ⟨hrow, hopen, -⟩ := lockRow_eq_some.mp htake
      exact .inr ⟨e.1, e.2, hrow, hopen, rfl, hlog₃ ▸ hkey⟩
  refine .inr ⟨token, (envelopes.map (·.1) ++ attempts.map (·.2.requestId)).eraseDups, p₃, q₁, p₄, ?_⟩
  exact
    { found := hfound, mode := hmode, active := hactive, locks := hp₃
      start := hR.trans hstart hbefore
      reviewed := hrequests.rely hR
      requests := leads_reviewRequests hR hp₃ hrequests
      attempts := leads_reviewAttempts hR hunwritten hreviewed
      work := hwork
      after_requests := hframe₂ _ World.requests (fun _ _ _ => rfl) w
      after_attempts := rfl
      after_auditEvents := hsame World.auditEvents (fun _ _ _ => rfl) fun _ _ _ => rfl
      after_outboxEvents := hsame World.outboxEvents (fun _ _ _ => rfl) fun _ _ _ => rfl
      after_chainHeads := hsame World.chainHeads (fun _ _ _ => rfl) fun _ _ _ => rfl }

/-- What a committed pairing has done. -/
theorem consumeAndPair_effect {input : ConsumeAndPairInput} {u : World} {log : Log Row}
    {a : AgentRow} (hR : Rely R)
    (h : Completes R w (consumeAndPair input) ⟨u, []⟩ a ⟨w, log⟩) :
    SameRecords w (view w log) ∨
      ∃ token affected p₀ p₁ p₂, Forced R input u w (view w log) token affected p₀ p₁ p₂ := by
  show Replaced R input u w ⟨w, log⟩
  obtain ⟨bootstrap, p₁, hlookup, h⟩ := leads_bind hR (h.leads hR)
  obtain ⟨hlog₁, u₁, hbootstrap, huu, huw⟩ := leads_read hR hlookup
  have hp₁ : Locks w p₁.log := hlog₁ ▸ locks_nil w
  cases bootstrap with
  | none => exact (leads_fail h).elim
  | some bootstrap =>
    obtain ⟨token, p₂, htoken, h⟩ := leads_bind hR h
    obtain ⟨_, p₃, henvironment, h⟩ := leads_bind hR h
    obtain ⟨active, p₄, hactive, h⟩ := leads_bind hR h
    obtain ⟨_, p₅, hreplace, hinsert⟩ := leads_bind hR h
    obtain ⟨hp₂, hstored⟩ := leads_lockToken hR hp₁ htoken
    have hp₃ := leads_lockEnvironment hR hp₂ henvironment
    obtain ⟨hp₄, hagents⟩ := leads_lockSelected hR hp₃ (fun _ => lockRow_locks) hactive
    have hstart : R [] u p₄.time :=
      hR.trans (hlookup.rely hR) (hR.mono (by simp) (hR.trans (htoken.rely hR)
        (hR.mono htoken.keys_subset (hR.trans (henvironment.rely hR)
          (hR.mono henvironment.keys_subset (hactive.rely hR))))))
    have hinserted : SameRecords (view w p₅.log) (view w log) := by
      refine sameRecords_of_touches ?_ hinsert
      refine Script.Writes.bind (by simp [Key.isRecord]) fun _ => ?_
      refine (Script.writes_failIf _ _).bind fun _ => ?_
      refine Script.Writes.bind (by simp [Key.isRecord]) fun _ => ?_
      exact (Script.writes_failIf _ _).bind fun _ => Script.writes_pure _
    refine Replaced.of_sameRecords hinserted ?_
    cases active with
    | nil =>
      obtain ⟨-, hlog⟩ := leads_pure hR hreplace
      exact .inl (sameRecords_of_locks (hlog ▸ hp₄))
    | cons agent active =>
      obtain ⟨_, q₁, hkey, h⟩ := leads_bind hR hreplace
      obtain ⟨_, q₂, hmode, h⟩ := leads_bind hR h
      obtain ⟨_, q₃, hwork, h⟩ := leads_bind hR h
      obtain ⟨-, hlogq₁⟩ := leads_failIf hR hkey
      obtain ⟨-, hlogq₂⟩ := leads_failIf hR hmode
      have hq₂ : Locks w q₂.log := by rwa [hlogq₂, hlogq₁]
      have hrevoked : SameRecords (view w q₃.log) (view w p₅.log) :=
        sameRecords_of_touches (Script.Writes.bind (by simp [Key.isRecord]) fun _ =>
          Script.writes_pure _) h
      refine Replaced.of_sameRecords hrevoked (leads_replaceWork hR hq₂ ?_ ?_ ?_ hwork)
      · exact hR.trans hstart (hR.mono (by simp) (hR.trans (hkey.rely hR)
          (hR.mono hkey.keys_subset (hmode.rely hR))))
      · have hfound := List.find?_some hbootstrap.symm
        have hmem := List.mem_of_find?_eq_some hbootstrap.symm
        exact ⟨bootstrap.1, bootstrap.2, u₁, huu, huw, Table.mem_entries_iff.mp hmem,
          by simpa using hfound, hstored⟩
      · obtain ⟨htake, -⟩ := hagents agent List.mem_cons_self
        obtain ⟨hrow, hisActive, -⟩ := lockRow_eq_some.mp htake
        exact ⟨agent.1, agent.2, hrow, hisActive⟩

end ForgetOps.Api.Pairing
