import ForgetOps.Database.World

/-
  What the statements of the transactions do, seen from the commit.

  Every lemma is about a part of a transaction that later commits on the store `w` (`Leads`): what
  the part writes is a function of `w` and of its own writes before it. `leads_onRows` is the rule
  for statements on several rows, `Appends` what the two copies of the append procedure do.
-/

namespace ForgetOps.Database

open Domain
open ReadCommitted RowStore

/-! ## Statements on one row -/

section Rows

variable {ρ : Type} {v : ρ} {p : ρ → Prop} [DecidablePred p] {f : ρ → ρ} {r r' : Option ρ} {b : ρ}

@[simp] theorem whenAbsent_eq_some {u : Unit} :
    whenAbsent v r = some (u, r') ↔ r = none ∧ r' = some v := by
  cases r <;> simp [whenAbsent, eq_comm]

@[simp] theorem whenRow_eq_some :
    whenRow p f r = some (b, r') ↔ r = some b ∧ p b ∧ r' = some (f b) := by
  cases r with
  | none => simp [whenRow]
  | some x =>
    by_cases hx : p x
    · simp only [whenRow, hx, if_true, Option.some.injEq, Prod.mk.injEq]
      constructor
      · rintro ⟨rfl, rfl⟩
        exact ⟨rfl, hx, rfl⟩
      · rintro ⟨rfl, -, rfl⟩
        exact ⟨rfl, rfl⟩
    · simp only [whenRow, hx, if_false, Option.some.injEq, reduceCtorEq, false_iff, not_and]
      rintro rfl hp
      exact absurd hp hx

@[simp] theorem whenRow_eq_none : whenRow p f r = none ↔ ∀ b, r = some b → ¬ p b := by
  cases r with
  | none => simp [whenRow]
  | some x => by_cases hx : p x <;> simp [whenRow, hx]

@[simp] theorem lockRow_eq_some : lockRow p r = some (b, r') ↔ r = some b ∧ p b ∧ r' = r := by
  rw [lockRow, whenRow_eq_some]
  constructor
  · rintro ⟨rfl, hp, rfl⟩
    exact ⟨rfl, hp, rfl⟩
  · rintro ⟨rfl, hp, rfl⟩
    exact ⟨rfl, hp, rfl⟩

@[simp] theorem lockRow_eq_none : lockRow p r = none ↔ ∀ b, r = some b → ¬ p b :=
  whenRow_eq_none

theorem lockRow_locks (r : Option ρ) (b : ρ) (r' : Option ρ) (h : lockRow p r = some (b, r')) :
    r' = r :=
  (lockRow_eq_some.mp h).2.2

@[simp] theorem deleteRow_eq_none : deleteRow p r = none ↔ ∀ b, r = some b → ¬ p b := by
  cases r with
  | none => simp [deleteRow]
  | some x => by_cases hx : p x <;> simp [deleteRow, hx]

theorem deleteRow_deletes {u : Unit} (h : deleteRow p r = some (u, r')) : r' = none := by
  cases r with
  | none => cases h
  | some x => by_cases hx : p x <;> simp_all [deleteRow]

end Rows

/-- The tables of requests, attempts and their records. -/
def Key.isRecord : Key → Bool
  | .request _ | .attempt _ | .auditEvent _ | .outboxEvent _ | .chainHead _ => true
  | _ => false

/-- The two stores agree on the requests, their attempts and their records, and on the process. -/
structure SameRecords (w w' : World) : Prop where
  requests : w'.requests = w.requests
  attempts : w'.attempts = w.attempts
  auditEvents : w'.auditEvents = w.auditEvents
  outboxEvents : w'.outboxEvents = w.outboxEvents
  chainHeads : w'.chainHeads = w.chainHeads
  aggregates : w'.aggregates = w.aggregates
  acknowledgements : w'.acknowledgements = w.acknowledgements

section Frames

variable {w : World} {log : Log Row}

theorem write_aggregates (w : World) (k : Key) (v : Row k) :
    (w.write k v).aggregates = w.aggregates := by
  cases k <;> rfl

theorem write_acknowledgements (w : World) (k : Key) (v : Row k) :
    (w.write k v).acknowledgements = w.acknowledgements := by
  cases k <;> rfl

@[simp] theorem view_aggregates (w : World) (log : Log Row) :
    (view w log).aggregates = w.aggregates :=
  view_frame (K := fun _ => True) World.aggregates (fun w k v _ => write_aggregates w k v)
    fun _ _ => trivial

@[simp] theorem view_acknowledgements (w : World) (log : Log Row) :
    (view w log).acknowledgements = w.acknowledgements :=
  view_frame (K := fun _ => True) World.acknowledgements
    (fun w k v _ => write_acknowledgements w k v) fun _ _ => trivial

/-- No row of the table is written by a log without keys of that table. -/
theorem view_requests (h : ∀ k ∈ keys log, ∀ id, k ≠ .request id) :
    (view w log).requests = w.requests :=
  view_frame World.requests
    (fun w k v hk => by cases k <;> first | rfl | exact absurd rfl (hk _)) h

theorem view_attempts (h : ∀ k ∈ keys log, ∀ id, k ≠ .attempt id) :
    (view w log).attempts = w.attempts :=
  view_frame World.attempts
    (fun w k v hk => by cases k <;> first | rfl | exact absurd rfl (hk _)) h

theorem view_auditEvents (h : ∀ k ∈ keys log, ∀ id, k ≠ .auditEvent id) :
    (view w log).auditEvents = w.auditEvents :=
  view_frame World.auditEvents
    (fun w k v hk => by cases k <;> first | rfl | exact absurd rfl (hk _)) h

theorem view_outboxEvents (h : ∀ k ∈ keys log, ∀ id, k ≠ .outboxEvent id) :
    (view w log).outboxEvents = w.outboxEvents :=
  view_frame World.outboxEvents
    (fun w k v hk => by cases k <;> first | rfl | exact absurd rfl (hk _)) h

theorem view_chainHeads (h : ∀ k ∈ keys log, ∀ id, k ≠ .chainHead id) :
    (view w log).chainHeads = w.chainHeads :=
  view_frame World.chainHeads
    (fun w k v hk => by cases k <;> first | rfl | exact absurd rfl (hk _)) h

theorem view_envelopes (h : ∀ k ∈ keys log, ∀ id, k ≠ .envelope id) :
    (view w log).envelopes = w.envelopes :=
  view_frame World.envelopes
    (fun w k v hk => by cases k <;> first | rfl | exact absurd rfl (hk _)) h

theorem view_tokens (h : ∀ k ∈ keys log, ∀ id, k ≠ .token id) :
    (view w log).tokens = w.tokens :=
  view_frame World.tokens
    (fun w k v hk => by cases k <;> first | rfl | exact absurd rfl (hk _)) h

theorem sameRecords_view (h : ∀ k ∈ keys log, k.isRecord = false) :
    SameRecords w (view w log) := by
  have hne {K : String → Key} (hK : ∀ id, (K id).isRecord = true) :
      ∀ k ∈ keys log, ∀ id, k ≠ K id := by
    rintro k hk id rfl
    have hrecord := hK id
    rw [h _ hk] at hrecord
    cases hrecord
  constructor
  · exact view_requests (hne fun _ => rfl)
  · exact view_attempts (hne fun _ => rfl)
  · exact view_auditEvents (hne fun _ => rfl)
  · exact view_outboxEvents (hne fun _ => rfl)
  · exact view_chainHeads (hne fun _ => rfl)
  · exact view_aggregates w log
  · exact view_acknowledgements w log

end Frames

/-! ## Statements on several rows -/

section OnRows

variable {α : Type} {R : List Key → World → World → Prop} {w : World} {p p' : Point World Row}
  {key : String → Key} {q : (id : String) → Row (key id) → Option (α × Row (key id))}
  {ids : List String} {answers : List (String × α)}

theorem writes_onRows {P : (k : Key) → Row k → Row k → Prop}
    (statement : String → Transaction (Option α)) (h : ∀ id, (statement id).Writes P)
    (ids : List String) : (onRows statement ids).Writes P := by
  induction ids with
  | nil => trivial
  | cons id ids ih =>
    refine (h id).bind fun answer => ih.bind fun answers => ?_
    cases answer <;> trivial

theorem leads_onRows_cons (hR : Rely R) {statement : String → Transaction (Option α)}
    {id : String} (h : Leads R w (onRows statement (id :: ids)) p answers p') :
    ∃ answer mid rest mid', Leads R w (statement id) p answer mid ∧
      Leads R w (onRows statement ids) mid rest mid' ∧ mid'.log = p'.log ∧
      answers = (answer.map fun a => (id, a)).toList ++ rest ∧ R (keys mid'.log) mid'.time w := by
  obtain ⟨answer, mid, hfirst, h⟩ := leads_bind hR h
  obtain ⟨rest, mid', hrest, h⟩ := leads_bind hR h
  refine ⟨answer, mid, rest, mid', hfirst, hrest, ?_⟩
  cases answer with
  | none =>
    obtain ⟨rfl, hlog⟩ := leads_pure hR h
    exact ⟨hlog.symm, rfl, hrest.2⟩
  | some a =>
    obtain ⟨rfl, hlog⟩ := leads_pure hR h
    exact ⟨hlog.symm, rfl, hrest.2⟩

/-- The statement took the row `id` and answered `b`, as the row is at the commit. -/
def Took (q : (id : String) → Row (key id) → Option (α × Row (key id))) (w : World)
    (p p' : Point World Row) (answers : List (String × α)) (id : String) : Prop :=
  ∃ b v, (id, b) ∈ answers ∧ key id ∈ keys p'.log ∧
    q id (row (view w p.log) (key id)) = some (b, v) ∧ row (view w p'.log) (key id) = v

/-- The statement left the row `id` alone, as the row was on the way. -/
def Left (q : (id : String) → Row (key id) → Option (α × Row (key id)))
    (R : List Key → World → World → Prop) (w : World) (p p' : Point World Row)
    (answers : List (String × α)) (id : String) : Prop :=
  id ∉ answers.map Prod.fst ∧ row (view w p'.log) (key id) = row (view w p.log) (key id) ∧
    ∃ u, q id (row (view u p.log) (key id)) = none ∧ R (keys p.log) p.time u ∧
      R (keys p.log) u w

/-- A statement on several rows takes or leaves each of them, and touches no other. -/
theorem leads_onRows (hR : Rely R) (hkey : Function.Injective key) (hids : ids.Nodup)
    (h : Leads R w (onRows (fun id => Script.update (key id) (q id)) ids) p answers p') :
    (answers.map Prod.fst).Sublist ids ∧
      (∀ k, (∀ id ∈ ids, k ≠ key id) → row (view w p'.log) k = row (view w p.log) k) ∧
      ∀ id ∈ ids, Took q w p p' answers id ∨ Left q R w p p' answers id := by
  induction ids generalizing p p' answers with
  | nil =>
    obtain ⟨rfl, hlog⟩ := leads_pure hR h
    simp [hlog]
  | cons id ids ih =>
    rw [List.nodup_cons] at hids
    obtain ⟨answer, mid, rest, mid', hfirst, hrest, hlast, rfl, -⟩ := leads_onRows_cons hR h
    obtain ⟨hsub, hframe, hall⟩ := ih hids.2 hrest
    rw [hlast] at hframe
    have hother {id' : String} (hid' : id' ∈ ids) : id' ≠ id := by
      rintro rfl
      exact hids.1 hid'
    -- the first statement writes at most its own row
    have hmid : ∀ (k : Key) (u : World), k ≠ key id → row (view u mid.log) k = row (view u p.log) k := by
      intro k u hk
      rcases leads_update hR hfirst with ⟨b, v, -, -, hlog⟩ | ⟨-, hlog, -⟩
      · rw [hlog, view_concat, row_write_of_ne _ _ _ _ hk]
      · rw [hlog]
    have hself : row (view w p'.log) (key id) = row (view w mid.log) (key id) :=
      hframe _ fun id' hid' heq => hids.1 (hkey heq ▸ hid')
    have hnotrest : id ∉ rest.map Prod.fst := fun hmem => hids.1 (hsub.subset hmem)
    refine ⟨?_, ?_, ?_⟩
    · cases answer with
      | none => exact hsub.trans (List.sublist_cons_self _ _)
      | some a => exact hsub.cons_cons id
    · intro k hk
      rw [hframe k fun id' hid' => hk id' (List.mem_cons_of_mem _ hid'),
        hmid k w (hk id List.mem_cons_self)]
    · intro id' hid'
      rcases List.mem_cons.mp hid' with rfl | hid'
      · rcases leads_update hR hfirst with ⟨b, v, rfl, hq, hlog⟩ | ⟨rfl, hlog, u, hq, hpu, huw⟩
        · refine .inl ⟨b, v, by simp, ?_, hq, ?_⟩
          · rw [← hlast]
            exact hrest.keys_subset (by simp [hlog])
          · rw [hself, hlog, view_concat, row_write_self]
        · exact .inr ⟨by simpa using hnotrest, by rw [hself, hlog], u, hq, hpu, huw⟩
      · have hne : key id' ≠ key id := fun heq => hother hid' (hkey heq)
        rcases hall id' hid' with ⟨b, v, hmem, hheld, hq, hv⟩ | ⟨hnot, hsame, u, hq, hpu, huw⟩
        · rw [hmid _ _ hne] at hq
          rw [hlast] at hheld hv
          exact .inl ⟨b, v, by simp [hmem], hheld, hq, hv⟩
        · rw [hmid _ _ hne] at hq hsame
          rw [hlast] at hsame
          have hpu' := hR.trans (hfirst.rely hR) (hR.mono hfirst.keys_subset hpu)
          refine .inr ⟨?_, hsame, u, hq, hpu', hR.mono hfirst.keys_subset huw⟩
          cases answer with
          | none => simpa using hnot
          | some a => simpa [hother hid'] using hnot

/-- A statement that locks several rows. -/
theorem leads_onRows_lock (hR : Rely R) (hp : Locks w p.log)
    (hq : ∀ id r b v, q id r = some (b, v) → v = r)
    (h : Leads R w (onRows (fun id => Script.update (key id) (q id)) ids) p answers p') :
    Locks w p'.log ∧ (answers.map Prod.fst).Sublist ids ∧
      (∀ e ∈ answers, q e.1 (row w (key e.1)) = some (e.2, row w (key e.1)) ∧
        key e.1 ∈ keys p'.log) ∧
      ∀ id ∈ ids, id ∈ answers.map Prod.fst ∨
        ∃ u, q id (row u (key id)) = none ∧ R (keys p.log) p.time u ∧ R (keys p.log) u w := by
  induction ids generalizing p p' answers with
  | nil =>
    obtain ⟨rfl, hlog⟩ := leads_pure hR h
    rw [hlog]
    exact ⟨hp, by simp, by simp, by simp⟩
  | cons id ids ih =>
    obtain ⟨answer, mid, rest, mid', hfirst, hrest, hlast, rfl, -⟩ := leads_onRows_cons hR h
    obtain ⟨hmid, hone⟩ := leads_lock hR hp (hq id) hfirst
    obtain ⟨hlocks, hsub, htaken, hskipped⟩ := ih hmid hrest
    rw [hlast] at hlocks htaken
    have hheld : keys mid.log ⊆ keys p'.log := by
      rw [← hlast]
      exact hrest.keys_subset
    have hlater : ∀ id' ∈ ids, id' ∈ rest.map Prod.fst ∨
        ∃ u, q id' (row u (key id')) = none ∧ R (keys p.log) p.time u ∧ R (keys p.log) u w := by
      intro id' hid'
      rcases hskipped id' hid' with hmem | ⟨u, hu, hpu, huw⟩
      · exact .inl hmem
      · exact .inr ⟨u, hu, hR.trans (hfirst.rely hR) (hR.mono hfirst.keys_subset hpu),
          hR.mono hfirst.keys_subset huw⟩
    rcases hone with ⟨b, rfl, htake, hkey⟩ | ⟨rfl, u, hu, hpu, huw⟩
    · refine ⟨hlocks, hsub.cons_cons id, ?_, ?_⟩
      · intro e he
        rcases List.mem_cons.mp he with rfl | he
        · exact ⟨htake, hheld hkey⟩
        · exact htaken e he
      · intro id' hid'
        rcases List.mem_cons.mp hid' with rfl | hid'
        · exact .inl (by simp)
        · exact (hlater id' hid').imp_left fun hmem => by simp [List.mem_map.mp hmem]
    · refine ⟨hlocks, hsub.trans (List.sublist_cons_self _ _), htaken, ?_⟩
      intro id' hid'
      rcases List.mem_cons.mp hid' with rfl | hid'
      · exact .inr ⟨u, hu, hpu, huw⟩
      · exact hlater id' hid'

end OnRows

end ForgetOps.Database
