import ForgetOps.Database.Evolution

/-
  How the aggregates in memory go with the stored requests.

  An aggregate is never ahead of its row: the version its pending events start from is at most the
  stored one, and if it is the stored one then the pending events lead from the stored status to
  the status in memory. A save that has been committed but not acknowledged counts as if its
  events were gone already (`StoredBehind w a count`). The stale ones are behind for good.
-/

namespace ForgetOps.Database

open Domain Api
open ReadCommitted RowStore

/-- The request of `a` is stored at its base version plus `n`, or later. If it is stored at just
    that version, then `a` got to its status from the stored one by its events but the first
    `n`. -/
def StoredBehind (w : World) (a : PrivacyRequestAggregate) (n : Nat) : Prop :=
  ∃ row, w.requests.find a.id = some row ∧ baseVersion a + n ≤ row.version ∧
    (baseVersion a + n = row.version →
      Path (a.events.length - n) row.status a.status ∧
        (finished row.status → a.events.length = n))

structure Coupled (w : World) (a : PrivacyRequestAggregate) : Prop where
  base : 0 ≤ baseVersion a
  unsaved : baseVersion a = 0 → a.events ≠ [] ∧ Path (a.events.length - 1) .created a.status
  saved : baseVersion a ≠ 0 → StoredBehind w a 0

def AckCoupled (w : World) (ack : Acknowledgement) : Prop :=
  ∃ a, w.aggregates[ack.aggregate]? = some a ∧ 0 < ack.count ∧ ack.count ≤ a.events.length ∧
    StoredBehind w a ack.count

structure Coupling (w : World) : Prop where
  aggregates : ∀ (i : Nat) a, w.aggregates[i]? = some a → Coupled w a
  acknowledgements : ∀ ack ∈ w.acknowledgements, AckCoupled w ack
  nodup : (w.acknowledgements.map (·.aggregate)).Nodup

theorem coupling_initial : Coupling World.initial where
  aggregates i a ha := by simp [World.initial] at ha
  acknowledgements ack hack := by simp [World.initial] at hack
  nodup := List.nodup_nil

/-! ## When the store moves on -/

section Store

variable {w w' : World} {a : PrivacyRequestAggregate} {n : Nat}

theorem StoredBehind.evolve (h : StoredBehind w a n)
    (hreq : RequestsEvolve w.requests w'.requests) : StoredBehind w' a n := by
  obtain ⟨row, hrow, hle, hsame⟩ := h
  obtain ⟨row', hrow', hevolves⟩ := hreq _ _ hrow
  have hversion := hevolves.version
  refine ⟨row', hrow', by omega, fun heq => ?_⟩
  -- at the same version the row is the same
  have hversion' : row'.version = row.version := by omega
  obtain rfl := hevolves.same hversion'
  exact hsame heq

theorem Coupled.evolve (h : Coupled w a) (hreq : RequestsEvolve w.requests w'.requests) :
    Coupled w' a :=
  ⟨h.base, h.unsaved, fun hne => (h.saved hne).evolve hreq⟩

theorem Coupling.evolve (h : Coupling w) (hreq : RequestsEvolve w.requests w'.requests)
    (haggregates : w'.aggregates = w.aggregates)
    (hacks : w'.acknowledgements = w.acknowledgements) : Coupling w' := by
  constructor
  · rw [haggregates]
    exact fun i a ha => (h.aggregates i a ha).evolve hreq
  · rw [hacks]
    intro ack hack
    obtain ⟨a, ha, hpos, hle, hstored⟩ := h.acknowledgements ack hack
    exact ⟨a, by rw [haggregates, ha], hpos, hle, hstored.evolve hreq⟩
  · rw [hacks]
    exact h.nodup

end Store

/-! ## When the aggregate moves on -/

section Memory

variable {w : World} {a a' : PrivacyRequestAggregate} {n : Nat}

/-- Commands: the base version stays, and events are appended. -/
theorem StoredBehind.progress (h : StoredBehind w a n) (hn : n ≤ a.events.length)
    (hp : Progress a a') (hbase : baseVersion a = baseVersion a') : StoredBehind w a' n := by
  obtain ⟨row, hrow, hle, hsame⟩ := h
  obtain ⟨more, hmore, hpath⟩ := hp.events hbase
  refine ⟨row, by rw [hp.input]; exact hrow, by omega, fun heq => ?_⟩
  obtain ⟨hrowpath, hfinished⟩ := hsame (by omega)
  constructor
  · have hlen : a'.events.length - n = (a.events.length - n) + more.length := by
      rw [hmore, List.length_append]
      omega
    rw [hlen]
    exact hrowpath.trans hpath
  · intro hf
    have hlen := hfinished hf
    rw [hlen, Nat.sub_self] at hrowpath
    have hversion := (hp.finished (eq_of_path_zero hrowpath ▸ hf)).2
    have hversion' := version_eq_of_baseVersion_eq hbase hmore
    rw [hmore, List.length_append]
    omega

theorem Coupled.progress (h : Coupled w a) (hp : Progress a a')
    (hbase : baseVersion a = baseVersion a') : Coupled w a' where
  base := hbase ▸ h.base
  unsaved := by
    intro hzero
    obtain ⟨hne, hpath⟩ := h.unsaved (hbase.trans hzero)
    obtain ⟨more, hmore, hpath'⟩ := hp.events hbase
    refine ⟨by simp [hmore, hne], ?_⟩
    have hpos := List.length_pos_of_ne_nil hne
    have hlen : a'.events.length - 1 = (a.events.length - 1) + more.length := by
      rw [hmore, List.length_append]
      omega
    rw [hlen]
    exact hpath.trans hpath'
  saved hne := (h.saved (hbase ▸ hne)).progress (Nat.zero_le _) hp hbase

/-- An acknowledgement: the events are gone now. -/
theorem StoredBehind.acknowledged (h : StoredBehind w a n) (hn : n ≤ a.events.length) :
    StoredBehind w (acknowledged a n) 0 := by
  have hbase := baseVersion_acknowledged hn
  obtain ⟨row, hrow, hle, hsame⟩ := h
  refine ⟨row, ?_, by omega, fun heq => ?_⟩
  · rw [Domain.acknowledged, if_pos hn]
    exact hrow
  · obtain ⟨hpath, hfinished⟩ := hsame (by omega)
    rw [Domain.acknowledged, if_pos hn]
    simp only [List.length_drop, Nat.sub_zero]
    exact ⟨hpath, fun hf => by rw [hfinished hf, Nat.sub_self]⟩

theorem Coupled.acknowledged (h : Coupled w a) (hpos : 0 < n) (hn : n ≤ a.events.length)
    (hstored : StoredBehind w a n) : Coupled w (acknowledged a n) := by
  have hbase := baseVersion_acknowledged hn
  have hge := h.base
  exact ⟨by omega, fun hzero => by omega, fun _ => hstored.acknowledged hn⟩

theorem coupled_create (w : World) (input : CreatePrivacyRequest) :
    Coupled w (PrivacyRequestAggregate.create input) :=
  ⟨le_refl _, fun _ => ⟨List.cons_ne_nil _ _, .nil _⟩, fun hne => absurd rfl hne⟩

theorem baseVersion_invoke (a : PrivacyRequestAggregate) (call : Call) :
    baseVersion a = baseVersion (invoke a call).2 := by
  rcases invoke_cases a call with ⟨_, h⟩ | ⟨_, h⟩
  · exact h.baseVersion_eq.symm
  · rw [h]

end Memory

/-! ## Process actions -/

section Actions

variable {w : World}

theorem Coupling.create (h : Coupling w) (input : CreatePrivacyRequest) :
    Coupling (w.act (.create input)) where
  aggregates := by
    intro i a ha
    change (w.aggregates ++ [PrivacyRequestAggregate.create input])[i]? = some a at ha
    rw [List.getElem?_append] at ha
    split at ha
    · exact (h.aggregates i a ha).evolve (.refl _)
    · rw [List.getElem?_singleton] at ha
      split at ha
      · cases ha
        exact coupled_create _ input
      · cases ha
  acknowledgements := by
    intro ack hack
    obtain ⟨a, ha, hpos, hle, hstored⟩ := h.acknowledgements ack hack
    refine ⟨a, ?_, hpos, hle, hstored⟩
    exact (List.getElem?_append_left (List.getElem?_eq_some_iff.mp ha).1).trans ha
  nodup := h.nodup

theorem Coupling.command (h : Coupling w) (j : Nat) (call : Call) :
    Coupling (w.act (.command j call)) where
  aggregates := by
    intro i a' ha'
    change (w.aggregates.modify j _)[i]? = some a' at ha'
    rw [List.getElem?_modify] at ha'
    obtain ⟨a, ha, rfl⟩ := Option.map_eq_some_iff.mp ha'
    have hcoupled := h.aggregates i a ha
    split
    · exact (hcoupled.progress (progress_invoke a call) (baseVersion_invoke a call)).evolve (.refl _)
    · exact hcoupled.evolve (.refl _)
  acknowledgements := by
    intro ack hack
    obtain ⟨a, ha, hpos, hle, hstored⟩ := h.acknowledgements ack hack
    have hget : (w.act (.command j call)).aggregates[ack.aggregate]? =
        some (if j = ack.aggregate then (invoke a call).2 else a) := by
      change (w.aggregates.modify j _)[ack.aggregate]? = _
      rw [List.getElem?_modify, ha]
      rfl
    refine ⟨_, hget, hpos, ?_⟩
    split
    · have hp := progress_invoke a call
      have hbase := baseVersion_invoke a call
      obtain ⟨more, hmore, -⟩ := hp.events hbase
      refine ⟨by rw [hmore, List.length_append]; omega, ?_⟩
      exact (hstored.progress hle hp hbase).evolve (.refl _)
    · exact ⟨hle, hstored.evolve (.refl _)⟩
  nodup := h.nodup

theorem mem_of_mem_erase {ack ack' : Acknowledgement} (h : ack' ∈ w.acknowledgements.erase ack) :
    ack' ∈ w.acknowledgements :=
  List.mem_of_mem_erase h

/-- No two acknowledgements for one aggregate are under way. -/
theorem Coupling.aggregate_ne (h : Coupling w) {ack ack' : Acknowledgement}
    (hack : ack ∈ w.acknowledgements) (hack' : ack' ∈ w.acknowledgements.erase ack) :
    ack'.aggregate ≠ ack.aggregate := by
  have hperm := (List.perm_cons_erase hack).map (·.aggregate)
  have hnodup := hperm.nodup_iff.mp h.nodup
  rw [List.map_cons, List.nodup_cons] at hnodup
  intro heq
  exact hnodup.1 (heq ▸ List.mem_map_of_mem hack')

theorem Coupling.acknowledge (h : Coupling w) {ack : Acknowledgement}
    (hack : ack ∈ w.acknowledgements) : Coupling (w.act (.acknowledge ack)) where
  aggregates := by
    intro i a' ha'
    change (w.aggregates.modify ack.aggregate _)[i]? = some a' at ha'
    rw [List.getElem?_modify] at ha'
    obtain ⟨a, ha, rfl⟩ := Option.map_eq_some_iff.mp ha'
    have hcoupled := h.aggregates i a ha
    split
    · next heq =>
      obtain ⟨a₁, ha₁, hpos, hle, hstored⟩ := h.acknowledgements ack hack
      obtain rfl : a₁ = a := Option.some.inj (ha₁.symm.trans (heq ▸ ha))
      rw [markEventsCommitted_exec]
      exact (hcoupled.acknowledged hpos hle hstored).evolve (.refl _)
    · exact hcoupled.evolve (.refl _)
  acknowledgements := by
    intro ack' hack'
    obtain ⟨a, ha, hpos, hle, hstored⟩ := h.acknowledgements ack' (mem_of_mem_erase hack')
    refine ⟨a, ?_, hpos, hle, hstored.evolve (.refl _)⟩
    change (w.aggregates.modify ack.aggregate _)[ack'.aggregate]? = some a
    rw [List.getElem?_modify, ha]
    simp [(h.aggregate_ne hack hack').symm]
  nodup := h.nodup.sublist (List.erase_sublist.map _)

theorem Coupling.lose (h : Coupling w) (ack : Acknowledgement) :
    Coupling (w.act (.lose ack)) where
  aggregates i a ha := (h.aggregates i a ha).evolve (.refl _)
  acknowledgements ack' hack' := h.acknowledgements ack' (mem_of_mem_erase hack')
  nodup := h.nodup.sublist (List.erase_sublist.map _)

theorem Coupling.act (h : Coupling w) {action : ProcessAction} (hen : w.Enabled action) :
    Coupling (w.act action) := by
  cases action with
  | create input => exact h.create input
  | command j call => exact h.command j call
  | acknowledge ack => exact h.acknowledge hen
  | lose ack => exact h.lose ack

end Actions

/-! ## Commits -/

section Commit

variable {R : List Key → World → World → Prop} {rt : Runtime} {u w : World} {log : Log Row}

/-- A save that is committed was not stale: the aggregate it saves, `a₀` when it was called and
    `a` by now, has had nothing acknowledged since. -/
structure Saved (input : SaveRequest) (u w : World) (w' : World) (a₀ a : PrivacyRequestAggregate)
    (row' : RequestRow) : Prop where
  called : u.aggregates[input.aggregate]? = some a₀
  snapshot : input.snapshot = a₀.snapshot
  pendingEvents : input.pendingEvents = a₀.events
  current : w.aggregates[input.aggregate]? = some a
  progress : Progress a₀ a
  expected : baseVersion a₀ = input.expectedVersion
  base : baseVersion a₀ = baseVersion a
  pending : 0 < a₀.events.length
  persisted : PrivacyRequestRepository.Persisted input.tenantId input.snapshot
    input.expectedVersion input.persistedAt (w.requests.find a.id) row'
  requests : w'.requests = w.requests.set a.id (some row')

open PrivacyRequestRepository in
theorem saved_of_completes {input : SaveRequest} {b : Unit} (hR : Rely R)
    (hE : ∀ {held w w'}, R held w w' → Evolves held w w') (h : Coupling w)
    (hstart : (TransactionRequest.save input).Starts u)
    (hrun : Completes R w (save rt input) ⟨u, []⟩ b ⟨w, log⟩) :
    ∃ a₀ a row', Saved input u w (view w log) a₀ a row' := by
  obtain ⟨hnonneg, hpending, hversion, -⟩ := save_effect hR hrun
  obtain ⟨row', W, sequence, hpersisted, hrequests, -, -, -, happ⟩ := save_records hR hrun
  obtain ⟨a₀, hcalled, hsnapshot, hevents⟩ := hstart
  obtain ⟨a, hcurrent, hprogress⟩ := (hE (hrun.rely hR)).aggregates _ _ hcalled
  have hid : input.snapshot.id = a.id := by
    rw [hsnapshot]
    exact congrArg CreatePrivacyRequest.id hprogress.input.symm
  rw [hid] at hpersisted hrequests
  have hexpected : baseVersion a₀ = input.expectedVersion := by
    rw [hsnapshot, hevents] at hversion
    change (a₀.version : Int) = input.expectedVersion + a₀.events.length at hversion
    unfold baseVersion
    omega
  have hcoupled := h.aggregates _ _ hcurrent
  have hbase : baseVersion a₀ = baseVersion a := by
    have hle := hprogress.base
    rcases hpersisted with ⟨hzero, hnone, -⟩ | ⟨hzero, row, hrow, -, -, hrowversion, -⟩
    · -- the row is not there, so the aggregate was never saved
      by_contra hne
      obtain ⟨row, hrow, -⟩ := hcoupled.saved (by omega)
      rw [hnone] at hrow
      cases hrow
    · obtain ⟨row₁, hrow₁, hrowle, -⟩ := hcoupled.saved (by omega)
      obtain rfl := Option.some.inj (hrow.symm.trans hrow₁)
      omega
  rw [hevents] at hpending
  exact ⟨a₀, a, row', hcalled, hsnapshot, hevents, hcurrent, hprogress, hexpected, hbase,
    hpending, hpersisted, happ.requests.trans hrequests⟩

variable {input : SaveRequest} {w' : World} {a₀ a : PrivacyRequestAggregate} {row' : RequestRow}

/-- The stored row is the snapshot, at the version the pending events lead to. -/
theorem Saved.row (h : Saved input u w w' a₀ a row') :
    row'.status = a₀.status ∧ (row'.version : Int) = baseVersion a + a₀.events.length := by
  have hversion : row'.status = a₀.status ∧ row'.version = a₀.version := by
    rcases h.persisted with ⟨-, -, rfl⟩ | ⟨-, row, -, -, -, -, rfl⟩ <;>
      exact ⟨by rw [h.snapshot]; rfl, by rw [h.snapshot]; rfl⟩
  refine ⟨hversion.1, ?_⟩
  rw [hversion.2, ← h.base, baseVersion]
  omega

/-- What the row was before: absent, or at the base version and not finished. -/
theorem Saved.before (h : Saved input u w w' a₀ a row') (hw : Coupling w) :
    (w.requests.find a.id = none ∧ baseVersion a = 0) ∨
      ∃ row, w.requests.find a.id = some row ∧ baseVersion a = row.version ∧
        ¬ finished row.status := by
  have hcoupled := hw.aggregates _ _ h.current
  obtain ⟨more, hmore, -⟩ := h.progress.events h.base
  rcases h.persisted with ⟨hzero, hnone, -⟩ | ⟨hzero, row, hrow, -, -, hversion, -⟩
  · exact .inl ⟨hnone, by rw [← h.base, h.expected, hzero]⟩
  · have hbase : baseVersion a = row.version := by rw [← h.base, h.expected, hversion]
    refine .inr ⟨row, hrow, hbase, fun hf => ?_⟩
    obtain ⟨row₁, hrow₁, -, hsame⟩ := hcoupled.saved (by rw [← h.base, h.expected]; exact hzero)
    obtain rfl := Option.some.inj (hrow.symm.trans hrow₁)
    have hlen := (hsame (by omega)).2 hf
    have hpending := h.pending
    rw [hmore, List.length_append] at hlen
    omega

/-- The aggregate's own events lead on from the row that is stored now. -/
theorem Saved.storedBehind (h : Saved input u w w' a₀ a row') :
    a₀.events.length ≤ a.events.length ∧ StoredBehind w' a a₀.events.length := by
  obtain ⟨more, hmore, hpath⟩ := h.progress.events h.base
  obtain ⟨hstatus, hversion⟩ := h.row
  have hlen : a.events.length = a₀.events.length + more.length := by
    rw [hmore, List.length_append]
  refine ⟨by omega, row', by rw [h.requests]; exact Table.find_set_self _ _ _, by omega,
    fun _ => ⟨?_, fun hf => ?_⟩⟩
  · rw [hstatus, hlen, Nat.add_sub_cancel_left]
    exact hpath
  · have hversion₀ := (h.progress.finished (hstatus ▸ hf)).2
    have hversion := version_eq_of_baseVersion_eq h.base hmore
    omega

/-- No save of the aggregate waits for its acknowledgement. -/
theorem Saved.not_waiting (h : Saved input u w w' a₀ a row') (hw : Coupling w) :
    ∀ ack ∈ w.acknowledgements, ack.aggregate ≠ input.aggregate := by
  intro ack hack heq
  obtain ⟨a₁, ha₁, hpos, -, row, hrow, hle, -⟩ := hw.acknowledgements ack hack
  obtain rfl := Option.some.inj (h.current.symm.trans (heq ▸ ha₁))
  rcases h.before hw with ⟨hnone, -⟩ | ⟨row₁, hrow₁, hbase, -⟩
  · rw [hnone] at hrow
    cases hrow
  · obtain rfl := Option.some.inj (hrow.symm.trans hrow₁)
    omega

theorem Coupling.save (hw : Coupling w) {log : Log Row}
    (h : Saved input u w (view w log) a₀ a row')
    (hreq : RequestsEvolve w.requests (view w log).requests) :
    Coupling ((TransactionRequest.save input).settle (view w log)) := by
  have hacks : ((TransactionRequest.save input).settle (view w log)).acknowledgements =
      w.acknowledgements ++ [⟨input.aggregate, input.pendingEvents.length⟩] := by
    show (view w log).acknowledgements ++ _ = _
    rw [view_acknowledgements]
  have hview : Coupling (view w log) := hw.evolve hreq (view_aggregates w log)
    (view_acknowledgements w log)
  have hcurrent : (view w log).aggregates[input.aggregate]? = some a := by
    rw [view_aggregates]
    exact h.current
  obtain ⟨hle, hstored⟩ := h.storedBehind
  constructor
  · exact fun i b hb => (hview.aggregates i b hb).evolve (.refl _)
  · rw [hacks]
    intro ack hack
    rcases List.mem_append.mp hack with hack | hack
    · rw [← view_acknowledgements w log] at hack
      exact hview.acknowledgements ack hack
    · rw [List.mem_singleton.mp hack, h.pendingEvents]
      exact ⟨a, hcurrent, h.pending, hle, hstored⟩
  · rw [hacks, List.map_append, List.nodup_append]
    refine ⟨hw.nodup, List.nodup_singleton _, ?_⟩
    intro i hi j hj
    obtain ⟨ack, hack, rfl⟩ := List.mem_map.mp hi
    rw [List.mem_singleton.mp hj]
    exact h.not_waiting hw ack hack

/-- Every transaction keeps the coupling. -/
theorem Coupling.commit {request : TransactionRequest} {b : Unit} {log : Log Row} (hR : Rely R)
    (hE : ∀ {held w w'}, R held w w' → Evolves held w w') (hw : Coupling w)
    (hstart : request.Starts u)
    (hrun : Completes R w (request.script rt) ⟨u, []⟩ b ⟨w, log⟩) :
    Coupling (request.settle (view w log)) := by
  have hevolves : Evolves [] w (request.settle (view w log)) :=
    evolves_commit hR hE hrun (by simp)
  cases request with
  | save input =>
    obtain ⟨a₀, a, row', hsaved⟩ := saved_of_completes hR hE hw hstart hrun
    exact hw.save hsaved hevolves.requests
  | _ => exact hw.evolve hevolves.requests (view_aggregates w log) (view_acknowledgements w log)

end Commit

end ForgetOps.Database
