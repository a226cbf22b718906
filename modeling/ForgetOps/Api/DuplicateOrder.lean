import ForgetOps.Api.ActiveBindings

/-
  Which of several requests for one subject is left.

  While requests are only bound, the one that is active is the oldest of those bound so far, by
  `compareCreatedAt`: a newer one is cancelled when it arrives, and an older one cancels it. So in
  whatever order and however interleaved they arrive, the oldest of all is left.
-/

namespace ForgetOps.Api.SubjectBinding

open Domain Database
open ReadCommitted RowStore

variable {rt : Runtime} {w w' : World} {lock : BindingLock}

/-! ## The order -/

section Order

variable {a b c : RequestRow} {ida idb idc : String}

theorem isNewer_trans [Std.TransCmp rt.localeCompare] (h : isNewer rt a b ida idb)
    (h' : isNewer rt b c idb idc) : isNewer rt a c ida idc := by
  rcases h with hlt | ⟨heq, hgt⟩ <;> rcases h' with hlt' | ⟨heq', hgt'⟩
  · exact .inl (String.lt_trans hlt' hlt)
  · exact .inl (heq' ▸ hlt)
  · exact .inl (heq ▸ hlt')
  · exact .inr ⟨heq'.trans heq, Std.TransCmp.gt_trans hgt hgt'⟩

theorem isNewer_of_not [Std.TransCmp rt.localeCompare] [Std.LawfulEqCmp rt.localeCompare]
    (hne : ida ≠ idb) (h : ¬ isNewer rt a b ida idb) : isNewer rt b a idb ida := by
  rw [isNewer, not_or, not_and] at h
  obtain ⟨hnot, hcompare⟩ := h
  by_cases hlt : a.createdAt < b.createdAt
  · exact .inl hlt
  · have heq : b.createdAt = a.createdAt :=
      String.le_antisymm (String.not_lt.mp hlt) (String.not_lt.mp hnot)
    refine .inr ⟨heq.symm, Std.OrientedCmp.gt_iff_lt.mpr ?_⟩
    cases hcmp : rt.localeCompare ida idb with
    | lt => rfl
    | eq => exact absurd (Std.LawfulEqCmp.eq_of_compare hcmp) hne
    | gt => exact absurd hcmp (hcompare heq)

end Order

/-! ## The request that is left -/

/-- Of the requests bound under the lock `id` is the oldest, and the only one that is not
    cancelled. -/
def OldestLeft (rt : Runtime) (lock : BindingLock) (w : World) (id : String) (row : RequestRow) :
    Prop :=
  w.requests.find id = some row ∧ BoundUnder lock row ∧ row.status = .identityVerified ∧
    ∀ id' row', w.requests.find id' = some row' → BoundUnder lock row' → id' ≠ id →
      row'.status = .cancelled ∧ isNewer rt row' row id' id

/-- No request is bound under the lock with an override, and the oldest is left if there is one. -/
structure Resolved (rt : Runtime) (lock : BindingLock) (w : World) : Prop where
  override : ∀ id row, w.requests.find id = some row → BoundUnder lock row →
    row.duplicateOverride = false
  oldest : ∀ id row, w.requests.find id = some row → BoundUnder lock row →
    ∃ id₁ row₁, OldestLeft rt lock w id₁ row₁

theorem Resolved.congr (h : Resolved rt lock w)
    (hsame : ∀ id row, BoundUnder lock row →
      (w'.requests.find id = some row ↔ w.requests.find id = some row)) :
    Resolved rt lock w' where
  override id row hrow hbound := h.override id row ((hsame id row hbound).mp hrow) hbound
  oldest := by
    intro id row hrow hbound
    obtain ⟨id₁, row₁, hrow₁, hbound₁, hstatus, hothers⟩ :=
      h.oldest id row ((hsame id row hbound).mp hrow) hbound
    exact ⟨id₁, row₁, (hsame id₁ row₁ hbound₁).mpr hrow₁, hbound₁, hstatus,
      fun id' row' hrow' hbound' => hothers id' row' ((hsame id' row' hbound').mp hrow') hbound'⟩

theorem OldestLeft.indexed (h : Resolved rt lock w) {id : String} {row : RequestRow}
    (hleft : OldestLeft rt lock w id row) : Indexed lock row := by
  obtain ⟨hrow, hbound, hstatus, -⟩ := hleft
  refine ⟨hbound, h.override id row hrow hbound, ?_⟩
  rw [hstatus]
  decide

/-- The one that has not ended is the one that is left. -/
theorem Resolved.oldest_of_indexed (h : Resolved rt lock w) {id : String} {row : RequestRow}
    (hrow : w.requests.find id = some row) (hi : Indexed lock row) :
    OldestLeft rt lock w id row := by
  obtain ⟨id₁, row₁, hleft⟩ := h.oldest id row hrow hi.1
  by_cases hid : id = id₁
  · subst hid
    obtain rfl := Option.some.inj (hrow.symm.trans hleft.1)
    exact hleft
  · exact absurd (.inr (hleft.2.2.2 id row hrow hi.1 hid).1) hi.2.2

section Bind

variable {input : BindSubjectRequest} {row : RequestRow} {decision : Decision}

/-- A row of the same lock behind the binding. -/
theorem boundUnder_decided {id : String} {r' : RequestRow}
    (hreq : w'.requests = decidedRequests input decision row w.requests)
    (hr' : w'.requests.find id = some r') (hbound : BoundUnder (lockOf input row) r') :
    (id = input.requestId ∧ r' = boundRow input decision row) ∨
      (id ≠ input.requestId ∧ ∃ r, w.requests.find id = some r ∧
        BoundUnder (lockOf input row) r ∧
        ((decision.cancelled = some id ∧ r' = cancelledRow input r) ∨
          (decision.cancelled ≠ some id ∧ r' = r))) := by
  rw [hreq, find_decidedRequests] at hr'
  split at hr'
  · next hid => exact .inl ⟨hid, (Option.some.inj hr').symm⟩
  · next hid =>
    split at hr'
    · next hcancelled =>
      obtain ⟨r, hr, rfl⟩ := Option.map_eq_some_iff.mp hr'
      exact .inr ⟨hid, r, hr, hbound, .inl ⟨hcancelled, rfl⟩⟩
    · next hcancelled => exact .inr ⟨hid, r', hr', hbound, .inr ⟨hcancelled, rfl⟩⟩

theorem Resolved.override_bind (h : Resolved rt (lockOf input row) w)
    (hoverride : input.duplicateOverride = none)
    (hreq : w'.requests = decidedRequests input decision row w.requests) (id : String)
    (r' : RequestRow) (hr' : w'.requests.find id = some r')
    (hbound : BoundUnder (lockOf input row) r') : r'.duplicateOverride = false := by
  rcases boundUnder_decided hreq hr' hbound with
    ⟨-, rfl⟩ | ⟨-, r, hr, hboundr, ⟨-, rfl⟩ | ⟨-, rfl⟩⟩
  · cases decision <;> simp [boundRow, Decision.outcome, hoverride]
  · exact h.override id r hr hboundr
  · exact h.override id r' hr hboundr

/-- The binding of one more request under the lock. -/
theorem Resolved.bind [Std.TransCmp rt.localeCompare] [Std.LawfulEqCmp rt.localeCompare]
    (h : Resolved rt (lockOf input row) w) (hinv : BindingInv w) (ha : Arrival input w row)
    (hoverride : input.duplicateOverride = none) (hd : Decides rt input w row decision)
    (hreq : w'.requests = decidedRequests input decision row w.requests) :
    Resolved rt (lockOf input row) w' where
  override := h.override_bind hoverride hreq
  oldest := by
    intro _ _ _ _
    have hself : w'.requests.find input.requestId = some (boundRow input decision row) := by
      rw [hreq, find_decidedRequests, if_pos rfl]
    have hboundself : BoundUnder (lockOf input row) (boundRow input decision row) :=
      ⟨ha.scope.2, rfl, rfl⟩
    have hnoOverride : input.duplicateOverride.isSome = false := by rw [hoverride]; rfl
    have hfind {id : String} (hid : id ≠ input.requestId) (hnot : decision.cancelled ≠ some id) :
        w'.requests.find id = w.requests.find id := by
      rw [hreq, find_decidedRequests, if_neg hid, if_neg hnot]
    cases hd with
    | bind hnone =>
      -- nothing was bound under the lock: what is left of it would be a duplicate
      refine ⟨input.requestId, _, hself, hboundself, rfl, fun id' r' hr' hbound' hne => ?_⟩
      rcases boundUnder_decided hreq hr' hbound' with ⟨hid, -⟩ | ⟨-, r, hr, hbound, -⟩
      · exact absurd hid hne
      · obtain ⟨id₁, row₁, hleft⟩ := h.oldest id' r hr hbound
        have hcandidate := hinv.isCandidate ha hleft.1 (hleft.indexed h)
        have hid₁ := firstDuplicate_eq_none hnone hnoOverride hleft.1 hcandidate
        obtain rfl := Option.some.inj (ha.stored.symm.trans (hid₁ ▸ hleft.1))
        rw [OldestLeft, BoundUnder, ha.unbound] at hleft
        cases hleft.2.1.2.1
    | @cancelRequest id candidate hfound hwhy =>
      obtain ⟨-, hcandidateRow, hcandidate, hne⟩ := firstDuplicate_eq_some hfound
      have hleft := h.oldest_of_indexed hcandidateRow (indexed_of_isCandidate hcandidate)
      have hnewer : isNewer rt row candidate input.requestId id := by
        refine hwhy.resolve_right fun hnot => hnot ?_
        rw [hleft.2.2.1]
        rfl
      refine ⟨id, candidate, (hfind hne (by simp [Decision.cancelled])).trans hcandidateRow,
        hleft.2.1, hleft.2.2.1, fun id' r' hr' hbound' hne' => ?_⟩
      rcases boundUnder_decided hreq hr' hbound' with
        ⟨rfl, rfl⟩ | ⟨-, r, hr, hbound, ⟨hcancelled, -⟩ | ⟨-, rfl⟩⟩
      · exact ⟨rfl, hnewer⟩
      · cases hcancelled
      · exact hleft.2.2.2 id' r' hr hbound hne'
    | @cancelCandidate id candidate hfound hnot hstatus =>
      obtain ⟨-, hcandidateRow, hcandidate, hne⟩ := firstDuplicate_eq_some hfound
      have hleft := h.oldest_of_indexed hcandidateRow (indexed_of_isCandidate hcandidate)
      have hnewer : isNewer rt candidate row id input.requestId := isNewer_of_not hne.symm hnot
      refine ⟨input.requestId, _, hself, hboundself, rfl, fun id' r' hr' hbound' hne' => ?_⟩
      rcases boundUnder_decided hreq hr' hbound' with
        ⟨hid, -⟩ | ⟨-, r, hr, hbound, ⟨hcancelled, rfl⟩ | ⟨hnot', rfl⟩⟩
      · exact absurd hid hne'
      · obtain rfl := Option.some.inj hcancelled
        obtain rfl := Option.some.inj (hcandidateRow.symm.trans hr)
        exact ⟨rfl, hnewer⟩
      · obtain ⟨hcancelled, hnewer'⟩ :=
          hleft.2.2.2 id' r' hr hbound fun hid => hnot' (by rw [hid]; rfl)
        exact ⟨hcancelled, isNewer_trans hnewer' hnewer⟩

end Bind

/-! ## Runs -/

instance firstRuntime_transCmp : Std.TransCmp firstRuntime.localeCompare :=
  inferInstanceAs (Std.TransCmp fun a b : String => compare a b)

instance firstRuntime_lawfulEqCmp : Std.LawfulEqCmp firstRuntime.localeCompare :=
  inferInstanceAs (Std.LawfulEqCmp fun a b : String => compare a b)

end ForgetOps.Api.SubjectBinding
