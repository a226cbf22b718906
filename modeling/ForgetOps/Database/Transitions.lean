import ForgetOps.Database.Coupling
import ForgetOps.Database.Sequential

/-
  The status changes of the writers against the transition table of the domain.

  A save moves the stored status along the events it commits, which the coupling keeps a path of
  the table. A binding or a forced replacement moves it to a status of its own choice:
  `keepsTable` are the runs in which that choice is an edge of the table.
-/

namespace ForgetOps.Database

open Domain Api
open ReadCommitted RowStore

/-- The committed status changes: for a save a path with one edge or stay for each event, where
    creating the request is the first event; otherwise one edge or stay. -/
def Conforms (request : TransactionRequest) (w w' : World) : Prop :=
  match request with
  | .save input => ∀ id row', w'.requests.find id = some row' →
    match w.requests.find id with
    | some row => row' = row ∨ Path input.pendingEvents.length row.status row'.status
    | none => Path (input.pendingEvents.length - 1) .created row'.status
  | _ => ∀ id row', w'.requests.find id = some row' →
    ∃ row, w.requests.find id = some row ∧ EdgeOrStay row.status row'.status

/-- The transaction commits in the configuration, and leaves the store `w'`. -/
def Commits (c : Configuration) (request : TransactionRequest) (w' : World) : Prop :=
  ∃ i log, c.live i = some ⟨request, .done (), log⟩ ∧
    w' = request.settle (view c.world log)

/-- The first duplicate a binding would find. -/
def firstDuplicate (input : BindSubjectRequest) (type : PrivacyRequestType) (w : World) :
    Option (String × RequestRow) :=
  if input.duplicateOverride.isSome then none
  else (SubjectBinding.candidateIds input type w).head?.bind fun id =>
    (w.requests.find id).map fun row => (id, row)

/-- The binding finds a duplicate that it cancels the request for: an older one, or one that is too
    far on to be cancelled itself. -/
def CancelsRequest (rt : Runtime) (w : World) (input : BindSubjectRequest) (row : RequestRow) :
    Prop :=
  ∃ id candidate, firstDuplicate input row.type w = some (id, candidate) ∧
    (SubjectBinding.isNewer rt row candidate input.requestId id ∨
      ¬ SubjectBinding.cancellableDuplicateStatus candidate.status)

/-- A binding finds a request that is still unbound before planning, or cancels it; and whatever a
    forced replacement reviews has an edge to review, or is there already. -/
def keepsTable (rt : Runtime) : Discipline where
  commits w request :=
    match request with
    | .bindSubject input => ∀ row, w.requests.find input.requestId = some row →
      row.subjectHash = none → row.status = .planning ∨ row.status = .awaitingApproval →
      CancelsRequest rt w input row
    | .consumeAndPair input => ∀ token, Presented w input token → ∀ id row,
      Reviewable w token id row → EdgeOrStay row.status .needsReview
    | _ => True
  acts _ _ _ := True

/-! ## Finished requests stay as they are -/

/-- Requests that are finished are never written again. -/
def Settled (w w' : World) : Prop :=
  ∀ id row, w.requests.find id = some row → finished row.status →
    w'.requests.find id = some row

theorem not_finished_of_cancellable {s : PrivacyRequestStatus}
    (h : SubjectBinding.cancellableDuplicateStatus s = true) : ¬ finished s := by
  cases s <;> simp_all [SubjectBinding.cancellableDuplicateStatus, finished]

section Commit

variable {R : List Key → World → World → Prop} {rt : Runtime} {u w : World} {log : Log Row}

theorem settled_set {w w' : World} {id : String} {row' : RequestRow}
    (h : w'.requests = w.requests.set id (some row'))
    (hopen : ∀ row, w.requests.find id = some row → ¬ finished row.status) : Settled w w' := by
  intro id₁ row hrow hf
  have hne : id₁ ≠ id := by
    rintro rfl
    exact hopen row hrow hf
  rw [h, Table.find_set_of_ne _ _ hne]
  exact hrow

open SubjectBinding in
theorem settled_bound {input : BindSubjectRequest} {initial row : RequestRow}
    {candidates : List (String × RequestRow)}
    (hb : Bound R rt input u w log initial row candidates) : Settled w (view w log) := by
  intro id row₁ hrow₁ hf
  have hopen {id' : String} {row' : RequestRow} (hrow' : w.requests.find id' = some row')
      (hnot : ¬ finished row'.status) : id ≠ id' := by
    rintro rfl
    obtain rfl := Option.some.inj (hrow'.symm.trans hrow₁)
    exact hnot hf
  have hne := hopen hb.stored (not_finished_of_cancellable hb.status)
  refine decidedRequests_cases hb (Q := fun t => t.find id = some row₁) ?_ ?_ hrow₁
  · intro t decision _ ht
    rw [Table.find_set_of_ne _ _ hne]
    exact ht
  · intro id' candidate hfound hcandidate
    rw [Table.find_set_of_ne _ _ (hopen hfound hcandidate.2.2.2.2)]
    exact hrow₁

open Pairing in
theorem settled_forced {input : ConsumeAndPairInput} {w' : World} {token : TokenRow}
    {affected : List String} {p₀ p₁ p₂ : Point World Row}
    (h : Forced R input u w w' token affected p₀ p₁ p₂) : Settled w w' := by
  intro id row hrow hf
  rw [h.after_requests]
  rcases h.requests id with ⟨row₁, hrow₁, haffected, -⟩ | ⟨hsame, -⟩
  · obtain rfl := Option.some.inj (hrow.symm.trans hrow₁)
    exact absurd hf haffected.2.2
  · exact hsame.trans hrow

theorem settled_commit {request : TransactionRequest} {b : Unit} (hR : Rely R)
    (hE : ∀ {held w w'}, R held w w' → Evolves held w w') (hw : Coupling w)
    (hstart : request.Starts u)
    (hrun : Completes R w (request.script rt) ⟨u, []⟩ b ⟨w, log⟩) :
    Settled w (request.settle (view w log)) := by
  cases request with
  | save input =>
    obtain ⟨a₀, a, row', hsaved⟩ := saved_of_completes hR hE hw hstart hrun
    refine settled_set hsaved.requests fun row hrow => ?_
    rcases hsaved.before hw with ⟨hnone, -⟩ | ⟨row₁, hrow₁, -, hopen⟩
    · rw [hnone] at hrow
      cases hrow
    · obtain rfl := Option.some.inj (hrow.symm.trans hrow₁)
      exact hopen
  | bindSubject input =>
    obtain ⟨b, hbind⟩ := completes_discard hR hrun
    rcases SubjectBinding.bindSubject_effect hR hbind with hsame | ⟨_, row, candidates, hb⟩
    · exact fun id row hrow _ => hsame.requests ▸ hrow
    · exact settled_bound hb
  | consumeAndPair input =>
    obtain ⟨b, hpair⟩ := completes_discard hR hrun
    rcases Pairing.consumeAndPair_effect hR hpair with hsame | ⟨_, _, _, _, _, hf⟩
    · exact fun id row hrow _ => hsame.requests ▸ hrow
    · exact settled_forced hf
  | other write =>
    obtain ⟨hsame, -⟩ := other_effect hR hrun
    exact fun id row hrow _ => hsame.requests ▸ hrow

end Commit

theorem settled_act (w : World) (action : ProcessAction) : Settled w (w.act action) := by
  intro id row hrow _
  cases action <;> exact hrow

theorem settled_trans {w w' w'' : World} (h : Settled w w') (h' : Settled w' w'') :
    Settled w w'' :=
  fun id row hrow hf => h' id row (h id row hrow hf) hf

theorem rely_settled (request : TransactionRequest) :
    Rely (Within Coupling (Relies (fun _ => Settled) request)) := by
  have hrelies : Rely (Relies (fun _ => Settled) request) := by
    refine rely_relies ?_ ?_ request
    · exact fun _ _ _ _ hrow _ => hrow
    · exact settled_trans
  exact hrelies.within Coupling

theorem guarantee_coupling (rt : Runtime) (d : Discipline) :
    Guarantee (system rt d) Coupling (Relies fun _ => Settled) := by
  refine guarantee_system (fun _ _ _ _ hrow _ => hrow) settled_trans ?_ ?_
  · intro live w action hw hen _
    exact ⟨hw.act hen, fun _ _ => settled_act w action⟩
  · intro w u request log hw hu hstart _ hrun
    have hR := rely_settled request
    exact ⟨hw.commit hR (fun h => h.1.1) hstart hrun,
      fun _ => settled_commit hR (fun h => h.1.1) hw hstart hrun⟩

/-! ## The duplicate a binding finds -/

section Duplicates

open SubjectBinding

/-- The order of the candidates, by their identifiers. -/
def Precedes (w : World) (a b : String) : Prop :=
  ∃ ra rb, w.requests.find a = some ra ∧ w.requests.find b = some rb ∧
    candidateOrder (a, ra) (b, rb) = true

theorem Precedes.antisymm {w : World} {a b : String} (h : Precedes w a b) (h' : Precedes w b a) :
    a = b := by
  obtain ⟨ra, rb, ha, hb, hle⟩ := h
  obtain ⟨rb', ra', hb', ha', hle'⟩ := h'
  obtain rfl := Option.some.inj (ha.symm.trans ha')
  obtain rfl := Option.some.inj (hb.symm.trans hb')
  simp only [candidateOrder, decide_eq_true_eq] at hle hle'
  rcases hle with hlt | ⟨heq, hab⟩ <;> rcases hle' with hlt' | ⟨heq', hba⟩
  · exact absurd hlt' (String.lt_asymm hlt)
  · exact absurd (heq' ▸ hlt) (String.lt_irrefl _)
  · exact absurd (heq ▸ hlt') (String.lt_irrefl _)
  · exact String.le_antisymm hab hba

theorem Precedes.evolve {w w' : World} (hreq : RequestsEvolve w.requests w'.requests)
    {a b : String} (h : Precedes w a b) : Precedes w' a b := by
  obtain ⟨ra, rb, ha, hb, hle⟩ := h
  obtain ⟨ra', ha', hra⟩ := hreq a ra ha
  obtain ⟨rb', hb', hrb⟩ := hreq b rb hb
  refine ⟨ra', rb', ha', hb', ?_⟩
  simpa [candidateOrder, hra.createdAt, hrb.createdAt] using hle

theorem pairwise_candidateIds (input : BindSubjectRequest) (type : PrivacyRequestType)
    (w : World) : (candidateIds input type w).Pairwise (Precedes w) := by
  have htrans (a b c : String × RequestRow) (hab : candidateOrder a b = true)
      (hbc : candidateOrder b c = true) : candidateOrder a c = true := by
    simp only [candidateOrder, decide_eq_true_eq] at *
    rcases hab with hlt | ⟨heq, hle⟩ <;> rcases hbc with hlt' | ⟨heq', hle'⟩
    · exact .inl (String.lt_trans hlt hlt')
    · exact .inl (heq' ▸ hlt)
    · exact .inl (heq ▸ hlt')
    · exact .inr ⟨heq.trans heq', String.le_trans hle hle'⟩
  have htotal (a b : String × RequestRow) : (candidateOrder a b || candidateOrder b a) = true := by
    simp only [candidateOrder, Bool.or_eq_true, decide_eq_true_eq]
    by_cases hlt : a.2.createdAt < b.2.createdAt
    · exact .inl (.inl hlt)
    by_cases hgt : b.2.createdAt < a.2.createdAt
    · exact .inr (.inl hgt)
    have heq := String.le_antisymm (String.not_lt.mp hgt) (String.not_lt.mp hlt)
    rcases String.le_total a.1 b.1 with hle | hle
    · exact .inl (.inr ⟨heq, hle⟩)
    · exact .inr (.inr ⟨heq.symm, hle⟩)
  rw [candidateIds, List.pairwise_map]
  refine (List.pairwise_mergeSort htrans htotal _).imp_of_mem ?_
  intro a b ha hb hab
  rw [List.mem_mergeSort, List.mem_filter] at ha hb
  exact ⟨a.2, b.2, Table.mem_entries_iff.mp ha.1, Table.mem_entries_iff.mp hb.1, hab⟩

theorem nodup_candidateIds (input : BindSubjectRequest) (type : PrivacyRequestType) (w : World) :
    (candidateIds input type w).Nodup := by
  have hperm := (List.mergeSort_perm (w.requests.entries.filter fun entry =>
    isCandidate input type entry.2 ∧ entry.1 ≠ input.requestId) candidateOrder).map Prod.fst
  exact hperm.nodup_iff.mpr (w.requests.nodup.sublist (List.filter_sublist.map Prod.fst))

variable {R : List Key → World → World → Prop} {rt : Runtime} {input : BindSubjectRequest}
  {u w : World}

/-- What is a candidate under the advisory lock has been one ever since the lock was taken. -/
theorem candidate_before {lock : BindingLock} {type : PrivacyRequestType}
    (henv : lock.environmentId = input.environmentId)
    (hhash : lock.subjectHash = input.subjectHash) (htype : lock.type = type)
    (hevolves : Evolves [.advisory lock] u w) (hsettled : Settled u w) {id : String}
    {row : RequestRow} (hrow : w.requests.find id = some row)
    (hcandidate : isCandidate input type row) :
    ∃ row₀, u.requests.find id = some row₀ ∧ isCandidate input type row₀ := by
  obtain ⟨⟨htenant, hrowenv⟩, hrowhash, hrowtype, hoverride, hopen⟩ := hcandidate
  obtain ⟨row₀, hrow₀, henv₀, hhash₀, htype₀⟩ := hevolves.unbound lock (by simp) id row hrow
    ⟨by rw [henv, hrowenv], by rw [hhash, hrowhash], by rw [htype, hrowtype]⟩
  obtain ⟨row', hrow', hgrows⟩ := hevolves.requests id row₀ hrow₀
  obtain rfl := Option.some.inj (hrow.symm.trans hrow')
  refine ⟨row₀, hrow₀, ⟨by rw [← hgrows.tenantId, htenant], by rw [henv₀, henv]⟩,
    by rw [hhash₀, hhash], by rw [htype₀, htype], ?_, fun hf => ?_⟩
  · rw [← (hgrows.bound (by simp [hhash₀])).2, hoverride]
  · obtain rfl := Option.some.inj ((hsettled id row₀ hrow₀ hf).symm.trans hrow)
    exact hopen hf

theorem map_fst_candidates {lock : BindingLock} {type : PrivacyRequestType}
    {candidates : List (String × RequestRow)}
    (hE : ∀ {held w w'}, R held w w' → Evolves held w w')
    (hsettled : ∀ {held w w'}, R held w w' → Settled w w')
    (henv : lock.environmentId = input.environmentId)
    (hhash : lock.subjectHash = input.subjectHash) (htype : lock.type = type)
    (hoverride : input.duplicateOverride.isSome = false)
    (h : Candidates R [.advisory lock] input type w candidates) :
    candidates.map Prod.fst = candidateIds input type w := by
  obtain ⟨u, huw, hsub, hall⟩ := h.complete hoverride
  refine List.Perm.eq_of_pairwise (fun a b _ _ => Precedes.antisymm) ?_
    (pairwise_candidateIds input type w) ?_
  · exact ((pairwise_candidateIds input type u).sublist hsub).imp
      fun hab => hab.evolve (hE huw).requests
  · refine (List.perm_ext_iff_of_nodup ((nodup_candidateIds input type u).sublist hsub)
      (nodup_candidateIds input type w)).mpr fun id => ⟨fun hid => ?_, fun hid => ?_⟩
    · obtain ⟨e, he, rfl⟩ := List.mem_map.mp hid
      obtain ⟨hfound, hcandidate, hne⟩ := h.valid e he
      exact mem_candidateIds.mpr ⟨e.2, hfound, hcandidate, hne⟩
    · obtain ⟨row, hrow, hcandidate, hne⟩ := mem_candidateIds.mp hid
      obtain ⟨row₀, hrow₀, hcandidate₀⟩ :=
        candidate_before henv hhash htype (hE huw) (hsettled huw) hrow hcandidate
      rcases hall id (mem_candidateIds.mpr ⟨row₀, hrow₀, hcandidate₀, hne⟩) with
        hfound | ⟨u', hu'w, hnot⟩
      · exact hfound
      · obtain ⟨row₁, hrow₁, hcandidate₁⟩ :=
          candidate_before henv hhash htype (hE hu'w) (hsettled hu'w) hrow hcandidate
        exact absurd hcandidate₁ (hnot row₁ hrow₁)

theorem head?_candidates {lock : BindingLock} {type : PrivacyRequestType}
    {candidates : List (String × RequestRow)}
    (hE : ∀ {held w w'}, R held w w' → Evolves held w w')
    (hsettled : ∀ {held w w'}, R held w w' → Settled w w')
    (henv : lock.environmentId = input.environmentId)
    (hhash : lock.subjectHash = input.subjectHash) (htype : lock.type = type)
    (h : Candidates R [.advisory lock] input type w candidates) :
    candidates.head? = firstDuplicate input type w := by
  cases hoverride : input.duplicateOverride.isSome with
  | true => simp [h.overridden hoverride, firstDuplicate, hoverride]
  | false =>
    have hids := map_fst_candidates hE hsettled henv hhash htype hoverride h
    rw [firstDuplicate, hoverride, ← hids]
    cases candidates with
    | nil => rfl
    | cons e candidates =>
      obtain ⟨hfound, -⟩ := h.valid e List.mem_cons_self
      simp [hfound]

end Duplicates

/-! ## The commits -/

section Commits

variable {R : List Key → World → World → Prop} {rt : Runtime} {u w : World} {log : Log Row}

/-- The events of a save lead from the stored status to the one in the snapshot. -/
theorem conforms_save {input : SaveRequest} {a₀ a : PrivacyRequestAggregate} {row' : RequestRow}
    (hw : Coupling w) (hu : Coupling u) (hreq : RequestsEvolve u.requests w.requests)
    (h : Saved input u w (view w log) a₀ a row') :
    Conforms (.save input) w (view w log) := by
  intro id row₁ hrow₁
  rw [h.requests] at hrow₁
  by_cases hid : id = a.id
  swap
  · rw [Table.find_set_of_ne _ _ hid] at hrow₁
    rw [hrow₁]
    exact .inl rfl
  subst hid
  obtain rfl : row' = row₁ := by simpa using hrow₁
  have hcoupled := hu.aggregates _ _ h.called
  rw [h.pendingEvents, h.row.1]
  rcases h.before hw with ⟨hnone, hzero⟩ | ⟨row, hrow, hbase, -⟩
  · rw [hnone]
    exact (hcoupled.unsaved (h.base.trans hzero)).2
  · rw [hrow]
    right
    have hne : baseVersion a₀ ≠ 0 := by
      rcases h.persisted with ⟨-, hnone, -⟩ | ⟨hne, -⟩
      · rw [hrow] at hnone
        cases hnone
      · rw [h.expected]
        exact hne
    obtain ⟨row₀, hrow₀, hle, hpath⟩ := hcoupled.saved hne
    rw [← show a.id = a₀.id from congrArg CreatePrivacyRequest.id h.progress.input] at hrow₀
    obtain ⟨row₂, hrow₂, hgrows⟩ := hreq _ row₀ hrow₀
    obtain rfl := Option.some.inj (hrow.symm.trans hrow₂)
    -- nothing was committed to the row since the save was called
    have hversion := hgrows.version
    have hbase₀ := h.base
    obtain rfl := hgrows.same (by omega)
    exact (hpath (by omega)).1

open SubjectBinding in
theorem conforms_bound {input : BindSubjectRequest} {initial row : RequestRow}
    {candidates : List (String × RequestRow)}
    (hE : ∀ {held w w'}, R held w w' → Evolves held w w')
    (hsettled : ∀ {held w w'}, R held w w' → Settled w w')
    (hok : (keepsTable rt).commits w (.bindSubject input))
    (hb : Bound R rt input u w log initial row candidates) :
    Conforms (.bindSubject input) w (view w log) := by
  have hcancellable {s : PrivacyRequestStatus} (hs : cancellableDuplicateStatus s = true) :
      Edge s .cancelled := by
    cases s <;> first | decide | cases hs
  obtain ⟨u₁, -, hu₁, hinitial⟩ := hb.found
  obtain ⟨row₁, hrow₁, hgrows⟩ := (hE hu₁).requests _ _ hinitial
  obtain rfl := Option.some.inj (hb.stored.symm.trans hrow₁)
  have hfirst := head?_candidates hE hsettled rfl rfl hgrows.type.symm hb.duplicates
  -- the request itself
  have hrequest : EdgeOrStay row.status
      (decideBinding rt input row candidates.head?).currentStatus := by
    have hstatus := hb.status
    cases hdecision : decideBinding rt input row candidates.head? with
    | cancelRequest id => exact .inr (hcancellable hstatus)
    | bind | cancelCandidate =>
      have hnot : ¬ CancelsRequest rt w input row := by
        rintro ⟨id, candidate, hduplicate, hcancels⟩
        rw [hfirst, hduplicate, decideBinding, if_pos hcancels] at hdecision
        cases hdecision
      have hplanned := fun hs => hnot (hok row hb.stored hb.unbound hs)
      show EdgeOrStay row.status .identityVerified
      generalize row.status = s at *
      cases s <;> simp_all [cancellableDuplicateStatus, EdgeOrStay, Edge, transitions]
  obtain ⟨W, events, hrequests, -, -, -, -, -, happ⟩ := hb.decided.written
  intro id row' hrow'
  rw [happ.requests, hrequests, decidedRequests] at hrow'
  by_cases hid : id = input.requestId
  · subst hid
    obtain rfl : boundRow input _ row = row' := by simpa using hrow'
    exact ⟨row, hb.stored, hrequest⟩
  rw [Table.find_set_of_ne _ _ hid] at hrow'
  split at hrow'
  · next id' hid' =>
    obtain ⟨candidate, hmem, hstatus⟩ := cancelled_decideBinding hid'
    obtain ⟨hfound, -⟩ := hb.duplicates.valid _ hmem
    by_cases heq : id = id'
    · subst heq
      rw [hfound, Table.find_set_self] at hrow'
      cases hrow'
      exact ⟨candidate, hfound, .inr (hcancellable hstatus)⟩
    · rw [Table.find_set_of_ne _ _ heq] at hrow'
      exact ⟨row', hrow', .inl rfl⟩
  · exact ⟨row', hrow', .inl rfl⟩

open Pairing in
theorem conforms_forced {input : ConsumeAndPairInput} {w' : World} {token : TokenRow}
    {affected : List String} {p₀ p₁ p₂ : Point World Row}
    (hE : ∀ {held w w'}, R held w w' → Evolves held w w')
    (hok : (keepsTable rt).commits w (.consumeAndPair input))
    (h : Forced R input u w w' token affected p₀ p₁ p₂) :
    Conforms (.consumeAndPair input) w w' := by
  intro id row' hrow'
  rw [h.after_requests] at hrow'
  rcases h.requests id with ⟨row, hrow, haffected, hreviewed, -⟩ | ⟨hsame, -⟩
  · obtain rfl := Option.some.inj (hreviewed.symm.trans hrow')
    exact ⟨row, hrow, hok token (presented_of_forced hE h) id row
      (reviewable_of_forced h hrow haffected)⟩
  · exact ⟨row', hsame.symm.trans hrow', .inl rfl⟩

theorem conforms_sameRecords {request : TransactionRequest} {w w' : World}
    (h : SameRecords w w') : Conforms request w w' := by
  cases request with
  | save input =>
    intro id row' hrow'
    rw [h.requests] at hrow'
    rw [hrow']
    exact .inl rfl
  | _ => exact fun id row' hrow' => ⟨row', h.requests ▸ hrow', .inl rfl⟩

end Commits

/-- Every status change that is committed conforms to the table, in every run whose bindings and
    forced replacements keep to it. -/
theorem status_changes_conform_when_keepsTable {rt : Runtime} {c : Configuration}
    (hc : Reachable rt (keepsTable rt) c) {request : TransactionRequest} {w' : World}
    (hcommit : Commits c request w') (hok : (keepsTable rt).commits c.world request) :
    Conforms request c.world w' := by
  obtain ⟨i, log, hlive, rfl⟩ := hcommit
  obtain ⟨hw, u, hu, hstart, hrun⟩ :=
    ReadCommitted.Reachable.completes (guarantee_coupling rt _) coupling_initial hc hlive
  have hR := rely_settled request
  cases request with
  | save input =>
    obtain ⟨a₀, a, row', hsaved⟩ := saved_of_completes hR (fun h => h.1.1) hw hstart hrun
    exact conforms_save hw hu (hrun.rely hR).1.1.requests hsaved
  | bindSubject input =>
    obtain ⟨b, hbind⟩ := completes_discard hR hrun
    rcases SubjectBinding.bindSubject_effect hR hbind with hsame | ⟨_, row, candidates, hb⟩
    · exact conforms_sameRecords hsame
    · exact conforms_bound (fun h => h.1.1) (fun h => h.1.2) hok hb
  | consumeAndPair input =>
    obtain ⟨b, hpair⟩ := completes_discard hR hrun
    rcases Pairing.consumeAndPair_effect hR hpair with hsame | ⟨_, _, _, _, _, hf⟩
    · exact conforms_sameRecords hsame
    · exact conforms_forced (fun h => h.1.1) hok hf
  | other write => exact conforms_sameRecords (other_effect hR hrun).1

/-! ## Transactions that run alone -/

/-- What the transaction leaves behind if it runs alone; the store as it is if it throws. -/
@[irreducible] def afterRun (rt : Runtime) (w : World) (request : TransactionRequest) : World :=
  match (request.script rt).run w [] [] with
  | .ok o => request.settle (view w o.log)
  | .error _ => w

/-- A transaction that runs through alone gets to its commit. -/
theorem exists_commits {rt : Runtime} {d : Discipline} {w : World} {request : TransactionRequest}
    (hw : Reachable rt d ⟨w, fun _ => none⟩) (hstart : request.Starts w)
    (hrun : ((request.script rt).run w [] []).isOk = true) :
    ∃ c, Reachable rt d c ∧ c.world = w ∧ Commits c request (afterRun rt w request) := by
  cases hresult : (request.script rt).run w [] [] with
  | error code =>
    rw [hresult] at hrun
    cases hrun
  | ok o =>
    have hworld := run_world hresult
    have hstarted : Step (system rt d) ⟨w, fun _ => none⟩
        (alone w ⟨request, request.script rt, []⟩) := steps_start (S := system rt d) hstart
    have hsteps : Relation.ReflTransGen (Step (system rt d))
        (alone w ⟨request, request.script rt, []⟩)
        (alone o.world ⟨request, .done o.answer, o.log⟩) := (run_steps (allowed_nil _) hresult).1
    rw [hworld] at hsteps
    refine ⟨_, hw.trans (.head hstarted hsteps), rfl, 0, o.log, live_alone _ 0, ?_⟩
    rw [afterRun, hresult]
    rfl

/-- A transaction that a run plays gets to its commit, and the run goes on from what it leaves. -/
theorem played_transact {rt : Runtime} {ok : World → Move → Bool} {w w' : World}
    {request : World → TransactionRequest} {moves : List Move}
    (h : play rt ok w (.transact request :: moves) = some w') :
    (request w).Starts w ∧ (((request w).script rt).run w [] []).isOk = true ∧
      play rt ok (afterRun rt w (request w)) moves = some w' := by
  rw [play] at h
  split at h
  swap
  · cases h
  next hmove =>
  split at h
  · next o hrun =>
    refine ⟨hmove.2, ?_, ?_⟩
    · rw [hrun]
      rfl
    · rw [afterRun, hrun]
      exact h
  · cases h

theorem obeys_keepsTable (rt : Runtime) : Obeys onlySaves (keepsTable rt) where
  acts _ _ _ := trivial
  commits w request hok := by
    rw [onlySaves] at hok
    split at hok
    · next heq => rw [heq]; trivial
    · next heq => rw [heq]; trivial
    · cases hok

/-- The first save of a first request: five events, from nothing to `execution_authorized`. -/
theorem status_changes_conform_of_first_request :
    let w := playedWorld onlySaves
      (firstMoves ++ firstCalls.map fun call => .act (.command 0 call))
    let request := callSave 0 "t" 0 noon firstStamps w
    ((afterRun firstRuntime w request).requests.find "r").map (·.status) =
        some .executionAuthorized ∧
      Conforms request w (afterRun firstRuntime w request) := by
  intro w request
  have hcreated : play firstRuntime onlySaves World.initial
      (firstMoves ++ firstCalls.map fun call => .act (.command 0 call)) = some w :=
    played_playedWorld rfl
  have hsaved := savedMoves_played fun _ _ h => (Bool.and_eq_true_iff.mp h).1
  rw [savedMoves, play_append, hcreated, Option.bind_some] at hsaved
  have htransact : request.Starts w ∧
      ((request.script firstRuntime).run w [] []).isOk = true ∧
      play firstRuntime onlySaves (afterRun firstRuntime w request)
        [.act (.acknowledge ⟨0, 5⟩)] = some savedWorld := played_transact hsaved
  obtain ⟨hstart, hrun, hafter⟩ := htransact
  have hrequests : (afterRun firstRuntime w request).requests = savedWorld.requests := by
    rw [play] at hafter
    split at hafter
    · rw [play, Option.some.injEq] at hafter
      have hsame : ((afterRun firstRuntime w request).act (.acknowledge ⟨0, 5⟩)).requests =
          savedWorld.requests := congrArg World.requests hafter
      exact hsame
    · cases hafter
  refine ⟨by rw [hrequests]; rfl, ?_⟩
  have hw : Reachable firstRuntime (keepsTable firstRuntime) ⟨w, fun _ => none⟩ :=
    play_reachable (obeys_keepsTable firstRuntime) hcreated
  obtain ⟨c, hc, hworld, hcommit⟩ := exists_commits hw hstart hrun
  rw [← hworld] at hcommit ⊢
  exact status_changes_conform_when_keepsTable hc hcommit (by
    show (keepsTable firstRuntime).commits c.world (callSave 0 "t" 0 noon firstStamps w)
    unfold callSave
    split <;> trivial)

/-- A forced replacement moves the request from `execution_authorized` to `needs_review`. -/
theorem status_change_off_the_table_when_forced :
    ¬ ∀ (rt : Runtime) (c : Configuration) (request : TransactionRequest) (w' : World),
      Reachable rt anyRun c → Commits c request w' → Conforms request c.world w' := by
  intro h
  have hw : Reachable firstRuntime anyRun ⟨tokenWorld, fun _ => none⟩ :=
    play_reachable (obeys_anyRun _) tokenMoves_played
  obtain ⟨hstart, hrun, hplayed⟩ := played_transact forcedMoves_played
  have hforced : afterRun firstRuntime tokenWorld (.consumeAndPair firstPairing) = forcedWorld :=
    Option.some.inj hplayed
  obtain ⟨c, hc, hworld, hcommit⟩ := exists_commits hw hstart hrun
  have hconforms := h _ _ _ _ hc hcommit
  rw [hworld, hforced] at hconforms
  have hbefore : (tokenWorld.requests.find "r").map (·.status) = some .executionAuthorized := rfl
  have hafter : (forcedWorld.requests.find "r").map (·.status) = some .needsReview := rfl
  obtain ⟨row', hrow', hstatus'⟩ := Option.map_eq_some_iff.mp hafter
  obtain ⟨row, hrow, hstep⟩ := hconforms "r" row' hrow'
  rw [hrow, Option.map_some, Option.some.injEq] at hbefore
  rw [hbefore, hstatus'] at hstep
  revert hstep
  decide

end ForgetOps.Database
