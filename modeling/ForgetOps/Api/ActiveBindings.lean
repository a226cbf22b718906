import ForgetOps.Database.History
import ForgetOps.Library.Pointers

/-
  What the index `privacy_requests_one_active_subject_type_uq`
  (`packages/database/migrations/0001_initial.sql`) asks of the bindings, and where the pointers
  `duplicate_of_request_id` lead.

  A binding holds the advisory lock of its subject from before it looks for duplicates to its
  commit, and what ends in between stays ended; so it decides on the one active request there is at
  its commit (`firstDuplicate`), and leaves one. What it cancels points at a request that points
  nowhere.
-/

namespace ForgetOps.Api.SubjectBinding

open Domain Database
open ReadCommitted RowStore

/-- The row is in the index, under `lock`. -/
def Indexed (lock : BindingLock) (r : RequestRow) : Prop :=
  BoundUnder lock r ∧ r.duplicateOverride = false ∧ ¬ finished r.status

/-- `duplicate_of_request_id` of a request. -/
def duplicateOf (w : World) (id : String) : Option String :=
  (w.requests.find id).bind (·.duplicateOfRequestId)

/-- No environment changes its tenant, or is deleted. -/
def fixedTenants : Discipline where
  commits w request :=
    match request with
    | .other (.environment id row) => ∀ e, w.environments.find id = some e →
      ∃ e', row = some e' ∧ e'.tenantId = e.tenantId
    | _ => True
  acts _ _ _ := True

def TenantsKeep (w w' : World) : Prop :=
  ∀ id e, w.environments.find id = some e →
    ∃ e', w'.environments.find id = some e' ∧ e'.tenantId = e.tenantId

/-- A request is of the tenant of its environment. -/
def Owned (w : World) (row : RequestRow) : Prop :=
  ∃ e, w.environments.find row.environmentId = some e ∧ e.tenantId = row.tenantId

/-- The request is cancelled as a duplicate of `target`, of the same subject and type. -/
structure Duplicates (w : World) (row : RequestRow) (target : String) : Prop where
  status : row.status = .cancelled
  override : row.duplicateOverride = false
  target : ∃ lock row', w.requests.find target = some row' ∧ BoundUnder lock row ∧
    BoundUnder lock row' ∧ row'.duplicateOverride = false

structure BindingInv (w : World) : Prop where
  owned : ∀ id row, w.requests.find id = some row → Owned w row
  unique : ∀ lock id id' row row', w.requests.find id = some row →
    w.requests.find id' = some row' → Indexed lock row → Indexed lock row' → id = id'
  duplicates : ∀ id row target, w.requests.find id = some row →
    row.duplicateOfRequestId = some target → Duplicates w row target
  rooted : Pointers.Rooted (duplicateOf w)

theorem bindingInv_initial : BindingInv World.initial where
  owned id row h := by simp [World.initial] at h
  unique lock id id' row row' h := by simp [World.initial] at h
  duplicates id row target h := by simp [World.initial] at h
  rooted := Pointers.rooted_of_none fun id => rfl

variable {w w' : World}

/-! ## Tenants -/

theorem tenantsKeep_refl (w : World) : TenantsKeep w w := fun _ e he => ⟨e, he, rfl⟩

theorem tenantsKeep_trans {w'' : World} (h : TenantsKeep w w') (h' : TenantsKeep w' w'') :
    TenantsKeep w w'' := by
  intro id e he
  obtain ⟨e', he', htenant⟩ := h id e he
  obtain ⟨e'', he'', htenant'⟩ := h' id e' he'
  exact ⟨e'', he'', htenant'.trans htenant⟩

theorem Owned.keep {row row' : RequestRow} (h : Owned w row) (hkeep : TenantsKeep w w')
    (henv : row'.environmentId = row.environmentId) (htenant : row'.tenantId = row.tenantId) :
    Owned w' row' := by
  obtain ⟨e, he, hown⟩ := h
  obtain ⟨e', he', hsame⟩ := hkeep _ e he
  exact ⟨e', by rw [henv]; exact he', by rw [hsame, hown, htenant]⟩

section Commit

variable {R : List Key → World → World → Prop} {rt : Runtime} {u : World} {log : Log Row}

theorem tenantsKeep_commit {request : TransactionRequest} {b : Unit} (hR : Rely R)
    (hok : fixedTenants.commits w request)
    (hrun : Completes R w (request.script rt) ⟨u, []⟩ b ⟨w, log⟩) :
    TenantsKeep w (request.settle (view w log)) := by
  have hview : TenantsKeep w (view w log) := by
    by_cases hother : ∃ id row, request = .other (.environment id row)
    · obtain ⟨id, row, rfl⟩ := hother
      obtain ⟨_, mid, hwrite, h⟩ := leads_bind hR (hrun.leads hR)
      obtain ⟨-, hlog⟩ := leads_pure hR h
      rcases leads_update hR hwrite with ⟨_, v, -, hq, hmid⟩ | ⟨-, -, u', hq, -⟩
      swap
      · cases hq
      obtain ⟨-, rfl⟩ := Prod.mk.inj (Option.some.inj hq)
      rw [show log = [⟨.environment id, row⟩] from hlog.trans hmid]
      intro id' e he
      by_cases hid : id' = id
      · subst hid
        obtain ⟨e', rfl, htenant⟩ := hok e he
        exact ⟨e', Table.find_set_self _ _ _, htenant⟩
      · exact ⟨e, (Table.find_set_of_ne _ _ hid).trans he, rfl⟩
    · rw [not_exists] at hother
      intro id e he
      have hsame : (view w log).environments.find id = w.environments.find id :=
        hrun.writes guarded_refl guarded_trans
          (guarded_script rt fun id row heq => hother id ⟨row, heq⟩) (.environment id)
      exact ⟨e, hsame.trans he, rfl⟩
  cases request <;> exact hview

end Commit

/-! ## Writes that leave the bindings alone -/

/-- The row is the same as far as the bindings go, and did not change if it had ended. -/
structure Carries (row row' : RequestRow) : Prop where
  tenantId : row'.tenantId = row.tenantId
  environmentId : row'.environmentId = row.environmentId
  type : row'.type = row.type
  subjectHash : row'.subjectHash = row.subjectHash
  duplicateOverride : row'.duplicateOverride = row.duplicateOverride
  duplicateOfRequestId : row'.duplicateOfRequestId = row.duplicateOfRequestId
  finished : finished row.status → row' = row

theorem Carries.refl (row : RequestRow) : Carries row row :=
  ⟨rfl, rfl, rfl, rfl, rfl, rfl, fun _ => rfl⟩

theorem Carries.boundUnder {row row' : RequestRow} (h : Carries row row') (lock : BindingLock) :
    BoundUnder lock row' ↔ BoundUnder lock row := by
  rw [BoundUnder, BoundUnder, h.environmentId, h.subjectHash, h.type]

theorem Carries.indexed {row row' : RequestRow} (h : Carries row row') {lock : BindingLock}
    (hrow' : Indexed lock row') : Indexed lock row := by
  obtain ⟨hbound, hoverride, hopen⟩ := hrow'
  refine ⟨(h.boundUnder lock).mp hbound, by rw [← h.duplicateOverride, hoverride], fun hf => ?_⟩
  exact hopen (h.finished hf ▸ hf)

/-- A request that is new, and not bound. -/
structure Fresh (w' : World) (row' : RequestRow) : Prop where
  subjectHash : row'.subjectHash = none
  duplicateOfRequestId : row'.duplicateOfRequestId = none
  owned : Owned w' row'

/-- Every request is carried over, or new. -/
structure CarriesAll (w w' : World) : Prop where
  tenants : TenantsKeep w w'
  before : ∀ id row', w'.requests.find id = some row' →
    (∃ row, w.requests.find id = some row ∧ Carries row row') ∨
      (w.requests.find id = none ∧ Fresh w' row')
  after : ∀ id row, w.requests.find id = some row →
    ∃ row', w'.requests.find id = some row' ∧ Carries row row'

theorem CarriesAll.duplicateOf (h : CarriesAll w w') : duplicateOf w' = duplicateOf w := by
  funext id
  rw [SubjectBinding.duplicateOf, SubjectBinding.duplicateOf]
  cases hfind : w.requests.find id with
  | some row =>
    obtain ⟨row', hrow', hcarries⟩ := h.after id row hfind
    rw [hrow']
    exact hcarries.duplicateOfRequestId
  | none =>
    cases hfind' : w'.requests.find id with
    | none => rfl
    | some row' =>
      rcases h.before id row' hfind' with ⟨row, hrow, -⟩ | ⟨-, hfresh⟩
      · rw [hfind] at hrow
        cases hrow
      · exact hfresh.duplicateOfRequestId

theorem BindingInv.carry (hw : BindingInv w) (h : CarriesAll w w') : BindingInv w' where
  owned := by
    intro id row' hrow'
    rcases h.before id row' hrow' with ⟨row, hrow, hcarries⟩ | ⟨-, hfresh⟩
    · exact (hw.owned id row hrow).keep h.tenants hcarries.environmentId hcarries.tenantId
    · exact hfresh.owned
  unique := by
    have hindexed {lock : BindingLock} {id : String} {row' : RequestRow}
        (hrow' : w'.requests.find id = some row') (hi : Indexed lock row') :
        ∃ row, w.requests.find id = some row ∧ Indexed lock row := by
      rcases h.before id row' hrow' with ⟨row, hrow, hcarries⟩ | ⟨-, hfresh⟩
      · exact ⟨row, hrow, hcarries.indexed hi⟩
      · obtain ⟨⟨-, hhash, -⟩, -, -⟩ := hi
        rw [hfresh.subjectHash] at hhash
        cases hhash
    intro lock id id' row row' hrow hrow' hi hi'
    obtain ⟨old, hold, hiold⟩ := hindexed hrow hi
    obtain ⟨old', hold', hiold'⟩ := hindexed hrow' hi'
    exact hw.unique lock id id' old old' hold hold' hiold hiold'
  duplicates := by
    intro id row' target hrow' htarget
    rcases h.before id row' hrow' with ⟨row, hrow, hcarries⟩ | ⟨-, hfresh⟩
    · obtain ⟨hstatus, hoverride, lock, other, hother, hbound, hotherbound, hotheroverride⟩ :=
        hw.duplicates id row target hrow (hcarries.duplicateOfRequestId.symm.trans htarget)
      obtain ⟨other', hother', hcarries'⟩ := h.after target other hother
      refine ⟨?_, hcarries.duplicateOverride.trans hoverride, lock, other', hother',
        (hcarries.boundUnder lock).mpr hbound, (hcarries'.boundUnder lock).mpr hotherbound,
        hcarries'.duplicateOverride.trans hotheroverride⟩
      rw [hcarries.finished (.inr hstatus)]
      exact hstatus
    · rw [hfresh.duplicateOfRequestId] at htarget
      cases htarget
  rooted := by
    rw [h.duplicateOf]
    exact hw.rooted

theorem carriesAll_of_requests (htenants : TenantsKeep w w') (h : w'.requests = w.requests) :
    CarriesAll w w' where
  tenants := htenants
  before _ row' hrow' := .inl ⟨row', h ▸ hrow', .refl row'⟩
  after _ row hrow := ⟨row, h ▸ hrow, .refl row⟩

theorem carriesAll_set {id : String} {row' : RequestRow} (htenants : TenantsKeep w w')
    (h : w'.requests = w.requests.set id (some row'))
    (hcarries : ∀ row, w.requests.find id = some row → Carries row row')
    (hfresh : w.requests.find id = none → Fresh w' row') : CarriesAll w w' where
  tenants := htenants
  before := by
    intro id₁ row₁ hrow₁
    rw [h] at hrow₁
    by_cases hid : id₁ = id
    · subst hid
      obtain rfl : row' = row₁ := by simpa using hrow₁
      cases hfind : w.requests.find id₁ with
      | none => exact .inr ⟨rfl, hfresh hfind⟩
      | some row => exact .inl ⟨row, rfl, hcarries row hfind⟩
    · rw [Table.find_set_of_ne _ _ hid] at hrow₁
      exact .inl ⟨row₁, hrow₁, .refl row₁⟩
  after := by
    intro id₁ row₁ hrow₁
    rw [h]
    by_cases hid : id₁ = id
    · subst hid
      exact ⟨row', Table.find_set_self _ _ _, hcarries row₁ hrow₁⟩
    · exact ⟨row₁, by rw [Table.find_set_of_ne _ _ hid, hrow₁], .refl row₁⟩

section Commit

variable {R : List Key → World → World → Prop} {rt : Runtime} {u : World} {log : Log Row}

open PrivacyRequestRepository in
/-- A save found the tenant of the environment to be its own. -/
theorem owner_of_save {input : SaveRequest} {b : Unit} (hR : Rely R)
    (hkeep : ∀ {held w w'}, R held w w' → TenantsKeep w w')
    (h : Completes R w (save rt input) ⟨u, []⟩ b ⟨w, log⟩) :
    ∃ e, w.environments.find input.snapshot.environmentId = some e ∧
      e.tenantId = input.tenantId := by
  obtain ⟨_, p₁, hguard, h⟩ := leads_bind hR (h.leads hR)
  obtain ⟨_, p₂, howner, h⟩ := leads_bind hR h
  obtain ⟨-, hlog₁⟩ := leads_failIf hR hguard
  obtain ⟨answer, p₃, hread, hcheck⟩ := leads_bind hR howner
  obtain ⟨-, t, rfl, -, htw⟩ := leads_read hR hread
  obtain ⟨howned, -⟩ := leads_failIf hR hcheck
  rw [hlog₁, view_nil, not_not] at howned
  obtain ⟨e, he, htenant⟩ := Option.map_eq_some_iff.mp howned
  obtain ⟨e', he', hsame⟩ := hkeep htw _ e he
  exact ⟨e', he', hsame.trans htenant⟩

open PrivacyRequestRepository in
theorem carriesAll_save {input : SaveRequest} {a₀ a : PrivacyRequestAggregate} {row' : RequestRow}
    (hw : Coupling w) (htenants : TenantsKeep w w')
    (howner : ∃ e, w.environments.find input.snapshot.environmentId = some e ∧
      e.tenantId = input.tenantId) (h : Saved input u w w' a₀ a row') : CarriesAll w w' := by
  refine carriesAll_set htenants h.requests ?_ ?_
  · intro row hrow
    rcases h.persisted with ⟨-, hnone, -⟩ | ⟨-, row₁, hrow₁, -, -, -, rfl⟩
    · rw [hnone] at hrow
      cases hrow
    · obtain rfl := Option.some.inj (hrow₁.symm.trans hrow)
      refine ⟨rfl, rfl, rfl, rfl, rfl, rfl, fun hf => ?_⟩
      rcases h.before hw with ⟨hnone, -⟩ | ⟨row₂, hrow₂, -, hopen⟩
      · rw [hnone] at hrow
        cases hrow
      · obtain rfl := Option.some.inj (hrow₂.symm.trans hrow)
        exact absurd hf hopen
  · intro hnone
    rcases h.persisted with ⟨-, -, rfl⟩ | ⟨-, row, hrow, -⟩
    · obtain ⟨e, he, htenant⟩ := howner
      obtain ⟨e', he', hsame⟩ := htenants _ e he
      exact ⟨rfl, rfl, e', he', hsame.trans htenant⟩
    · rw [hnone] at hrow
      cases hrow

open Pairing in
theorem carriesAll_forced {input : ConsumeAndPairInput} {token : TokenRow} {affected : List String}
    {p₀ p₁ p₂ : Point World Row} (htenants : TenantsKeep w w')
    (h : Forced R input u w w' token affected p₀ p₁ p₂) : CarriesAll w w' where
  tenants := htenants
  before := by
    intro id row' hrow'
    rw [h.after_requests] at hrow'
    rcases h.requests id with ⟨row, hrow, haffected, hafter, -⟩ | ⟨hsame, -⟩
    · obtain rfl := Option.some.inj (hrow'.symm.trans hafter)
      exact .inl ⟨row, hrow, rfl, rfl, rfl, rfl, rfl, rfl, fun hf => absurd hf haffected.2.2⟩
    · exact .inl ⟨row', hsame.symm.trans hrow', .refl row'⟩
  after := by
    intro id row hrow
    rw [h.after_requests]
    rcases h.requests id with ⟨row₁, hrow₁, haffected, hafter, -⟩ | ⟨hsame, -⟩
    · obtain rfl := Option.some.inj (hrow.symm.trans hrow₁)
      exact ⟨_, hafter, rfl, rfl, rfl, rfl, rfl, rfl, fun hf => absurd hf haffected.2.2⟩
    · exact ⟨row, hsame.trans hrow, .refl row⟩

end Commit

/-! ## Bindings -/

section Bind

variable {R : List Key → World → World → Prop} {rt : Runtime} {u : World} {log : Log Row}
  {input : BindSubjectRequest} {row : RequestRow} {decision : Decision}

theorem find_decidedRequests (id : String) :
    (decidedRequests input decision row w.requests).find id =
      if id = input.requestId then some (boundRow input decision row)
      else if decision.cancelled = some id then (w.requests.find id).map (cancelledRow input)
      else w.requests.find id := by
  by_cases hid : id = input.requestId
  · rw [if_pos hid, decidedRequests, hid, Table.find_set_self]
  · rw [if_neg hid, decidedRequests, Table.find_set_of_ne _ _ hid]
    cases hc : decision.cancelled with
    | none => rfl
    | some id' =>
      by_cases hid' : id = id'
      · subst hid'
        rw [if_pos rfl]
        exact Table.find_set_self _ _ _
      · rw [if_neg fun heq => hid' (Option.some.inj heq).symm]
        exact Table.find_set_of_ne _ _ hid'

/-- The subject and type of the binding. -/
def lockOf (input : BindSubjectRequest) (row : RequestRow) : BindingLock :=
  ⟨input.environmentId, input.subjectHash, row.type⟩

/-- A binding that decides at its commit, on the requests as they are then. -/
structure Arrival (input : BindSubjectRequest) (w : World) (row : RequestRow) : Prop where
  stored : w.requests.find input.requestId = some row
  scope : inScope input.tenantId input.environmentId row
  status : cancellableDuplicateStatus row.status = true
  unbound : row.subjectHash = none

theorem firstDuplicate_eq_some {type : PrivacyRequestType} {id : String} {candidate : RequestRow}
    (h : firstDuplicate input type w = some (id, candidate)) :
    input.duplicateOverride.isSome = false ∧ w.requests.find id = some candidate ∧
      isCandidate input type candidate ∧ id ≠ input.requestId := by
  rw [firstDuplicate] at h
  split at h
  · cases h
  · next hoverride =>
    obtain ⟨id', hid', hmap⟩ := Option.bind_eq_some_iff.mp h
    obtain ⟨row', hrow', hpair⟩ := Option.map_eq_some_iff.mp hmap
    obtain ⟨rfl, rfl⟩ := Prod.mk.inj hpair
    obtain ⟨row₁, hrow₁, hcandidate, hne⟩ := mem_candidateIds.mp (List.mem_of_mem_head? hid')
    obtain rfl := Option.some.inj (hrow'.symm.trans hrow₁)
    exact ⟨by simpa using hoverride, hrow', hcandidate, hne⟩

theorem firstDuplicate_eq_none {type : PrivacyRequestType}
    (h : firstDuplicate input type w = none) (hoverride : input.duplicateOverride.isSome = false)
    {id : String} {candidate : RequestRow} (hfound : w.requests.find id = some candidate)
    (hcandidate : isCandidate input type candidate) : id = input.requestId := by
  by_contra hne
  have hmem : id ∈ candidateIds input type w := mem_candidateIds.mpr ⟨_, hfound, hcandidate, hne⟩
  rw [firstDuplicate, hoverride, if_neg Bool.false_ne_true] at h
  cases hids : candidateIds input type w with
  | nil =>
    rw [hids] at hmem
    cases hmem
  | cons id' ids =>
    have hmem' : id' ∈ candidateIds input type w := by rw [hids]; exact List.mem_cons_self
    obtain ⟨row', hrow', -⟩ := mem_candidateIds.mp hmem'
    rw [hids, List.head?_cons, Option.bind_some, hrow'] at h
    cases h

theorem indexed_of_isCandidate {candidate : RequestRow}
    (h : isCandidate input row.type candidate) : Indexed (lockOf input row) candidate := by
  obtain ⟨⟨-, henv⟩, hhash, htype, hoverride, hopen⟩ := h
  exact ⟨⟨henv, hhash, htype⟩, hoverride, hopen⟩

/-- What the index has under the lock is a candidate: it is of the same tenant. -/
theorem BindingInv.isCandidate (hw : BindingInv w) (ha : Arrival input w row) {id : String}
    {candidate : RequestRow} (hfound : w.requests.find id = some candidate)
    (h : Indexed (lockOf input row) candidate) : isCandidate input row.type candidate := by
  obtain ⟨⟨henv, hhash, htype⟩, hoverride, hopen⟩ := h
  obtain ⟨e, he, htenant⟩ := hw.owned _ _ ha.stored
  obtain ⟨e', he', htenant'⟩ := hw.owned _ _ hfound
  rw [ha.scope.2] at he
  rw [henv] at he'
  obtain rfl := Option.some.inj (he.symm.trans he')
  exact ⟨⟨by rw [← htenant', htenant, ha.scope.1], henv⟩, hhash, htype, hoverride, hopen⟩

/-- A request that has not ended is no duplicate. -/
theorem BindingInv.pointsNowhere (hw : BindingInv w) {id : String} {r : RequestRow}
    (hr : w.requests.find id = some r) (hopen : ¬ finished r.status) :
    r.duplicateOfRequestId = none := by
  cases htarget : r.duplicateOfRequestId with
  | none => rfl
  | some target => exact absurd (.inr (hw.duplicates id r target hr htarget).status) hopen

/-- The decision, by the duplicate it was taken on. -/
inductive Decides (rt : Runtime) (input : BindSubjectRequest) (w : World) (row : RequestRow) :
    Decision → Prop
  | bind (h : firstDuplicate input row.type w = none) : Decides rt input w row .bind
  | cancelRequest {id : String} {candidate : RequestRow}
      (h : firstDuplicate input row.type w = some (id, candidate))
      (hnewer : isNewer rt row candidate input.requestId id ∨
        ¬ cancellableDuplicateStatus candidate.status) :
      Decides rt input w row (.cancelRequest id)
  | cancelCandidate {id : String} {candidate : RequestRow}
      (h : firstDuplicate input row.type w = some (id, candidate))
      (hnewer : ¬ isNewer rt row candidate input.requestId id)
      (hstatus : cancellableDuplicateStatus candidate.status = true) :
      Decides rt input w row (.cancelCandidate id)

theorem decides_decideBinding (rt : Runtime) (input : BindSubjectRequest) (w : World)
    (row : RequestRow) :
    Decides rt input w row (decideBinding rt input row (firstDuplicate input row.type w)) := by
  cases h : firstDuplicate input row.type w with
  | none => exact .bind h
  | some found =>
    obtain ⟨id, candidate⟩ := found
    rw [decideBinding]
    split
    · next hnewer => exact .cancelRequest h hnewer
    · next hnot =>
      rw [not_or, not_not] at hnot
      exact .cancelCandidate h hnot.1 hnot.2

/-- The row that is in the index behind the binding was there before, or is the one it bound. -/
theorem indexed_decided {lock : BindingLock} {id : String} {r' : RequestRow}
    (ha : Arrival input w row)
    (hreq : w'.requests = decidedRequests input decision row w.requests)
    (hr' : w'.requests.find id = some r') (hi : Indexed lock r') :
    (id = input.requestId ∧ lock = lockOf input row ∧ decision.duplicateOfRequestId = none ∧
        input.duplicateOverride.isSome = false) ∨
      (id ≠ input.requestId ∧ decision.cancelled ≠ some id ∧ w.requests.find id = some r') := by
  rw [hreq, find_decidedRequests] at hr'
  obtain ⟨⟨henv, hhash, htype⟩, hoverride, hopen⟩ := hi
  split at hr'
  · next hid =>
    obtain rfl := Option.some.inj hr'
    refine .inl ⟨hid, ?_, ?_⟩
    · obtain ⟨lockEnvironment, lockHash, lockType⟩ := lock
      obtain rfl : row.environmentId = lockEnvironment := henv
      obtain rfl : input.subjectHash = lockHash := Option.some.inj hhash
      obtain rfl : row.type = lockType := htype
      rw [lockOf, ha.scope.2]
    · cases decision with
      | cancelRequest id' => exact absurd (.inr rfl) hopen
      | bind | cancelCandidate =>
        refine ⟨rfl, ?_⟩
        cases hsome : input.duplicateOverride.isSome with
        | false => rfl
        | true => simp [boundRow, Decision.outcome, hsome] at hoverride
  · next hid =>
    split at hr'
    · obtain ⟨r, -, rfl⟩ := Option.map_eq_some_iff.mp hr'
      exact absurd (.inr rfl) hopen
    · next hcancelled => exact .inr ⟨hid, hcancelled, hr'⟩

/-- The rest of the index under the lock is the duplicate the decision cancels, if any. -/
theorem BindingInv.cancelled_of_indexed (hw : BindingInv w) (ha : Arrival input w row)
    (hd : Decides rt input w row decision) (hbound : decision.duplicateOfRequestId = none)
    (hoverride : input.duplicateOverride.isSome = false) {id : String} {r : RequestRow}
    (hr : w.requests.find id = some r) (hi : Indexed (lockOf input row) r)
    (hne : id ≠ input.requestId) : decision.cancelled = some id := by
  have hcandidate := hw.isCandidate ha hr hi
  cases hd with
  | bind hnone => exact absurd (firstDuplicate_eq_none hnone hoverride hr hcandidate) hne
  | cancelRequest hfound => cases hbound
  | @cancelCandidate id' candidate hfound =>
    obtain ⟨-, hrow', hcandidate', -⟩ := firstDuplicate_eq_some hfound
    rw [hw.unique _ id id' r candidate hr hrow' hi (indexed_of_isCandidate hcandidate')]
    rfl

/-- The pointers behind the decision. -/
def Decision.redirect (input : BindSubjectRequest) (next : String → Option String) :
    Decision → String → Option String
  | .bind => next
  | .cancelRequest id => Function.update next input.requestId (some id)
  | .cancelCandidate id => Function.update next id (some input.requestId)

theorem duplicateOf_decided (ha : Arrival input w row) (hw : BindingInv w)
    (hd : Decides rt input w row decision)
    (hreq : w'.requests = decidedRequests input decision row w.requests) :
    duplicateOf w' = decision.redirect input (duplicateOf w) := by
  have hrow : duplicateOf w input.requestId = none := by
    rw [duplicateOf, ha.stored, Option.bind_some]
    exact hw.pointsNowhere ha.stored (not_finished_of_cancellable ha.status)
  funext id
  have hafter : duplicateOf w' id =
      (if id = input.requestId then some (boundRow input decision row)
        else if decision.cancelled = some id then (w.requests.find id).map (cancelledRow input)
        else w.requests.find id).bind (·.duplicateOfRequestId) := by
    rw [duplicateOf, hreq, find_decidedRequests]
  rw [hafter]
  by_cases hid : id = input.requestId
  · subst hid
    rw [if_pos rfl]
    cases hd with
    | bind => exact hrow.symm
    | cancelRequest => rw [Decision.redirect, Function.update_self]; rfl
    | cancelCandidate hfound =>
      obtain ⟨-, -, -, hne⟩ := firstDuplicate_eq_some hfound
      rw [Decision.redirect, Function.update_of_ne hne.symm]
      exact hrow.symm
  · rw [if_neg hid]
    cases hd with
    | bind => rfl
    | cancelRequest => rw [Decision.redirect, Function.update_of_ne hid]; rfl
    | @cancelCandidate id' candidate hfound =>
      obtain ⟨-, hrow', -, -⟩ := firstDuplicate_eq_some hfound
      rw [Decision.redirect, Decision.cancelled]
      by_cases hid' : id = id'
      · subst hid'
        rw [Function.update_self, if_pos rfl, hrow']
        rfl
      · rw [Function.update_of_ne hid', if_neg fun heq => hid' (Option.some.inj heq).symm]
        rfl

/-- A binding keeps the invariant. -/
theorem BindingInv.bind (hw : BindingInv w) (htenants : TenantsKeep w w')
    (ha : Arrival input w row) (hd : Decides rt input w row decision)
    (hreq : w'.requests = decidedRequests input decision row w.requests) : BindingInv w' where
  owned := by
    intro id r' hr'
    rw [hreq, find_decidedRequests] at hr'
    split at hr'
    · obtain rfl := Option.some.inj hr'
      exact (hw.owned _ _ ha.stored).keep htenants rfl rfl
    · split at hr'
      · obtain ⟨r, hr, rfl⟩ := Option.map_eq_some_iff.mp hr'
        exact (hw.owned _ _ hr).keep htenants rfl rfl
      · exact (hw.owned _ _ hr').keep htenants rfl rfl
  unique := by
    intro lock id id' r r' hr hr' hi hi'
    rcases indexed_decided ha hreq hr hi with ⟨rfl, rfl, hbound, hoverride⟩ | ⟨hne, hcancelled, hold⟩
    · rcases indexed_decided ha hreq hr' hi' with ⟨rfl, -⟩ | ⟨hne', hcancelled', hold'⟩
      · rfl
      · exact absurd (hw.cancelled_of_indexed ha hd hbound hoverride hold' hi' hne') hcancelled'
    · rcases indexed_decided ha hreq hr' hi' with ⟨rfl, rfl, hbound, hoverride⟩ | ⟨-, -, hold'⟩
      · exact absurd (hw.cancelled_of_indexed ha hd hbound hoverride hold hi hne) hcancelled
      · exact hw.unique lock id id' r r' hold hold' hi hi'
  duplicates := by
    -- a request that is bound already only ever becomes a duplicate itself
    have hafter {lock : BindingLock} {id : String} {r : RequestRow}
        (hr : w.requests.find id = some r) (hbound : BoundUnder lock r)
        (hoverride : r.duplicateOverride = false) : ∃ r', w'.requests.find id = some r' ∧
          BoundUnder lock r' ∧ r'.duplicateOverride = false := by
      have hid : id ≠ input.requestId := by
        rintro rfl
        obtain rfl := Option.some.inj (ha.stored.symm.trans hr)
        rw [BoundUnder, ha.unbound] at hbound
        cases hbound.2.1
      rw [hreq, find_decidedRequests, if_neg hid]
      split
      · exact ⟨cancelledRow input r, by rw [hr]; rfl, hbound, hoverride⟩
      · exact ⟨r, hr, hbound, hoverride⟩
    have hself : BoundUnder (lockOf input row) (boundRow input decision row) :=
      ⟨ha.scope.2, rfl, rfl⟩
    intro id r' target hr' htarget
    rw [hreq, find_decidedRequests] at hr'
    split at hr'
    · obtain rfl := Option.some.inj hr'
      cases hd with
      | bind | cancelCandidate => cases htarget
      | cancelRequest hfound =>
        obtain rfl := Option.some.inj htarget
        obtain ⟨-, hrow', hcandidate, -⟩ := firstDuplicate_eq_some hfound
        obtain ⟨hbound, hoverride, -⟩ := indexed_of_isCandidate hcandidate
        obtain ⟨other, hother, hotherbound, hotheroverride⟩ := hafter hrow' hbound hoverride
        exact ⟨rfl, rfl, _, other, hother, hself, hotherbound, hotheroverride⟩
    · split at hr'
      · next hcancelled =>
        obtain ⟨r, hr, rfl⟩ := Option.map_eq_some_iff.mp hr'
        obtain rfl := Option.some.inj htarget
        cases hd with
        | bind | cancelRequest => cases hcancelled
        | cancelCandidate hfound =>
          obtain rfl := Option.some.inj hcancelled
          obtain ⟨hnoOverride, hrow', hcandidate, -⟩ := firstDuplicate_eq_some hfound
          obtain rfl := Option.some.inj (hr.symm.trans hrow')
          obtain ⟨hbound, hoverride, -⟩ := indexed_of_isCandidate hcandidate
          refine ⟨rfl, hoverride, _, _, ?_, hbound, hself, ?_⟩
          · rw [hreq, find_decidedRequests, if_pos rfl]
          · simp [boundRow, Decision.outcome, hnoOverride]
      · obtain ⟨hstatus, hoverride, lock, other, hother, hbound, hotherbound, hotheroverride⟩ :=
          hw.duplicates id r' target hr' htarget
        obtain ⟨other', hother', hbound', hoverride'⟩ := hafter hother hotherbound hotheroverride
        exact ⟨hstatus, hoverride, lock, other', hother', hbound, hbound', hoverride'⟩
  rooted := by
    rw [duplicateOf_decided ha hw hd hreq]
    have hrow : duplicateOf w input.requestId = none := by
      rw [duplicateOf, ha.stored, Option.bind_some]
      exact hw.pointsNowhere ha.stored (not_finished_of_cancellable ha.status)
    have hcandidate {id : String} {candidate : RequestRow}
        (hfound : firstDuplicate input row.type w = some (id, candidate)) :
        duplicateOf w id = none ∧ id ≠ input.requestId := by
      obtain ⟨-, hrow', hcandidate, hne⟩ := firstDuplicate_eq_some hfound
      refine ⟨?_, hne⟩
      rw [duplicateOf, hrow', Option.bind_some]
      exact hw.pointsNowhere hrow' hcandidate.2.2.2.2
    cases hd with
    | bind => exact hw.rooted
    | cancelRequest hfound =>
      obtain ⟨hnone, hne⟩ := hcandidate hfound
      exact hw.rooted.update hrow hnone hne.symm
    | cancelCandidate hfound =>
      obtain ⟨hnone, hne⟩ := hcandidate hfound
      exact hw.rooted.update hnone hrow hne

/-- What a binding that went through has met and decided. -/
theorem arrival_of_bound {initial : RequestRow} {candidates : List (String × RequestRow)}
    (hE : ∀ {held w w'}, R held w w' → Evolves held w w')
    (hsettled : ∀ {held w w'}, R held w w' → Settled w w')
    (hb : Bound R rt input u w log initial row candidates) :
    Arrival input w row ∧ ∃ decision, Decides rt input w row decision ∧
      (view w log).requests = decidedRequests input decision row w.requests := by
  obtain ⟨u₁, -, hu₁, hinitial⟩ := hb.found
  obtain ⟨row₁, hrow₁, hgrows⟩ := (hE hu₁).requests _ _ hinitial
  obtain rfl := Option.some.inj (hb.stored.symm.trans hrow₁)
  have hfirst := head?_candidates hE hsettled rfl rfl hgrows.type.symm hb.duplicates
  obtain ⟨W, events, hrequests, -, -, -, -, -, happ⟩ := hb.decided.written
  refine ⟨⟨hb.stored, hb.scope, hb.status, hb.unbound⟩, _, decides_decideBinding rt input w row, ?_⟩
  rw [happ.requests, hrequests, hfirst]

end Bind

/-! ## Two requests for one subject

The second one is bound first, and cancelled when the first one is bound. -/

def secondRequest : CreatePrivacyRequest := { firstRequest with id := "s" }

def halfPast : Timestamp := "2026-07-21T12:30:00.000Z"

def secondStamps (i : Nat) : Stamp := ⟨"f" ++ toString i, halfPast⟩

def storedEnvelope : EnvelopeRow where
  tenantId := "t"
  environmentId := "env"
  ciphertext := "sealed"
  encryptionKeyId := "b1"
  expiresAt := "2026-07-22T12:00:00.000Z"
  consumedAt := none

def arrivingMoves : List Move := [
  .transact fun _ => .other (.environment "env" (some ⟨"t", 1, 1⟩)),
  .transact fun _ => .other (.agent "agent-1" (some firstAgent)),
  .act (.create firstRequest),
  .transact (callSave 0 "t" 0 noon firstStamps),
  .act (.create secondRequest),
  .transact (callSave 1 "t" 0 halfPast secondStamps),
  .transact fun _ => .other (.envelope "r" (some storedEnvelope)),
  .transact fun _ => .other (.envelope "s" (some storedEnvelope))]

def bindCall (requestId eventId duplicateEventId : String) : BindSubjectRequest where
  tenantId := "t"
  environmentId := "env"
  requestId
  agentId := "agent-1"
  subjectHash := "hash"
  subjectHashKeyVersion := 1
  canonicalizationVersion := 1
  expectedVersion := 1
  aliases := []
  duplicateOverride := none
  now := "2026-07-21T13:00:00.000Z"
  duplicateEventId
  eventId

def bindingMoves : List Move := [
  .transact fun _ => .bindSubject (bindCall "s" "b1" "d1"),
  .transact fun _ => .bindSubject (bindCall "r" "b2" "d2")]

def bindingLock : BindingLock := ⟨"env", "hash", .delete⟩

/-- No environment is written twice. -/
def newEnvironments (w : World) : Move → Bool
  | .act _ => true
  | .transact request =>
    match request w with
    | .other (.environment id _) => (w.environments.find id).isNone
    | _ => true

def onlyBindings (w : World) : Move → Bool
  | .act _ => true
  | .transact request =>
    match request w with
    | .bindSubject input => input.duplicateOverride.isNone
    | _ => false

theorem obeys_newEnvironments : Obeys newEnvironments fixedTenants where
  acts _ _ _ := trivial
  commits w request hok := by
    rw [newEnvironments] at hok
    split at hok
    · next id row heq =>
      rw [heq]
      intro e he
      rw [he] at hok
      cases hok
    · next hother =>
      cases h : request w with
      | other write =>
        cases write with
        | environment id row => exact absurd h (hother id row)
        | _ => trivial
      | _ => trivial

/-- The store before the bindings. -/
@[irreducible] def arrivedWorld : World :=
  (play firstRuntime newEnvironments World.initial arrivingMoves).getD World.initial

/-- The store behind them. -/
@[irreducible] def boundWorld : World :=
  (play firstRuntime onlyBindings arrivedWorld bindingMoves).getD World.initial

theorem eq_some_getD {α : Type} {x : Option α} (a : α) (h : x.isSome = true) :
    x = some (x.getD a) := by
  cases x with
  | none => cases h
  | some b => rfl

theorem arrivingMoves_played :
    play firstRuntime newEnvironments World.initial arrivingMoves = some arrivedWorld := by
  unfold arrivedWorld
  exact eq_some_getD _ (by decide +kernel)

theorem bindingMoves_played :
    play firstRuntime onlyBindings arrivedWorld bindingMoves = some boundWorld := by
  unfold boundWorld
  exact eq_some_getD _ (by decide +kernel)

theorem boundWorld_reachable :
    Reachable firstRuntime fixedTenants ⟨boundWorld, fun _ => none⟩ := by
  have hplayed : play firstRuntime newEnvironments arrivedWorld bindingMoves = some boundWorld :=
    play_weaken (fun w m h => by
      cases m with
      | act action => rfl
      | transact request =>
        rw [onlyBindings] at h
        rw [newEnvironments]
        split at h
        · next heq => rw [heq]
        · cases h) bindingMoves_played
  exact (play_reachable obeys_newEnvironments arrivingMoves_played).trans
    (play_steps obeys_newEnvironments hplayed)

/-- The request is stored with this status, bound, and points there. -/
def LeftAs (status : PrivacyRequestStatus) (target : Option String) (row : RequestRow) : Prop :=
  row.environmentId = "env" ∧ row.subjectHash = some "hash" ∧ row.type = .delete ∧
    row.duplicateOverride = false ∧ row.status = status ∧ row.duplicateOfRequestId = target

instance (status : PrivacyRequestStatus) (target : Option String) :
    DecidablePred (LeftAs status target) :=
  fun _ => inferInstanceAs (Decidable (_ ∧ _))

theorem firstRequest_left :
    ∃ row, boundWorld.requests.find "r" = some row ∧ LeftAs .identityVerified none row := by
  have h : ((boundWorld.requests.find "r").any (LeftAs .identityVerified none)) = true := by
    decide +kernel
  obtain ⟨row, hrow, hleft⟩ := (Option.any_eq_true _ _).mp h
  exact ⟨row, hrow, of_decide_eq_true hleft⟩

theorem secondRequest_left :
    ∃ row, boundWorld.requests.find "s" = some row ∧ LeftAs .cancelled (some "r") row := by
  have h : ((boundWorld.requests.find "s").any (LeftAs .cancelled (some "r"))) = true := by
    decide +kernel
  obtain ⟨row, hrow, hleft⟩ := (Option.any_eq_true _ _).mp h
  exact ⟨row, hrow, of_decide_eq_true hleft⟩

/-! ## Runs -/

section Runs

variable {rt : Runtime}

/-- What the transactions can count on: what has ended stays so, and environments keep their
    tenants. -/
def Steady (w w' : World) : Prop := Settled w w' ∧ TenantsKeep w w'

theorem rely_steady (request : TransactionRequest) :
    Rely (Within Coupling (Relies (fun _ => Steady) request)) := by
  have hrelies : Rely (Relies (fun _ => Steady) request) := by
    refine rely_relies ?_ ?_ request
    · exact fun _ w => ⟨fun _ _ hrow _ => hrow, tenantsKeep_refl w⟩
    · exact fun h h' => ⟨settled_trans h.1 h'.1, tenantsKeep_trans h.2 h'.2⟩
  exact hrelies.within Coupling

theorem steady_act (w : World) (action : ProcessAction) : Steady w (w.act action) := by
  refine ⟨settled_act w action, fun id e he => ⟨e, ?_, rfl⟩⟩
  cases action <;> exact he

theorem guarantee_steady (rt : Runtime) :
    Guarantee (system rt fixedTenants) Coupling (Relies fun _ => Steady) := by
  refine guarantee_system (fun _ w => ⟨fun _ _ hrow _ => hrow, tenantsKeep_refl w⟩)
    (fun h h' => ⟨settled_trans h.1 h'.1, tenantsKeep_trans h.2 h'.2⟩) ?_ ?_
  · intro live w action hw hen _
    exact ⟨hw.act hen, fun _ _ => steady_act w action⟩
  · intro w u request log hw hu hstart hok hrun
    have hR := rely_steady request
    exact ⟨hw.commit hR (fun h => h.1.1) hstart hrun, fun _ =>
      ⟨settled_commit hR (fun h => h.1.1) hw hstart hrun, tenantsKeep_commit hR hok hrun⟩⟩

theorem BindingInv.commit {u : World} {log : Log Row} {request : TransactionRequest} {b : Unit}
    (hinv : BindingInv w) (hw : Coupling w) (hstart : request.Starts u)
    (hok : fixedTenants.commits w request)
    (hrun : Completes (Within Coupling (Relies (fun _ => Steady) request)) w (request.script rt)
      ⟨u, []⟩ b ⟨w, log⟩) : BindingInv (request.settle (view w log)) := by
  have hR := rely_steady request
  have htenants := tenantsKeep_commit hR hok hrun
  have hcarry : CarriesAll w (request.settle (view w log)) →
      BindingInv (request.settle (view w log)) := hinv.carry
  cases request with
  | save input =>
    obtain ⟨a₀, a, row', hsaved⟩ := saved_of_completes hR (fun h => h.1.1) hw hstart hrun
    have howner := owner_of_save hR (fun h => h.1.2.2) hrun
    have hview : CarriesAll w (view w log) := carriesAll_save hw htenants howner hsaved
    exact hcarry ⟨htenants, fun id row' hrow' => (hview.before id row' hrow').imp_right
      fun h => ⟨h.1, h.2.subjectHash, h.2.duplicateOfRequestId, h.2.owned⟩, hview.after⟩
  | bindSubject input =>
    obtain ⟨b, hbind⟩ := completes_discard hR hrun
    rcases bindSubject_effect hR hbind with hsame | ⟨_, row, candidates, hb⟩
    · exact hcarry (carriesAll_of_requests htenants hsame.requests)
    · obtain ⟨ha, decision, hd, hreq⟩ := arrival_of_bound (fun h => h.1.1) (fun h => h.1.2.1) hb
      exact hinv.bind htenants ha hd hreq
  | consumeAndPair input =>
    obtain ⟨b, hpair⟩ := completes_discard hR hrun
    rcases Pairing.consumeAndPair_effect hR hpair with hsame | ⟨_, _, _, _, _, hf⟩
    · exact hcarry (carriesAll_of_requests htenants hsame.requests)
    · exact hcarry (carriesAll_forced htenants hf)
  | other write =>
    exact hcarry (carriesAll_of_requests htenants (other_effect hR hrun).1.requests)

theorem bindingInv_act (hinv : BindingInv w) (action : ProcessAction) :
    BindingInv (w.act action) := by
  refine hinv.carry (carriesAll_of_requests (steady_act w action).2 ?_)
  cases action <;> rfl

theorem bindingInv_reachable {c : Configuration} (hc : Reachable rt fixedTenants c) :
    BindingInv c.world := by
  refine ReadCommitted.Reachable.evolves (guarantee_steady rt)
    (E := fun w w' => BindingInv w → BindingInv w') (fun _ => id) (fun h h' => h' ∘ h) ?_ ?_
    coupling_initial .refl hc bindingInv_initial
  · rintro live w _ - ⟨action, -, -, rfl⟩ hinv
    exact bindingInv_act hinv action
  · intro w u request log _ hw _ hstart hok hrun hinv
    exact hinv.commit hw hstart hok hrun

/-- **One active request for each subject**: in every interleaving of saves, bindings and pairings
    at most one request of an environment, subject and type is bound without an override and has
    not ended. -/
theorem one_active_request {c : Configuration} (hc : Reachable rt fixedTenants c)
    (lock : BindingLock) (id id' : String) (row row' : RequestRow)
    (hrow : c.world.requests.find id = some row) (hrow' : c.world.requests.find id' = some row')
    (hi : Indexed lock row) (hi' : Indexed lock row') : id = id' :=
  (bindingInv_reachable hc).unique lock id id' row row' hrow hrow' hi hi'

/-- Of the two requests the first is left, and nothing else is active under their lock. -/
theorem one_active_request_of_two :
    ∃ row, boundWorld.requests.find "r" = some row ∧ Indexed bindingLock row ∧
      ¬ ∃ id row', boundWorld.requests.find id = some row' ∧ Indexed bindingLock row' ∧
        id ≠ "r" := by
  obtain ⟨row, hrow, henv, hhash, htype, hoverride, hstatus, -⟩ := firstRequest_left
  have hi : Indexed bindingLock row :=
    ⟨⟨henv, hhash, htype⟩, hoverride, by rw [hstatus]; decide⟩
  refine ⟨row, hrow, hi, ?_⟩
  rintro ⟨id, row', hrow', hi', hne⟩
  exact hne (one_active_request boundWorld_reachable bindingLock id "r" row' row hrow' hrow hi' hi)

theorem lock_eq_of_boundUnder {lock lock' : BindingLock} {r : RequestRow} (h : BoundUnder lock r)
    (h' : BoundUnder lock' r) : lock = lock' := by
  obtain ⟨henv, hhash, htype⟩ := h
  obtain ⟨henv', hhash', htype'⟩ := h'
  obtain ⟨e, s, t⟩ := lock
  obtain ⟨e', s', t'⟩ := lock'
  obtain rfl : e = e' := henv.symm.trans henv'
  obtain rfl : s = s' := Option.some.inj (hhash.symm.trans hhash')
  obtain rfl : t = t' := htype.symm.trans htype'
  rfl

/-- **Duplicates lead to one request**: in every interleaving a request that points at another is
    cancelled, no chain of pointers comes back, and from every duplicate they lead to a request of
    the same environment, subject and type that was bound without an override and is no duplicate
    itself. -/
theorem duplicates_lead_to_one {c : Configuration} (hc : Reachable rt fixedTenants c) :
    (∀ id, ¬ Relation.TransGen (Pointers.Points (duplicateOf c.world)) id id) ∧
      ∀ id row target, c.world.requests.find id = some row →
        row.duplicateOfRequestId = some target → row.status = .cancelled ∧
        ∃ lock root row', Pointers.Root (duplicateOf c.world) id root ∧
          c.world.requests.find root = some row' ∧ BoundUnder lock row ∧ BoundUnder lock row' ∧
          row'.duplicateOverride = false ∧ row'.duplicateOfRequestId = none := by
  have hinv := bindingInv_reachable hc
  constructor
  · intro id
    obtain ⟨root, hroot⟩ := hinv.rooted id
    exact hroot.not_cycle
  · intro id row target hrow htarget
    obtain ⟨hstatus, hoverride, lock, -, -, hbound, -, -⟩ :=
      hinv.duplicates id row target hrow htarget
    obtain ⟨root, hroot⟩ := hinv.rooted id
    have hlock : ∃ row', c.world.requests.find root = some row' ∧ BoundUnder lock row' ∧
        row'.duplicateOverride = false := by
      refine hroot.transfer (P := fun id => ∃ r, c.world.requests.find id = some r ∧
        BoundUnder lock r ∧ r.duplicateOverride = false) ?_ ⟨row, hrow, hbound, hoverride⟩
      rintro a b hab ⟨ra, hra, hbounda, -⟩
      rw [Pointers.Points, duplicateOf, hra, Option.bind_some] at hab
      obtain ⟨-, -, lock', rb, hrb, hbounda', hboundb, hoverrideb⟩ :=
        hinv.duplicates a ra b hra hab
      obtain rfl := lock_eq_of_boundUnder hbounda hbounda'
      exact ⟨rb, hrb, hboundb, hoverrideb⟩
    obtain ⟨row', hrow', hbound', hoverride'⟩ := hlock
    have hnone := hroot.2
    rw [duplicateOf, hrow', Option.bind_some] at hnone
    exact ⟨hstatus, lock, root, row', hroot, hrow', hbound, hbound', hoverride', hnone⟩

/-- The second request leads to another one, which is no duplicate. -/
theorem duplicates_lead_to_one_of_two :
    ∃ root row', Pointers.Root (duplicateOf boundWorld) "s" root ∧
      boundWorld.requests.find root = some row' ∧ row'.duplicateOfRequestId = none := by
  obtain ⟨row, hrow, -, -, -, -, -, htarget⟩ := secondRequest_left
  obtain ⟨-, -, root, row', hroot, hrow', -, -, -, hnone⟩ :=
    (duplicates_lead_to_one boundWorld_reachable).2 "s" row "r" hrow htarget
  exact ⟨root, row', hroot, hrow', hnone⟩

end Runs

end ForgetOps.Api.SubjectBinding
