import ForgetOps.Library.Keyset
import ForgetOps.Supabase.ExportSubject

/-
  The pages of a bucket (`agent/crates/connector-supabase/src/{erase,export}.rs`).

  The loops of erase and export ask for pages of names, each beyond the last name of the one before.
  `eraseBucketBy` is the loop of an erase for a page size of one's own, together with the names of
  its deletions. `keyset_covers`: both loops end, and go once through every name with the prefix.
-/

namespace ForgetOps.Connector

open AdapterHttp (Reading)
open Guards Keyset

/-! ## The loop of an erase, for a page size -/

/-- The loop of `erase_storage`, and the names it has sent, deletion by deletion. -/
def SupabaseConnector.eraseBucketBy (c : SupabaseConnector) (limit : Nat)
    (before : String → String → Bool) (bucket : String) (pre : List Char) (plan : ErasePlan) :
    String → Nat → List Round → List StorageObject →
      (Except ConnectorError (Option EraseResult) × List StorageObject) × List (List String)
  | _, _, [], objects => ((.ok none, objects), [])
  | after, affectedCount, round :: rounds, objects =>
    match (pageObjects before objects bucket pre after limit).filter fun _ => round.answers with
    | none => ((.error (remote "SUPABASE_STORAGE_DISCOVERY_FAILED"), objects), [])
    | some [] =>
      ((.ok (some { operationKey := plan.operationKey, outcome := .deleted, affectedCount,
                    reason := none }), objects), [])
    | some (name :: names) =>
      match (c.apiUrl ["storage", "v1", "object", bucket]).result with
      | .error e => ((.error e, objects), [])
      | .ok _ =>
        let left := round.leave objects bucket (name :: names)
        match round.deletion.response with
        | none => ((.error (uncertain "SUPABASE_STORAGE_DELETE_UNCERTAIN"), left), [name :: names])
        | some response =>
          if isSuccess response.status = false ∧ response.status ≠ 404 then
            ((.error (destructiveHttpError response.status "SUPABASE_STORAGE_DELETE_FAILED"), left),
              [name :: names])
          else
            let affectedCount := saturatingAdd affectedCount (name :: names).length
            if (name :: names).length < limit then
              ((.ok (some { operationKey := plan.operationKey, outcome := .deleted, affectedCount,
                            reason := none }), left), [name :: names])
            else
              let run := c.eraseBucketBy limit before bucket pre plan
                ((name :: names).getLastD after) affectedCount rounds left
              (run.1, (name :: names) :: run.2)

/-- With the page size of the source this is the loop of the source. -/
theorem eraseBucketOn_eq (c : SupabaseConnector) (before : String → String → Bool)
    (bucket : String) (pre : List Char) (plan : ErasePlan) (after : String) (affected : Nat)
    (rounds : List Round) (objects : List StorageObject) :
    c.eraseBucketOn before bucket pre plan after affected rounds objects =
      (c.eraseBucketBy storageDeleteBatch before bucket pre plan after affected rounds objects).1 := by
  induction rounds generalizing after affected objects with
  | nil => rfl
  | cons round rounds ih =>
    unfold SupabaseConnector.eraseBucketOn SupabaseConnector.eraseBucketBy
    cases hpage : (pageObjects before objects bucket pre after storageDeleteBatch).filter
        fun _ => round.answers with
    | none => rfl
    | some page =>
      cases page with
      | nil => rfl
      | cons name names =>
        dsimp only
        cases (c.apiUrl ["storage", "v1", "object", bucket]).result with
        | error e => rfl
        | ok url =>
          dsimp only
          cases round.deletion.response with
          | none => rfl
          | some response =>
            dsimp only
            split_ifs
            · rfl
            · rfl
            · exact ih _ _ _

/-! ## Listings -/

section Listing

variable {before : String → String → Bool} {objects : List StorageObject}
  {bucket after : String} {pre : List Char} {limit : Nat} {listed : List String}

/-- The names of a bucket are distinct. -/
theorem nodup_selectObjects (hobjects : objects.Nodup)
    (hlisted : selectObjects objects bucket pre = some listed) : listed.Nodup := by
  obtain ⟨pattern, -, rfl⟩ := Option.map_eq_some_iff.mp hlisted
  refine (hobjects.filter _).map_on fun o ho o' ho' hname => ?_
  rw [List.mem_filter, decide_eq_true_eq] at ho ho'
  cases o
  cases o'
  obtain ⟨-, rfl, -⟩ := ho
  obtain ⟨-, rfl, -⟩ := ho'
  exact congrArg (StorageObject.mk _) hname

/-- The database takes every prefix without a NUL. -/
theorem exists_selectObjects (objects : List StorageObject) (bucket : String)
    (hsent : Char.ofNat 0 ∉ pre) : ∃ listed, selectObjects objects bucket pre = some listed :=
  Option.isSome_iff_exists.mp (selectObjects_isSome.mpr hsent)

theorem pageObjects_eq (hlisted : selectObjects objects bucket pre = some listed) :
    pageObjects before objects bucket pre after limit = some (page before listed after limit) := by
  rw [pageObjects, hlisted]
  rfl

/-- A deletion of a page leaves what lies beyond its last name. -/
theorem select_leave (order : StrictTotal before) (hobjects : objects.Nodup)
    (hlisted : selectObjects objects bucket pre = some listed) {last : String}
    (hlast : (page before listed after limit).getLast? = some last) (round : Round) :
    ∃ listed', (round.leave objects bucket (page before listed after limit)).Nodup ∧
      selectObjects (round.leave objects bucket (page before listed after limit)) bucket pre =
        some listed' ∧
      ∀ x, before last x = true → (x ∈ listed' ↔ x ∈ listed) := by
  have hnodup := nodup_selectObjects hobjects hlisted
  have hsent : Char.ofNat 0 ∉ pre := selectObjects_isSome.mp (Option.isSome_of_eq_some hlisted)
  obtain ⟨listed', hlisted'⟩ := exists_selectObjects
    (round.leave objects bucket (page before listed after limit)) bucket hsent
  refine ⟨listed', ?_, hlisted', fun x hx => ?_⟩
  · unfold Round.leave deleteObjects
    split_ifs
    · exact hobjects.filter _
    · exact hobjects
  · have hout : x ∉ page before listed after limit := by
      intro hmem
      obtain ⟨front, hfront⟩ := List.getLast?_eq_some_iff.mp hlast
      have hsorted := pairwise_page order hnodup after limit
      rw [hfront] at hmem hsorted
      rcases List.mem_append.mp hmem with hmem | hmem
      · have hback := (List.pairwise_append.mp hsorted).2.2 x hmem last (List.mem_singleton.mpr rfl)
        rw [order.asymm hback] at hx
        cases hx
      · rw [List.mem_singleton.mp hmem, order.irrefl] at hx
        cases hx
    rw [mem_selectObjects hlisted', mem_selectObjects hlisted]
    refine and_congr_left fun _ => ?_
    unfold Round.leave deleteObjects
    split_ifs
    · rw [List.mem_filter, decide_eq_true_eq]
      exact and_iff_left fun h => hout h.2
    · rfl

end Listing

/-! ## The loop of an erase -/

section Erase

variable {c : SupabaseConnector} {before : String → String → Bool} {objects : List StorageObject}
  {bucket after : String} {pre : List Char} {limit affected : Nat} {listed : List String}
  {plan : ErasePlan} {rounds : List Round}

/-- The database answers, and the deletion is accepted. -/
def Round.Succeeds (round : Round) : Prop :=
  round.answers = true ∧ ∃ response, round.deletion.response = some response ∧
    (isSuccess response.status = true ∨ response.status = 404)

theorem getLastD_page {last : String} (hlast : listed.getLast? = some last) :
    listed.getLastD after = last := by
  rw [List.getLastD_eq_getLast?, hlast, Option.getD_some]

/-- What one turn of the loop comes to, the pages being those of `listed`. -/
inductive Turn (c : SupabaseConnector) (limit : Nat) (before : String → String → Bool)
    (bucket : String) (pre : List Char) (plan : ErasePlan) (after : String) (round : Round)
    (rounds : List Round) (objects : List StorageObject) (listed : List String) :
    (Except ConnectorError (Option EraseResult) × List StorageObject) × List (List String) →
      Prop where
  | failed {e objects' sent} :
      ¬ (round.Succeeds ∧ ∃ url, (c.apiUrl ["storage", "v1", "object", bucket]).result = .ok url) →
      Turn c limit before bucket pre plan after round rounds objects listed
        ((.error e, objects'), sent)
  | empty {result} : page before listed after limit = [] →
      Turn c limit before bucket pre plan after round rounds objects listed
        ((.ok (some result), objects), [])
  | short {result objects'} : (page before listed after limit).length < limit →
      Turn c limit before bucket pre plan after round rounds objects listed
        ((.ok (some result), objects'), [page before listed after limit])
  | full {last left listed' affected} : (page before listed after limit).getLast? = some last →
      limit ≤ (page before listed after limit).length → left.Nodup →
      selectObjects left bucket pre = some listed' →
      (∀ x, before last x = true → (x ∈ listed' ↔ x ∈ listed)) →
      Turn c limit before bucket pre plan after round rounds objects listed
        ((c.eraseBucketBy limit before bucket pre plan last affected rounds left).1,
          page before listed after limit ::
            (c.eraseBucketBy limit before bucket pre plan last affected rounds left).2)

theorem eraseBucketBy_cons (order : StrictTotal before) (hobjects : objects.Nodup)
    (hlisted : selectObjects objects bucket pre = some listed) (round : Round) :
    Turn c limit before bucket pre plan after round rounds objects listed
      (c.eraseBucketBy limit before bucket pre plan after affected (round :: rounds) objects) := by
  unfold SupabaseConnector.eraseBucketBy
  rw [pageObjects_eq hlisted]
  cases hanswers : round.answers with
  | false =>
    refine .failed fun h => ?_
    have hyes := h.1.1
    rw [hanswers] at hyes
    cases hyes
  | true =>
    simp only [Option.filter_some, if_true]
    cases hpage : page before listed after limit with
    | nil => exact .empty hpage
    | cons name names =>
      dsimp only
      cases hurl : (c.apiUrl ["storage", "v1", "object", bucket]).result with
      | error e =>
        refine .failed fun ⟨_, url, hok⟩ => ?_
        rw [hurl] at hok
        cases hok
      | ok url =>
        dsimp only
        cases hresponse : round.deletion.response with
        | none =>
          refine .failed fun ⟨⟨_, response, hsome, _⟩, _⟩ => ?_
          rw [hresponse] at hsome
          cases hsome
        | some response =>
          dsimp only
          split_ifs with hstatus hshort
          · refine .failed fun ⟨⟨_, response', hsome, hgood⟩, _⟩ => ?_
            obtain rfl := Option.some.inj (hresponse.symm.trans hsome)
            rcases hgood with hgood | hgood
            · rw [hstatus.1] at hgood
              cases hgood
            · exact hstatus.2 hgood
          · rw [← hpage] at hshort ⊢
            exact .short hshort
          · obtain ⟨last, hlast⟩ := Option.isSome_iff_exists.mp
              (List.getLast?_isSome.mpr (List.cons_ne_nil name names))
            rw [getLastD_page hlast]
            rw [← hpage] at hlast hshort ⊢
            obtain ⟨listed', hleft, hlisted', hsame⟩ :=
              select_leave order hobjects hlisted hlast round
            exact .full hlast (not_lt.mp hshort) hleft hlisted' hsame

/-- An erase that returns has sent all names beyond the one it began with. -/
theorem eraseBucketBy_paged (order : StrictTotal before) (hobjects : objects.Nodup)
    (hlisted : selectObjects objects bucket pre = some listed) {result : EraseResult}
    (h : (c.eraseBucketBy limit before bucket pre plan after affected rounds objects).1.1 =
      .ok (some result)) :
    Paged before limit after listed
      (c.eraseBucketBy limit before bucket pre plan after affected rounds objects).2.flatten := by
  induction rounds generalizing after affected objects listed with
  | nil => cases h
  | cons round rounds ih =>
    have hturn : Turn c limit before bucket pre plan after round rounds objects listed
        (c.eraseBucketBy limit before bucket pre plan after affected (round :: rounds) objects) :=
      eraseBucketBy_cons order hobjects hlisted round
    generalize c.eraseBucketBy limit before bucket pre plan after affected (round :: rounds)
      objects = run at h hturn
    cases hturn with
    | failed => cases h
    | empty hpage => exact .stop hpage
    | short hshort =>
      rw [List.flatten_singleton]
      exact .short rfl hshort
    | full hlast hfull hleft hlisted' hsame =>
      rw [List.flatten_cons]
      exact .full rfl hlast hfull (nodup_selectObjects hleft hlisted') hsame (ih hleft hlisted' h)

/-- With more rounds than names the loop ends. -/
theorem eraseBucketBy_ends (order : StrictTotal before) (hobjects : objects.Nodup)
    (hlisted : selectObjects objects bucket pre = some listed)
    (hrounds : (beyond before listed after).length < rounds.length) :
    (c.eraseBucketBy limit before bucket pre plan after affected rounds objects).1.1 ≠
      .ok none := by
  induction rounds generalizing after affected objects listed with
  | nil => exact absurd hrounds (Nat.not_lt_zero _)
  | cons round rounds ih =>
    have hturn : Turn c limit before bucket pre plan after round rounds objects listed
        (c.eraseBucketBy limit before bucket pre plan after affected (round :: rounds) objects) :=
      eraseBucketBy_cons order hobjects hlisted round
    generalize c.eraseBucketBy limit before bucket pre plan after affected (round :: rounds)
      objects = run at hturn
    cases hturn with
    | failed => exact nofun
    | empty => exact nofun
    | short => exact nofun
    | full hlast _ hleft hlisted' hsame =>
      have hfewer := length_lt order (nodup_selectObjects hleft hlisted') hlast hsame
      rw [List.length_cons] at hrounds
      exact ih hleft hlisted' (by omega)

/-- Where no call fails the loop throws nothing. -/
theorem eraseBucketBy_succeeds (order : StrictTotal before) (hobjects : objects.Nodup)
    (hlisted : selectObjects objects bucket pre = some listed)
    (hrounds : ∀ round ∈ rounds, round.Succeeds)
    (hurl : ∃ url, (c.apiUrl ["storage", "v1", "object", bucket]).result = .ok url)
    (e : ConnectorError) :
    (c.eraseBucketBy limit before bucket pre plan after affected rounds objects).1.1 ≠ .error e := by
  induction rounds generalizing after affected objects listed with
  | nil => exact nofun
  | cons round rounds ih =>
    have hturn : Turn c limit before bucket pre plan after round rounds objects listed
        (c.eraseBucketBy limit before bucket pre plan after affected (round :: rounds) objects) :=
      eraseBucketBy_cons order hobjects hlisted round
    generalize c.eraseBucketBy limit before bucket pre plan after affected (round :: rounds)
      objects = run at hturn
    cases hturn with
    | failed hnot => exact absurd ⟨hrounds round List.mem_cons_self, hurl⟩ hnot
    | empty => exact nofun
    | short => exact nofun
    | full _ _ hleft hlisted' =>
      exact ih hleft hlisted' fun round hround => hrounds round (List.mem_cons_of_mem _ hround)

end Erase

/-! ## The loop of an export -/

section Export

variable {c : SupabaseConnector} {sink : Sink} {before : String → String → Bool}
  {answer : ExportRemote} {objects : List StorageObject} {bucket after : String} {pre : List Char}
  {limit : Nat} {listed : List String} {stores : List (Option (List StorageObject))}

theorem exportObjects_append (index : Nat) (names names' : List String) (s : Exported) :
    c.exportObjects sink answer bucket index (names ++ names') s =
      (c.exportObjects sink answer bucket index names s >>= fun (index, s) =>
        c.exportObjects sink answer bucket index names' s) := by
  induction names generalizing index s with
  | nil => rfl
  | cons name names ih =>
    rw [List.cons_append, SupabaseConnector.exportObjects, SupabaseConnector.exportObjects]
    cases c.downloadStorageObject sink answer bucket name (saturatingAdd index 1) s with
    | error e => rfl
    | ok s => exact ih _ _

theorem exportPages_cons (hlisted : selectObjects objects bucket pre = some listed) (index : Nat)
    (s : Exported) :
    c.exportPages sink before answer limit bucket pre after index (some objects :: stores) s =
      if page before listed after limit = [] then .ok (some s)
      else
        c.exportObjects sink answer bucket index (page before listed after limit) s >>=
          fun (index, s) =>
            if (page before listed after limit).length < limit then .ok (some s)
            else
              c.exportPages sink before answer limit bucket pre
                ((page before listed after limit).getLastD after) index stores s := by
  rw [SupabaseConnector.exportPages, Option.bind_some, pageObjects_eq hlisted]
  rfl

/-- An export downloads the names beyond the one it began with, page after page. -/
theorem exportPages_eq (order : StrictTotal before) (hlisted : selectObjects objects bucket pre =
    some listed) (hobjects : objects.Nodup) (hstores : ∀ store ∈ stores, store = some objects)
    (hlength : (beyond before listed after).length < stores.length) :
    ∃ names, Paged before limit after listed names ∧ ∀ index s,
      c.exportPages sink before answer limit bucket pre after index stores s =
        (c.exportObjects sink answer bucket index names s).map fun x => some x.2 := by
  have hnodup := nodup_selectObjects hobjects hlisted
  induction stores generalizing after with
  | nil => exact absurd hlength (Nat.not_lt_zero _)
  | cons store stores ih =>
    obtain rfl := hstores store List.mem_cons_self
    simp only [exportPages_cons hlisted]
    by_cases hpage : page before listed after limit = []
    · simp only [if_pos hpage]
      exact ⟨[], .stop hpage, fun index s => rfl⟩
    · simp only [if_neg hpage]
      by_cases hshort : (page before listed after limit).length < limit
      · simp only [if_pos hshort]
        refine ⟨_, .short rfl hshort, fun index s => ?_⟩
        cases c.exportObjects sink answer bucket index (page before listed after limit) s <;> rfl
      · simp only [if_neg hshort]
        obtain ⟨last, hlast⟩ := Option.isSome_iff_exists.mp (List.getLast?_isSome.mpr hpage)
        rw [getLastD_page hlast]
        have hfewer := length_lt order hnodup hlast fun _ _ => Iff.rfl
        rw [List.length_cons] at hlength
        obtain ⟨names, hpaged, hrun⟩ := @ih last
          (fun store hstore => hstores store (List.mem_cons_of_mem _ hstore)) (by omega)
        refine ⟨_, .full rfl hlast (not_lt.mp hshort) hnodup (fun _ _ => Iff.rfl) hpaged,
          fun index s => ?_⟩
        rw [exportObjects_append]
        cases c.exportObjects sink answer bucket index (page before listed after limit) s with
        | error e => rfl
        | ok x => exact hrun _ _

/-- With more queries than names the loop ends. -/
theorem exportPages_ends (order : StrictTotal before) (hlisted : selectObjects objects bucket pre =
    some listed) (hobjects : objects.Nodup)
    (hstores : ∀ store ∈ stores, store = none ∨ store = some objects)
    (hlength : (beyond before listed after).length < stores.length) (index : Nat) (s : Exported) :
    c.exportPages sink before answer limit bucket pre after index stores s ≠ .ok none := by
  induction stores generalizing after index s with
  | nil => exact absurd hlength (Nat.not_lt_zero _)
  | cons store stores ih =>
    rcases hstores store List.mem_cons_self with rfl | rfl
    · exact nofun
    · rw [exportPages_cons hlisted]
      split_ifs with hpage hshort
      · exact nofun
      · cases c.exportObjects sink answer bucket index (page before listed after limit) s with
        | error e => exact nofun
        | ok x => exact nofun
      · obtain ⟨last, hlast⟩ := Option.isSome_iff_exists.mp (List.getLast?_isSome.mpr hpage)
        have hfewer := length_lt order (nodup_selectObjects hobjects hlisted) hlast
          fun _ _ => Iff.rfl
        rw [getLastD_page hlast]
        rw [List.length_cons] at hlength
        cases c.exportObjects sink answer bucket index (page before listed after limit) s with
        | error e => exact nofun
        | ok x =>
          exact ih (fun store hstore => hstores store (List.mem_cons_of_mem _ hstore)) (by omega) _ _

/-- Where each download succeeds so do all. -/
theorem exportObjects_ok {names : List String}
    (h : ∀ name ∈ names, ∀ index s, ∃ s', c.downloadStorageObject sink answer bucket name index s =
      .ok s') (index : Nat) (s : Exported) :
    ∃ x, c.exportObjects sink answer bucket index names s = .ok x := by
  induction names generalizing index s with
  | nil => exact ⟨_, rfl⟩
  | cons name names ih =>
    obtain ⟨s', hs'⟩ := h name List.mem_cons_self (saturatingAdd index 1) s
    rw [SupabaseConnector.exportObjects, hs']
    exact ih (fun n hn => h n (List.mem_cons_of_mem _ hn)) _ _

end Export

/-! ## Both loops -/

/-- These are the names in the bucket that begin with the prefix, each of them once. -/
structure Covers (objects : List StorageObject) (bucket : String) (pre : List Char)
    (names : List String) : Prop where
  once : names.Nodup
  all : ∀ name, name ∈ names ↔ name ≠ "" ∧ ⟨bucket, name⟩ ∈ objects ∧ pre <+: name.toList

theorem Paged.covers {before : String → String → Bool} (order : StrictTotal before)
    (hleast : ∀ name, name ≠ "" → before "" name = true) {limit : Nat} (hlimit : 0 < limit)
    {objects : List StorageObject} (hobjects : objects.Nodup) {bucket : String} {pre : List Char}
    {listed names : List String} (hlisted : selectObjects objects bucket pre = some listed)
    (h : Paged before limit "" listed names) : Covers objects bucket pre names := by
  have hnodup := nodup_selectObjects hobjects hlisted
  refine ⟨(h.pairwise order hlimit hnodup).imp fun {a b} hab => ?_, fun name => ?_⟩
  · rintro rfl
    rw [order.irrefl] at hab
    cases hab
  · rw [h.mem_iff order hlimit hnodup, mem_selectObjects hlisted, and_comm]
    refine and_congr_left fun _ => ⟨?_, hleast name⟩
    rintro hbefore rfl
    rw [order.irrefl] at hbefore
    cases hbefore

/-- `like_prefix` asks for the names that begin with the prefix, whatever characters it has. The
    loops over such names end, for every page size, and go through each name but the empty one
    once, where no call fails. -/
theorem keyset_covers (before : String → String → Bool) (order : StrictTotal before)
    (hleast : ∀ name, name ≠ "" → before "" name = true) (c : SupabaseConnector) (bucket : String)
    (pre : List Char) (limit : Nat) (hlimit : 0 < limit) (objects : List StorageObject)
    (hobjects : objects.Nodup) :
    (∀ name, Like.likes '\\' (likePrefix pre) name = true ↔ pre <+: name) ∧
      (∀ plan affected rounds, objects.length < rounds.length →
        (c.eraseBucketBy limit before bucket pre plan "" affected rounds objects).1.1 ≠ .ok none ∧
        ((∀ round ∈ rounds, round.Succeeds) → Char.ofNat 0 ∉ pre →
          (∃ url, (c.apiUrl ["storage", "v1", "object", bucket]).result = .ok url) →
          (∃ result, (c.eraseBucketBy limit before bucket pre plan "" affected rounds objects).1.1 =
            .ok (some result)) ∧
          Covers objects bucket pre
            (c.eraseBucketBy limit before bucket pre plan "" affected rounds objects).2.flatten)) ∧
      ∀ sink answer stores, objects.length < stores.length →
        (∀ index s, (∀ store ∈ stores, store = none ∨ store = some objects) →
          c.exportPages sink before answer limit bucket pre "" index stores s ≠ .ok none) ∧
        ((∀ store ∈ stores, store = some objects) → Char.ofNat 0 ∉ pre →
          ∃ names, Covers objects bucket pre names ∧ ∀ index s,
            c.exportPages sink before answer limit bucket pre "" index stores s =
              ((c.exportObjects sink answer bucket index names s).map fun x => some x.2) ∧
            ((∀ name ∈ names, ∀ index s, ∃ s',
                c.downloadStorageObject sink answer bucket name index s = .ok s') →
              ∃ s', c.exportPages sink before answer limit bucket pre "" index stores s =
                .ok (some s'))) := by
  have hbeyond : ∀ listed, selectObjects objects bucket pre = some listed →
      (beyond before listed "").length ≤ objects.length := by
    intro listed hlisted
    obtain ⟨pattern, -, rfl⟩ := Option.map_eq_some_iff.mp hlisted
    rw [length_beyond]
    refine (List.length_filter_le _ _).trans ?_
    rw [List.length_map]
    exact List.length_filter_le _ _
  refine ⟨fun name => Like.likes_prefix '\\' (by decide) pre name, ?_, ?_⟩
  · intro plan affected rounds hrounds
    constructor
    · cases hlisted : selectObjects objects bucket pre with
      | none =>
        cases rounds with
        | nil => exact absurd hrounds (Nat.not_lt_zero _)
        | cons round rounds =>
          rw [SupabaseConnector.eraseBucketBy, pageObjects, hlisted]
          exact nofun
      | some listed =>
        exact eraseBucketBy_ends order hobjects hlisted ((hbeyond listed hlisted).trans_lt hrounds)
    · intro hsucceeds hsent hurl
      obtain ⟨listed, hlisted⟩ := exists_selectObjects objects bucket hsent
      have hreturns : ∃ result,
          (c.eraseBucketBy limit before bucket pre plan "" affected rounds objects).1.1 =
            .ok (some result) := by
        have hends : (c.eraseBucketBy limit before bucket pre plan "" affected rounds objects).1.1 ≠
            .ok none :=
          eraseBucketBy_ends order hobjects hlisted ((hbeyond listed hlisted).trans_lt hrounds)
        have hquiet : ∀ e,
            (c.eraseBucketBy limit before bucket pre plan "" affected rounds objects).1.1 ≠
              .error e :=
          eraseBucketBy_succeeds order hobjects hlisted hsucceeds hurl
        cases hrun : (c.eraseBucketBy limit before bucket pre plan "" affected rounds objects).1.1 with
        | error e => exact absurd hrun (hquiet e)
        | ok result =>
          cases result with
          | none => exact absurd hrun hends
          | some result => exact ⟨result, rfl⟩
      obtain ⟨result, hresult⟩ := hreturns
      exact ⟨⟨result, hresult⟩,
        Paged.covers order hleast hlimit hobjects hlisted
          (eraseBucketBy_paged order hobjects hlisted hresult)⟩
  · intro sink answer stores hstores
    constructor
    · intro index s hfixed
      cases hlisted : selectObjects objects bucket pre with
      | none =>
        cases stores with
        | nil => exact absurd hstores (Nat.not_lt_zero _)
        | cons store stores =>
          rcases hfixed store List.mem_cons_self with rfl | rfl
          · exact nofun
          · rw [SupabaseConnector.exportPages, Option.bind_some, pageObjects, hlisted]
            exact nofun
      | some listed =>
        exact exportPages_ends order hlisted hobjects hfixed
          ((hbeyond listed hlisted).trans_lt hstores) index s
    · intro hfixed hsent
      obtain ⟨listed, hlisted⟩ := exists_selectObjects objects bucket hsent
      have hpages : ∃ names, Paged before limit "" listed names ∧ ∀ index s,
          c.exportPages sink before answer limit bucket pre "" index stores s =
            (c.exportObjects sink answer bucket index names s).map fun x => some x.2 :=
        exportPages_eq order hlisted hobjects hfixed ((hbeyond listed hlisted).trans_lt hstores)
      obtain ⟨names, hpaged, hrun⟩ := hpages
      refine ⟨names, Paged.covers order hleast hlimit hobjects hlisted hpaged, fun index s => ?_⟩
      refine ⟨hrun index s, fun hdownloads => ?_⟩
      obtain ⟨x, hx⟩ := exportObjects_ok hdownloads index s
      exact ⟨x.2, by rw [hrun, hx]; rfl⟩

/-- An order of names. -/
def byCharacters (a b : String) : Bool := a < b

theorem byCharacters_strictTotal : StrictTotal byCharacters where
  irrefl a := decide_eq_false (String.lt_irrefl a)
  trans a b c hab hbc :=
    decide_eq_true (String.lt_trans (of_decide_eq_true hab) (of_decide_eq_true hbc))
  total a b hne := by
    by_cases h : a < b
    · exact .inl (decide_eq_true h)
    · refine .inr (decide_eq_true (String.not_le.mp fun hle => ?_))
      exact hne (String.le_antisymm hle (String.not_lt.mp h))

theorem byCharacters_empty (name : String) (hname : name ≠ "") : byCharacters "" name = true := by
  apply decide_eq_true
  refine String.not_le.mp fun hle => hname (String.le_antisymm hle ?_)
  exact String.not_lt.mp (List.not_lt_nil name.toList)

def someAvatars : List StorageObject :=
  [⟨"avatars", "users/u_1/b.png"⟩, ⟨"avatars", "users/u21/a.png"⟩, ⟨"avatars", "users/u_1/a.png"⟩]

/-- Both pages of one name are deleted, though the prefix has an underscore. -/
theorem keyset_covers_of_some_avatars :
    Covers someAvatars "avatars" "users/u_1/".toList
      (avatars.eraseBucketBy 1 byCharacters "avatars" "users/u_1/".toList
        ⟨"supabase:storage:avatars", "op-1", .delete⟩ "" 0
        (List.replicate 4 ⟨true, ⟨true, some ⟨200, []⟩⟩⟩) someAvatars).2.flatten := by
  obtain ⟨-, herase, -⟩ := keyset_covers byCharacters byCharacters_strictTotal byCharacters_empty
    avatars "avatars" "users/u_1/".toList 1 (by decide) someAvatars (by decide)
  refine (((herase _ 0 (List.replicate 4 ⟨true, ⟨true, some ⟨200, []⟩⟩⟩) (by decide)).2 ?_
    (by decide) ⟨_, rfl⟩).2)
  intro round hround
  obtain rfl := List.eq_of_mem_replicate hround
  exact ⟨rfl, _, rfl, .inl rfl⟩

end ForgetOps.Connector
