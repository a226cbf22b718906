import ForgetOps.Supabase.Mapping
import ForgetOps.Agent.DefiniteFailure
import ForgetOps.Library.Like

/-
  The objects of a subject (`agent/crates/connector-supabase/src/{discover,erase,export}.rs`).

  A store is the list of its objects. The names of a subject are those like the prefix its mapping
  makes for it; discovery and verification count them, export and erase go through them by pages.
  The order of the names is the database's own. A deletion that was applied took the whole page.
-/

namespace ForgetOps.Connector

open Guards

structure StorageObject where
  bucket : String
  name : String
  deriving DecidableEq, Repr

/-! ## The objects of a prefix -/

def StorageMapping.subjectPrefix (s : StorageMapping) (subject : SubjectIdentity) :
    Except ConnectorError (List Char) := do
  let userId ← (stableUserId subject).result
  return Substrings.replaceAll placeholder userId.toList s.templatePrefix.toList

def likePrefix (pre : List Char) : List Char :=
  (pre.flatMap fun c => if c = '%' ∨ c = '_' ∨ c = '\\' then ['\\', c] else [c]) ++ ['%']

/-- A text sent to the database, which takes none with a NUL. -/
def textParameter (value : List Char) : Option (List Char) :=
  if Char.ofNat 0 ∈ value then none else some value

/-- `select name from storage.objects where bucket_id = $1 and name like $2 escape '\'`. -/
def selectObjects (objects : List StorageObject) (bucket : String) (pre : List Char) :
    Option (List String) :=
  (textParameter (likePrefix pre)).map fun pattern =>
    (objects.filter fun o => o.bucket = bucket ∧ Like.likes '\\' pattern o.name.toList).map (·.name)

/-- `… and name > $3 order by name limit $4`. -/
def pageObjects (before : String → String → Bool) (objects : List StorageObject) (bucket : String)
    (pre : List Char) (after : String) (limit : Nat) : Option (List String) :=
  (selectObjects objects bucket pre).map fun names =>
    ((names.filter (before after)).mergeSort fun a b => !before b a).take limit

def deleteObjects (objects : List StorageObject) (bucket : String) (names : List String) :
    List StorageObject :=
  objects.filter fun o => ¬ (o.bucket = bucket ∧ o.name ∈ names)

/-! ## Erase and export -/

/-- One round of a loop over a bucket: whether the database answers, and the deletion. -/
structure Round where
  answers : Bool
  deletion : Exchange
  deriving DecidableEq, Repr

/-- The store after a round that sent these names. -/
def Round.leave (round : Round) (objects : List StorageObject) (bucket : String)
    (names : List String) : List StorageObject :=
  if round.deletion.applied then deleteObjects objects bucket names else objects

namespace SupabaseConnector

/-- The loop of `erase_storage`, on a store, with the store that it leaves. -/
def eraseBucketOn (c : SupabaseConnector) (before : String → String → Bool) (bucket : String)
    (pre : List Char) (plan : ErasePlan) :
    String → Nat → List Round → List StorageObject →
      Except ConnectorError (Option EraseResult) × List StorageObject
  | _, _, [], objects => (.ok none, objects)
  | after, affectedCount, round :: rounds, objects =>
    match (pageObjects before objects bucket pre after storageDeleteBatch).filter
        fun _ => round.answers with
    | none => (.error (remote "SUPABASE_STORAGE_DISCOVERY_FAILED"), objects)
    | some [] =>
      (.ok (some { operationKey := plan.operationKey, outcome := .deleted, affectedCount,
                   reason := none }), objects)
    | some (name :: names) =>
      match (c.apiUrl ["storage", "v1", "object", bucket]).result with
      | .error e => (.error e, objects)
      | .ok _ =>
        let left := round.leave objects bucket (name :: names)
        match round.deletion.response with
        | none => (.error (uncertain "SUPABASE_STORAGE_DELETE_UNCERTAIN"), left)
        | some response =>
          if isSuccess response.status = false ∧ response.status ≠ 404 then
            (.error (destructiveHttpError response.status "SUPABASE_STORAGE_DELETE_FAILED"), left)
          else
            let affectedCount := saturatingAdd affectedCount (name :: names).length
            if (name :: names).length < storageDeleteBatch then
              (.ok (some { operationKey := plan.operationKey, outcome := .deleted, affectedCount,
                           reason := none }), left)
            else
              c.eraseBucketOn before bucket pre plan ((name :: names).getLastD after) affectedCount
                rounds left

def eraseStorageOn (c : SupabaseConnector) (before : String → String → Bool)
    (subject : SubjectIdentity) (plan : ErasePlan) (rounds : List Round)
    (objects : List StorageObject) :
    Except ConnectorError (Option EraseResult) × List StorageObject :=
  match (do
      let storage ← (c.storageForResource plan.resource).result
      refuse (plan.action ≠ .delete) (.invalidConfig "SUPABASE_PLAN_ACTION_MISMATCH")
      let pre ← storage.subjectPrefix subject
      return (storage.bucket, pre) : Except ConnectorError (String × List Char)) with
  | .error e => (.error e, objects)
  | .ok (bucket, pre) => c.eraseBucketOn before bucket pre plan "" 0 rounds objects

end SupabaseConnector

def storagePageSize : Nat := 1000

/-- The names that the loop of an export asks for: `stores` is what each of its queries finds, and
    `downloads` whether an object arrives. -/
def exportBucket (before : String → String → Bool) (bucket : String) (pre : List Char)
    (downloads : String → Bool) : String → List (List StorageObject) → List String
  | _, [] => []
  | after, objects :: stores =>
    match pageObjects before objects bucket pre after storagePageSize with
    | none | some [] => []
    | some (name :: names) =>
      let arrived := (name :: names).takeWhile downloads
      if arrived.length < (name :: names).length then
        (name :: names).take (arrived.length + 1)
      else if (name :: names).length < storagePageSize then name :: names
      else name :: names ++
        exportBucket before bucket pre downloads ((name :: names).getLastD after) stores

/-! ## What is selected -/

theorem mem_selectObjects {objects : List StorageObject} {bucket name : String} {pre : List Char}
    {names : List String} (h : selectObjects objects bucket pre = some names) :
    name ∈ names ↔ ⟨bucket, name⟩ ∈ objects ∧ pre <+: name.toList := by
  obtain ⟨pattern, hpattern, rfl⟩ := Option.map_eq_some_iff.mp h
  unfold textParameter at hpattern
  split_ifs at hpattern
  cases hpattern
  have hlikes := Like.likes_prefix '\\' (by decide) pre name.toList
  rw [List.mem_map, ← hlikes]
  constructor
  · rintro ⟨o, ho, rfl⟩
    rw [List.mem_filter, decide_eq_true_eq] at ho
    obtain ⟨hmem, rfl, hlike⟩ := ho
    exact ⟨hmem, hlike⟩
  · rintro ⟨hmem, hlike⟩
    refine ⟨⟨bucket, name⟩, ?_, rfl⟩
    rw [List.mem_filter, decide_eq_true_eq]
    exact ⟨hmem, rfl, hlike⟩

theorem selectObjects_isSome {objects : List StorageObject} {bucket : String} {pre : List Char} :
    (selectObjects objects bucket pre).isSome = true ↔ Char.ofNat 0 ∉ pre := by
  have hescaped : Char.ofNat 0 ∈ likePrefix pre ↔ Char.ofNat 0 ∈ pre := by
    unfold likePrefix
    rw [List.mem_append, List.mem_flatMap]
    constructor
    · rintro (⟨c, hc, hmem⟩ | hmem)
      · have hc' : Char.ofNat 0 = c := by
          split_ifs at hmem
          · exact (List.mem_pair.mp hmem).resolve_left (by decide)
          · exact List.mem_singleton.mp hmem
        rw [hc']
        exact hc
      · simp at hmem
    · intro hmem
      exact .inl ⟨_, hmem, by simp⟩
  unfold selectObjects textParameter
  rw [Option.isSome_map]
  split_ifs with hnul <;> simp [← hescaped, hnul]

theorem selectObjects_eq_none {objects : List StorageObject} {bucket : String} {pre : List Char} :
    selectObjects objects bucket pre = none ↔ Char.ofNat 0 ∈ pre := by
  rw [← Option.not_isSome_iff_eq_none, selectObjects_isSome, not_not]

theorem mem_pageObjects {before : String → String → Bool} {objects : List StorageObject}
    {bucket name after : String} {pre : List Char} {limit : Nat} {page : List String}
    (h : pageObjects before objects bucket pre after limit = some page) (hname : name ∈ page) :
    Char.ofNat 0 ∉ pre ∧ ⟨bucket, name⟩ ∈ objects ∧ pre <+: name.toList := by
  obtain ⟨names, hnames, rfl⟩ := Option.map_eq_some_iff.mp h
  have hmem := List.mem_of_mem_take hname
  rw [List.mem_mergeSort, List.mem_filter] at hmem
  exact ⟨selectObjects_isSome.mp (Option.isSome_of_eq_some hnames),
    (mem_selectObjects hnames).mp hmem.1⟩

/-! ## The loop on a store and the loop on pages -/

/-- Asking for a URL mutates nothing. -/
theorem outcome_apiUrl (c : SupabaseConnector) (path : List String) (mutated : Bool) :
    (c.apiUrl path).outcome mutated = ((c.apiUrl path).result, mutated) := by
  unfold Connecting.result SupabaseConnector.apiUrl
  rw [Connecting.outcome_bind, Connecting.outcome_bind]
  cases c.api with
  | none => rfl
  | some api =>
    show (okOr (api.url path) _).outcome mutated = (((okOr (api.url path) _).outcome false).1, mutated)
    cases api.url path <;> rfl

/-- On a store the loop answers what it answers on the pages of that store. -/
theorem eraseBucketOn_refines (c : SupabaseConnector) (before : String → String → Bool)
    (bucket : String) (pre : List Char) (plan : ErasePlan) (after : String) (affected : Nat)
    (rounds : List Round) (objects : List StorageObject) :
    ∃ pages, ∀ mutated, ((c.eraseBucket bucket plan affected pages).outcome mutated).1 =
      (c.eraseBucketOn before bucket pre plan after affected rounds objects).1 := by
  induction rounds generalizing after affected objects with
  | nil => exact ⟨[], fun _ => rfl⟩
  | cons round rounds ih =>
    unfold SupabaseConnector.eraseBucketOn
    split
    · exact ⟨[⟨none, round.deletion⟩], fun _ => rfl⟩
    · exact ⟨[⟨some [], round.deletion⟩], fun _ => rfl⟩
    · next name names _ =>
      obtain ⟨pages, hpages⟩ := ih ((name :: names).getLastD after)
        (saturatingAdd affected (name :: names).length)
        (round.leave objects bucket (name :: names))
      refine ⟨⟨some (name :: names), round.deletion⟩ :: pages, fun mutated => ?_⟩
      simp only [SupabaseConnector.eraseBucket, okOr, pure_bind, if_neg (List.cons_ne_nil _ _)]
      rw [Connecting.outcome_bind, outcome_apiUrl]
      cases (c.apiUrl ["storage", "v1", "object", bucket]).result with
      | error e => rfl
      | ok url =>
        dsimp only
        cases round.deletion.response with
        | none => rfl
        | some response =>
          simp only [pure_bind, failIf]
          split_ifs
          · rfl
          · rfl
          · rfl
          · rw [← hpages (mutated || round.deletion.applied)]
            rfl

end ForgetOps.Connector
