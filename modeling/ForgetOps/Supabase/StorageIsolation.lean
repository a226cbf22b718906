import ForgetOps.Supabase.Storage

/-
  Two subjects in one store.

  Their objects are apart exactly where neither user, followed by what the template has after its
  placeholder, begins the other one: `isolated_iff`. A template that ends in its placeholder mixes
  the users of which one begins the other; behind a slash the users without slashes are apart.
-/

namespace ForgetOps.Connector

open Guards

/-- No object is selected for both, and an export or an erase of the first leaves the objects of
    the second. -/
structure Isolated (c : SupabaseConnector) (a b : SubjectIdentity) : Prop where
  selected : ∀ s ∈ c.storage, ∀ preA preB, s.subjectPrefix a = .ok preA →
    s.subjectPrefix b = .ok preB → ∀ objects namesA namesB,
    selectObjects objects s.bucket preA = some namesA →
    selectObjects objects s.bucket preB = some namesB → namesA.Disjoint namesB
  exported : ∀ s ∈ c.storage, ∀ preA preB, s.subjectPrefix a = .ok preA →
    s.subjectPrefix b = .ok preB → ∀ before downloads stores after, ∀ objects namesB,
    selectObjects objects s.bucket preB = some namesB →
    (exportBucket before s.bucket preA downloads after stores).Disjoint namesB
  erased : ∀ s ∈ c.storage, ∀ preB, s.subjectPrefix b = .ok preB →
    ∀ before plan rounds objects,
    selectObjects (c.eraseStorageOn before a plan rounds objects).2 s.bucket preB =
      selectObjects objects s.bucket preB

/-- What the template has after its placeholder. -/
def StorageMapping.rest (s : StorageMapping) : List Char :=
  (Substrings.cut placeholder s.templatePrefix.toList).2

/-- What the template has before it. -/
def StorageMapping.start (s : StorageMapping) : List Char :=
  (Substrings.cut placeholder s.templatePrefix.toList).1

/-- The database takes the prefixes of both users. -/
def StorageMapping.Takes (s : StorageMapping) (userA userB : String) : Prop :=
  ∀ text ∈ [s.start, userA.toList, userB.toList, s.rest], Char.ofNat 0 ∉ text

/-- Neither user, followed by the rest of the template, begins the other one. -/
def StorageMapping.Separates (s : StorageMapping) (userA userB : String) : Prop :=
  ¬ userA.toList ++ s.rest <+: userB.toList ++ s.rest ∧
    ¬ userB.toList ++ s.rest <+: userA.toList ++ s.rest

instance (s : StorageMapping) (userA userB : String) : Decidable (s.Takes userA userB) :=
  inferInstanceAs (Decidable (∀ _ ∈ _, _))

instance (s : StorageMapping) (userA userB : String) : Decidable (s.Separates userA userB) :=
  inferInstanceAs (Decidable (_ ∧ _))

/-- A validated template makes the prefix of a user of its two parts. -/
theorem subjectPrefix_ok {s : StorageMapping} (hs : validPrefixTemplate s.templatePrefix = true)
    {subject : SubjectIdentity} {user : String}
    (hsubject : nonEmpty subject.applicationUserId = some user) :
    s.subjectPrefix subject = .ok (s.start ++ user.toList ++ s.rest) := by
  unfold validPrefixTemplate at hs
  rw [decide_eq_true_eq] at hs
  have hreplace := Substrings.replaceAll_of_matchCount (by decide) hs.1 user.toList
  unfold StorageMapping.subjectPrefix stableUserId
  rw [hsubject]
  show Except.ok _ = _
  rw [hreplace]
  rfl

/-- The objects of another bucket stay where they are. -/
theorem selectObjects_deleteObjects {objects : List StorageObject} {bucket bucket' : String}
    {pre : List Char} {names : List String}
    (h : Char.ofNat 0 ∉ pre → ∀ name ∈ names, bucket' = bucket → ¬ pre <+: name.toList) :
    selectObjects (deleteObjects objects bucket names) bucket' pre =
      selectObjects objects bucket' pre := by
  by_cases hnul : Char.ofNat 0 ∈ pre
  · rw [selectObjects_eq_none.mpr hnul, selectObjects_eq_none.mpr hnul]
  · have h := h hnul
    unfold selectObjects textParameter
    split_ifs
    · rfl
    rw [Option.map_some, Option.map_some, Option.some.injEq, deleteObjects, List.filter_filter]
    refine congrArg _ (List.filter_congr fun o _ => ?_)
    have hstart := Like.likes_prefix '\\' (by decide) pre o.name.toList
    rw [Bool.and_eq_left_iff_imp, decide_eq_true_eq, decide_eq_true_eq]
    rintro ⟨rfl, hlike⟩ ⟨hbucket, hname⟩
    exact h o.name hname hbucket (hstart.mp hlike)

/-- What the loop takes away begins with its prefix. -/
theorem selectObjects_eraseBucketOn {c : SupabaseConnector} {before : String → String → Bool}
    {bucket bucket' : String} {preA preB : List Char} {plan : ErasePlan} {after : String}
    {affected : Nat} {rounds : List Round} {objects : List StorageObject}
    (h : bucket' = bucket → Char.ofNat 0 ∉ preA → Char.ofNat 0 ∉ preB →
      ∀ name : List Char, preA <+: name → ¬ preB <+: name) :
    selectObjects (c.eraseBucketOn before bucket preA plan after affected rounds objects).2 bucket'
        preB = selectObjects objects bucket' preB := by
  induction rounds generalizing after affected objects with
  | nil => rfl
  | cons round rounds ih =>
    unfold SupabaseConnector.eraseBucketOn
    split
    · rfl
    · rfl
    · next name names hpage =>
      obtain ⟨hpage, -⟩ := Option.filter_eq_some_iff.mp hpage
      have hleft : selectObjects (round.leave objects bucket (name :: names)) bucket' preB =
          selectObjects objects bucket' preB := by
        unfold Round.leave
        split_ifs
        · apply selectObjects_deleteObjects
          intro hnul n hn hbucket
          obtain ⟨hsent, -, hstart⟩ := mem_pageObjects hpage hn
          exact h hbucket hsent hnul n.toList hstart
        · rfl
      split
      · rfl
      · dsimp only
        split
        · exact hleft
        · split_ifs
          · exact hleft
          · exact hleft
          · rw [ih, hleft]

theorem mem_exportBucket {before : String → String → Bool} {bucket name after : String}
    {pre : List Char} {downloads : String → Bool} {stores : List (List StorageObject)}
    (h : name ∈ exportBucket before bucket pre downloads after stores) :
    Char.ofNat 0 ∉ pre ∧ pre <+: name.toList := by
  induction stores generalizing after with
  | nil => cases h
  | cons objects stores ih =>
    unfold exportBucket at h
    split at h
    · cases h
    · cases h
    · next first names hpage =>
      have hlisted : ∀ n ∈ first :: names, Char.ofNat 0 ∉ pre ∧ pre <+: n.toList := by
        intro n hn
        obtain ⟨hsent, -, hstart⟩ := mem_pageObjects hpage hn
        exact ⟨hsent, hstart⟩
      dsimp only at h
      split_ifs at h
      · exact hlisted name (List.mem_of_mem_take h)
      · exact hlisted name h
      · rcases List.mem_append.mp h with h | h
        · exact hlisted name h
        · exact ih h

section Isolation

variable {c : SupabaseConnector} {m : ValidatedSupabaseMapping} {api : Option SupabaseApi}
  {a b : SubjectIdentity} {userA userB : String}

/-- Two prefixes of which neither begins the other have no name in common. -/
theorem not_both_prefixes {s : StorageMapping} (h : s.Separates userA userB) (name : List Char)
    (ha : s.start ++ userA.toList ++ s.rest <+: name) :
    ¬ s.start ++ userB.toList ++ s.rest <+: name := by
  intro hb
  rw [List.append_assoc] at ha hb
  rcases List.prefix_or_prefix_of_prefix ha hb with hab | hba
  · exact h.1 ((List.prefix_append_right_inj _).mp hab)
  · exact h.2 ((List.prefix_append_right_inj _).mp hba)

/-- Where one prefix begins the other, the longer one is itself a name that both select. -/
theorem selects_both {s : StorageMapping} (htakes : s.Takes userA userB)
    (h : s.start ++ userA.toList ++ s.rest <+: s.start ++ userB.toList ++ s.rest ∨
      s.start ++ userB.toList ++ s.rest <+: s.start ++ userA.toList ++ s.rest) :
    ∃ objects namesA namesB name,
      selectObjects objects s.bucket (s.start ++ userA.toList ++ s.rest) = some namesA ∧
      selectObjects objects s.bucket (s.start ++ userB.toList ++ s.rest) = some namesB ∧
      name ∈ namesA ∧ name ∈ namesB := by
  have hboth : ∃ name : List Char, s.start ++ userA.toList ++ s.rest <+: name ∧
      s.start ++ userB.toList ++ s.rest <+: name := by
    rcases h with h | h
    · exact ⟨_, h, List.prefix_rfl⟩
    · exact ⟨_, List.prefix_rfl, h⟩
  obtain ⟨name, hnameA, hnameB⟩ := hboth
  have hstart := htakes s.start (by simp)
  have hrest := htakes s.rest (by simp)
  have hselect : ∀ user : String, Char.ofNat 0 ∉ user.toList →
      s.start ++ user.toList ++ s.rest <+: name → ∃ names,
        selectObjects [⟨s.bucket, String.ofList name⟩] s.bucket
          (s.start ++ user.toList ++ s.rest) = some names ∧ String.ofList name ∈ names := by
    intro user huser hname
    have hsome : (selectObjects [⟨s.bucket, String.ofList name⟩] s.bucket
        (s.start ++ user.toList ++ s.rest)).isSome = true := by
      rw [selectObjects_isSome, List.mem_append, List.mem_append, not_or, not_or]
      exact ⟨⟨hstart, huser⟩, hrest⟩
    obtain ⟨names, hnames⟩ := Option.isSome_iff_exists.mp hsome
    refine ⟨names, hnames, (mem_selectObjects hnames).mpr ⟨List.mem_singleton.mpr rfl, ?_⟩⟩
    rw [String.toList_ofList]
    exact hname
  obtain ⟨namesA, hnamesA, hmemA⟩ := hselect userA (htakes _ (by simp)) hnameA
  obtain ⟨namesB, hnamesB, hmemB⟩ := hselect userB (htakes _ (by simp)) hnameB
  exact ⟨_, namesA, namesB, _, hnamesA, hnamesB, hmemA, hmemB⟩

/-- The database takes both prefixes where it takes their parts. -/
theorem takes_iff {s : StorageMapping} :
    s.Takes userA userB ↔ Char.ofNat 0 ∉ s.start ++ userA.toList ++ s.rest ∧
      Char.ofNat 0 ∉ s.start ++ userB.toList ++ s.rest := by
  unfold StorageMapping.Takes
  simp only [List.mem_cons, List.not_mem_nil, or_false, forall_eq_or_imp, forall_eq,
    List.mem_append, not_or]
  tauto

theorem isolated_of_separates (hsound : m.Sound)
    (ha : nonEmpty a.applicationUserId = some userA) (hb : nonEmpty b.applicationUserId = some userB)
    (h : ∀ s ∈ m.storage, s.Takes userA userB → s.Separates userA userB) :
    Isolated (m.connector api) a b := by
  -- what an object of a mapping cannot have: both prefixes
  have hapart : ∀ s ∈ m.storage, ∀ preA preB, s.subjectPrefix a = .ok preA →
      s.subjectPrefix b = .ok preB → Char.ofNat 0 ∉ preA → Char.ofNat 0 ∉ preB →
      ∀ name : List Char, preA <+: name → ¬ preB <+: name := by
    intro s hs preA preB hpreA hpreB hnulA hnulB name
    rw [subjectPrefix_ok (hsound.templates s hs) ha, Except.ok.injEq] at hpreA
    rw [subjectPrefix_ok (hsound.templates s hs) hb, Except.ok.injEq] at hpreB
    subst hpreA hpreB
    exact not_both_prefixes (h s hs (takes_iff.mpr ⟨hnulA, hnulB⟩)) name
  refine ⟨?_, ?_, ?_⟩
  · intro s hs preA preB hpreA hpreB objects namesA namesB hnamesA hnamesB name hnameA hnameB
    have hnulA := selectObjects_isSome.mp (Option.isSome_of_eq_some hnamesA)
    have hnulB := selectObjects_isSome.mp (Option.isSome_of_eq_some hnamesB)
    exact hapart s hs preA preB hpreA hpreB hnulA hnulB name.toList
      ((mem_selectObjects hnamesA).mp hnameA).2 ((mem_selectObjects hnamesB).mp hnameB).2
  · intro s hs preA preB hpreA hpreB before downloads stores after objects namesB hnamesB name
      hnameA hnameB
    have hnulB := selectObjects_isSome.mp (Option.isSome_of_eq_some hnamesB)
    obtain ⟨hnulA, hstart⟩ := mem_exportBucket hnameA
    exact hapart s hs preA preB hpreA hpreB hnulA hnulB name.toList hstart
      ((mem_selectObjects hnamesB).mp hnameB).2
  · intro s hs preB hpreB before plan rounds objects
    unfold SupabaseConnector.eraseStorageOn
    split
    · rfl
    · next bucket preA heq =>
      obtain ⟨s', hs', heq⟩ := bind_ok.mp heq
      obtain ⟨-, heq⟩ := refuse_bind_ok.mp heq
      obtain ⟨pre, hpre, heq⟩ := bind_ok.mp heq
      obtain ⟨rfl, rfl⟩ := Prod.mk.injEq _ _ _ _ ▸ pure_ok.mp heq
      rw [SupabaseConnector.storageForResource, result_okOr, okOr_ok] at hs'
      have hmem := List.mem_of_find?_eq_some hs'
      apply selectObjects_eraseBucketOn
      intro hbucket
      have hsame : s = s' := List.inj_on_of_nodup_map hsound.buckets hs hmem hbucket
      subst hsame
      exact hapart s hs pre preB hpre hpreB

end Isolation

/-- Behind a slash, two users without slashes are apart. -/
theorem separates_of_slash {s : StorageMapping} {rest : List Char} {userA userB : String}
    (hrest : s.rest = '/' :: rest) (hA : '/' ∉ userA.toList) (hB : '/' ∉ userB.toList)
    (hne : userA ≠ userB) : s.Separates userA userB := by
  have happart : ∀ u v : String, '/' ∉ u.toList → '/' ∉ v.toList → u ≠ v →
      ¬ u.toList ++ s.rest <+: v.toList ++ s.rest := by
    rintro u v hu hv hne ⟨tail, htail⟩
    rw [hrest, List.append_assoc, List.cons_append] at htail
    have hlines := congrArg (fun text => (Lines.split '/' text).1.head?) htail
    rw [Lines.split_line hu, Lines.split_line hv] at hlines
    exact hne (String.toList_inj.mp (Option.some.inj hlines))
  exact ⟨happart userA userB hA hB hne, happart userB userA hB hA hne.symm⟩

/-- Without a rest, they are apart where neither begins the other. -/
theorem separates_of_no_rest {s : StorageMapping} {userA userB : String} (hrest : s.rest = []) :
    s.Separates userA userB ↔
      ¬ userA.toList <+: userB.toList ∧ ¬ userB.toList <+: userA.toList := by
  unfold StorageMapping.Separates
  rw [hrest, List.append_nil, List.append_nil]

/-- The objects of two subjects are apart exactly where the prefixes of no mapping, both taken by
    the database, begin one another. -/
theorem isolated_iff (mapping : SupabaseMapping) (m : ValidatedSupabaseMapping)
    (hm : mapping.validate = .ok m) (api : Option SupabaseApi) (a b : SubjectIdentity)
    (userA userB : String) (ha : nonEmpty a.applicationUserId = some userA)
    (hb : nonEmpty b.applicationUserId = some userB) :
    Isolated (m.connector api) a b ↔
      ∀ s ∈ m.storage, s.Takes userA userB → s.Separates userA userB := by
  have hsound := SupabaseMapping.validate_sound hm
  constructor
  · intro h s hs htakes
    by_contra hsep
    unfold StorageMapping.Separates at hsep
    rw [not_and_or, not_not, not_not] at hsep
    have hoverlap : s.start ++ userA.toList ++ s.rest <+: s.start ++ userB.toList ++ s.rest ∨
        s.start ++ userB.toList ++ s.rest <+: s.start ++ userA.toList ++ s.rest := by
      rw [List.append_assoc, List.append_assoc, List.prefix_append_right_inj,
        List.prefix_append_right_inj]
      exact hsep
    obtain ⟨objects, namesA, namesB, name, hnamesA, hnamesB, hnameA, hnameB⟩ :=
      selects_both htakes hoverlap
    exact h.selected s hs _ _ (subjectPrefix_ok (hsound.templates s hs) ha)
      (subjectPrefix_ok (hsound.templates s hs) hb) objects namesA namesB hnamesA hnamesB hnameA
      hnameB
  · exact isolated_of_separates hsound ha hb

/-- The mapping of one bucket. -/
def userUploads (templatePrefix : String) : SupabaseMapping where
  tables := ⟨[], BTreeMap.sorted_nil⟩
  storage := ⟨[("user-uploads", ⟨templatePrefix, true⟩)], List.pairwise_singleton _ _⟩
  deleteAuthUser := false
  approvedFunctions := []

/-- What it validates to. -/
def validatedUploads (templatePrefix : String) : ValidatedSupabaseMapping where
  tables := []
  storage := [⟨"user-uploads", templatePrefix⟩]
  deleteAuthUser := false
  approvedFunctions := []

def subjectOf (user : String) : SubjectIdentity := ⟨some user, none⟩

/-- Under the documented template two users are apart. -/
theorem isolated_on_documented_template :
    Isolated ((validatedUploads "users/{user_id}/").connector none) (subjectOf "1")
      (subjectOf "10") :=
  (isolated_iff (userUploads "users/{user_id}/") _ (by rfl) none _ _ "1" "10" (by decide)
    (by decide)).mpr (by decide)

/-- A template that ends in its placeholder is validated, and then the objects of user 10 are
    objects of user 1. -/
theorem isolated_fails_on_open_template :
    (userUploads "users/{user_id}").validate = .ok (validatedUploads "users/{user_id}") ∧
      nonEmpty (subjectOf "1").applicationUserId = some "1" ∧
      nonEmpty (subjectOf "10").applicationUserId = some "10" ∧
      ¬ Isolated ((validatedUploads "users/{user_id}").connector none) (subjectOf "1")
        (subjectOf "10") := by
  refine ⟨by rfl, by decide, by decide, fun h => ?_⟩
  have hname := h.selected ⟨"user-uploads", "users/{user_id}"⟩ List.mem_cons_self
    "users/1".toList "users/10".toList (by rfl) (by rfl) [⟨"user-uploads", "users/10"⟩]
    ["users/10"] ["users/10"] (by rfl) (by rfl)
  exact hname List.mem_cons_self List.mem_cons_self

end ForgetOps.Connector
