import ForgetOps.Supabase.SharedProject
import ForgetOps.Supabase.StorageIsolation

/-
  What an erase leaves of a subject while others work on the same project.

  The others may do anything that adds nothing of the subject: `KeepsOut`. So may the connector, for
  any subject, which only deletes and nulls. Then what the connector has reported as erased is gone
  for good, and a verification that begins later counts nothing.
-/

namespace ForgetOps.Connector

open CrashLogic Guards Keyset

/-! ## Adding nothing of a subject -/

/-- No row of the table has the text. -/
def Database.Lacks (db : Database) (t : TableMapping) (value : String) : Prop :=
  ∀ n, db.countWhere t.name t.identityColumn value = some n → n = 0

/-- No row, no object and no account of the subject is there that was not there before. -/
structure KeepsOut (c : SupabaseConnector) (subject : SubjectIdentity) (s s' : Project) : Prop where
  rows : ∀ t value, (t.subjectValue subject).result = .ok value → t ∈ c.tables →
    s.database.Lacks t value → s'.database.Lacks t value
  objects : ∀ m ∈ c.storage, ∀ pre, m.subjectPrefix subject = .ok pre → ∀ name : String,
    pre <+: name.toList → ⟨m.bucket, name⟩ ∈ s'.objects → ⟨m.bucket, name⟩ ∈ s.objects
  user : ∀ userId, (stableUserId subject).result = .ok userId → userId ∈ s'.users → userId ∈ s.users

section KeepsOut

variable {c : SupabaseConnector} {subject : SubjectIdentity} {s s' s'' : Project}

theorem KeepsOut.refl : KeepsOut c subject s s where
  rows _ _ _ _ h := h
  objects _ _ _ _ _ _ h := h
  user _ _ h := h

theorem KeepsOut.trans (h : KeepsOut c subject s s') (h' : KeepsOut c subject s' s'') :
    KeepsOut c subject s s'' where
  rows t value hvalue ht hlacks := h'.rows t value hvalue ht (h.rows t value hvalue ht hlacks)
  objects m hm pre hpre name hstart hname :=
    h.objects m hm pre hpre name hstart (h'.objects m hm pre hpre name hstart hname)
  user userId hid hmem := h.user userId hid (h'.user userId hid hmem)

end KeepsOut

section Rows

variable {t t' : TableMapping} {value value' : String} {db left : Database} {r : Relation}

theorem hasText_of_setNull {column : String} {fields : List String} {row : Row}
    (h : hasText column value (setNull fields row) = true) : hasText column value row = true := by
  unfold hasText setNull at *
  split_ifs at h
  · simp at h
  · exact h

/-- An erase brings no text into a column. -/
theorem countP_eraseRows_eq_zero {column : String} {rows : List Row}
    (h : rows.countP (hasText column value') = 0) :
    (t.eraseRows value rows).countP (hasText column value') = 0 := by
  rw [List.countP_eq_zero] at h ⊢
  intro row hrow
  unfold TableMapping.eraseRows at hrow
  cases haction : t.action with
  | delete =>
    rw [haction] at hrow
    exact h row (List.mem_of_mem_filter hrow)
  | anonymize =>
    rw [haction] at hrow
    obtain ⟨row₀, hrow₀, rfl⟩ := List.mem_map.mp hrow
    have hnot := h row₀ hrow₀
    split_ifs
    · exact fun htext => hnot (hasText_of_setNull htext)
    · exact hnot

theorem Erased.lacks (h : Erased t value db left r) (hlacks : db.Lacks t' value') :
    left.Lacks t' value' := by
  intro n hn
  obtain ⟨r', hr', rfl⟩ := Option.map_eq_some_iff.mp hn
  by_cases hname : t'.name = t.name
  · obtain ⟨hnul, hfound, hcolumn⟩ := relation_ok hr'
    have hleft : left t'.name = some { r with rows := t.eraseRows value r.rows } := by
      rw [h.left, hname]
      exact Function.update_self ..
    obtain rfl := Option.some.inj (hleft.symm.trans hfound)
    have hbefore : db.relation t'.name t'.identityColumn value' = some r := by
      unfold Database.relation textParameter
      rw [if_neg hnul, Option.bind_some, hname, (relation_ok h.relation).2.1, Option.filter_some]
      exact if_pos (decide_eq_true hcolumn)
    apply countP_eraseRows_eq_zero
    exact hlacks _ (by rw [Database.countWhere, hbefore]; rfl)
  · rw [h.left, relation_of_ne hname] at hr'
    exact hlacks _ (by rw [Database.countWhere, hr']; rfl)

theorem Erased.lacks_own (h : Erased t value db left r) (ht : t.Valid) : left.Lacks t value := by
  intro n hn
  rw [h.countWhere_after ht] at hn
  exact (Option.some.inj hn).symm

end Rows

section Answers

variable {s s' : Project} {t : TableMapping} {value : String} {link : Link}
  {answer : Except TransactionFailure Nat}

/-- A transaction leaves the tables, or leaves them erased; where it is answered, it did. -/
theorem eraseRows_cases (h : (answer, s') = s.eraseRows t value link) :
    (s' = s ∧ ∃ e, answer = .error e) ∨
      ∃ left r, Erased t value s.database left r ∧ s' = { s with database := left } := by
  unfold Project.eraseRows at h
  split at h
  · obtain ⟨rfl, rfl⟩ := Prod.mk.inj h
    exact .inl ⟨rfl, _, rfl⟩
  · split at h
    · obtain ⟨rfl, rfl⟩ := Prod.mk.inj h
      exact .inl ⟨rfl, _, rfl⟩
    · next affected left hstatement =>
      obtain ⟨hstatement, -⟩ := Option.filter_eq_some_iff.mp hstatement
      obtain ⟨r, herased, -, -⟩ := statement_iff.mp hstatement
      split at h
      · obtain ⟨rfl, rfl⟩ := Prod.mk.inj h
        exact .inr ⟨left, r, herased, rfl⟩
      · obtain ⟨rfl, rfl⟩ := Prod.mk.inj h
        split_ifs
        · exact .inr ⟨left, r, herased, rfl⟩
        · exact .inl ⟨rfl, _, rfl⟩

variable {c : SupabaseConnector} {subject : SubjectIdentity} {before : String → String → Bool}

theorem keepsOut_takeObjects (bucket : String) (names : List String) :
    KeepsOut c subject s (s.takeObjects bucket names) where
  rows _ _ _ _ h := h
  objects _ _ _ _ _ _ h := List.mem_of_mem_filter h
  user _ _ h := h

theorem keepsOut_takeUser (userId : String) : KeepsOut c subject s (s.takeUser userId) where
  rows _ _ _ _ h := h
  objects _ _ _ _ _ _ h := h
  user _ _ h := List.mem_of_mem_filter h

/-- Whatever is answered, nothing of the subject is added. -/
theorem keepsOut_answer {call : RemoteCall} {r : call.Answer}
    (h : Project.environment before (KeepsOut c subject) s call r s') :
    KeepsOut c subject s s' := by
  cases call with
  | eraseRows table value =>
    obtain ⟨link, h⟩ := h
    obtain ⟨rfl, -⟩ | ⟨left, r, herased, rfl⟩ := eraseRows_cases h
    · exact .refl
    · exact ⟨fun _ _ _ _ hlacks => herased.lacks hlacks, fun _ _ _ _ _ _ hname => hname,
        fun _ _ hid => hid⟩
  | countRows | listObjects | countObjects | getUser =>
    obtain ⟨rfl, -⟩ := h
    exact .refl
  | deleteObjects bucket names =>
    obtain ⟨-, rfl⟩ | ⟨-, taken, -, rfl⟩ := h
    · exact keepsOut_takeObjects bucket names
    · exact keepsOut_takeObjects bucket taken
  | deleteUser userId =>
    obtain rfl | ⟨rfl, -⟩ := h
    · exact keepsOut_takeUser userId
    · exact .refl
  | others => exact h

end Answers

/-! ## Programs among others -/

/-- The program keeps nothing of the subject coming in, and returns with `Q`, while the others do
    the same. -/
abbrev AmongClients {α : Type} (before : String → String → Bool) (c : SupabaseConnector)
    (subject : SubjectIdentity) (prog : Prog RemoteCall RemoteCall.Answer α)
    (Q : α → Project → Prop) (s : Project) : Prop :=
  among (Project.environment before (KeepsOut c subject)) (KeepsOut c subject)
    (KeepsOut c subject) prog Q s

/-- What holds of the value that is returned, if one is. -/
def Returns {α : Type} (P : α → Project → Prop) : Except ConnectorError α → Project → Prop
  | .ok a, s => P a s
  | .error _, _ => True

section Rules

variable {α β : Type} {before : String → String → Bool} {c : SupabaseConnector}
  {subject : SubjectIdentity} {s : Project} {P : β → Project → Prop}

theorem among_ask {call : RemoteCall} {f : call.Answer → Remote β}
    (h : ∀ s₁ r s₂, KeepsOut c subject s s₁ →
      Project.environment before (KeepsOut c subject) s₁ call r s₂ →
      AmongClients before c subject (f r).run (Returns P) s₂) :
    AmongClients before c subject (ask call >>= f).run (Returns P) s :=
  fun s₁ hs₁ r s₂ hanswer => ⟨keepsOut_answer hanswer, h s₁ r s₂ hs₁ hanswer⟩

theorem among_check {x : Except ConnectorError α} {f : α → Remote β}
    (h : ∀ a, x = .ok a → AmongClients before c subject (f a).run (Returns P) s) :
    AmongClients before c subject (check x >>= f).run (Returns P) s := by
  cases x with
  | ok a => exact h a rfl
  | error e => exact fun _ _ => trivial

/-- The last check of a program. -/
theorem among_last {x : Except ConnectorError β}
    (h : ∀ b, x = .ok b → ∀ s₁, KeepsOut c subject s s₁ → P b s₁) :
    AmongClients before c subject (check x).run (Returns P) s := by
  cases x with
  | ok b => exact h b rfl
  | error e => exact fun _ _ => trivial

/-- A part of a program. -/
theorem among_part {x : Remote α} {f : α → Remote β} {P' : α → Project → Prop}
    (hx : AmongClients before c subject x.run (Returns P') s)
    (h : ∀ a s₁, P' a s₁ → AmongClients before c subject (f a).run (Returns P) s₁) :
    AmongClients before c subject (x >>= f).run (Returns P) s := by
  refine among_try (fun _ => KeepsOut.refl) (among_mono ?_ hx)
  intro r s₁ hr
  cases r with
  | ok a => exact h a s₁ hr
  | error e => exact fun _ _ => trivial

theorem among_return {b : β} (h : ∀ s₁, KeepsOut c subject s s₁ → P b s₁) :
    AmongClients before c subject (pure b : Remote β).run (Returns P) s := h

/-- Any program does. -/
theorem among_any (prog : Prog RemoteCall RemoteCall.Answer α) :
    AmongClients before c subject prog (fun _ _ => True) s := by
  induction prog generalizing s with
  | pure a => exact fun _ _ => trivial
  | perform e next ih => exact fun s₁ _ r s₂ hanswer => ⟨keepsOut_answer hanswer, ih r⟩

end Rules

/-! ## What an erase leaves -/

/-- Nothing of the subject is under this resource. -/
def Clean (c : SupabaseConnector) (subject : SubjectIdentity) (resource : String) (s : Project) :
    Prop :=
  if resource = "supabase:auth:user" then
    ∀ userId, (stableUserId subject).result = .ok userId → userId ∉ s.users
  else if "supabase:storage:".toList.isPrefixOf resource.toList then
    ∀ m, (c.storageForResource resource).result = .ok m → ∀ pre, m.subjectPrefix subject = .ok pre →
      ∀ name : String, pre <+: name.toList → ⟨m.bucket, name⟩ ∉ s.objects
  else
    ∀ t, (c.tableForResource resource).result = .ok t → ∀ value,
      (t.subjectValue subject).result = .ok value → s.database.Lacks t value

section Erase

variable {before : String → String → Bool} {c : SupabaseConnector} {subject : SubjectIdentity}
  {plan : ErasePlan} {s s' : Project}

theorem mem_tables {resource : String} {t : TableMapping}
    (h : (c.tableForResource resource).result = .ok t) : t ∈ c.tables := by
  unfold SupabaseConnector.tableForResource at h
  rw [result_okOr] at h
  exact List.mem_of_find?_eq_some (okOr_ok.mp h)

theorem mem_storage {resource : String} {m : StorageMapping}
    (h : (c.storageForResource resource).result = .ok m) : m ∈ c.storage := by
  unfold SupabaseConnector.storageForResource at h
  rw [result_okOr] at h
  exact List.mem_of_find?_eq_some (okOr_ok.mp h)

theorem Clean.kept {resource : String} (h : Clean c subject resource s)
    (hkeeps : KeepsOut c subject s s') : Clean c subject resource s' := by
  unfold Clean at *
  split_ifs at h ⊢
  · exact fun userId hid hmem => h userId hid (hkeeps.user userId hid hmem)
  · intro m hm pre hpre name hstart hmem
    exact h m hm pre hpre name hstart (hkeeps.objects m (mem_storage hm) pre hpre name hstart hmem)
  · exact fun t ht value hvalue => hkeeps.rows t value hvalue (mem_tables ht) (h t ht value hvalue)

theorem among_eraseTable (hvalid : ∀ t ∈ c.tables, t.Valid) :
    AmongClients before c subject (c.eraseTableAwait subject plan).run
      (Returns fun _ s' => ∀ t, (c.tableForResource plan.resource).result = .ok t → ∀ value,
        (t.subjectValue subject).result = .ok value → s'.database.Lacks t value) s := by
  refine among_check fun t ht => among_check fun _ _ => among_check fun value hvalue => ?_
  refine among_ask fun s₁ executed s₂ _ hanswer => among_check fun affected haffected => ?_
  obtain ⟨link, hanswer⟩ := hanswer
  have hlacks : s₂.database.Lacks t value := by
    obtain ⟨rfl, e, rfl⟩ | ⟨left, r, herased, rfl⟩ := eraseRows_cases hanswer
    · cases haffected
    · exact herased.lacks_own (hvalid t (mem_tables ht))
  refine among_return fun s₃ hs₃ t' ht' value' hvalue' => ?_
  obtain rfl := Except.ok.inj (ht.symm.trans ht')
  obtain rfl := Except.ok.inj (hvalue.symm.trans hvalue')
  exact hs₃.rows t value hvalue (mem_tables ht) hlacks

theorem among_eraseAuthUser :
    AmongClients before c subject (c.eraseAuthUserAwait subject plan).run
      (Returns fun _ s' => ∀ userId, (stableUserId subject).result = .ok userId →
        userId ∉ s'.users) s := by
  refine among_check fun _ _ => among_check fun userId hid => among_check fun _ _ => ?_
  refine among_ask fun s₁ sent s₂ _ hanswer => among_check fun status hstatus => ?_
  obtain rfl := okOr_ok.mp hstatus
  refine among_check fun affected haffected => ?_
  have hgone : isGone status = true := by
    unfold isGone
    split_ifs at haffected with hsuccess hmissing
    · exact decide_eq_true (.inl hsuccess)
    · exact decide_eq_true (.inr hmissing)
  have htaken : s₂ = s₁.takeUser userId := by
    rcases hanswer with h | ⟨-, h⟩
    · exact h
    · rw [Option.any_some, hgone] at h
      cases h
  have habsent : userId ∉ s₂.users := by
    rw [htaken]
    intro hmem
    exact absurd (List.of_mem_filter hmem) (by simp)
  refine among_return fun s₃ hs₃ userId' hid' hmem => ?_
  obtain rfl := Except.ok.inj (hid.symm.trans hid')
  exact habsent (hs₃.user userId hid hmem)

/-! ## The loop over a bucket -/

/-- The objects of the subject in the bucket are all ahead of the loop. -/
def Behind (before : String → String → Bool) (s : Project) (bucket : String) (pre : List Char)
    (after : String) : Prop :=
  ∀ name : String, pre <+: name.toList → ⟨bucket, name⟩ ∈ s.objects → before after name = true

/-- The names of the subject that are ahead of the loop. -/
def ahead (before : String → String → Bool) (s : Project) (bucket : String) (pre : List Char)
    (after : String) : Finset String :=
  ((s.objects.filter fun o => o.bucket = bucket ∧ pre <+: o.name.toList ∧
    before after o.name = true).map (·.name)).toFinset

theorem mem_ahead {bucket after name : String} {pre : List Char} :
    name ∈ ahead before s bucket pre after ↔
      ⟨bucket, name⟩ ∈ s.objects ∧ pre <+: name.toList ∧ before after name = true := by
  unfold ahead
  rw [List.mem_toFinset, List.mem_map]
  constructor
  · rintro ⟨o, ho, rfl⟩
    obtain ⟨hmem, hwhere⟩ := List.mem_filter.mp ho
    obtain ⟨rfl, hrest⟩ := of_decide_eq_true hwhere
    exact ⟨hmem, hrest⟩
  · rintro ⟨hmem, hrest⟩
    exact ⟨⟨bucket, name⟩, List.mem_filter.mpr ⟨hmem, decide_eq_true ⟨rfl, hrest⟩⟩, rfl⟩

section Loop

variable {m : StorageMapping} {pre : List Char} {after : String}

theorem Behind.kept (h : Behind before s m.bucket pre after) (hkeeps : KeepsOut c subject s s')
    (hm : m ∈ c.storage) (hpre : m.subjectPrefix subject = .ok pre) :
    Behind before s' m.bucket pre after :=
  fun name hstart hmem => h name hstart (hkeeps.objects m hm pre hpre name hstart hmem)

theorem ahead_subset (hkeeps : KeepsOut c subject s s') (hm : m ∈ c.storage)
    (hpre : m.subjectPrefix subject = .ok pre) :
    ahead before s' m.bucket pre after ⊆ ahead before s m.bucket pre after := by
  intro name hname
  obtain ⟨hmem, hstart, hafter⟩ := mem_ahead.mp hname
  exact mem_ahead.mpr ⟨hkeeps.objects m hm pre hpre name hstart hmem, hstart, hafter⟩

/-- What the subject has on a page, or beyond it. -/
theorem page_cases (order : StrictTotal before) {bucket last : String} {names : List String}
    (hbehind : Behind before s bucket pre after)
    (hpage : pageObjects before s.objects bucket pre after storageDeleteBatch = some names)
    (hlast : names.getLast? = some last) {name : String} (hstart : pre <+: name.toList)
    (hmem : ⟨bucket, name⟩ ∈ s.objects) : name ∈ names ∨ before last name = true := by
  obtain ⟨listed, hlisted, rfl⟩ := Option.map_eq_some_iff.mp hpage
  have hname : name ∈ listed := (mem_selectObjects hlisted).mpr ⟨hmem, hstart⟩
  exact page_or_beyond order hlast hname (hbehind name hstart hmem)

/-- On a short page there is all that the subject has. -/
theorem mem_shortPage {bucket : String} {names : List String}
    (hbehind : Behind before s bucket pre after)
    (hpage : pageObjects before s.objects bucket pre after storageDeleteBatch = some names)
    (hshort : names.length < storageDeleteBatch) {name : String} (hstart : pre <+: name.toList)
    (hmem : ⟨bucket, name⟩ ∈ s.objects) : name ∈ names := by
  obtain ⟨listed, hlisted, rfl⟩ := Option.map_eq_some_iff.mp hpage
  have hname : name ∈ listed := (mem_selectObjects hlisted).mpr ⟨hmem, hstart⟩
  have hbeyond : name ∈ beyond before listed after :=
    mem_beyond.mpr ⟨hname, hbehind name hstart hmem⟩
  show name ∈ page before listed after storageDeleteBatch
  rw [page_of_short hshort]
  exact hbeyond

theorem notMem_takeObjects {bucket name : String} {names : List String} (h : name ∈ names) :
    ⟨bucket, name⟩ ∉ (s.takeObjects bucket names).objects := by
  intro hmem
  unfold Project.takeObjects Connector.deleteObjects at hmem
  rw [List.mem_filter, decide_eq_true_eq] at hmem
  exact hmem.2 ⟨rfl, h⟩

theorem isGone_of_accepted {status : Nat} (h : ¬ (isSuccess status = false ∧ status ≠ 404)) :
    isGone status = true := by
  unfold isGone
  rw [decide_eq_true_eq]
  by_contra hnot
  rw [not_or, Bool.not_eq_true] at hnot
  exact h hnot

/-- Beyond a name of the subject there are fewer of them. -/
theorem card_ahead_lt (order : StrictTotal before) {bucket last : String}
    (hbehind : Behind before s bucket pre after) (hmem : ⟨bucket, last⟩ ∈ s.objects)
    (hstart : pre <+: last.toList)
    (hleft : ∀ name : String, pre <+: name.toList → ⟨bucket, name⟩ ∈ s'.objects →
      ⟨bucket, name⟩ ∈ s.objects) :
    (ahead before s' bucket pre last).card < (ahead before s bucket pre after).card := by
  apply Finset.card_lt_card
  rw [Finset.ssubset_iff]
  refine ⟨last, ?_, ?_⟩
  · rw [mem_ahead, order.irrefl]
    exact fun h => absurd h.2.2 (by decide)
  · intro name hname
    rcases Finset.mem_insert.mp hname with rfl | hname
    · exact mem_ahead.mpr ⟨hmem, hstart, hbehind name hstart hmem⟩
    · obtain ⟨hmem', hstart', -⟩ := mem_ahead.mp hname
      have hbefore := hleft name hstart' hmem'
      exact mem_ahead.mpr ⟨hbefore, hstart', hbehind name hstart' hbefore⟩

/-- What the loop has come to: it returns where it had enough rounds, and nothing of the subject is
    left where it returns. -/
structure Emptied (bucket : String) (pre : List Char) (rounds bound : ℕ) (r : Option EraseResult)
    (s : Project) : Prop where
  returns : bound < rounds → r.isSome = true
  gone : r.isSome = true → ∀ name : String, pre <+: name.toList → ⟨bucket, name⟩ ∉ s.objects

/-- Each round goes on beyond its page. -/
theorem among_eraseBucket (order : StrictTotal before) (hm : m ∈ c.storage)
    (hpre : m.subjectPrefix subject = .ok pre) (rounds affected : ℕ)
    (hbehind : Behind before s m.bucket pre after) :
    AmongClients before c subject (c.eraseBucketAwait plan m.bucket pre rounds after affected).run
      (Returns (Emptied m.bucket pre rounds (ahead before s m.bucket pre after).card)) s := by
  induction rounds generalizing s after affected with
  | zero =>
    refine among_return fun _ _ => ⟨fun h => absurd h (Nat.not_lt_zero _), fun h => ?_⟩
    cases h
  | succ rounds ih =>
    refine among_ask fun s₁ listed s₂ hs₁ hanswer => among_check fun names hnames => ?_
    obtain rfl := okOr_ok.mp hnames
    obtain ⟨rfl, hpage⟩ := hanswer
    have hpage := (hpage.resolve_left (Option.some_ne_none names)).symm
    have hbehind := hbehind.kept hs₁ hm hpre
    -- where nothing is left, nothing is left for good
    have hdone : ∀ {result : EraseResult} {s₃ : Project},
        (∀ name : String, pre <+: name.toList → ⟨m.bucket, name⟩ ∉ s₃.objects) →
        AmongClients before c subject (pure (some result) : Remote (Option EraseResult)).run
          (Returns (Emptied m.bucket pre (rounds + 1)
            (ahead before s m.bucket pre after).card)) s₃ := by
      intro result s₃ hgone
      refine among_return fun s₄ hs₄ => ⟨fun _ => rfl, fun _ name hstart hmem => ?_⟩
      exact hgone name hstart (hs₄.objects m hm pre hpre name hstart hmem)
    by_cases hnil : names = []
    · rw [if_pos hnil]
      refine hdone fun name hstart hmem => ?_
      have hname := mem_shortPage hbehind hpage (by rw [hnil]; decide) hstart hmem
      rw [hnil] at hname
      exact absurd hname List.not_mem_nil
    rw [if_neg hnil]
    refine among_check fun _ _ => among_ask fun s₃ sent s₄ hs₃ hanswer => ?_
    refine among_check fun status hstatus => among_check fun _ haccepted => ?_
    obtain rfl := okOr_ok.mp hstatus
    have htaken : s₄ = s₃.takeObjects m.bucket names := by
      obtain ⟨-, h⟩ | ⟨h, -⟩ := hanswer
      · exact h
      · rw [Option.any_some, isGone_of_accepted (refuse_ok.mp haccepted)] at h
        cases h
    have hleft : ∀ name : String, pre <+: name.toList → ⟨m.bucket, name⟩ ∈ s₄.objects →
        ⟨m.bucket, name⟩ ∈ s₂.objects ∧ name ∉ names := by
      intro name hstart hmem
      rw [htaken] at hmem
      refine ⟨?_, fun hname => notMem_takeObjects hname hmem⟩
      exact hs₃.objects m hm pre hpre name hstart (List.mem_of_mem_filter hmem)
    dsimp only
    split_ifs with hshort
    · refine hdone fun name hstart hmem => ?_
      obtain ⟨hbefore, hnot⟩ := hleft name hstart hmem
      exact hnot (mem_shortPage hbehind hpage hshort hstart hbefore)
    · obtain ⟨last, hlast⟩ : ∃ last, names.getLast? = some last :=
        Option.isSome_iff_exists.mp (List.getLast?_isSome.mpr hnil)
      have hgetLast : names.getLastD after = last := by
        rw [List.getLastD_eq_getLast?, hlast, Option.getD_some]
      obtain ⟨-, hmemLast, hstartLast⟩ := mem_pageObjects hpage (List.mem_of_getLast? hlast)
      have hbehindLast : Behind before s₄ m.bucket pre last := by
        intro name hstart hmem
        obtain ⟨hbefore, hnot⟩ := hleft name hstart hmem
        exact (page_cases order hbehind hpage hlast hstart hbefore).resolve_left hnot
      have hfewer := card_ahead_lt order hbehind hmemLast hstartLast
        fun name hstart hmem => (hleft name hstart hmem).1
      have hfewest : (ahead before s₂ m.bucket pre after).card ≤
          (ahead before s m.bucket pre after).card :=
        Finset.card_le_card (ahead_subset hs₁ hm hpre)
      rw [hgetLast]
      refine among_mono ?_ (ih (saturatingAdd affected names.length) hbehindLast)
      intro r s₅ hend
      cases r with
      | error e => trivial
      | ok r => exact ⟨fun hrounds => hend.returns (by omega), hend.gone⟩

end Loop

/-! ## Whole calls -/

/-- The rounds are more than the subject has objects. -/
def Enough (before : String → String → Bool) (c : SupabaseConnector) (subject : SubjectIdentity)
    (resource : String) (rounds : ℕ) (s : Project) : Prop :=
  ∀ m, (c.storageForResource resource).result = .ok m → ∀ pre, m.subjectPrefix subject = .ok pre →
    (ahead before s m.bucket pre "").card < rounds

theorem Enough.kept {resource : String} {rounds : ℕ}
    (h : Enough before c subject resource rounds s) (hkeeps : KeepsOut c subject s s') :
    Enough before c subject resource rounds s' := by
  intro m hm pre hpre
  have hsubset : ahead before s' m.bucket pre "" ⊆ ahead before s m.bucket pre "" :=
    ahead_subset hkeeps (mem_storage hm) hpre
  exact (Finset.card_le_card hsubset).trans_lt (h m hm pre hpre)

theorem subjectPrefix_ne_nil {m : StorageMapping} {pre : List Char}
    (htemplate : validPrefixTemplate m.templatePrefix = true)
    (hpre : m.subjectPrefix subject = .ok pre) : pre ≠ [] := by
  cases huser : nonEmpty subject.applicationUserId with
  | none =>
    unfold StorageMapping.subjectPrefix stableUserId at hpre
    rw [huser] at hpre
    cases hpre
  | some user =>
    obtain rfl := Except.ok.inj ((subjectPrefix_ok htemplate huser).symm.trans hpre)
    have hne : user ≠ "" := of_decide_eq_true (Option.filter_eq_some_iff.mp huser).2
    intro hnil
    obtain ⟨hnil, -⟩ := List.append_eq_nil_iff.mp hnil
    exact hne (String.toList_eq_nil_iff.mp (List.append_eq_nil_iff.mp hnil).2)

theorem behind_empty {bucket : String} {pre : List Char}
    (hleast : ∀ name, name ≠ "" → before "" name = true) (hpre : pre ≠ []) :
    Behind before s bucket pre "" := by
  intro name hstart _
  apply hleast
  rintro rfl
  exact hpre (List.prefix_nil.mp hstart)

end Erase

section Calls

variable {m : ValidatedSupabaseMapping} {api : Option SupabaseApi}
  {before : String → String → Bool} {subject : SubjectIdentity} {s : Project}

theorem among_eraseStorage (hsound : m.Sound) (order : StrictTotal before)
    (hleast : ∀ name, name ≠ "" → before "" name = true) (plan : ErasePlan) (rounds : ℕ) :
    AmongClients before (m.connector api) subject
      ((m.connector api).eraseStorageAwait subject plan rounds).run
      (Returns fun r s' =>
        (Enough before (m.connector api) subject plan.resource rounds s → r.isSome = true) ∧
        (r.isSome = true → ∀ storage,
          ((m.connector api).storageForResource plan.resource).result = .ok storage → ∀ pre,
          storage.subjectPrefix subject = .ok pre →
          ∀ name : String, pre <+: name.toList → ⟨storage.bucket, name⟩ ∉ s'.objects)) s := by
  refine among_check fun storage hstorage => among_check fun _ _ => among_check fun pre hpre => ?_
  have hmem := mem_storage hstorage
  have hne := subjectPrefix_ne_nil (hsound.templates storage hmem) hpre
  refine among_mono ?_ (among_eraseBucket order hmem hpre rounds 0 (behind_empty hleast hne))
  intro r s₁ hend
  cases r with
  | error e => trivial
  | ok r =>
    refine ⟨fun henough => hend.returns (henough storage hstorage pre hpre), ?_⟩
    intro hsome storage' hstorage' pre' hpre'
    obtain rfl := Except.ok.inj (hstorage.symm.trans hstorage')
    obtain rfl := Except.ok.inj (hpre.symm.trans hpre')
    exact hend.gone hsome

/-- What is reported as erased is clean, and something is reported where there were enough
    rounds. -/
theorem among_eraseSubject (hsound : m.Sound) (order : StrictTotal before)
    (hleast : ∀ name, name ≠ "" → before "" name = true) (plan : ErasePlan)
    (context : ExecutionContext) (rounds : ℕ) :
    AmongClients before (m.connector api) subject
      ((m.connector api).eraseSubjectAwait subject plan context rounds).run
      (Returns fun r s' =>
        (Enough before (m.connector api) subject plan.resource rounds s → r.isSome = true) ∧
        (r.isSome = true → Clean (m.connector api) subject plan.resource s')) s := by
  unfold SupabaseConnector.eraseSubjectAwait
  refine among_check fun _ _ => ?_
  by_cases huser : plan.resource = "supabase:auth:user"
  · rw [if_pos huser]
    refine among_part among_eraseAuthUser fun _ s₁ habsent => ?_
    have hclean : Clean (m.connector api) subject plan.resource s₁ := by
      rw [Clean, if_pos huser]
      exact habsent
    exact among_return fun s₂ hs₂ => ⟨fun _ => rfl, fun _ => hclean.kept hs₂⟩
  rw [if_neg huser]
  by_cases hstored : "supabase:storage:".toList.isPrefixOf plan.resource.toList = true
  · rw [if_pos hstored]
    refine among_mono ?_ (among_eraseStorage hsound order hleast plan rounds)
    intro r s₁ hend
    cases r with
    | error e => trivial
    | ok r =>
      refine ⟨hend.1, fun hsome => ?_⟩
      rw [Clean, if_neg huser, if_pos hstored]
      exact hend.2 hsome
  · rw [if_neg hstored]
    refine among_part (among_eraseTable hsound.tables) fun _ s₁ hlacks => ?_
    have hclean : Clean (m.connector api) subject plan.resource s₁ := by
      rw [Clean, if_neg huser, if_neg hstored]
      exact hlacks
    exact among_return fun s₂ hs₂ => ⟨fun _ => rfl, fun _ => hclean.kept hs₂⟩

end Calls

section Verify

variable {c : SupabaseConnector} {before : String → String → Bool} {subject : SubjectIdentity}
  {expectation : VerificationExpectation} {s : Project}

theorem among_verifyTable
    (hlacks : ∀ s₁, KeepsOut c subject s s₁ → ∀ t,
      (c.tableForResource expectation.resource).result = .ok t → ∀ value,
      (t.subjectValue subject).result = .ok value → s₁.database.Lacks t value) :
    AmongClients before c subject (c.verifyTableAwait subject expectation).run
      (Returns fun r _ => r = verificationResult 0) s := by
  refine among_check fun t ht => among_check fun _ _ => among_check fun value hvalue => ?_
  refine among_ask fun s₁ counted s₂ hs₁ hanswer => among_check fun remaining hremaining => ?_
  obtain rfl := okOr_ok.mp hremaining
  have hcount := (hanswer.2.resolve_left (Option.some_ne_none remaining)).symm
  have hzero := hlacks s₁ hs₁ t ht value hvalue remaining hcount
  exact among_return fun _ _ => by rw [hzero]

theorem among_verifyStorage
    (habsent : ∀ s₁, KeepsOut c subject s s₁ → ∀ m,
      (c.storageForResource expectation.resource).result = .ok m → ∀ pre,
      m.subjectPrefix subject = .ok pre →
      ∀ name : String, pre <+: name.toList → ⟨m.bucket, name⟩ ∉ s₁.objects) :
    AmongClients before c subject (c.verifyStorageAwait subject expectation).run
      (Returns fun r _ => r = verificationResult 0) s := by
  refine among_check fun _ _ => among_check fun m hm => among_check fun pre hpre => ?_
  refine among_ask fun s₁ counted s₂ hs₁ hanswer => among_check fun remaining hremaining => ?_
  obtain rfl := okOr_ok.mp hremaining
  have hcount := (hanswer.2.resolve_left (Option.some_ne_none remaining)).symm
  obtain ⟨names, hnames, rfl⟩ := Option.map_eq_some_iff.mp hcount
  have hnil : names = [] := by
    rw [List.eq_nil_iff_forall_not_mem]
    intro name hname
    obtain ⟨hmem, hstart⟩ := (mem_selectObjects hnames).mp hname
    exact habsent s₁ hs₁ m hm pre hpre name hstart hmem
  exact among_return fun _ _ => by rw [hnil]; rfl

theorem among_verifyAuthUser
    (habsent : ∀ s₁, KeepsOut c subject s s₁ → ∀ userId,
      (stableUserId subject).result = .ok userId → userId ∉ s₁.users) :
    AmongClients before c subject (c.verifyAuthUserAwait subject expectation).run
      (Returns fun r _ => r = verificationResult 0) s := by
  refine among_check fun _ _ => among_check fun userId hid => among_check fun _ _ => ?_
  refine among_ask fun s₁ answered s₂ hs₁ hanswer => among_check fun status hstatus => ?_
  obtain rfl := okOr_ok.mp hstatus
  refine among_last fun r hr _ _ => ?_
  have hnot : ¬ isSuccess status = true :=
    fun hsuccess => habsent s₁ hs₁ userId hid (hanswer.2.1 hsuccess)
  split_ifs at hr
  exact (pure_ok.mp hr).symm

/-- A verification of what is clean counts nothing. -/
theorem among_verifySubject (hclean : Clean c subject expectation.resource s) :
    AmongClients before c subject (c.verifySubjectAwait subject expectation).run
      (Returns fun r _ => r = verificationResult 0) s := by
  have hkept : ∀ s₁, KeepsOut c subject s s₁ → Clean c subject expectation.resource s₁ :=
    fun s₁ hs₁ => hclean.kept hs₁
  unfold SupabaseConnector.verifySubjectAwait
  unfold Clean at hkept
  split_ifs at hkept ⊢
  · exact among_verifyAuthUser hkept
  · exact among_verifyStorage hkept
  · exact among_verifyTable hkept

end Verify

/-! ## Any number of calls -/

/-- What a call came back with. -/
inductive Reported where
  | erased (subject : SubjectIdentity) (plan : ErasePlan)
      (r : Except ConnectorError (Option EraseResult))
  | verified (subject : SubjectIdentity) (expectation : VerificationExpectation)
      (r : Except ConnectorError VerificationResult)
  | others

abbrev Call := Prog RemoteCall RemoteCall.Answer Reported

section Pools

variable (c : SupabaseConnector)

def eraseCall (subject : SubjectIdentity) (plan : ErasePlan) (context : ExecutionContext)
    (rounds : ℕ) : Call :=
  Reported.erased subject plan <$> (c.eraseSubjectAwait subject plan context rounds).run

def verifyCall (subject : SubjectIdentity) (expectation : VerificationExpectation) : Call :=
  Reported.verified subject expectation <$> (c.verifySubjectAwait subject expectation).run

def othersCall : Call := (fun _ => Reported.others) <$> Prog.effect RemoteCall.others

/-- Erases of any subject, and the activity of others. -/
def Erasing (call : Call) : Prop :=
  call = othersCall ∨ ∃ subject plan context rounds, call = eraseCall c subject plan context rounds

/-- Erases that go through more rounds than this subject has objects. -/
def ErasingEnough (before : String → String → Bool) (subject : SubjectIdentity) (s : Project)
    (call : Call) : Prop :=
  call = othersCall ∨ ∃ subject' plan context rounds,
    call = eraseCall c subject' plan context rounds ∧
      (subject' = subject → Enough before c subject plan.resource rounds s)

/-- Verifications beside them. -/
def ErasingOrVerifying (call : Call) : Prop :=
  Erasing c call ∨ ∃ subject expectation, call = verifyCall c subject expectation

/-- One step of any of the calls, where the others add nothing of the subject. -/
abbrev ProjectStep (before : String → String → Bool) (subject : SubjectIdentity)
    (starts : Call → Prop) :=
  PoolStep (α := Reported) (fun _ => Project.environment before (KeepsOut c subject)) starts

end Pools

section Runs

variable {m : ValidatedSupabaseMapping} {api : Option SupabaseApi}
  {before : String → String → Bool} {subject subject' : SubjectIdentity} {s : Project}

theorem among_eraseCall (hsound : m.Sound) (order : StrictTotal before)
    (hleast : ∀ name, name ≠ "" → before "" name = true) (plan : ErasePlan)
    (context : ExecutionContext) (rounds : ℕ) :
    AmongClients before (m.connector api) subject
      (eraseCall (m.connector api) subject' plan context rounds)
      (fun a s' => ∃ r, a = .erased subject' plan r ∧ (subject' = subject →
        (Enough before (m.connector api) subject plan.resource rounds s → r ≠ .ok none) ∧
        ∀ result, r = .ok (some result) → Clean (m.connector api) subject plan.resource s')) s := by
  by_cases hsame : subject' = subject
  · subst hsame
    refine among_map (fun _ => KeepsOut.refl) (among_mono ?_
      (among_eraseSubject hsound order hleast plan context rounds))
    intro r s₁ hend s₂ hs₂
    refine ⟨r, rfl, fun _ => ⟨?_, ?_⟩⟩
    · rintro henough rfl
      exact absurd (hend.1 henough) (by decide)
    · rintro result rfl
      exact (hend.2 rfl).kept hs₂
  · refine among_map (fun _ => KeepsOut.refl) (among_mono ?_ (among_any _))
    exact fun r s₁ _ s₂ _ => ⟨r, rfl, fun h => absurd h hsame⟩

theorem among_verifyCall {c : SupabaseConnector} {resource : String}
    (hclean : Clean c subject resource s) (expectation : VerificationExpectation) :
    AmongClients before c subject (verifyCall c subject' expectation)
      (fun a _ => ∃ r, a = .verified subject' expectation r ∧ (subject' = subject →
        expectation.resource = resource →
          r = .ok (verificationResult 0) ∨ ∃ e, r = .error e)) s := by
  by_cases hsame : subject' = subject ∧ expectation.resource = resource
  · obtain ⟨rfl, rfl⟩ := hsame
    refine among_map (fun _ => KeepsOut.refl) (among_mono ?_ (among_verifySubject hclean))
    intro r s₁ hend s₂ _
    refine ⟨r, rfl, fun _ _ => ?_⟩
    cases r with
    | ok result => exact .inl (congrArg Except.ok hend)
    | error e => exact .inr ⟨e, rfl⟩
  · refine among_map (fun _ => KeepsOut.refl) (among_mono ?_ (among_any _))
    exact fun r s₁ _ s₂ _ => ⟨r, rfl, fun h h' => absurd ⟨h, h'⟩ hsame⟩

theorem among_othersCall {c : SupabaseConnector} :
    AmongClients before c subject othersCall (fun a _ => a = .others) s :=
  among_map (fun _ => KeepsOut.refl) (among_mono (fun _ _ _ _ _ => rfl) (among_any _))

/-- What was reported as erased is clean. -/
def Reported.Kept (c : SupabaseConnector) (subject : SubjectIdentity) (a : Reported)
    (s : Project) : Prop :=
  ∀ plan result, a = .erased subject plan (.ok (some result)) → Clean c subject plan.resource s

/-- What was verified of the resource is satisfied, or the verification failed. -/
def Reported.Satisfied (subject : SubjectIdentity) (resource : String) (a : Reported) : Prop :=
  ∀ expectation r, a = .verified subject expectation r → expectation.resource = resource →
    r = .ok (verificationResult 0) ∨ ∃ e, r = .error e

theorem Reported.Kept.kept {c : SupabaseConnector} {a : Reported} {s' : Project}
    (h : a.Kept c subject s) (hkeeps : KeepsOut c subject s s') : a.Kept c subject s' :=
  fun plan result ha => (h plan result ha).kept hkeeps

/-- An erase reports nothing of a verification, and the others report nothing. -/
theorem among_erasing (hsound : m.Sound) (order : StrictTotal before)
    (hleast : ∀ name, name ≠ "" → before "" name = true) {call : Call}
    (hcall : Erasing (m.connector api) call) :
    AmongClients before (m.connector api) subject call
      (fun a s' => a.Kept (m.connector api) subject s' ∧ ∀ expectation r,
        a ≠ .verified subject expectation r) s := by
  obtain rfl | ⟨subject', plan, context, rounds, rfl⟩ := hcall
  · refine among_mono ?_ among_othersCall
    rintro _ s₁ rfl
    constructor
    · intro plan result ha
      cases ha
    · intro expectation r ha
      cases ha
  · refine among_mono ?_ (among_eraseCall hsound order hleast plan context rounds)
    rintro _ s₁ ⟨r, rfl, hend⟩
    constructor
    · intro plan' result ha
      cases ha
      exact (hend rfl).2 result rfl
    · intro expectation r ha
      cases ha

/-- **Erased for good.** Among any number of erases of any subjects, and others that add nothing of
    this one, all of them killed anywhere: what is reported as erased is gone and stays gone, and a
    verification of it that begins later is satisfied or fails. -/
theorem erased_stays_erased {mapping : SupabaseMapping} (hvalid : mapping.validate = .ok m)
    (order : StrictTotal before) (hleast : ∀ name, name ≠ "" → before "" name = true)
    {p q : Pool RemoteCall RemoteCall.Answer Reported Project}
    (hp : Relation.ReflTransGen (ProjectStep (m.connector api) before subject
      (Erasing (m.connector api))) (.initial s) p)
    {plan : ErasePlan} {result : EraseResult}
    (hreported : .erased subject plan (.ok (some result)) ∈ p.returned)
    (hq : Relation.ReflTransGen (ProjectStep (m.connector api) before subject
      (ErasingOrVerifying (m.connector api))) p q) :
    Clean (m.connector api) subject plan.resource q.state ∧
      ∀ expectation r, .verified subject expectation r ∈ q.returned →
        expectation.resource = plan.resource →
        r = .ok ⟨true, 0, none⟩ ∨ ∃ e, r = .error e := by
  have hsound := SupabaseMapping.validate_sound hvalid
  have herased := pool_rule (fun _ _ => KeepsOut.refl) (fun _ _ _ _ => KeepsOut.trans)
    (fun _ _ _ _ _ h => h) (fun _ _ _ _ hkeeps h => ⟨h.1.kept hkeeps, h.2⟩)
    (fun _ _ _ hcall => among_erasing hsound order hleast hcall) hp
  have hclean : Clean (m.connector api) subject plan.resource p.state :=
    (herased.returned _ hreported).1 plan result rfl
  have hkept : ∀ (i : ℕ) (s s' : Project), KeepsOut (m.connector api) subject s s' →
      Clean (m.connector api) subject plan.resource s →
      Clean (m.connector api) subject plan.resource s' := fun _ _ _ hkeeps h => h.kept hkeeps
  have hverified := pool_keeps (Q := fun a _ => a.Satisfied subject plan.resource)
    (fun _ _ => KeepsOut.refl) (fun _ _ _ _ => KeepsOut.trans) (fun _ _ _ _ _ h => h) hkept
    (fun _ _ _ _ _ h => h) ?_ (herased.mono ?_) hclean hq
  · refine ⟨hverified.2, fun expectation r hr hresource => ?_⟩
    exact hverified.1.returned _ hr expectation r rfl hresource
  · rintro _ call s₁ (hcall | ⟨subject', expectation, rfl⟩) hclean
    · refine among_mono ?_ (among_erasing hsound order hleast hcall)
      exact fun a _ ha expectation r heq => absurd heq (ha.2 expectation r)
    · refine among_mono ?_ (among_verifyCall hclean expectation)
      rintro _ s₂ ⟨r, rfl, hend⟩ expectation' r' heq hresource
      cases heq
      exact hend rfl hresource
  · exact fun a _ ha expectation r heq => absurd heq (ha.2 expectation r)

/-- **The erase of a bucket ends.** Where the erases of the subject go through more rounds than it
    has objects at the beginning, none of them runs out of rounds, whatever others delete, and
    whatever they upload that is not the subject's. -/
theorem erasure_ends {mapping : SupabaseMapping} (hvalid : mapping.validate = .ok m)
    (order : StrictTotal before) (hleast : ∀ name, name ≠ "" → before "" name = true)
    {p : Pool RemoteCall RemoteCall.Answer Reported Project}
    (hp : Relation.ReflTransGen (ProjectStep (m.connector api) before subject
      (ErasingEnough (m.connector api) before subject s)) (.initial s) p)
    (plan : ErasePlan) : .erased subject plan (.ok none) ∉ p.returned := by
  have hsound := SupabaseMapping.validate_sound hvalid
  have hends := pool_keeps (I := KeepsOut (m.connector api) subject s)
    (Q := fun (a : Reported) _ => ∀ plan, a ≠ .erased subject plan (.ok none))
    (fun _ _ => KeepsOut.refl) (fun _ _ _ _ => KeepsOut.trans) (fun _ _ _ _ _ h => h)
    (fun _ _ _ hkeeps h => h.trans hkeeps) (fun _ _ _ _ _ h => h) ?_ (Pool.holds_initial s)
    KeepsOut.refl hp
  · exact fun hmem => hends.1.returned _ hmem plan rfl
  · rintro _ call s₁ (rfl | ⟨subject', plan', context, rounds, rfl, henough⟩) hkeeps
    · refine among_mono ?_ among_othersCall
      rintro _ s₂ rfl plan heq
      cases heq
    · refine among_mono ?_ (among_eraseCall hsound order hleast plan' context rounds)
      rintro _ s₂ ⟨r, rfl, hend⟩ plan heq
      cases heq
      exact (hend rfl).1 ((henough rfl).kept hkeeps) rfl

end Runs

/-! ## One upload -/

section OneUpload

theorem run_check {α : Type} {env : Env RemoteCall RemoteCall.Answer Project} {s : Project}
    {x : Except ConnectorError α} {a : α} (h : x = .ok a) :
    Run env (check x).run s (some (.ok a)) s := by
  rw [h]
  exact .pure

theorem run_ask {env : Env RemoteCall RemoteCall.Answer Project} {s s' : Project}
    {call : RemoteCall} {r : call.Answer} (h : env s call r s') :
    Run env (ask call).run s (some (.ok r)) s' := .perform h .pure

def uploadsConnector : SupabaseConnector :=
  (validatedUploads "users/{user_id}/").connector (some ⟨fun _ => some "https://project"⟩)

def uploadedProject : Project := ⟨fun _ => none, [⟨"user-uploads", "users/1/a.png"⟩], []⟩

def noUpload : Project := ⟨fun _ => none, [], []⟩

def uploadsPlan : ErasePlan := ⟨"supabase:storage:user-uploads", "op-1", .delete⟩

def uploadsContext : ExecutionContext := ⟨"req-1", "att-1", "step-1", "key-1", false⟩

def uploadErased : EraseResult := ⟨"op-1", .deleted, 1, none⟩

def uploadsExpectation : VerificationExpectation := ⟨"supabase:storage:user-uploads", .deleted⟩

section Others

variable (others : Project → Project → Prop)

theorem run_eraseUpload :
    Run (Project.environment byCharacters others)
      (eraseCall uploadsConnector (subjectOf "1") uploadsPlan uploadsContext 2) uploadedProject
      (some (.erased (subjectOf "1") uploadsPlan (.ok (some uploadErased)))) noUpload := by
  have hpage : pageObjects byCharacters uploadedProject.objects "user-uploads" "users/1/".toList ""
      storageDeleteBatch = some ["users/1/a.png"] := by decide +kernel
  have hlist : Run (Project.environment byCharacters others)
      (ask (.listObjects "user-uploads" "users/1/".toList "")).run uploadedProject
      (some (.ok (some ["users/1/a.png"]))) uploadedProject := run_ask ⟨rfl, .inr hpage.symm⟩
  have hdelete : Run (Project.environment byCharacters others)
      (ask (.deleteObjects "user-uploads" ["users/1/a.png"])).run uploadedProject
      (some (.ok (some 200))) noUpload := run_ask (.inl ⟨rfl, rfl⟩)
  refine Run.map (a := Except.ok (some uploadErased)) ?_
  unfold SupabaseConnector.eraseSubjectAwait
  refine Run.andThen (run_check (a := ()) (by decide +kernel)) ?_
  rw [if_neg (by decide), if_pos (by decide)]
  unfold SupabaseConnector.eraseStorageAwait
  refine Run.andThen (run_check (a := ⟨"user-uploads", "users/{user_id}/"⟩) rfl) ?_
  refine Run.andThen (run_check (a := ()) rfl) ?_
  refine Run.andThen (run_check (a := "users/1/".toList) (by decide +kernel)) ?_
  unfold SupabaseConnector.eraseBucketAwait
  refine Run.andThen hlist ?_
  refine Run.andThen (run_check (a := ["users/1/a.png"]) rfl) ?_
  rw [if_neg (by decide)]
  refine Run.andThen (run_check (a := "https://project") rfl) ?_
  refine Run.andThen hdelete ?_
  refine Run.andThen (run_check (a := 200) rfl) ?_
  refine Run.andThen (run_check (a := ()) rfl) ?_
  exact .pure

theorem run_verifyUpload :
    Run (Project.environment byCharacters others)
      (verifyCall uploadsConnector (subjectOf "1") uploadsExpectation) noUpload
      (some (.verified (subjectOf "1") uploadsExpectation (.ok ⟨true, 0, none⟩))) noUpload := by
  have hselect : selectObjects noUpload.objects "user-uploads" "users/1/".toList = some [] := by
    decide
  have hcount : Run (Project.environment byCharacters others)
      (ask (.countObjects "user-uploads" "users/1/".toList)).run noUpload
      (some (.ok (some 0))) noUpload := run_ask ⟨rfl, .inr (by rw [hselect]; rfl)⟩
  refine Run.map (a := Except.ok (VerificationResult.mk true 0 none)) ?_
  unfold SupabaseConnector.verifySubjectAwait
  rw [if_neg (by decide), if_pos (by decide)]
  unfold SupabaseConnector.verifyStorageAwait
  refine Run.andThen (run_check (a := ()) rfl) ?_
  refine Run.andThen (run_check (a := ⟨"user-uploads", "users/{user_id}/"⟩) rfl) ?_
  refine Run.andThen (run_check (a := "users/1/".toList) (by decide +kernel)) ?_
  refine Run.andThen hcount ?_
  refine Run.andThen (run_check (a := 0) rfl) ?_
  exact .pure

end Others

/-- The upload is erased, and the verification that comes after it is satisfied. -/
theorem erased_stays_erased_upload :
    ∃ p q, Relation.ReflTransGen (ProjectStep uploadsConnector byCharacters (subjectOf "1")
        (Erasing uploadsConnector)) (.initial uploadedProject) p ∧
      Relation.ReflTransGen (ProjectStep uploadsConnector byCharacters (subjectOf "1")
        (ErasingOrVerifying uploadsConnector)) p q ∧
      q.returned = [.verified (subjectOf "1") uploadsExpectation (.ok ⟨true, 0, none⟩),
        .erased (subjectOf "1") uploadsPlan (.ok (some uploadErased))] ∧
      Clean uploadsConnector (subjectOf "1") "supabase:storage:user-uploads" q.state ∧
      ∀ expectation r, .verified (subjectOf "1") expectation r ∈ q.returned →
        expectation.resource = "supabase:storage:user-uploads" →
        r = .ok ⟨true, 0, none⟩ ∨ ∃ e, r = .error e := by
  have hp : Relation.ReflTransGen (ProjectStep uploadsConnector byCharacters (subjectOf "1")
      (Erasing uploadsConnector)) (.initial uploadedProject)
      ⟨noUpload, fun _ => none,
        [.erased (subjectOf "1") uploadsPlan (.ok (some uploadErased))]⟩ :=
    pool_call (i := 0) (run_eraseUpload _) (.inr ⟨_, _, _, _, rfl⟩)
  have hq : Relation.ReflTransGen (ProjectStep uploadsConnector byCharacters (subjectOf "1")
      (ErasingOrVerifying uploadsConnector))
      ⟨noUpload, fun _ => none, [.erased (subjectOf "1") uploadsPlan (.ok (some uploadErased))]⟩
      ⟨noUpload, fun _ => none,
        [.verified (subjectOf "1") uploadsExpectation (.ok ⟨true, 0, none⟩),
          .erased (subjectOf "1") uploadsPlan (.ok (some uploadErased))]⟩ :=
    pool_call (i := 0) (run_verifyUpload _) (.inr ⟨_, _, rfl⟩)
  have hvalid : (userUploads "users/{user_id}/").validate =
      .ok (validatedUploads "users/{user_id}/") := by rfl
  exact ⟨_, _, hp, hq, rfl, erased_stays_erased hvalid byCharacters_strictTotal
    byCharacters_empty hp List.mem_cons_self hq⟩

theorem enough_uploadedProject :
    Enough byCharacters uploadsConnector (subjectOf "1") uploadsPlan.resource 2 uploadedProject := by
  intro storage hstorage pre hpre
  refine Nat.lt_succ_of_le ((List.toFinset_card_le _).trans ?_)
  rw [List.length_map]
  exact List.length_filter_le _ _

/-- Two rounds are enough for one object. -/
theorem erasure_ends_upload :
    ∃ p, Relation.ReflTransGen (ProjectStep uploadsConnector byCharacters (subjectOf "1")
        (ErasingEnough uploadsConnector byCharacters (subjectOf "1") uploadedProject))
        (.initial uploadedProject) p ∧
      p.returned = [.erased (subjectOf "1") uploadsPlan (.ok (some uploadErased))] ∧
      .erased (subjectOf "1") uploadsPlan (.ok none) ∉ p.returned := by
  have hp : Relation.ReflTransGen (ProjectStep uploadsConnector byCharacters (subjectOf "1")
      (ErasingEnough uploadsConnector byCharacters (subjectOf "1") uploadedProject)) (.initial uploadedProject)
      ⟨noUpload, fun _ => none,
        [.erased (subjectOf "1") uploadsPlan (.ok (some uploadErased))]⟩ :=
    pool_call (i := 0) (run_eraseUpload _)
      (.inr ⟨_, _, uploadsContext, 2, rfl, fun _ => enough_uploadedProject⟩)
  have hvalid : (userUploads "users/{user_id}/").validate =
      .ok (validatedUploads "users/{user_id}/") := by rfl
  exact ⟨_, hp, rfl, erasure_ends hvalid byCharacters_strictTotal byCharacters_empty hp _⟩

end OneUpload

end ForgetOps.Connector
