import ForgetOps.Supabase.ExportSubject

/-
  The paths of an export (`agent/crates/connector-supabase/src/export.rs`).

  A path is told apart by its parts between the slashes: `exportPath_inj`, `objectPath_inj` and the
  lemmas about paths of different kinds. It takes a validated mapping, whose identifiers and buckets
  have no slash.
-/

namespace ForgetOps.Connector

open Guards

/-! ## Parts -/

/-- These are the parts of the path. -/
def Parts (path : String) (parts : List String) : Prop :=
  path.toList = ['/'].intercalate (parts.map String.toList) ∧ ∀ part ∈ parts, '/' ∉ part.toList

theorem Parts.unique {path : String} {parts parts' : List String} (h : Parts path parts)
    (h' : Parts path parts') (hne : parts ≠ []) (hne' : parts' ≠ []) : parts = parts' := by
  have hsplit : ∀ {list : List String}, Parts path list → list ≠ [] →
      path.toList.splitOn '/' = list.map String.toList := by
    rintro list ⟨htext, hplain⟩ hlist
    rw [htext]
    refine List.splitOn_intercalate '/' (fun text hmem => ?_) (by simpa using hlist)
    obtain ⟨part, hpart, rfl⟩ := List.mem_map.mp hmem
    exact hplain part hpart
  have hsame := (hsplit h hne).symm.trans (hsplit h' hne')
  exact List.map_injective_iff.mpr (fun _ _ h => String.toList_inj.mp h) hsame

theorem Parts.ne {path path' : String} {parts parts' : List String} (h : Parts path parts)
    (h' : Parts path' parts') (hne : parts ≠ []) (hne' : parts' ≠ []) (hparts : parts ≠ parts') :
    path ≠ path' := by
  rintro rfl
  exact hparts (h.unique h' hne hne')

/-! ## The paths -/

/-- The parts of the path of a table. -/
def TableMapping.exportParts (t : TableMapping) : List String :=
  if t.schema = "public" then ["supabase", t.table, "records.json"]
  else ["supabase", t.schema, t.table, "records.json"]

def objectParts (bucket : String) (index : Nat) : List String :=
  ["supabase", "storage", bucket, "files", fileNumber index ++ ".bin"]

theorem slash_notMem_of_validIdentifier {value : String} (h : validIdentifier value = true) :
    '/' ∉ value.toList := by
  unfold validIdentifier at h
  rw [decide_eq_true_eq] at h
  intro hmem
  have hchar := List.all_eq_true.mp h.2.2 '/' hmem
  exact absurd hchar (by decide)

theorem TableMapping.Valid.parts {t : TableMapping} (ht : t.Valid) :
    Parts t.exportPath t.exportParts := by
  have htable := slash_notMem_of_validIdentifier ht.table
  have hschema := slash_notMem_of_validIdentifier ht.schema
  unfold TableMapping.exportPath TableMapping.exportParts
  split_ifs
  · refine ⟨by simp [String.toList_append], ?_⟩
    simp only [List.mem_cons, List.not_mem_nil, or_false, forall_eq_or_imp, forall_eq]
    exact ⟨by decide, htable, by decide⟩
  · refine ⟨by simp [String.toList_append], ?_⟩
    simp only [List.mem_cons, List.not_mem_nil, or_false, forall_eq_or_imp, forall_eq]
    exact ⟨by decide, hschema, htable, by decide⟩

theorem isDigit_fileNumber {index : Nat} {c : Char} (hc : c ∈ (fileNumber index).toList) :
    c.isDigit = true := by
  rw [fileNumber, String.toList_ofList, List.leftpad, List.mem_append] at hc
  rcases hc with hc | hc
  · rw [(List.mem_replicate.mp hc).2]
    decide
  · exact Nat.isDigit_of_mem_toDigits (by decide) (by decide) hc

theorem fileNumber_injective : Function.Injective fileNumber := by
  intro index index' h
  have hvalue : ∀ n : Nat, Nat.ofDigitChars 10 (fileNumber n).toList 0 = n := by
    intro n
    rw [fileNumber, String.toList_ofList, List.leftpad, Nat.ofDigitChars_append,
      Nat.ofDigitChars_replicate_zero, Nat.mul_zero, Nat.ofDigitChars_ten_toDigits]
  rw [← hvalue index, ← hvalue index', h]

theorem parts_objectPath {bucket : String} (hbucket : '/' ∉ bucket.toList) (index : Nat) :
    Parts (objectPath bucket index) (objectParts bucket index) := by
  unfold objectPath objectParts
  refine ⟨by simp [String.toList_append], ?_⟩
  simp only [List.mem_cons, List.not_mem_nil, or_false, forall_eq_or_imp, forall_eq]
  refine ⟨by decide, by decide, hbucket, by decide, ?_⟩
  rw [String.toList_append, List.mem_append]
  rintro (hmem | hmem)
  · exact absurd (isDigit_fileNumber hmem) (by decide)
  · exact absurd hmem (by decide)

theorem parts_authUserPath : Parts authUserPath ["supabase", "auth", "user.json"] := by
  unfold Parts
  decide

/-! ## They are apart -/

section Apart

variable {t t' : TableMapping} {bucket bucket' : String} {index index' : Nat}

theorem exportPath_inj (ht : t.Valid) (ht' : t'.Valid) (h : t.exportPath = t'.exportPath) :
    t.table = t'.table := by
  have hparts : t.exportParts = t'.exportParts := by
    refine ht.parts.unique (h ▸ ht'.parts) ?_ ?_ <;> unfold TableMapping.exportParts <;>
      split_ifs <;> exact List.cons_ne_nil _ _
  unfold TableMapping.exportParts at hparts
  split_ifs at hparts
  · simpa using hparts
  · simp at hparts
  · simp at hparts
  · simp only [List.cons.injEq, and_true, true_and] at hparts
    exact hparts.2

theorem objectPath_inj (hbucket : '/' ∉ bucket.toList) (hbucket' : '/' ∉ bucket'.toList)
    (h : objectPath bucket index = objectPath bucket' index') :
    bucket = bucket' ∧ index = index' := by
  have hparts := (parts_objectPath hbucket index).unique (h ▸ parts_objectPath hbucket' index')
    (List.cons_ne_nil _ _) (List.cons_ne_nil _ _)
  simp only [objectParts, List.cons.injEq, and_true, true_and] at hparts
  refine ⟨hparts.1, fileNumber_injective ?_⟩
  have hlist := congrArg String.toList hparts.2
  rw [String.toList_append, String.toList_append, List.append_cancel_right_eq] at hlist
  exact String.toList_inj.mp hlist

theorem exportPath_ne_objectPath (ht : t.Valid) (hbucket : '/' ∉ bucket.toList) :
    t.exportPath ≠ objectPath bucket index := by
  refine ht.parts.ne (parts_objectPath hbucket index) ?_ (List.cons_ne_nil _ _) ?_ <;>
    unfold TableMapping.exportParts <;> split_ifs <;> simp [objectParts]

theorem exportPath_ne_authUserPath (ht : t.Valid) : t.exportPath ≠ authUserPath := by
  refine ht.parts.ne parts_authUserPath ?_ (List.cons_ne_nil _ _) ?_ <;>
    unfold TableMapping.exportParts <;> split_ifs <;> simp

theorem objectPath_ne_authUserPath (hbucket : '/' ∉ bucket.toList) :
    objectPath bucket index ≠ authUserPath :=
  (parts_objectPath hbucket index).ne parts_authUserPath (List.cons_ne_nil _ _)
    (List.cons_ne_nil _ _) (by simp [objectParts])

end Apart

/-- The buckets of a validated mapping have no slash. -/
theorem SupabaseMapping.validate_buckets {mapping : SupabaseMapping}
    {m : ValidatedSupabaseMapping} (h : mapping.validate = .ok m) :
    ∀ s ∈ m.storage, '/' ∉ s.bucket.toList := by
  obtain ⟨-, h⟩ := refuse_bind_ok.mp h
  obtain ⟨tables, -, h⟩ := bind_ok.mp h
  obtain ⟨storage, hstorage, h⟩ := bind_ok.mp h
  obtain ⟨functions, -, h⟩ := bind_ok.mp h
  obtain rfl := pure_ok.mp h
  have hvalid : ∀ entry s, validateStorage entry = .ok s →
      s.bucket = entry.1 ∧ '/' ∉ s.bucket.toList := by
    rintro ⟨bucket, input⟩ s hentry
    obtain ⟨_, hbucket, hentry⟩ := bind_ok.mp hentry
    obtain ⟨-, hentry⟩ := refuse_bind_ok.mp hentry
    obtain rfl := pure_ok.mp hentry
    refine ⟨rfl, fun hmem => ?_⟩
    unfold validateBucket at hbucket
    rw [refuse_ok, not_or, not_or, not_not] at hbucket
    exact absurd (List.all_eq_true.mp hbucket.2.2 '/' hmem) (by decide)
  exact (forall_of_mapM hvalid hstorage).2

end ForgetOps.Connector
