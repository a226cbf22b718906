import ForgetOps.Agent.Subject
import ForgetOps.Supabase.Tables

/-
  Two subjects of one canonical identity, of which the binding cancels one as a duplicate.

  A table selects their rows by the identifiers as they came, trimmed, while the identity passes
  over the address of a user and over the case of every address: `sameData_iff`.
-/

namespace ForgetOps.Connector

open Agent.Subject (canonicalIdentity same_identity_cases)

/-- `select … from name where column::text = $1` of a subject. -/
def TableMapping.selectRows (t : TableMapping) (subject : SubjectIdentity) (db : Database) :
    Option (List Row) :=
  match (t.subjectValue subject).result with
  | .error _ => none
  | .ok value => (db.relation t.name t.identityColumn value).map fun r =>
      r.rows.filter (hasText t.identityColumn value)

/-- The names of a subject in a bucket. -/
def StorageMapping.selectNames (s : StorageMapping) (subject : SubjectIdentity)
    (objects : List StorageObject) : Option (List String) :=
  match s.subjectPrefix subject with
  | .error _ => none
  | .ok pre => selectObjects objects s.bucket pre

/-- Whatever a project holds, its mapping selects the same of it for both subjects. -/
structure SameData (m : ValidatedSupabaseMapping) (a b : SubjectIdentity) : Prop where
  rows : ∀ t ∈ m.tables, ∀ db, t.selectRows a db = t.selectRows b db
  objects : ∀ s ∈ m.storage, ∀ objects, s.selectNames a objects = s.selectNames b objects

/-- The subject has every field that its mapping asks for. -/
structure MappedFieldsPresent (m : ValidatedSupabaseMapping) (subject : SubjectIdentity) : Prop where
  tables : ∀ t ∈ m.tables, (t.subjectValue subject).result.isOk
  user : m.storage ≠ [] ∨ m.deleteAuthUser = true → (stableUserId subject).result.isOk

/-- An identifier as the database takes it: trimmed, not empty, without a NUL. -/
def databaseText (identifier : Option String) : Option String :=
  (nonEmpty identifier).filter fun text => (textParameter text.toList).isSome

/-- The text that selects the rows of a subject. -/
def TableMapping.subjectText (t : TableMapping) (subject : SubjectIdentity) : Option String :=
  databaseText (match t.subjectField with
    | .applicationUserId => subject.applicationUserId
    | .email => subject.email)

variable {t : TableMapping} {a b : SubjectIdentity}

theorem selectRows_eq (t : TableMapping) (subject : SubjectIdentity) (db : Database) :
    t.selectRows subject db = (t.subjectText subject).bind fun value =>
      ((db t.name).filter fun r => t.identityColumn ∈ r.columns).map fun r =>
        r.rows.filter (hasText t.identityColumn value) := by
  unfold TableMapping.selectRows TableMapping.subjectValue TableMapping.subjectText databaseText
  cases nonEmpty (match t.subjectField with
    | .applicationUserId => subject.applicationUserId
    | .email => subject.email) with
  | none => rfl
  | some value =>
    show (db.relation t.name t.identityColumn value).map _ = _
    unfold Database.relation
    cases htext : textParameter value.toList with
    | none => rw [Option.filter_some, htext]; rfl
    | some _ => rw [Option.filter_some, htext]; rfl

/-- What discovery and verification count are the selected rows. -/
theorem countWhere_eq_length {subject : SubjectIdentity} {value : String}
    (h : (t.subjectValue subject).result = .ok value) (db : Database) :
    db.countWhere t.name t.identityColumn value =
      (t.selectRows subject db).map List.length := by
  unfold TableMapping.selectRows Database.countWhere
  rw [h, Option.map_map]
  congr 1
  funext r
  exact List.countP_eq_length_filter

/-- A database of one row, the text in its identity column. -/
def soleRow (t : TableMapping) (text : String) : Database :=
  fun _ => some ⟨[t.identityColumn], [], [fun _ => some text]⟩

theorem selectRows_soleRow (text : String) :
    t.selectRows a (soleRow t text) = (t.subjectText a).map fun value =>
      if text = value then [fun _ => some text] else [] := by
  rw [selectRows_eq]
  cases t.subjectText a with
  | none => rfl
  | some value =>
    rw [Option.bind_some, Option.map_some, soleRow, Option.filter_some,
      if_pos (decide_eq_true (List.mem_singleton_self _)), Option.map_some, Option.some.injEq]
    by_cases h : text = value
    · rw [if_pos h, List.filter_cons_of_pos, List.filter_nil]
      unfold hasText
      rw [h, decide_eq_true rfl]
    · rw [if_neg h, List.filter_cons_of_neg, List.filter_nil]
      unfold hasText
      rw [decide_eq_true_eq]
      exact fun heq => h (Option.some.inj heq)

/-- A table tells two subjects apart just if it selects them by different texts. -/
theorem selectRows_eq_iff :
    (∀ db, t.selectRows a db = t.selectRows b db) ↔ t.subjectText a = t.subjectText b := by
  constructor
  · intro h
    have hsole : ∀ text value, t.subjectText a = some text → t.subjectText b = some value →
        text = value := by
      intro text value ha hb
      have hrows := h (soleRow t text)
      rw [selectRows_soleRow, selectRows_soleRow, ha, hb, Option.map_some, Option.map_some,
        if_pos rfl, Option.some.injEq] at hrows
      by_contra hne
      rw [if_neg hne] at hrows
      exact absurd hrows (List.cons_ne_nil _ _)
    have hrows := h (soleRow t "")
    rw [selectRows_soleRow, selectRows_soleRow] at hrows
    cases ha : t.subjectText a with
    | none =>
      rw [ha, Option.map_none, eq_comm, Option.map_eq_none_iff] at hrows
      exact hrows.symm
    | some text =>
      cases hb : t.subjectText b with
      | none =>
        rw [ha, hb] at hrows
        cases hrows
      | some value => rw [hsole text value ha hb]
  · intro h db
    rw [selectRows_eq, selectRows_eq, h]

/-- A bucket selects the same for subjects of one user, or of none. -/
theorem selectNames_congr {s : StorageMapping}
    (h : nonEmpty a.applicationUserId = nonEmpty b.applicationUserId)
    (objects : List StorageObject) : s.selectNames a objects = s.selectNames b objects := by
  have hsame : s.subjectPrefix a = s.subjectPrefix b := by
    unfold StorageMapping.subjectPrefix stableUserId
    rw [h]
  unfold StorageMapping.selectNames
  rw [hsame]

/-- For subjects of one identity a mapping selects the same data exactly where it selects no table
    by e-mail, or the addresses are one text as they came. -/
theorem sameData_iff (toLowercase : String → String) (m : ValidatedSupabaseMapping)
    (a b : SubjectIdentity) (identity : String)
    (ha : canonicalIdentity toLowercase a = .ok identity)
    (hb : canonicalIdentity toLowercase b = .ok identity) :
    SameData m a b ↔
      (∀ t ∈ m.tables, t.subjectField = .applicationUserId) ∨
        databaseText a.email = databaseText b.email := by
  have huser : nonEmpty a.applicationUserId = nonEmpty b.applicationUserId := by
    obtain ⟨user, hua, hub⟩ | ⟨hua, hub, -⟩ := same_identity_cases ha hb
    · rw [hua, hub]
    · rw [hua, hub]
  constructor
  · intro h
    by_cases hfields : ∀ t ∈ m.tables, t.subjectField = .applicationUserId
    · exact .inl hfields
    push Not at hfields
    obtain ⟨t, ht, hfield⟩ := hfields
    have htext := selectRows_eq_iff.mp (h.rows t ht)
    unfold TableMapping.subjectText at htext
    cases hemail : t.subjectField with
    | applicationUserId => exact absurd hemail hfield
    | email =>
      rw [hemail] at htext
      exact .inr htext
  · intro h
    refine ⟨fun t ht => selectRows_eq_iff.mpr ?_, fun s _ => selectNames_congr huser⟩
    unfold TableMapping.subjectText
    cases hfield : t.subjectField with
    | applicationUserId =>
      unfold databaseText
      rw [huser]
    | email =>
      refine h.resolve_left fun hall => ?_
      rw [hall t ht] at hfield
      cases hfield

/-- A mapping that deletes the newsletters of an address. -/
def newsletterMapping : SupabaseMapping where
  tables := ⟨[("newsletters", ⟨"public", "address", .email, true, none, []⟩)],
    List.pairwise_singleton _ _⟩
  storage := ⟨[], BTreeMap.sorted_nil⟩
  deleteAuthUser := false
  approvedFunctions := []

def newsletters : TableMapping := ⟨"public", "newsletters", "address", .email, .delete, []⟩

def validatedNewsletters : ValidatedSupabaseMapping where
  tables := [newsletters]
  storage := []
  deleteAuthUser := false
  approvedFunctions := []

def addressed (applicationUserId : Option String) (email : String) : SubjectIdentity :=
  ⟨applicationUserId, some email⟩

/-- Blanks around an identifier change nothing. -/
theorem sameData_of_blanks :
    SameData validatedNewsletters (addressed (some "42") "ann@example.com")
      (addressed (some "42 ") " ann@example.com") :=
  (sameData_iff String.toLower validatedNewsletters _ _ "app_user_id:42" (by decide +kernel)
    (by decide +kernel)).mpr (.inr (by decide +kernel))

/-- One address in two cases, and one user under two addresses: one identity each, every mapped
    field is there, and their newsletters are not the same. -/
theorem newsletters_missed_by_identity :
    newsletterMapping.validate = .ok validatedNewsletters ∧
      (canonicalIdentity String.toLower (addressed none "Ann@example.com") =
          .ok "email:ann@example.com" ∧
        canonicalIdentity String.toLower (addressed none "ann@example.com") =
          .ok "email:ann@example.com" ∧
        MappedFieldsPresent validatedNewsletters (addressed none "Ann@example.com") ∧
        MappedFieldsPresent validatedNewsletters (addressed none "ann@example.com") ∧
        ¬ SameData validatedNewsletters (addressed none "Ann@example.com")
          (addressed none "ann@example.com")) ∧
      (canonicalIdentity String.toLower (addressed (some "42") "ann@example.com") =
          .ok "app_user_id:42" ∧
        canonicalIdentity String.toLower (addressed (some "42") "ann@example.org") =
          .ok "app_user_id:42" ∧
        MappedFieldsPresent validatedNewsletters (addressed (some "42") "ann@example.com") ∧
        MappedFieldsPresent validatedNewsletters (addressed (some "42") "ann@example.org") ∧
        ¬ SameData validatedNewsletters (addressed (some "42") "ann@example.com")
          (addressed (some "42") "ann@example.org")) := by
  have hpresent : ∀ user email, (newsletters.subjectValue (addressed user email)).result.isOk →
      MappedFieldsPresent validatedNewsletters (addressed user email) := by
    intro user email h
    refine ⟨fun t ht => ?_, fun h => ?_⟩
    · obtain rfl := List.mem_singleton.mp ht
      exact h
    · exact absurd h (by decide)
  have happart : ∀ a b, newsletters.subjectText a ≠ newsletters.subjectText b →
      ¬ SameData validatedNewsletters a b := by
    intro a b hne h
    exact hne (selectRows_eq_iff.mp (h.rows newsletters List.mem_cons_self))
  refine ⟨by rfl, ⟨by decide +kernel, by decide +kernel, hpresent _ _ (by decide +kernel),
    hpresent _ _ (by decide +kernel), happart _ _ (by decide +kernel)⟩, by decide +kernel,
    by decide +kernel, hpresent _ _ (by decide +kernel), hpresent _ _ (by decide +kernel),
    happart _ _ (by decide +kernel)⟩

end ForgetOps.Connector
