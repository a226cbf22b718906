import ForgetOps.Agent.ConnectorSdk
import ForgetOps.Library.Guards
import ForgetOps.Library.Lines
import ForgetOps.Library.Substrings

/-
  The mapping of a Supabase project (`agent/crates/connector-supabase/src/config.rs`).

  `validate` checks a mapping as it was configured. What it lets through is told once, by
  `validate_sound`: its names are identifiers, its tables and buckets are distinct, an anonymized
  table nulls its identity column, and a prefix has one place for the user.
-/

namespace ForgetOps.Connector

open Guards

/-- `BTreeMap<String, _>`: its keys ascend. -/
structure BTreeMap (α : Type) where
  entries : List (String × α)
  sorted : (entries.map Prod.fst).Pairwise (· < ·)

theorem BTreeMap.sorted_nil {α : Type} :
    (([] : List (String × α)).map Prod.fst).Pairwise (· < ·) := List.Pairwise.nil

/-- The keys are distinct. -/
theorem BTreeMap.nodup {α : Type} (m : BTreeMap α) : (m.entries.map Prod.fst).Nodup :=
  m.sorted.imp fun {_ _} h => String.ne_of_lt h

structure TableMappingInput where
  schema : String
  identityColumn : String
  subjectField : SubjectField
  delete : Bool
  action : Option TableAction
  fields : List String

structure StorageMappingInput where
  templatePrefix : String
  delete : Bool

structure SupabaseMapping where
  tables : BTreeMap TableMappingInput
  storage : BTreeMap StorageMappingInput
  deleteAuthUser : Bool
  approvedFunctions : List String

structure ValidatedSupabaseMapping where
  tables : List TableMapping
  storage : List StorageMapping
  deleteAuthUser : Bool
  approvedFunctions : List String
  deriving DecidableEq, Repr

def validIdentifier (value : String) : Bool :=
  value.toList ≠ [] ∧ (value.toList.head?.any Char.isDigit) = false ∧
    value.toList.all fun c => c.isAlphanum ∨ c = '_'

def validateIdentifier (value : String) : Except ConnectorError Unit :=
  refuse (validIdentifier value = false) (.invalidConfig "SUPABASE_IDENTIFIER_INVALID")

/-- `value.split(separator)`. -/
def segments (separator : Char) (value : List Char) : List (List Char) :=
  (Lines.split separator value).1 ++ [(Lines.split separator value).2]

def validateQualifiedName (value : String) : Except ConnectorError Unit :=
  refuse ((segments '.' value.toList).length ≠ 2 ∨
      ¬ (segments '.' value.toList).all fun segment => validIdentifier (String.ofList segment))
    (.invalidConfig "SUPABASE_APPROVED_FUNCTION_INVALID")

def validateBucket (value : String) : Except ConnectorError Unit :=
  refuse (value = "" ∨ 100 < value.utf8ByteSize ∨
      ¬ value.toList.all fun c => c.isAlphanum ∨ c = '-' ∨ c = '_')
    (.invalidConfig "SUPABASE_BUCKET_INVALID")

/-- The place of the user in a prefix. -/
def placeholder : List Char := "\x7buser_id\x7d".toList

/-- `value.strip_suffix('/').unwrap_or(value)`. -/
def stripSlash (value : List Char) : List Char :=
  if value.getLast? = some '/' then value.dropLast else value

def validPrefixTemplate (value : String) : Bool :=
  Substrings.matchCount placeholder value.toList = 1 ∧ stripSlash value.toList ≠ [] ∧
    value.toList.head? ≠ some '/' ∧ '\\' ∉ value.toList ∧
    (segments '/' (stripSlash value.toList)).all fun segment =>
      segment ≠ [] ∧ segment ≠ ['.'] ∧ segment ≠ ['.', '.']

/-- The fields of a table, those before them given. -/
def validateFields : List String → List String → Except ConnectorError Unit
  | _, [] => pure ()
  | seen, field :: fields => do
    validateIdentifier field
    refuse (field ∈ seen) (.invalidConfig "SUPABASE_TABLE_FIELDS_INVALID")
    validateFields (field :: seen) fields

def validateAction (input : TableMappingInput) : Except ConnectorError TableAction :=
  match input.delete, input.action with
  | true, none | true, some .delete => pure .delete
  | false, some action => pure action
  | _, _ => throw (.invalidConfig "SUPABASE_TABLE_ACTION_INVALID")

def validateTable (entry : String × TableMappingInput) : Except ConnectorError TableMapping := do
  let (table, input) := entry
  validateIdentifier input.schema
  validateIdentifier table
  validateIdentifier input.identityColumn
  let action ← validateAction input
  refuse ((action = .delete ∧ input.fields ≠ []) ∨
      (action = .anonymize ∧ (input.fields = [] ∨ input.identityColumn ∉ input.fields)))
    (.invalidConfig "SUPABASE_TABLE_FIELDS_INVALID")
  validateFields [] input.fields
  return { schema := input.schema, table, identityColumn := input.identityColumn,
           subjectField := input.subjectField, action, fields := input.fields }

def validateStorage (entry : String × StorageMappingInput) :
    Except ConnectorError StorageMapping := do
  let (bucket, input) := entry
  validateBucket bucket
  refuse (input.delete = false ∨ validPrefixTemplate input.templatePrefix = false)
    (.invalidConfig "SUPABASE_STORAGE_MAPPING_INVALID")
  return { bucket, templatePrefix := input.templatePrefix }

/-- The approved functions, those before them given. -/
def validateFunctions : List String → List String → Except ConnectorError (List String)
  | seen, [] => pure seen
  | seen, function :: functions => do
    validateQualifiedName function
    refuse (function ∈ seen) (.invalidConfig "SUPABASE_APPROVED_FUNCTION_INVALID")
    validateFunctions (seen ++ [function]) functions

def SupabaseMapping.validate (mapping : SupabaseMapping) :
    Except ConnectorError ValidatedSupabaseMapping := do
  refuse (mapping.tables.entries = [] ∧ mapping.storage.entries = [] ∧
      mapping.deleteAuthUser = false) (.invalidConfig "SUPABASE_MAPPING_EMPTY")
  let tables ← mapping.tables.entries.mapM validateTable
  let storage ← mapping.storage.entries.mapM validateStorage
  let approvedFunctions ← validateFunctions [] mapping.approvedFunctions
  return { tables, storage, deleteAuthUser := mapping.deleteAuthUser, approvedFunctions }

/-! ## What a validated mapping is -/

structure TableMapping.Valid (t : TableMapping) : Prop where
  schema : validIdentifier t.schema = true
  table : validIdentifier t.table = true
  identityColumn : validIdentifier t.identityColumn = true
  fields : ∀ field ∈ t.fields, validIdentifier field = true
  distinct : t.fields.Nodup
  deleted : t.action = .delete → t.fields = []
  anonymized : t.action = .anonymize → t.identityColumn ∈ t.fields

structure ValidatedSupabaseMapping.Sound (m : ValidatedSupabaseMapping) : Prop where
  tables : ∀ t ∈ m.tables, t.Valid
  distinct : (m.tables.map (·.table)).Nodup
  templates : ∀ s ∈ m.storage, validPrefixTemplate s.templatePrefix = true
  buckets : (m.storage.map (·.bucket)).Nodup

theorem validateIdentifier_ok {value : String} {u : Unit} :
    validateIdentifier value = .ok u ↔ validIdentifier value = true := by
  unfold validateIdentifier
  rw [refuse_ok, Bool.not_eq_false]

theorem validateFields_ok {seen fields : List String} {u : Unit}
    (h : validateFields seen fields = .ok u) :
    (∀ field ∈ fields, validIdentifier field = true ∧ field ∉ seen) ∧ fields.Nodup := by
  induction fields generalizing seen with
  | nil => exact ⟨nofun, List.nodup_nil⟩
  | cons field fields ih =>
    obtain ⟨_, hfield, h⟩ := bind_ok.mp h
    obtain ⟨hseen, h⟩ := refuse_bind_ok.mp h
    obtain ⟨hfields, hnodup⟩ := ih h
    refine ⟨fun f hf => ?_, List.nodup_cons.mpr ⟨fun hmem => ?_, hnodup⟩⟩
    · rcases List.mem_cons.mp hf with rfl | hf
      · exact ⟨validateIdentifier_ok.mp hfield, hseen⟩
      · exact ⟨(hfields f hf).1, fun hmem => (hfields f hf).2 (List.mem_cons_of_mem _ hmem)⟩
    · exact (hfields field hmem).2 List.mem_cons_self

theorem validateTable_ok {entry : String × TableMappingInput} {t : TableMapping}
    (h : validateTable entry = .ok t) : t.table = entry.1 ∧ t.Valid := by
  obtain ⟨table, input⟩ := entry
  obtain ⟨_, hschema, h⟩ := bind_ok.mp h
  obtain ⟨_, htable, h⟩ := bind_ok.mp h
  obtain ⟨_, hidentity, h⟩ := bind_ok.mp h
  obtain ⟨action, -, h⟩ := bind_ok.mp h
  obtain ⟨hfit, h⟩ := refuse_bind_ok.mp h
  obtain ⟨_, hfields, h⟩ := bind_ok.mp h
  obtain rfl := pure_ok.mp h
  rw [validateIdentifier_ok] at hschema htable hidentity
  obtain ⟨hfields, hnodup⟩ := validateFields_ok hfields
  refine ⟨rfl, hschema, htable, hidentity, fun f hf => (hfields f hf).1, hnodup, ?_, ?_⟩
  · intro haction
    by_contra hne
    exact hfit (.inl ⟨haction, hne⟩)
  · intro haction
    by_contra hmem
    exact hfit (.inr ⟨haction, .inr hmem⟩)

theorem validateStorage_ok {entry : String × StorageMappingInput} {s : StorageMapping}
    (h : validateStorage entry = .ok s) :
    s.bucket = entry.1 ∧ validPrefixTemplate s.templatePrefix = true := by
  obtain ⟨bucket, input⟩ := entry
  obtain ⟨_, -, h⟩ := bind_ok.mp h
  obtain ⟨hinput, h⟩ := refuse_bind_ok.mp h
  obtain rfl := pure_ok.mp h
  rw [not_or] at hinput
  exact ⟨rfl, Bool.not_eq_false _ ▸ hinput.2⟩

/-- What holds of every item that a list was read to. -/
theorem forall_of_mapM {α β : Type} {f : α → Except ConnectorError β} {name : α → String}
    {name' : β → String} {P : β → Prop} (hf : ∀ a b, f a = .ok b → name' b = name a ∧ P b)
    {as : List α} {bs : List β} (h : as.mapM f = .ok bs) :
    bs.map name' = as.map name ∧ ∀ b ∈ bs, P b := by
  induction as generalizing bs with
  | nil =>
    obtain rfl := pure_ok.mp h
    exact ⟨rfl, nofun⟩
  | cons a as ih =>
    rw [List.mapM_cons] at h
    obtain ⟨b, hb, h⟩ := bind_ok.mp h
    obtain ⟨rest, hrest, h⟩ := bind_ok.mp h
    obtain rfl := pure_ok.mp h
    obtain ⟨hnames, hall⟩ := ih hrest
    refine ⟨by rw [List.map_cons, List.map_cons, (hf a b hb).1, hnames], fun b' hb' => ?_⟩
    rcases List.mem_cons.mp hb' with rfl | hb'
    · exact (hf a _ hb).2
    · exact hall b' hb'

theorem SupabaseMapping.validate_sound {mapping : SupabaseMapping} {m : ValidatedSupabaseMapping}
    (h : mapping.validate = .ok m) : m.Sound := by
  obtain ⟨-, h⟩ := refuse_bind_ok.mp h
  obtain ⟨tables, htables, h⟩ := bind_ok.mp h
  obtain ⟨storage, hstorage, h⟩ := bind_ok.mp h
  obtain ⟨functions, -, h⟩ := bind_ok.mp h
  obtain rfl := pure_ok.mp h
  obtain ⟨htable, hvalid⟩ := forall_of_mapM (fun _ _ => validateTable_ok) htables
  obtain ⟨hbucket, htemplate⟩ := forall_of_mapM (fun _ _ => validateStorage_ok) hstorage
  exact ⟨hvalid, htable ▸ mapping.tables.nodup, htemplate, hbucket ▸ mapping.storage.nodup⟩

/-- The connector of a validated mapping. -/
def ValidatedSupabaseMapping.connector (m : ValidatedSupabaseMapping) (api : Option SupabaseApi) :
    SupabaseConnector where
  tables := m.tables
  storage := m.storage
  deleteAuthUser := m.deleteAuthUser
  api := api

end ForgetOps.Connector
