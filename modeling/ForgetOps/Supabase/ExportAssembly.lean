import ForgetOps.Library.Grouping
import ForgetOps.Supabase.ExportPaths
import ForgetOps.Supabase.KeysetPagination
import ForgetOps.Supabase.StorageIsolation

/-
  What an export delivers (`agent/crates/connector-supabase/src/export.rs`).

  `Holdings` is what the remote holds for a selection. An export that returns has written its pieces
  (`exportSubject_ok`), and grouped by path these are its files, but for the objects without a
  chunk, which are counted and never written: `assembled_iff`.
-/

namespace ForgetOps.Connector

open AdapterHttp (Write Reading)
open Guards Keyset

/-! ## What there is to export -/

/-- The records of tables, the objects of buckets, each as the chunks it arrives in, and the user. -/
structure Holdings where
  tables : List (TableMapping × List (List UInt8))
  buckets : List (String × List (List (List UInt8)))
  user : Option (List UInt8)

/-- The objects of a bucket after the one with this number, as they are answered. -/
inductive ServesObjects (answer : ExportRemote) (bucket : String) :
    Nat → List String → List (List (List UInt8)) → Prop where
  | nil {index} : ServesObjects answer bucket index [] []
  | cons {index name names response chunks rest} :
      answer.object bucket name (saturatingAdd index 1) = some response →
      response.body = chunks.map some →
      ServesObjects answer bucket (saturatingAdd index 1) names rest →
      ServesObjects answer bucket index (name :: names) (chunks :: rest)

def ServesTable (subject : SubjectIdentity) (answer : ExportRemote) (t : TableMapping)
    (entry : TableMapping × List (List UInt8)) : Prop :=
  entry.1 = t ∧ ∃ value, (t.subjectValue subject).result = .ok value ∧
    (answer.table t value).rows = entry.2.map some

/-- The objects with the prefix of the subject, in the order of their names. -/
def ServesBucket (before : String → String → Bool) (subject : SubjectIdentity)
    (objects : List StorageObject) (answer : ExportRemote) (s : StorageMapping)
    (entry : String × List (List (List UInt8))) : Prop :=
  entry.1 = s.bucket ∧ ∃ pre names, s.subjectPrefix subject = .ok pre ∧
    Covers objects s.bucket pre names ∧ names.Pairwise (fun a b => before a b = true) ∧
    ServesObjects answer s.bucket 0 names entry.2

def ServesUser (selected : Prop) (answer : ExportRemote) (user : Option (List UInt8)) : Prop :=
  selected ∧ (∃ response, answer.user = some response ∧
      (isSuccess response.status = true ∧
          (∃ chunks : List (List UInt8), response.body = chunks.map some ∧
            user = some chunks.flatten) ∨
        isSuccess response.status = false ∧ user = none)) ∨
    ¬ selected ∧ user = none

/-- The remote holds this for the selected resources of a subject. -/
structure Serves (c : SupabaseConnector) (before : String → String → Bool)
    (subject : SubjectIdentity) (selection : ExportSelection) (objects : List StorageObject)
    (answer : ExportRemote) (k : Holdings) : Prop where
  tables : List.Forall₂ (ServesTable subject answer)
    (c.tables.filter (·.localReference ∈ selection.resources)) k.tables
  buckets : List.Forall₂ (ServesBucket before subject objects answer)
    (c.storage.filter (·.localReference ∈ selection.resources)) k.buckets
  user : ServesUser (authUserReference ∈ selection.resources) answer k.user

/-! ## What the files are to be -/

/-- The text of an array of these records. -/
def jsonArray (records : List (List UInt8)) : List UInt8 :=
  0x5b :: ([0x2c].intercalate records ++ [0x5d])

namespace Holdings

/-- The files, as pairs of path and bytes. -/
def files (k : Holdings) : List (String × List UInt8) :=
  (k.tables.map fun entry => (entry.1.exportPath, jsonArray entry.2)) ++
    (k.buckets.flatMap fun entry =>
      entry.2.zipIdx.map fun (chunks, i) => (objectPath entry.1 (i + 1), chunks.flatten)) ++
    (k.user.map fun bytes => (authUserPath, bytes)).toList

/-- How many records and objects there are, the user counted in. -/
def count (k : Holdings) : Nat :=
  (k.tables.map (·.2.length)).sum + (k.buckets.map (·.2.length)).sum + k.user.toList.length

end Holdings

/-- The path and the bytes of each write. -/
def entries (writes : List Write) : List (String × List UInt8) :=
  writes.map fun w => (w.path, w.bytes)

/-- The writes grouped by path, the bytes of a path one after the other. -/
def filesOf (writes : List Write) : List (String × List UInt8) :=
  (Grouping.group (entries writes)).map fun file => (file.1, file.2.flatten)

/-- The export is what there is to export. -/
structure Assembled (e : Exported) (k : Holdings) : Prop where
  files : filesOf e.writes = k.files
  apart : (k.files.map Prod.fst).Nodup
  counted : e.exportedCount = k.count

/-! ## What is written -/

/-- From `s` on these pieces have been written, and this many things counted. -/
structure Adds (s s' : Exported) (pieces : List (String × List UInt8)) (n : Nat) : Prop where
  entries : entries s'.writes = entries s.writes ++ pieces
  count : ∀ m, s.exportedCount = min m (2 ^ 64 - 1) → s'.exportedCount = min (m + n) (2 ^ 64 - 1)

section Writing

variable {sink : Sink} {subject : SubjectIdentity} {answer : ExportRemote} {path contentType : String}
  {s s' s'' : Exported}

theorem Adds.refl (s : Exported) : Adds s s [] 0 :=
  ⟨(List.append_nil _).symm, fun _ h => h⟩

theorem Adds.trans {pieces pieces' : List (String × List UInt8)} {n n' : Nat}
    (h : Adds s s' pieces n) (h' : Adds s' s'' pieces' n') :
    Adds s s'' (pieces ++ pieces') (n + n') := by
  refine ⟨by rw [h'.entries, h.entries, List.append_assoc], fun m hm => ?_⟩
  rw [h'.count _ (h.count m hm), Nat.add_assoc]

theorem write_ok {bytes : List UInt8} (h : s.write sink path contentType bytes = .ok s') :
    Adds s s' [(path, bytes)] 0 := by
  obtain ⟨_, -, h⟩ := bind_ok.mp h
  obtain rfl := pure_ok.mp h
  refine ⟨?_, fun _ h => h⟩
  unfold entries
  rw [List.map_append, List.map_singleton]

theorem adds_counted (s : Exported) : Adds s s.counted [] 1 := by
  refine ⟨(List.append_nil _).symm, fun m hm => ?_⟩
  unfold Exported.counted saturatingAdd
  dsimp only
  omega

/-- The pieces that the rows of a table are written in. -/
def rowPieces : Bool → List (List UInt8) → List (List UInt8)
  | _, [] => []
  | first, record :: records =>
    (if first then [record] else [[0x2c], record]) ++ rowPieces false records

def tablePieces (records : List (List UInt8)) : List (List UInt8) :=
  [0x5b] :: (rowPieces true records ++ [[0x5d]])

theorem exportRows_ok {first : Bool} {rows : List (Option (List UInt8))}
    (h : exportRows sink path first rows s = .ok s') :
    ∃ records, rows = records.map some ∧
      Adds s s' ((rowPieces first records).map (path, ·)) records.length := by
  induction rows generalizing first s with
  | nil =>
    obtain rfl := pure_ok.mp h
    exact ⟨[], rfl, Adds.refl s⟩
  | cons row rows ih =>
    cases row with
    | none => cases h
    | some record =>
      obtain ⟨-, h⟩ := refuse_bind_ok.mp h
      obtain ⟨s₁, hcomma, h⟩ : ∃ s₁,
          Adds s s₁ ((if first then [] else [[0x2c]]).map (path, ·)) 0 ∧
            (s₁.write sink path "application/json" record >>= fun s₂ =>
              exportRows sink path false rows s₂.counted) = .ok s' := by
        cases first with
        | true => exact ⟨s, Adds.refl s, h⟩
        | false =>
          obtain ⟨s₁, hcomma, h⟩ := bind_ok.mp h
          exact ⟨s₁, write_ok hcomma, h⟩
      obtain ⟨s₂, hrecord, h⟩ := bind_ok.mp h
      obtain ⟨records, rfl, hrest⟩ := ih h
      refine ⟨record :: records, rfl, ?_⟩
      have hone := (hcomma.trans (write_ok hrecord)).trans ((adds_counted s₂).trans hrest)
      rw [List.length_cons, Nat.add_comm]
      cases first with
      | true => simpa [rowPieces] using hone
      | false => simpa [rowPieces] using hone

theorem exportTable_ok {t : TableMapping} (h : exportTable sink subject answer t s = .ok s') :
    ∃ records, ServesTable subject answer t (t, records) ∧
      Adds s s' ((tablePieces records).map (t.exportPath, ·)) records.length := by
  obtain ⟨value, hvalue, h⟩ := bind_ok.mp h
  obtain ⟨-, h⟩ := refuse_bind_ok.mp h
  obtain ⟨-, h⟩ := refuse_bind_ok.mp h
  obtain ⟨s₁, hopen, h⟩ := bind_ok.mp h
  obtain ⟨s₂, hrows, h⟩ := bind_ok.mp h
  obtain ⟨s₃, hclose, h⟩ := bind_ok.mp h
  obtain ⟨-, h⟩ := refuse_bind_ok.mp h
  obtain rfl := pure_ok.mp h
  obtain ⟨records, hread, hadds⟩ := exportRows_ok hrows
  refine ⟨records, ⟨rfl, value, mapError_ok.mp hvalue, hread⟩, ?_⟩
  have hall := ((write_ok hopen).trans hadds).trans (write_ok hclose)
  rw [Nat.zero_add, Nat.add_zero] at hall
  rw [tablePieces, List.map_cons, List.map_append, List.map_singleton]
  exact hall

theorem exportTables_ok {selected : List String} {tables : List TableMapping}
    (h : exportTables sink subject answer selected tables s = .ok s') :
    ∃ held, List.Forall₂ (ServesTable subject answer)
        (tables.filter (·.localReference ∈ selected)) held ∧
      Adds s s' (Grouping.pieces (held.map fun entry =>
        (entry.1.exportPath, tablePieces entry.2))) (held.map (·.2.length)).sum := by
  unfold exportTables at h
  generalize tables.filter (·.localReference ∈ selected) = tables at h ⊢
  induction tables generalizing s with
  | nil =>
    obtain rfl := pure_ok.mp h
    exact ⟨[], .nil, Adds.refl s⟩
  | cons t tables ih =>
    obtain ⟨s₁, htable, h⟩ := bind_ok.mp h
    obtain ⟨records, hserves, hadds⟩ := exportTable_ok htable
    obtain ⟨held, hall, hrest⟩ := ih h
    exact ⟨(t, records) :: held, .cons hserves hall, hadds.trans hrest⟩

end Writing

/-! ## Objects and the user -/

section Objects

variable {c : SupabaseConnector} {sink : Sink} {before : String → String → Bool}
  {subject : SubjectIdentity} {answer : ExportRemote} {objects : List StorageObject}
  {bucket path contentType after : String} {pre : List Char} {limit index : Nat}
  {s s' : Exported}

theorem exportChunks_ok {total : Nat} {body : List (Option (List UInt8))}
    (h : exportChunks sink path contentType total body s = .ok s') :
    ∃ chunks : List (List UInt8), body = chunks.map some ∧ Adds s s' (chunks.map (path, ·)) 0 := by
  induction body generalizing total s with
  | nil =>
    obtain rfl := pure_ok.mp h
    exact ⟨[], rfl, Adds.refl s⟩
  | cons chunk body ih =>
    cases chunk with
    | none => cases h
    | some chunk =>
      obtain ⟨-, h⟩ := refuse_bind_ok.mp h
      obtain ⟨s₁, hchunk, h⟩ := bind_ok.mp h
      obtain ⟨chunks, rfl, hrest⟩ := ih h
      exact ⟨chunk :: chunks, rfl, (write_ok hchunk).trans hrest⟩

theorem downloadStorageObject_ok {name : String}
    (h : c.downloadStorageObject sink answer bucket name index s = .ok s') :
    ∃ (response : Download) (chunks : List (List UInt8)),
      answer.object bucket name index = some response ∧ response.body = chunks.map some ∧
      Adds s s' (chunks.map (objectPath bucket index, ·)) 0 := by
  obtain ⟨-, h⟩ := refuse_bind_ok.mp h
  obtain ⟨_, -, h⟩ := bind_ok.mp h
  obtain ⟨response, hresponse, h⟩ := bind_ok.mp h
  obtain ⟨-, h⟩ := refuse_bind_ok.mp h
  obtain ⟨-, h⟩ := refuse_bind_ok.mp h
  obtain ⟨chunks, hbody, hadds⟩ := exportChunks_ok h
  exact ⟨response, chunks, okOr_ok.mp hresponse, hbody, hadds⟩

/-- The blocks of objects, from the number of the one before them on. -/
def objectBlocks (bucket : String) :
    Nat → List (List (List UInt8)) → List (String × List (List UInt8))
  | _, [] => []
  | index, chunks :: rest =>
    (objectPath bucket (saturatingAdd index 1), chunks) ::
      objectBlocks bucket (saturatingAdd index 1) rest

theorem exportObjects_adds {names : List String} {x : Nat × Exported}
    (h : c.exportObjects sink answer bucket index names s = .ok x) :
    ∃ held, ServesObjects answer bucket index names held ∧
      Adds s x.2 (Grouping.pieces (objectBlocks bucket index held)) held.length := by
  induction names generalizing index s with
  | nil =>
    obtain rfl := pure_ok.mp h
    exact ⟨[], .nil, Adds.refl s⟩
  | cons name names ih =>
    obtain ⟨s₁, hobject, h⟩ := bind_ok.mp h
    obtain ⟨response, chunks, hresponse, hbody, hadds⟩ := downloadStorageObject_ok hobject
    obtain ⟨held, hserves, hrest⟩ := ih h
    refine ⟨chunks :: held, .cons hresponse hbody hserves, ?_⟩
    have hall := (hadds.trans (adds_counted s₁)).trans hrest
    rw [List.append_nil, Nat.zero_add] at hall
    rw [List.length_cons, Nat.add_comm]
    exact hall

/-- An export that returns has asked for all names beyond the one it began with. -/
theorem exportPages_paged (hobjects : objects.Nodup)
    {listed : List String} (hlisted : selectObjects objects bucket pre = some listed)
    {stores : List (Option (List StorageObject))}
    (hstores : ∀ store ∈ stores, store = none ∨ store = some objects)
    (h : c.exportPages sink before answer limit bucket pre after index stores s = .ok (some s')) :
    ∃ names, Paged before limit after listed names ∧
      ∃ last, c.exportObjects sink answer bucket index names s = .ok (last, s') := by
  induction stores generalizing after index s with
  | nil => cases h
  | cons store stores ih =>
    rcases hstores store List.mem_cons_self with rfl | rfl
    · cases h
    · rw [exportPages_cons hlisted] at h
      split_ifs at h with hpage hshort
      · cases h
        exact ⟨[], .stop hpage, index, rfl⟩
      · obtain ⟨⟨last, s₁⟩, hrun, h⟩ := bind_ok.mp h
        cases h
        exact ⟨_, .short rfl hshort, last, hrun⟩
      · obtain ⟨⟨last, s₁⟩, hrun, h⟩ := bind_ok.mp h
        obtain ⟨final, hfinal⟩ := Option.isSome_iff_exists.mp (List.getLast?_isSome.mpr hpage)
        dsimp only at h
        rw [getLastD_page hfinal] at h
        obtain ⟨names, hpaged, last', hrest⟩ :=
          ih (fun store hstore => hstores store (List.mem_cons_of_mem _ hstore)) h
        refine ⟨_, .full rfl hfinal (not_lt.mp hshort) (nodup_selectObjects hobjects hlisted)
          (fun _ _ => Iff.rfl) hpaged, last', ?_⟩
        rw [exportObjects_append, hrun]
        exact hrest

theorem exportStorage_ok (order : StrictTotal before)
    (hleast : ∀ name, name ≠ "" → before "" name = true) (hobjects : objects.Nodup)
    {storage : StorageMapping}
    (hstores : ∀ store ∈ answer.stores storage.bucket, store = none ∨ store = some objects)
    (h : c.exportStorage sink before subject answer storage s = .ok (some s')) :
    ∃ held, ServesBucket before subject objects answer storage (storage.bucket, held) ∧
      Adds s s' (Grouping.pieces (objectBlocks storage.bucket 0 held)) held.length := by
  obtain ⟨pre, hpre, h⟩ := bind_ok.mp h
  cases hlisted : selectObjects objects storage.bucket pre with
  | none =>
    cases hcalls : answer.stores storage.bucket with
    | nil =>
      rw [hcalls] at h
      cases h
    | cons store stores =>
      rw [hcalls] at h hstores
      rcases hstores store List.mem_cons_self with rfl | rfl
      · cases h
      · rw [SupabaseConnector.exportPages, Option.bind_some, pageObjects, hlisted] at h
        cases h
  | some listed =>
    have hlimit : 0 < storagePageSize := by decide
    obtain ⟨names, hpaged, last, hrun⟩ := exportPages_paged hobjects hlisted hstores h
    obtain ⟨held, hserves, hadds⟩ := exportObjects_adds hrun
    refine ⟨held, ⟨rfl, pre, names, mapError_ok.mp hpre, ?_, ?_, hserves⟩, hadds⟩
    · exact Paged.covers order hleast hlimit hobjects hlisted hpaged
    · exact hpaged.pairwise order hlimit (nodup_selectObjects hobjects hlisted)

theorem exportBuckets_ok (order : StrictTotal before)
    (hleast : ∀ name, name ≠ "" → before "" name = true) (hobjects : objects.Nodup)
    {storages : List StorageMapping}
    (hstores : ∀ storage ∈ storages, ∀ store ∈ answer.stores storage.bucket,
      store = none ∨ store = some objects)
    (h : c.exportBuckets sink before subject answer storages s = .ok (some s')) :
    ∃ held, List.Forall₂ (ServesBucket before subject objects answer) storages held ∧
      Adds s s' (Grouping.pieces (held.flatMap fun entry => objectBlocks entry.1 0 entry.2))
        (held.map (·.2.length)).sum := by
  induction storages generalizing s with
  | nil =>
    cases h
    exact ⟨[], .nil, Adds.refl _⟩
  | cons storage storages ih =>
    obtain ⟨next, hstorage, h⟩ := bind_ok.mp h
    cases next with
    | none => cases h
    | some s₁ =>
      obtain ⟨held, hserves, hadds⟩ :=
        exportStorage_ok order hleast hobjects (hstores storage List.mem_cons_self) hstorage
      obtain ⟨rest, hall, hrest⟩ :=
        ih (fun other hother => hstores other (List.mem_cons_of_mem _ hother)) h
      refine ⟨(storage.bucket, held) :: rest, .cons hserves hall, ?_⟩
      have hboth := hadds.trans hrest
      unfold Grouping.pieces at hboth ⊢
      rw [List.flatMap_cons, List.flatMap_append]
      exact hboth

theorem boundedBody_ok {limit : Nat} {bytes bytes' : List UInt8}
    {body : List (Option (List UInt8))} (h : boundedBody limit bytes body = .ok bytes') :
    ∃ chunks : List (List UInt8), body = chunks.map some ∧ bytes' = bytes ++ chunks.flatten := by
  induction body generalizing bytes with
  | nil =>
    obtain rfl := pure_ok.mp h
    exact ⟨[], rfl, (List.append_nil bytes).symm⟩
  | cons chunk body ih =>
    cases chunk with
    | none => cases h
    | some chunk =>
      obtain ⟨-, h⟩ := refuse_bind_ok.mp h
      obtain ⟨chunks, rfl, rfl⟩ := ih h
      exact ⟨chunk :: chunks, rfl, by rw [List.flatten_cons, List.append_assoc]⟩

theorem exportAuthUser_ok (h : c.exportAuthUser sink subject answer s = .ok s') :
    ∃ user, ServesUser True answer user ∧
      Adds s s' (user.map fun bytes => (authUserPath, bytes)).toList user.toList.length := by
  obtain ⟨_, -, h⟩ := bind_ok.mp h
  obtain ⟨_, -, h⟩ := bind_ok.mp h
  obtain ⟨response, hresponse, h⟩ := bind_ok.mp h
  split_ifs at h with hsuccess hmissing
  · obtain ⟨bytes, hbytes, h⟩ := bind_ok.mp h
    obtain ⟨s₁, hwrite, h⟩ := bind_ok.mp h
    obtain rfl := pure_ok.mp h
    obtain ⟨-, hbody⟩ := refuse_bind_ok.mp (mapError_ok.mp hbytes)
    obtain ⟨chunks, hchunks, rfl⟩ := boundedBody_ok hbody
    refine ⟨some chunks.flatten, .inl ⟨trivial, response, okOr_ok.mp hresponse, ?_⟩,
      (write_ok hwrite).trans (adds_counted s₁)⟩
    exact .inl ⟨hsuccess, chunks, hchunks, rfl⟩
  · obtain rfl := pure_ok.mp h
    exact ⟨none, .inl ⟨trivial, response, okOr_ok.mp hresponse,
      .inr ⟨Bool.eq_false_of_not_eq_true hsuccess, rfl⟩⟩, Adds.refl s⟩

end Objects

/-! ## The export -/

namespace Holdings

/-- The pieces of each file. -/
def blocks (k : Holdings) : List (String × List (List UInt8)) :=
  (k.tables.map fun entry => (entry.1.exportPath, tablePieces entry.2)) ++
    (k.buckets.flatMap fun entry => objectBlocks entry.1 0 entry.2) ++
    (k.user.map fun bytes => (authUserPath, [bytes])).toList

end Holdings

section Subject

variable {c : SupabaseConnector} {sink : Sink} {before : String → String → Bool}
  {subject : SubjectIdentity} {selection : ExportSelection} {answer : ExportRemote}
  {objects : List StorageObject} {e : Exported} {k k' : Holdings}

/-- An export that returns has written what the remote holds. -/
theorem exportSubject_ok (order : StrictTotal before)
    (hleast : ∀ name, name ≠ "" → before "" name = true) (hobjects : objects.Nodup)
    (hstores : ∀ storage ∈ c.storage, ∀ store ∈ answer.stores storage.bucket,
      store = none ∨ store = some objects)
    (h : c.exportSubject sink before subject selection answer = .ok (some e)) :
    ∃ k, Serves c before subject selection objects answer k ∧
      entries e.writes = Grouping.pieces k.blocks ∧ e.exportedCount = min k.count (2 ^ 64 - 1) := by
  obtain ⟨-, h⟩ := refuse_bind_ok.mp h
  obtain ⟨-, h⟩ := refuse_bind_ok.mp h
  obtain ⟨s₁, htables, h⟩ := bind_ok.mp h
  obtain ⟨next, hbuckets, h⟩ := bind_ok.mp h
  cases next with
  | none => cases h
  | some s₂ =>
    obtain ⟨tables, htable, hadds₁⟩ := exportTables_ok htables
    obtain ⟨buckets, hbucket, hadds₂⟩ := exportBuckets_ok order hleast hobjects
      (fun storage hstorage => hstores storage (List.mem_of_mem_filter hstorage)) hbuckets
    obtain ⟨user, huser, hadds₃⟩ : ∃ user,
        ServesUser (authUserReference ∈ selection.resources) answer user ∧
          Adds s₂ e (user.map fun bytes => (authUserPath, bytes)).toList user.toList.length := by
      dsimp only at h
      split_ifs at h with hselected
      · obtain ⟨s₃, hrun, h⟩ := bind_ok.mp h
        cases h
        obtain ⟨user, huser, hadds⟩ := exportAuthUser_ok hrun
        refine ⟨user, huser.imp (fun h => ⟨hselected, h.2⟩) (fun h => absurd trivial h.1), hadds⟩
      · cases h
        exact ⟨none, .inr ⟨hselected, rfl⟩, Adds.refl _⟩
    refine ⟨⟨tables, buckets, user⟩, ⟨htable, hbucket, huser⟩, ?_, ?_⟩
    · rw [((hadds₁.trans hadds₂).trans hadds₃).entries]
      unfold Holdings.blocks Grouping.pieces
      rw [List.flatMap_append, List.flatMap_append]
      cases user <;> rfl
    · have hcount := ((hadds₁.trans hadds₂).trans hadds₃).count 0 rfl
      rw [hcount, Nat.zero_add]
      rfl

/-! ## What is held is determined -/

theorem map_some_injective {α : Type} : Function.Injective (List.map (some : α → Option α)) :=
  List.map_injective_iff.mpr (Option.some_injective α)

theorem ServesTable.unique {t : TableMapping} {x y : TableMapping × List (List UInt8)}
    (hx : ServesTable subject answer t x) (hy : ServesTable subject answer t y) : x = y := by
  obtain ⟨hx₁, value, hvalue, hrows⟩ := hx
  obtain ⟨hy₁, value', hvalue', hrows'⟩ := hy
  obtain rfl := Except.ok.inj (hvalue.symm.trans hvalue')
  exact Prod.ext (hx₁.trans hy₁.symm) (map_some_injective (hrows.symm.trans hrows'))

theorem ServesObjects.unique {bucket : String} {index : Nat} {names : List String}
    {x y : List (List (List UInt8))} (hx : ServesObjects answer bucket index names x)
    (hy : ServesObjects answer bucket index names y) : x = y := by
  induction hx generalizing y with
  | nil =>
    cases hy
    rfl
  | cons hresponse hbody _ ih =>
    cases hy with
    | cons hresponse' hbody' hrest =>
      obtain rfl := Option.some.inj (hresponse.symm.trans hresponse')
      rw [map_some_injective (hbody.symm.trans hbody'), ih hrest]

theorem ServesBucket.unique (order : StrictTotal before) {s : StorageMapping}
    {x y : String × List (List (List UInt8))} (hx : ServesBucket before subject objects answer s x)
    (hy : ServesBucket before subject objects answer s y) : x = y := by
  obtain ⟨hx₁, pre, names, hpre, hcovers, hsorted, hserves⟩ := hx
  obtain ⟨hy₁, pre', names', hpre', hcovers', hsorted', hserves'⟩ := hy
  obtain rfl := Except.ok.inj (hpre.symm.trans hpre')
  have hperm : names.Perm names' := (List.perm_ext_iff_of_nodup hcovers.once hcovers'.once).mpr
    fun name => (hcovers.all name).trans (hcovers'.all name).symm
  have hnames : names = names' := by
    refine hperm.eq_of_pairwise (fun a b _ _ hab hba => ?_) hsorted hsorted'
    rw [order.asymm hab] at hba
    cases hba
  subst hnames
  exact Prod.ext (hx₁.trans hy₁.symm) (hserves.unique hserves')

theorem ServesUser.unique {selected : Prop} {x y : Option (List UInt8)}
    (hx : ServesUser selected answer x) (hy : ServesUser selected answer y) : x = y := by
  rcases hx with ⟨hselected, response, hresponse, hx⟩ | ⟨hselected, rfl⟩
  · rcases hy with ⟨-, response', hresponse', hy⟩ | ⟨hnot, -⟩
    · obtain rfl := Option.some.inj (hresponse.symm.trans hresponse')
      rcases hx with ⟨hsuccess, chunks, hbody, rfl⟩ | ⟨hfailed, rfl⟩
      · rcases hy with ⟨-, chunks', hbody', rfl⟩ | ⟨hfailed, -⟩
        · rw [map_some_injective (hbody.symm.trans hbody')]
        · rw [hsuccess] at hfailed
          cases hfailed
      · rcases hy with ⟨hsuccess, -⟩ | ⟨-, rfl⟩
        · rw [hsuccess] at hfailed
          cases hfailed
        · rfl
    · exact absurd hselected hnot
  · rcases hy with ⟨hnot, -⟩ | ⟨-, rfl⟩
    · exact absurd hnot hselected
    · rfl

theorem Serves.unique (order : StrictTotal before)
    (h : Serves c before subject selection objects answer k)
    (h' : Serves c before subject selection objects answer k') : k = k' := by
  have htable : Relator.RightUnique (ServesTable subject answer) :=
    fun _ _ _ => ServesTable.unique
  have hbucket : Relator.RightUnique (ServesBucket before subject objects answer) :=
    fun _ _ _ => ServesBucket.unique order
  have htables : k.tables = k'.tables := List.right_unique_forall₂' htable h.tables h'.tables
  have hbuckets : k.buckets = k'.buckets := List.right_unique_forall₂' hbucket h.buckets h'.buckets
  have huser : k.user = k'.user := h.user.unique h'.user
  cases k
  cases k'
  subst htables hbuckets huser
  rfl

end Subject

/-! ## The files -/

section Files

variable {k : Holdings}

theorem intercalate_cons (record : List UInt8) (records : List (List UInt8)) :
    [0x2c].intercalate (record :: records) = record ++ (rowPieces false records).flatten := by
  induction records generalizing record with
  | nil => simp [rowPieces, List.intercalate]
  | cons next records ih =>
    have hstep : [(0x2c : UInt8)].intercalate (record :: next :: records) =
        record ++ 0x2c :: [0x2c].intercalate (next :: records) := by
      simp [List.intercalate]
    rw [hstep, ih, rowPieces]
    simp

theorem flatten_tablePieces (records : List (List UInt8)) :
    (tablePieces records).flatten = jsonArray records := by
  unfold tablePieces jsonArray
  rw [List.flatten_cons, List.flatten_append, List.flatten_singleton]
  cases records with
  | nil => rfl
  | cons record records =>
    rw [intercalate_cons, rowPieces]
    simp

/-- Up to the last number there is, each object has its own. -/
theorem objectBlocks_eq {bucket : String} {index : Nat} {held : List (List (List UInt8))}
    (h : index + held.length < 2 ^ 64) :
    objectBlocks bucket index held =
      (held.zipIdx index).map fun (chunks, i) => (objectPath bucket (i + 1), chunks) := by
  induction held generalizing index with
  | nil => rfl
  | cons chunks held ih =>
    rw [List.length_cons] at h
    have hnext : saturatingAdd index 1 = index + 1 := by
      unfold saturatingAdd
      omega
    rw [objectBlocks, hnext, ih (by omega), List.zipIdx_cons, List.map_cons]

theorem Holdings.length_le_count {entry : String × List (List (List UInt8))}
    (h : entry ∈ k.buckets) : entry.2.length ≤ k.count := by
  have hsum : entry.2.length ≤ (k.buckets.map (·.2.length)).sum :=
    List.le_sum_of_mem (List.mem_map_of_mem h)
  unfold Holdings.count
  omega

theorem Holdings.files_eq (h : k.count < 2 ^ 64) :
    k.files = k.blocks.map fun block => (block.1, block.2.flatten) := by
  have hobjects : ∀ entry ∈ k.buckets,
      (entry.2.zipIdx.map fun (chunks, i) => (objectPath entry.1 (i + 1), chunks.flatten)) =
        (objectBlocks entry.1 0 entry.2).map fun block => (block.1, block.2.flatten) := by
    intro entry hentry
    have hlength := Holdings.length_le_count hentry
    rw [objectBlocks_eq (by omega), List.map_map]
    rfl
  unfold Holdings.files Holdings.blocks
  rw [List.map_append, List.map_append, List.map_map, List.map_flatMap, List.flatMap_congr hobjects]
  congr 1
  · congr 1
    apply List.map_congr_left
    intro entry _
    rw [Function.comp_apply, flatten_tablePieces]
  · cases k.user with
    | none => rfl
    | some bytes => simp

/-- What makes the paths of holdings differ. -/
structure Holdings.Named (k : Holdings) : Prop where
  tables : ∀ entry ∈ k.tables, entry.1.Valid
  distinct : (k.tables.map (·.1.table)).Nodup
  buckets : ∀ entry ∈ k.buckets, '/' ∉ entry.1.toList
  apart : (k.buckets.map Prod.fst).Nodup

/-- No two files have the same path. -/
theorem Holdings.Named.paths_nodup (h : k.Named) : (k.files.map Prod.fst).Nodup := by
  have hpaths : k.files.map Prod.fst = (k.tables.map fun entry => entry.1.exportPath) ++
      (k.buckets.flatMap fun entry =>
        entry.2.zipIdx.map fun x => objectPath entry.1 (x.2 + 1)) ++
      (k.user.map fun _ => authUserPath).toList := by
    unfold Holdings.files
    rw [List.map_append, List.map_append, List.map_map, List.map_flatMap]
    congr 1
    · simp [Function.comp_def]
    · cases k.user <;> rfl
  have htables : (k.tables.map fun entry => entry.1.exportPath).Nodup := by
    have hinj : ∀ x ∈ k.tables, ∀ y ∈ k.tables, x.1.exportPath = y.1.exportPath → x = y := by
      intro x hx y hy hpath
      exact List.inj_on_of_nodup_map h.distinct hx hy
        (exportPath_inj (h.tables x hx) (h.tables y hy) hpath)
    exact List.Nodup.map_on hinj h.distinct.of_map
  have hobjects : (k.buckets.flatMap fun entry =>
      entry.2.zipIdx.map fun x => objectPath entry.1 (x.2 + 1)).Nodup := by
    refine List.nodup_flatMap.mpr ⟨fun entry hentry => ?_, ?_⟩
    · have hplain := h.buckets entry hentry
      have hnumbers : (entry.2.zipIdx.map Prod.snd).Nodup := by
        rw [List.zipIdx_map_snd]
        exact List.nodup_range'
      refine List.Nodup.map_on (fun x hx y hy hpath => ?_) hnumbers.of_map
      exact List.inj_on_of_nodup_map hnumbers hx hy
        (Nat.succ.inj (objectPath_inj hplain hplain hpath).2)
    · refine (List.pairwise_map.mp h.apart).imp_of_mem fun {x y} hx hy hne => ?_
      intro path hpath hpath'
      obtain ⟨i, -, rfl⟩ := List.mem_map.mp hpath
      obtain ⟨j, -, heq⟩ := List.mem_map.mp hpath'
      exact hne (objectPath_inj (h.buckets y hy) (h.buckets x hx) heq).1.symm
  rw [hpaths]
  refine List.nodup_append.mpr ⟨List.nodup_append.mpr ⟨htables, hobjects, ?_⟩, ?_, ?_⟩
  · intro path hpath path' hpath'
    obtain ⟨t, ht, rfl⟩ := List.mem_map.mp hpath
    obtain ⟨entry, hentry, hmem⟩ := List.mem_flatMap.mp hpath'
    obtain ⟨i, -, rfl⟩ := List.mem_map.mp hmem
    exact exportPath_ne_objectPath (h.tables t ht) (h.buckets entry hentry)
  · cases k.user <;> simp
  · intro path hpath path' hpath'
    obtain ⟨_, -, rfl⟩ : ∃ bytes, k.user = some bytes ∧ authUserPath = path' := by
      simpa using hpath'
    rcases List.mem_append.mp hpath with hpath | hpath
    · obtain ⟨t, ht, rfl⟩ := List.mem_map.mp hpath
      exact exportPath_ne_authUserPath (h.tables t ht)
    · obtain ⟨entry, hentry, hmem⟩ := List.mem_flatMap.mp hpath
      obtain ⟨i, -, rfl⟩ := List.mem_map.mp hmem
      exact objectPath_ne_authUserPath (h.buckets entry hentry)

/-- No object is empty. -/
def Holdings.Arrives (k : Holdings) : Prop :=
  ∀ entry ∈ k.buckets, ∀ chunks ∈ entry.2, chunks ≠ []

theorem Holdings.arrives_iff (h : k.count < 2 ^ 64) :
    k.Arrives ↔ ∀ block ∈ k.blocks, block.2 ≠ [] := by
  have hobjects : ∀ entry ∈ k.buckets, (∀ chunks ∈ entry.2, chunks ≠ []) ↔
      ∀ block ∈ objectBlocks entry.1 0 entry.2, block.2 ≠ [] := by
    intro entry hentry
    have hlength := Holdings.length_le_count hentry
    rw [objectBlocks_eq (by omega), List.forall_mem_map]
    constructor
    · rintro hall ⟨chunks, i⟩ hmem
      exact hall chunks (List.fst_mem_of_mem_zipIdx hmem)
    · intro hall chunks hmem
      obtain ⟨i, hi, rfl⟩ := List.mem_iff_getElem.mp hmem
      exact hall (entry.2[i], i) (List.mk_mem_zipIdx_iff_getElem?.mpr (List.getElem?_eq_getElem hi))
  unfold Holdings.Arrives Holdings.blocks
  rw [forall₂_congr hobjects]
  simp only [List.mem_append, List.mem_map, List.mem_flatMap]
  constructor
  · rintro hall block ((⟨entry, -, rfl⟩ | ⟨entry, hentry, hmem⟩) | huser)
    · exact List.cons_ne_nil _ _
    · exact hall entry hentry block hmem
    · obtain ⟨bytes, -, rfl⟩ : ∃ bytes, k.user = some bytes ∧ (authUserPath, [bytes]) = block := by
        simpa using huser
      exact List.cons_ne_nil _ _
  · intro hall entry hentry block hmem
    exact hall block (.inl (.inr ⟨entry, hentry, hmem⟩))

/-- Pieces that were written are the files if none of these is empty. -/
theorem assembled_of_pieces (hnamed : k.Named) {e : Exported}
    (hwrites : entries e.writes = Grouping.pieces k.blocks)
    (hcount : e.exportedCount = min k.count (2 ^ 64 - 1)) :
    Assembled e k ↔ k.Arrives ∧ k.count < 2 ^ 64 := by
  have hfits : e.exportedCount = k.count → k.count < 2 ^ 64 := by omega
  have hpaths := hnamed.paths_nodup
  have hkeys : k.count < 2 ^ 64 → (k.blocks.map Prod.fst).Nodup := by
    intro hsmall
    rw [k.files_eq hsmall, List.map_map] at hpaths
    exact hpaths
  constructor
  · intro h
    have hsmall := hfits h.counted
    refine ⟨(k.arrives_iff hsmall).mpr ?_, hsmall⟩
    have hlength := congrArg List.length h.files
    unfold filesOf at hlength
    rw [hwrites, k.files_eq hsmall, List.length_map, List.length_map] at hlength
    exact (Grouping.group_pieces_iff (hkeys hsmall)).mp hlength
  · rintro ⟨harrives, hsmall⟩
    refine ⟨?_, hpaths, by omega⟩
    have hfull : (k.blocks.filter fun block => ¬ block.2.isEmpty) = k.blocks := by
      rw [List.filter_eq_self]
      intro block hblock
      have hne := (k.arrives_iff hsmall).mp harrives block hblock
      simpa using hne
    unfold filesOf
    rw [hwrites, Grouping.group_pieces (hkeys hsmall), hfull, k.files_eq hsmall]

end Files

/-- A validated mapping names its files apart. -/
theorem Serves.named {mapping : SupabaseMapping} {m : ValidatedSupabaseMapping}
    (hm : mapping.validate = .ok m) {api : Option SupabaseApi} {before : String → String → Bool}
    {subject : SubjectIdentity} {selection : ExportSelection} {objects : List StorageObject}
    {answer : ExportRemote} {k : Holdings}
    (h : Serves (m.connector api) before subject selection objects answer k) : k.Named := by
  have hsound := SupabaseMapping.validate_sound hm
  have hbuckets := SupabaseMapping.validate_buckets hm
  have htables : k.tables.map Prod.fst =
      m.tables.filter (·.localReference ∈ selection.resources) := by
    refine List.forall₂_eq_eq_eq ▸ ?_
    rw [List.forall₂_map_left_iff]
    exact (List.Forall₂.flip h.tables).imp fun _ _ hserves => hserves.1
  have hstorage : k.buckets.map Prod.fst =
      (m.storage.filter (·.localReference ∈ selection.resources)).map (·.bucket) := by
    refine List.forall₂_eq_eq_eq ▸ ?_
    rw [List.forall₂_map_left_iff, List.forall₂_map_right_iff]
    exact (List.Forall₂.flip h.buckets).imp fun _ _ hserves => hserves.1
  refine ⟨fun entry hentry => ?_, ?_, fun entry hentry => ?_, ?_⟩
  · have hmem : entry.1 ∈ k.tables.map Prod.fst := List.mem_map_of_mem hentry
    rw [htables] at hmem
    exact hsound.tables _ (List.mem_of_mem_filter hmem)
  · have hnames : k.tables.map (·.1.table) = (k.tables.map Prod.fst).map (·.table) := by
      rw [List.map_map]
      rfl
    rw [hnames, htables]
    exact hsound.distinct.sublist (List.filter_sublist.map _)
  · have hmem : entry.1 ∈ k.buckets.map Prod.fst := List.mem_map_of_mem hentry
    rw [hstorage] at hmem
    obtain ⟨s, hs, heq⟩ := List.mem_map.mp hmem
    rw [← heq]
    exact hbuckets s (List.mem_of_mem_filter hs)
  · rw [hstorage]
    exact hsound.buckets.sublist (List.filter_sublist.map _)

/-- An export that returns is what the remote holds for the selection exactly if each object
    arrives in at least one chunk, and fewer than `2 ^ 64` things are counted. -/
theorem assembled_iff (mapping : SupabaseMapping) (m : ValidatedSupabaseMapping)
    (hm : mapping.validate = .ok m) (api : Option SupabaseApi) (sink : Sink)
    (before : String → String → Bool) (order : StrictTotal before)
    (hleast : ∀ name, name ≠ "" → before "" name = true) (subject : SubjectIdentity)
    (selection : ExportSelection) (objects : List StorageObject) (hobjects : objects.Nodup)
    (answer : ExportRemote)
    (hstores : ∀ s ∈ m.storage, ∀ store ∈ answer.stores s.bucket,
      store = none ∨ store = some objects) (e : Exported)
    (h : (m.connector api).exportSubject sink before subject selection answer = .ok (some e)) :
    (∃ k, Serves (m.connector api) before subject selection objects answer k) ∧
      ∀ k, Serves (m.connector api) before subject selection objects answer k →
        (Assembled e k ↔ k.Arrives ∧ k.count < 2 ^ 64) := by
  obtain ⟨k, hserves, hwrites, hcount⟩ := exportSubject_ok order hleast hobjects hstores h
  refine ⟨⟨k, hserves⟩, fun k' hserves' => ?_⟩
  obtain rfl := hserves.unique order hserves'
  exact assembled_of_pieces (hserves.named hm) hwrites hcount

def uploadsApi : SupabaseApi where
  url segments := some ("https://project.supabase.co/" ++ "/".intercalate segments)

def uploads : SupabaseConnector :=
  (validatedUploads "users/{user_id}/").connector (some uploadsApi)

def oneUpload : List StorageObject := [⟨"user-uploads", "users/1/a.txt"⟩]

def uploadSelection : ExportSelection := ⟨["supabase:storage:user-uploads"]⟩

/-- A remote with one object, which arrives in these chunks. -/
def uploadRemote (chunks : List (List UInt8)) : ExportRemote where
  table _ _ := ⟨true, true, [], true⟩
  stores _ := [some oneUpload]
  object _ _ _ := some ⟨200, none, some "text/plain", chunks.map some⟩
  user := none

/-- An object with one byte is delivered. -/
theorem assembled_of_one_byte :
    (∃ k, Serves uploads byCharacters (subjectOf "1") uploadSelection oneUpload
        (uploadRemote [[0x61]]) k) ∧
      ∀ k, Serves uploads byCharacters (subjectOf "1") uploadSelection oneUpload
        (uploadRemote [[0x61]]) k →
      (Assembled ⟨1, [⟨"supabase/storage/user-uploads/files/000001.bin", "text/plain", [0x61]⟩]⟩ k ↔
        k.Arrives ∧ k.count < 2 ^ 64) := by
  refine assembled_iff (userUploads "users/{user_id}/") (validatedUploads "users/{user_id}/")
    (by rfl) (some uploadsApi) (fun _ _ => .ok ()) byCharacters byCharacters_strictTotal
    byCharacters_empty (subjectOf "1") uploadSelection oneUpload (by decide)
    (uploadRemote [[0x61]]) ?_ _ (by decide +kernel)
  intro s _ store hstore
  exact .inr (List.mem_singleton.mp hstore)

/-- An empty object is counted, but no file is written for it. -/
theorem assembled_fails_on_empty_object :
    ∃ e k, uploads.exportSubject (fun _ _ => .ok ()) byCharacters (subjectOf "1") uploadSelection
        (uploadRemote []) = .ok (some e) ∧
      Serves uploads byCharacters (subjectOf "1") uploadSelection oneUpload (uploadRemote []) k ∧
      ¬ Assembled e k := by
  have hcovers : Covers oneUpload "user-uploads" "users/1/".toList ["users/1/a.txt"] := by
    refine ⟨by decide, fun name => ?_⟩
    unfold oneUpload
    rw [List.mem_singleton, List.mem_singleton]
    constructor
    · rintro rfl
      exact ⟨by decide, rfl, by decide⟩
    · rintro ⟨-, hname, -⟩
      exact (StorageObject.mk.inj hname).2
  refine ⟨⟨1, []⟩, ⟨[], [("user-uploads", [[]])], none⟩, by decide +kernel, ⟨.nil, ?_, ?_⟩, ?_⟩
  · refine .cons ⟨rfl, "users/1/".toList, ["users/1/a.txt"], by rfl, hcovers, ?_, ?_⟩ .nil
    · exact List.pairwise_singleton _ _
    · exact .cons rfl rfl .nil
  · exact .inr ⟨by decide, rfl⟩
  · intro h
    have hfiles := h.files
    revert hfiles
    decide +kernel

end ForgetOps.Connector
