import ForgetOps.Supabase.TableErase

/-
  Erasing a table under a validated mapping.

  `eraseTableOn_complete` collects what holds after an erase that returned: verification is
  satisfied, a second erase affects nothing, discovery is what it was with the estimate of the table
  taken to zero, and of the database only the subject's rows of that table have changed.
-/

namespace ForgetOps.Connector

open Guards

section Discovery

variable {c : SupabaseConnector} {subject : SubjectIdentity} {answer : DiscoveryRemote}

theorem discoverTable_reference {db : Database} {t : TableMapping} {item : DiscoveryItem}
    (h : SupabaseConnector.discoverTable subject answer db t = .ok item) :
    item.localReference = t.localReference := by
  obtain ⟨_, -, h⟩ := bind_ok.mp h
  obtain ⟨_, -, h⟩ := bind_ok.mp h
  obtain ⟨_, -, h⟩ := bind_ok.mp h
  rw [← pure_ok.mp h]

theorem discoverStorage_reference {s : StorageMapping} {item : DiscoveryItem}
    (h : SupabaseConnector.discoverStorage subject answer s = .ok item) :
    item.localReference = s.localReference := by
  obtain ⟨_, -, h⟩ := bind_ok.mp h
  obtain ⟨_, -, h⟩ := bind_ok.mp h
  rw [← pure_ok.mp h]

theorem discoverAuthUser_reference {references : List String} {items : List DiscoveryItem}
    (h : c.discoverAuthUser subject answer references = .ok items) :
    ∀ item ∈ items, item.localReference = "supabase:auth:user" := by
  unfold SupabaseConnector.discoverAuthUser at h
  split_ifs at h
  · obtain ⟨_, -, h⟩ := bind_ok.mp h
    obtain ⟨_, -, h⟩ := bind_ok.mp h
    obtain ⟨_, -, h⟩ := bind_ok.mp h
    obtain ⟨_, -, h⟩ := bind_ok.mp h
    obtain rfl := pure_ok.mp h
    intro item hitem
    rw [List.mem_singleton.mp hitem]
  · obtain rfl := pure_ok.mp h
    exact nofun

/-- An item of another resource keeps its estimate. -/
theorem map_zeroed {resource : String} {items : List DiscoveryItem}
    (h : ∀ item ∈ items, item.localReference ≠ resource) : items.map (zeroed resource) = items := by
  calc items.map (zeroed resource)
      = items.map id := List.map_congr_left fun item hitem => if_neg (h item hitem)
    _ = items := List.map_id items

/-- Discovery after the erase is the one before it, with the estimate of the table at zero. -/
theorem discoverSubject_erased {m : ValidatedSupabaseMapping} {api : Option SupabaseApi}
    (hsound : m.Sound) {t : TableMapping} (hmem : t ∈ m.tables) {value : String}
    (hvalue : (t.subjectValue subject).result = .ok value) {db db' : Database} {r : Relation}
    (herased : Erased t value db db' r) :
    (m.connector api).discoverSubject subject answer db' =
      ((m.connector api).discoverSubject subject answer db).map fun found =>
        ⟨found.items.map (zeroed t.localReference)⟩ := by
  have htables : m.tables.mapM (SupabaseConnector.discoverTable subject answer db') =
      (m.tables.mapM (SupabaseConnector.discoverTable subject answer db)).map
        (List.map (zeroed t.localReference)) := by
    apply mapM_map_eq
    intro t' hmem'
    by_cases hsame : t' = t
    · rw [hsame]
      exact discoverTable_erased herased (hsound.tables t hmem) hvalue
    · have htable : t'.table ≠ t.table := fun h =>
        hsame (List.inj_on_of_nodup_map hsound.distinct hmem' hmem h)
      apply discoverTable_other herased
      · exact fun h => htable (Prod.mk.inj h).2
      · exact fun h =>
          htable (table_of_localReference (hsound.tables t' hmem') (hsound.tables t hmem) h)
  unfold SupabaseConnector.discoverSubject ValidatedSupabaseMapping.connector
  dsimp only
  rw [htables]
  cases answer.begins with
  | false => rfl
  | true =>
    cases m.tables.mapM (SupabaseConnector.discoverTable subject answer db) with
    | error e => rfl
    | ok tables =>
      cases hstorage : m.storage.mapM (SupabaseConnector.discoverStorage subject answer) with
      | error e => rfl
      | ok storage =>
        cases answer.commits with
        | false => rfl
        | true =>
          have hreferences :
              (tables.map (zeroed t.localReference) ++ storage).map (·.localReference) =
                (tables ++ storage).map (·.localReference) := by
            rw [List.map_append, List.map_append, List.map_map]
            congr 1
            exact List.map_congr_left fun item _ => zeroed_localReference _ item
          show (SupabaseConnector.discoverAuthUser _ subject answer _ >>= _ :
              Except ConnectorError DiscoveryResult) =
            (SupabaseConnector.discoverAuthUser _ subject answer _ >>= _ :
              Except ConnectorError DiscoveryResult).map _
          rw [hreferences]
          cases huser : SupabaseConnector.discoverAuthUser
              ⟨m.tables, m.storage, m.deleteAuthUser, api⟩ subject answer
              ((tables ++ storage).map (·.localReference)) with
          | error e => rfl
          | ok user =>
            have hstorage' : storage.map (zeroed t.localReference) = storage := by
              apply map_zeroed
              have hitem : ∀ s item, SupabaseConnector.discoverStorage subject answer s = .ok item →
                  item.localReference = s.localReference ∧
                    item.localReference ≠ t.localReference := by
                intro s item h
                have hreference := discoverStorage_reference h
                exact ⟨hreference, hreference ▸ storage_localReference_ne s t⟩
              exact (forall_of_mapM hitem hstorage).2
            have huser' : user.map (zeroed t.localReference) = user := by
              apply map_zeroed
              intro item hitem
              rw [discoverAuthUser_reference huser item hitem]
              exact user_localReference_ne t
            show Except.ok _ = Except.ok _
            dsimp only
            rw [List.map_append, List.map_append, hstorage', huser']

/-- A discovery that returns has an item for each table. -/
theorem exists_item {m : ValidatedSupabaseMapping} {api : Option SupabaseApi} {db : Database}
    {t : TableMapping} (hmem : t ∈ m.tables) {found : DiscoveryResult}
    (h : (m.connector api).discoverSubject subject answer db = .ok found) :
    ∃ item ∈ found.items, item.localReference = t.localReference := by
  obtain ⟨_, -, h⟩ := bind_ok.mp h
  obtain ⟨tables, htables, h⟩ := bind_ok.mp h
  obtain ⟨storage, -, h⟩ := bind_ok.mp h
  obtain ⟨_, -, h⟩ := bind_ok.mp h
  obtain ⟨user, -, h⟩ := bind_ok.mp h
  obtain rfl := pure_ok.mp h
  have hitem : ∀ t item, SupabaseConnector.discoverTable subject answer db t = .ok item →
      item.localReference = t.localReference ∧ True :=
    fun _ _ h => ⟨discoverTable_reference h, trivial⟩
  have hnames := (forall_of_mapM hitem htables).1
  have hreference := List.mem_map_of_mem (f := (·.localReference)) hmem
  change t.localReference ∈ (m.connector api).tables.map (·.localReference) at hreference
  rw [← hnames, List.mem_map] at hreference
  obtain ⟨item, hitem, hlocal⟩ := hreference
  exact ⟨item, List.mem_append_left _ (List.mem_append_left _ hitem), hlocal⟩

end Discovery

/-- What holds of the database before an erase of the table and the one after it. -/
structure EraseComplete (c : SupabaseConnector) (subject : SubjectIdentity) (t : TableMapping)
    (value : String) (db db' : Database) : Prop where
  verified : c.verifyTable subject ⟨t.localReference, t.outcome⟩ true db' = .ok ⟨true, 0, none⟩
  again : ∀ plan link, plan.resource = t.localReference → plan.action = t.proposedAction →
    link.begins = true → link.answers = true → link.commitAnswered = true →
    c.eraseTableOn subject plan link db' = (.ok ⟨plan.operationKey, t.outcome, 0, none⟩, db')
  discovered : ∀ answer, c.discoverSubject subject answer db' =
    (c.discoverSubject subject answer db).map fun found =>
      ⟨found.items.map (zeroed t.localReference)⟩
  estimated : ∀ answer found, c.discoverSubject subject answer db' = .ok found →
    (∃ item ∈ found.items, item.localReference = t.localReference) ∧
      ∀ item ∈ found.items, item.localReference = t.localReference → item.estimatedCount = 0
  otherTables : ∀ name, name ≠ t.name → db' name = db name
  deleted : t.action = .delete → ∃ r, db t.name = some r ∧
    db' t.name = some { r with rows := r.rows.filter fun row => row t.identityColumn ≠ some value }
  anonymized : t.action = .anonymize → ∃ r rows, db t.name = some r ∧
    db' t.name = some { r with rows } ∧ rows.length = r.rows.length ∧
      ∀ (i : Nat) (row row' : Row), r.rows[i]? = some row → rows[i]? = some row' →
        (row t.identityColumn ≠ some value → row' = row) ∧
          ∀ column, column ∉ t.fields → row' column = row column

section Completeness

variable {c : SupabaseConnector} {subject : SubjectIdentity} {t : TableMapping} {value : String}
  {db db' : Database} {r : Relation}

theorem verifyTable_erased (herased : Erased t value db db' r) (ht : t.Valid)
    (hfind : c.tables.find? (·.localReference = t.localReference) = some t)
    (hvalue : (t.subjectValue subject).result = .ok value) :
    c.verifyTable subject ⟨t.localReference, t.outcome⟩ true db' = .ok ⟨true, 0, none⟩ := by
  unfold SupabaseConnector.verifyTable SupabaseConnector.tableForResource
  rw [result_okOr, bind_ok]
  refine ⟨t, okOr_ok.mpr hfind, ?_⟩
  rw [refuse_bind_ok, bind_ok]
  refine ⟨not_not.mpr rfl, value, hvalue, ?_⟩
  rw [herased.countWhere_after ht]
  rfl

/-- The second erase is an erase of no row. -/
theorem erased_again (herased : Erased t value db db' r) (ht : t.Valid) :
    Erased t value db' db' { r with rows := t.eraseRows value r.rows } where
  relation := herased.relation_after
  fields := herased.fields
  left := by
    have hnone := countP_eraseRows ht value r.rows
    have hrows := eraseRows_of_countP hnone
    show db' = db'.setRows t.name _ (t.eraseRows value (t.eraseRows value r.rows))
    rw [hrows]
    exact (setRows_self (relation_ok herased.relation_after).2.1).symm

theorem eraseTableOn_again (herased : Erased t value db db' r) (ht : t.Valid)
    (hfind : c.tables.find? (·.localReference = t.localReference) = some t)
    (hvalue : (t.subjectValue subject).result = .ok value) {plan : ErasePlan} {link : Link}
    (hplan : plan.resource = t.localReference) (haction : plan.action = t.proposedAction)
    (hbegins : link.begins = true) (hanswers : link.answers = true)
    (hcommit : link.commitAnswered = true) :
    c.eraseTableOn subject plan link db' = (.ok ⟨plan.operationKey, t.outcome, 0, none⟩, db') := by
  have hnone := countP_eraseRows ht value r.rows
  rw [eraseTableOn_ok, eraseTransaction_ok]
  refine ⟨⟨t, value, _, hplan ▸ hfind, haction, hvalue, hbegins, hanswers,
    erased_again herased ht, fun _ => .inl hnone, ?_⟩, hcommit⟩
  rw [hnone]

theorem deleted_rows (herased : Erased t value db db' r) (haction : t.action = .delete) :
    db' t.name =
      some { r with rows := r.rows.filter fun row => row t.identityColumn ≠ some value } := by
  rw [herased.left]
  unfold Database.setRows TableMapping.eraseRows Rows.deleteWhere hasText
  rw [Function.update_self, haction]
  simp only [decide_not]

theorem anonymized_rows (herased : Erased t value db db' r) (haction : t.action = .anonymize) :
    ∃ rows, db' t.name = some { r with rows } ∧ rows.length = r.rows.length ∧
      ∀ (i : Nat) (row row' : Row), r.rows[i]? = some row → rows[i]? = some row' →
        (row t.identityColumn ≠ some value → row' = row) ∧
          ∀ column, column ∉ t.fields → row' column = row column := by
  refine ⟨Rows.updateWhere (hasText t.identityColumn value) (setNull t.fields) r.rows, ?_,
    Rows.length_updateWhere _, ?_⟩
  · rw [herased.left]
    unfold Database.setRows TableMapping.eraseRows
    rw [Function.update_self, haction]
  · intro i row row' hrow hrow'
    rw [Rows.getElem?_updateWhere, hrow, Option.map_some, Option.some.injEq] at hrow'
    subst hrow'
    unfold hasText
    constructor
    · intro hother
      exact if_neg (by simpa using hother)
    · intro column hcolumn
      split_ifs
      · exact if_neg hcolumn
      · rfl

end Completeness

/-- An erase of a table that returned is complete, idempotent and confined to the subject's rows. -/
theorem eraseTableOn_complete (mapping : SupabaseMapping) (m : ValidatedSupabaseMapping)
    (hm : mapping.validate = .ok m) (api : Option SupabaseApi) (subject : SubjectIdentity)
    (plan : ErasePlan) (link : Link) (db db' : Database) (result : EraseResult)
    (h : (m.connector api).eraseTableOn subject plan link db = (.ok result, db')) :
    ∃ t ∈ m.tables, ∃ value, t.localReference = plan.resource ∧ t.proposedAction = plan.action ∧
      (t.subjectValue subject).result = .ok value ∧
      EraseComplete (m.connector api) subject t value db db' := by
  have hsound := SupabaseMapping.validate_sound hm
  obtain ⟨t, value, r, hfind, haction, hvalue, -, -, herased, -, -⟩ :=
    eraseTransaction_ok.mp (eraseTableOn_ok.mp h).1
  have hmem : t ∈ m.tables := List.mem_of_find?_eq_some hfind
  have hreference : t.localReference = plan.resource := by
    simpa using List.find?_some hfind
  rw [← hreference] at hfind
  have ht := hsound.tables t hmem
  have hdiscovered : ∀ answer, (m.connector api).discoverSubject subject answer db' =
      ((m.connector api).discoverSubject subject answer db).map fun found =>
        ⟨found.items.map (zeroed t.localReference)⟩ :=
    fun answer => discoverSubject_erased hsound hmem hvalue herased
  refine ⟨t, hmem, value, hreference, haction.symm, hvalue, ?_⟩
  exact {
    verified := verifyTable_erased herased ht hfind hvalue
    again := fun plan link => eraseTableOn_again herased ht hfind hvalue
    discovered := hdiscovered
    estimated := by
      intro answer found hfound
      refine ⟨exists_item hmem hfound, ?_⟩
      rw [hdiscovered] at hfound
      cases hbefore : (m.connector api).discoverSubject subject answer db with
      | error e =>
        rw [hbefore] at hfound
        cases hfound
      | ok before =>
        rw [hbefore] at hfound
        obtain rfl := Except.ok.inj hfound
        intro item hitem hlocal
        obtain ⟨item₀, -, rfl⟩ := List.mem_map.mp hitem
        rw [zeroed_localReference] at hlocal
        unfold zeroed
        rw [if_pos hlocal]
    otherTables := fun name hname => herased.frame hname
    deleted := fun h => ⟨r, (relation_ok herased.relation).2.1, deleted_rows herased h⟩
    anonymized := by
      intro h
      obtain ⟨rows, hrows⟩ := anonymized_rows herased h
      exact ⟨r, rows, (relation_ok herased.relation).2.1, hrows⟩ }

/-! ## The documented audit table -/

def auditMapping : SupabaseMapping where
  tables := ⟨[("audit_events", ⟨"public", "actor_user_id", .applicationUserId, false,
    some .anonymize, ["actor_user_id", "actor_email"]⟩)], List.pairwise_singleton _ _⟩
  storage := ⟨[], BTreeMap.sorted_nil⟩
  deleteAuthUser := false
  approvedFunctions := []

def auditTable : TableMapping :=
  ⟨"public", "audit_events", "actor_user_id", .applicationUserId, .anonymize,
    ["actor_user_id", "actor_email"]⟩

def auditConnector : SupabaseConnector := ⟨[auditTable], [], false, none⟩

/-- Two events, one of each user. -/
def auditDatabase : Database := fun name =>
  if name = ("public", "audit_events") then
    some ⟨["id", "actor_user_id", "actor_email"], ["id"],
      [fun column => if column = "id" then some "1"
        else if column = "actor_user_id" then some "u1" else some "u1@example.test",
        fun column => if column = "id" then some "2"
        else if column = "actor_user_id" then some "u2" else none]⟩
  else none

def auditPlan : ErasePlan := ⟨"supabase:table:public.audit_events", "operation-1", .anonymize⟩

/-- What an erase of the first user leaves. -/
def auditErased : Database :=
  (auditConnector.eraseTableOn ⟨some "u1", none⟩ auditPlan ⟨true, true, true, true⟩ auditDatabase).2

theorem eraseTableOn_complete_on_auditEvents :
    ∃ t ∈ [auditTable], ∃ value, t.localReference = auditPlan.resource ∧
      t.proposedAction = auditPlan.action ∧
      (t.subjectValue ⟨some "u1", none⟩).result = .ok value ∧
      EraseComplete auditConnector ⟨some "u1", none⟩ t value auditDatabase auditErased :=
  eraseTableOn_complete auditMapping ⟨[auditTable], [], false, []⟩ (by rfl) none ⟨some "u1", none⟩
    auditPlan ⟨true, true, true, true⟩ auditDatabase auditErased
    ⟨"operation-1", .anonymized, 1, none⟩ (Prod.ext (by rfl) (by rfl))

end ForgetOps.Connector
