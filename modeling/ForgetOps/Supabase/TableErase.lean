import ForgetOps.Supabase.Tables

/-
  What an erase of a table leaves behind.

  After it no row has the subject's text in the identity column: a deleted row is gone, and an
  anonymized one lost the text, since its mapping was validated only with the identity column among
  its fields. So verification counts nothing, a second erase finds nothing to do, and discovery
  estimates nothing. `Erased` is the one fact about the database that all of this follows from.
-/

namespace ForgetOps.Connector

open Guards

/-! ## References -/

theorem notMem_of_validIdentifier {value : String} (h : validIdentifier value = true) :
    '.' ∉ value.toList := by
  intro hmem
  unfold validIdentifier at h
  rw [decide_eq_true_eq] at h
  have hdot := List.all_eq_true.mp h.2.2 _ hmem
  exact absurd hdot (by decide)

/-- The reference of a table tells its name. -/
theorem table_of_localReference {t t' : TableMapping} (ht : t.Valid) (ht' : t'.Valid)
    (h : t.localReference = t'.localReference) : t.table = t'.table := by
  have hchars := congrArg String.toList h
  unfold TableMapping.localReference at hchars
  simp only [String.toList_append, List.append_assoc, List.append_cancel_left_eq] at hchars
  have hlines := congrArg (fun text => (Lines.split '.' text).2) hchars
  have hsplit : ∀ u : TableMapping, u.Valid →
      (Lines.split '.' (u.schema.toList ++ (".".toList ++ u.table.toList))).2 =
        u.table.toList := by
    intro u hu
    show (Lines.split '.' (u.schema.toList ++ '.' :: u.table.toList)).2 = _
    rw [Lines.split_line (notMem_of_validIdentifier hu.schema),
      Lines.split_of_notMem (notMem_of_validIdentifier hu.table)]
  rw [hsplit t ht, hsplit t' ht'] at hlines
  exact String.toList_inj.mp hlines

theorem storage_localReference_ne (s : StorageMapping) (t : TableMapping) :
    s.localReference ≠ t.localReference := by
  intro h
  have hchars := congrArg String.toList h
  unfold StorageMapping.localReference TableMapping.localReference at hchars
  simp [String.toList_append] at hchars

theorem user_localReference_ne (t : TableMapping) : "supabase:auth:user" ≠ t.localReference := by
  intro h
  have hchars := congrArg String.toList h
  unfold TableMapping.localReference at hchars
  simp [String.toList_append] at hchars

/-! ## The rows -/

/-- The rows that an erase leaves. -/
def TableMapping.eraseRows (t : TableMapping) (value : String) (rows : List Row) : List Row :=
  match t.action with
  | .delete => Rows.deleteWhere (hasText t.identityColumn value) rows
  | .anonymize => Rows.updateWhere (hasText t.identityColumn value) (setNull t.fields) rows

/-- No row with the text is left: an anonymized table nulls its identity column. -/
theorem countP_eraseRows {t : TableMapping} (ht : t.Valid) (value : String) (rows : List Row) :
    (t.eraseRows value rows).countP (hasText t.identityColumn value) = 0 := by
  unfold TableMapping.eraseRows
  cases haction : t.action with
  | delete => exact Rows.countP_deleteWhere rows
  | anonymize =>
    apply Rows.countP_updateWhere
    intro row _
    unfold hasText setNull
    rw [if_pos (ht.anonymized haction)]
    rfl

/-- Where no row has the text, the rows stay. -/
theorem eraseRows_of_countP {t : TableMapping} {value : String} {rows : List Row}
    (h : rows.countP (hasText t.identityColumn value) = 0) : t.eraseRows value rows = rows := by
  unfold TableMapping.eraseRows
  cases t.action with
  | delete => exact Rows.deleteWhere_of_countP h
  | anonymize => exact Rows.updateWhere_of_countP h

/-! ## The database after an erase -/

/-- The database takes the statement of an erase, and this is what it leaves. -/
structure Erased (t : TableMapping) (value : String) (db db' : Database) (r : Relation) : Prop where
  relation : db.relation t.name t.identityColumn value = some r
  fields : t.action = .anonymize →
    t.fields ≠ [] ∧ t.fields.Nodup ∧ ∀ field ∈ t.fields, field ∈ r.columns
  left : db' = db.setRows t.name r (t.eraseRows value r.rows)

theorem relation_ok {db : Database} {name : String × String} {column value : String}
    {r : Relation} (h : db.relation name column value = some r) :
    Char.ofNat 0 ∉ value.toList ∧ db name = some r ∧ column ∈ r.columns := by
  obtain ⟨hr, hcolumn⟩ := Option.filter_eq_some_iff.mp h
  obtain ⟨_, htext, hr⟩ := Option.bind_eq_some_iff.mp hr
  unfold textParameter at htext
  split_ifs at htext with hnul
  exact ⟨hnul, hr, of_decide_eq_true hcolumn⟩

theorem relation_setRows {db : Database} {name : String × String} {column value : String}
    {r : Relation} (h : db.relation name column value = some r) (rows : List Row) :
    (db.setRows name r rows).relation name column value = some { r with rows } := by
  obtain ⟨hnul, -, hcolumn⟩ := relation_ok h
  unfold Database.relation Database.setRows textParameter
  rw [if_neg hnul, Option.bind_some, Function.update_self, Option.filter_some]
  exact if_pos (decide_eq_true hcolumn)

theorem relation_of_ne {db : Database} {name name' : String × String} (h : name' ≠ name)
    (r : Relation) (rows : List Row) (column value : String) :
    (db.setRows name r rows).relation name' column value = db.relation name' column value := by
  unfold Database.relation Database.setRows
  rw [Function.update_of_ne h]

section Erased

variable {t : TableMapping} {value : String} {db db' : Database} {r : Relation}

theorem Erased.relation_after (h : Erased t value db db' r) :
    db'.relation t.name t.identityColumn value =
      some { r with rows := t.eraseRows value r.rows } := by
  rw [h.left, relation_setRows h.relation]

theorem Erased.countWhere_after (h : Erased t value db db' r) (ht : t.Valid) :
    db'.countWhere t.name t.identityColumn value = some 0 := by
  unfold Database.countWhere
  rw [h.relation_after, Option.map_some, countP_eraseRows ht]

theorem Erased.frame (h : Erased t value db db' r) {name : String × String} (hname : name ≠ t.name) :
    db' name = db name := by
  rw [h.left]
  exact Function.update_of_ne hname _ _

/-- Setting the rows a table has changes nothing. -/
theorem setRows_self (h : db t.name = some r) : db.setRows t.name r r.rows = db := by
  unfold Database.setRows
  rw [← h]
  exact Function.update_eq_self _ _

end Erased

/-! ## Erasing -/

theorem statement_outcome (t : TableMapping) (value : String) (db : Database) :
    (t.statement value db).2 = t.outcome := by
  unfold TableMapping.statement TableMapping.outcome
  cases t.action <;> rfl

/-- The statement of an erase on the rows of a table. -/
theorem statement_iff {t : TableMapping} {value : String} {db left : Database} {n : Nat} :
    (t.statement value db).1 = some (n, left) ↔
      ∃ r, Erased t value db left r ∧ n = r.rows.countP (hasText t.identityColumn value) ∧
        (t.action = .anonymize → n = 0 ∨ ∀ field ∈ t.fields, field ∉ r.notNull) := by
  unfold TableMapping.statement
  cases haction : t.action with
  | delete =>
    show db.deleteWhere _ _ _ = _ ↔ _
    rw [Database.deleteWhere, Option.map_eq_some_iff]
    refine exists_congr fun r => ?_
    rw [Prod.mk.injEq]
    constructor
    · rintro ⟨hr, rfl, rfl⟩
      refine ⟨⟨hr, fun h => absurd h (by rw [haction]; decide), ?_⟩, rfl, nofun⟩
      unfold TableMapping.eraseRows
      rw [haction]
    · rintro ⟨herased, rfl, -⟩
      refine ⟨herased.relation, rfl, ?_⟩
      rw [herased.left, TableMapping.eraseRows, haction]
  | anonymize =>
    show db.nullWhere _ _ _ _ = _ ↔ _
    rw [Database.nullWhere, Option.map_eq_some_iff]
    refine exists_congr fun r => ?_
    rw [Prod.mk.injEq, Option.filter_eq_some_iff, decide_eq_true_eq]
    constructor
    · rintro ⟨⟨hr, hne, hnodup, hcolumns, hnull⟩, rfl, rfl⟩
      refine ⟨⟨hr, fun _ => ⟨hne, hnodup, hcolumns⟩, ?_⟩, rfl, fun _ => hnull⟩
      unfold TableMapping.eraseRows
      rw [haction]
    · rintro ⟨herased, rfl, hnull⟩
      obtain ⟨hne, hnodup, hcolumns⟩ := herased.fields haction
      refine ⟨⟨herased.relation, hne, hnodup, hcolumns, hnull rfl⟩, rfl, ?_⟩
      rw [herased.left, TableMapping.eraseRows, haction]

section Erase

variable {c : SupabaseConnector} {subject : SubjectIdentity} {plan : ErasePlan} {link : Link}
  {db db' : Database} {result : EraseResult}

theorem eraseTransaction_ok :
    c.eraseTransaction subject plan link db = .ok (result, db') ↔
      ∃ t value r, c.tables.find? (·.localReference = plan.resource) = some t ∧
        plan.action = t.proposedAction ∧ (t.subjectValue subject).result = .ok value ∧
        link.begins = true ∧ link.answers = true ∧ Erased t value db db' r ∧
        (t.action = .anonymize → r.rows.countP (hasText t.identityColumn value) = 0 ∨
          ∀ field ∈ t.fields, field ∉ r.notNull) ∧
        result = ⟨plan.operationKey, t.outcome,
          r.rows.countP (hasText t.identityColumn value), none⟩ := by
  unfold SupabaseConnector.eraseTransaction SupabaseConnector.tableForResource
  rw [result_okOr, bind_ok]
  refine exists_congr fun t => ?_
  rw [okOr_ok, refuse_bind_ok, not_not, bind_ok]
  constructor
  · rintro ⟨ht, haction, value, hvalue, h⟩
    obtain ⟨hbegins, h⟩ := refuse_bind_ok.mp h
    obtain ⟨⟨n, left⟩, hn, h⟩ := bind_ok.mp h
    rw [okOr_ok, Option.filter_eq_some_iff] at hn
    obtain ⟨rfl, rfl⟩ := Prod.mk.inj (pure_ok.mp h)
    obtain ⟨r, herased, rfl, hnull⟩ := statement_iff.mp hn.1
    rw [statement_outcome]
    exact ⟨value, r, ht, haction, hvalue, Bool.eq_true_of_not_eq_false hbegins, hn.2, herased,
      hnull, rfl⟩
  · rintro ⟨value, r, ht, haction, hvalue, hbegins, hanswers, herased, hnull, rfl⟩
    refine ⟨ht, haction, value, hvalue, refuse_bind_ok.mpr ⟨by rw [hbegins]; decide, ?_⟩⟩
    have hstatement := statement_iff.mpr ⟨r, herased, rfl, hnull⟩
    dsimp only
    rw [hstatement, bind_ok, statement_outcome]
    refine ⟨(_, db'), ?_, rfl⟩
    rw [okOr_ok, Option.filter_some]
    exact if_pos hanswers

theorem eraseTableOn_ok :
    c.eraseTableOn subject plan link db = (.ok result, db') ↔
      c.eraseTransaction subject plan link db = .ok (result, db') ∧ link.commitAnswered = true := by
  unfold SupabaseConnector.eraseTableOn
  split
  · next e he => simp [he]
  · next returned left hleft =>
    rw [hleft, Except.ok.injEq]
    by_cases hcommit : link.commitAnswered = true
    · simp [hcommit]
    · simp [hcommit]

end Erase

/-! ## The erase on a database and the erase on its answers -/

theorem outcome_subjectValue (t : TableMapping) (subject : SubjectIdentity) (mutated : Bool) :
    (t.subjectValue subject).outcome mutated = ((t.subjectValue subject).result, mutated) := by
  unfold TableMapping.subjectValue Connecting.result
  rw [outcome_okOr, outcome_okOr]

/-- On a database an erase answers what it answers to the rows its statement affects there. -/
theorem eraseTableOn_refines (c : SupabaseConnector) (subject : SubjectIdentity) (plan : ErasePlan)
    (link : Link) (db : Database) :
    ∃ affected, ∀ mutated,
      ((c.eraseTable subject plan
        ⟨link.begins, affected, link.commitAnswered, link.commitApplied⟩).outcome mutated).1 =
      (c.eraseTableOn subject plan link db).1 := by
  unfold SupabaseConnector.eraseTable SupabaseConnector.eraseTableOn
    SupabaseConnector.eraseTransaction SupabaseConnector.tableForResource
  simp only [Connecting.outcome_bind, outcome_subjectValue, outcome_okOr, outcome_failIf,
    result_okOr]
  cases Guards.okOr (c.tables.find? (·.localReference = plan.resource)) _ with
  | error e => exact ⟨none, fun _ => rfl⟩
  | ok t =>
    dsimp only [bind, Except.bind]
    cases (t.subjectValue subject).result with
    | error e =>
      refine ⟨none, fun _ => ?_⟩
      cases refuse (plan.action ≠ t.proposedAction) _ <;> rfl
    | ok value =>
      refine ⟨((t.statement value db).1.filter fun _ => link.answers).map (·.1), fun _ => ?_⟩
      cases refuse (plan.action ≠ t.proposedAction) _ with
      | error e => rfl
      | ok =>
        cases refuse (link.begins = false) _ with
        | error e => rfl
        | ok =>
          dsimp only
          cases (t.statement value db).1.filter fun _ => link.answers with
          | none => rfl
          | some executed =>
            cases link.commitAnswered with
            | false => rfl
            | true =>
              show Except.ok _ = Except.ok _
              rw [statement_outcome]
              rfl

/-! ## Discovery before and after -/

/-- A discovery in which the estimate of a resource is taken back to zero. -/
def zeroed (resource : String) (item : DiscoveryItem) : DiscoveryItem :=
  if item.localReference = resource then { item with estimatedCount := 0 } else item

theorem zeroed_localReference (resource : String) (item : DiscoveryItem) :
    (zeroed resource item).localReference = item.localReference := by
  unfold zeroed
  split_ifs <;> rfl

theorem mapM_map_eq {α β : Type} {f g : α → Except ConnectorError β} {z : β → β} {as : List α}
    (h : ∀ a ∈ as, f a = (g a).map z) : as.mapM f = (as.mapM g).map (List.map z) := by
  induction as with
  | nil => rfl
  | cons a as ih =>
    rw [List.mapM_cons, List.mapM_cons, h a List.mem_cons_self,
      ih fun b hb => h b (List.mem_cons_of_mem _ hb)]
    cases g a with
    | error e => rfl
    | ok b => cases as.mapM g <;> rfl

section Discovery

variable {c : SupabaseConnector} {subject : SubjectIdentity} {answer : DiscoveryRemote}
  {t : TableMapping} {value : String} {db db' : Database} {r : Relation}

/-- Discovery counts nothing in the erased table. -/
theorem discoverTable_erased (herased : Erased t value db db' r) (ht : t.Valid)
    (hvalue : (t.subjectValue subject).result = .ok value) :
    SupabaseConnector.discoverTable subject answer db' t =
      (SupabaseConnector.discoverTable subject answer db t).map (zeroed t.localReference) := by
  unfold SupabaseConnector.discoverTable
  rw [hvalue]
  have hbefore : db.countWhere t.name t.identityColumn value =
      some (r.rows.countP (hasText t.identityColumn value)) := by
    rw [Database.countWhere, herased.relation, Option.map_some]
  show (Guards.okOr _ _ >>= _ : Except ConnectorError DiscoveryItem) =
    (Guards.okOr _ _ >>= _ : Except ConnectorError DiscoveryItem).map _
  rw [herased.countWhere_after ht, hbefore, Option.filter_some, Option.filter_some]
  cases answer.counts t.qualifiedName with
  | false => rfl
  | true =>
    cases answer.cascades t.qualifiedName with
    | none => rfl
    | some cascade =>
      show Except.ok _ = Except.ok (zeroed _ _)
      unfold zeroed
      rw [if_pos rfl]

/-- It counts in every other table what it counted before. -/
theorem discoverTable_other (herased : Erased t value db db' r) {t' : TableMapping}
    (hname : t'.name ≠ t.name) (hreference : t'.localReference ≠ t.localReference) :
    SupabaseConnector.discoverTable subject answer db' t' =
      (SupabaseConnector.discoverTable subject answer db t').map (zeroed t.localReference) := by
  have hsame : SupabaseConnector.discoverTable subject answer db' t' =
      SupabaseConnector.discoverTable subject answer db t' := by
    unfold SupabaseConnector.discoverTable Database.countWhere
    rw [herased.left]
    simp only [relation_of_ne hname]
  rw [hsame]
  cases hitem : SupabaseConnector.discoverTable subject answer db t' with
  | error e => rfl
  | ok item =>
    have hlocal : item.localReference = t'.localReference := by
      obtain ⟨_, -, hitem⟩ := bind_ok.mp hitem
      obtain ⟨_, -, hitem⟩ := bind_ok.mp hitem
      obtain ⟨_, -, hitem⟩ := bind_ok.mp hitem
      rw [← pure_ok.mp hitem]
    show Except.ok item = Except.ok (zeroed _ item)
    unfold zeroed
    rw [hlocal, if_neg hreference]

end Discovery

end ForgetOps.Connector
