import ForgetOps.Sdk.RequestBodies

/-
  Which requests of the connector the adapter understands as they were meant.

  Every body is read by the schema of its route. A health check always agrees; a discovery or an
  export agrees where the schema leaves its texts as they are and takes its request type; an erase
  and a verification never do, since both are serialized with the resource a second time, inside an
  object that takes no such member: `agrees_iff_fits`.
-/

namespace ForgetOps.AdapterHttp

open Connector AdapterSdk

/-! ## What is meant -/

def subjectMeant (subject : Connector.SubjectIdentity) : AdapterSdk.SubjectIdentity :=
  ⟨subject.applicationUserId, subject.email⟩

def AdapterMessage.meaning : AdapterMessage → AdapterRequestBody
  | .health => .health
  | .discover subject request => .discover (subjectMeant subject) request
  | .export subject selection => .export (subjectMeant subject) selection.resources
  | .erase subject plan context =>
    .erase (subjectMeant subject) plan.resource ⟨plan.operationKey, plan.action⟩ context
  | .verify subject expectation =>
    .verify (subjectMeant subject) expectation.resource expectation.state

/-- The adapter accepts the body and reads it as it was meant. -/
def AdapterMessage.Agrees (m : AdapterMessage) : Prop := m.schema m.body = some m.meaning

/-- A text that a trimming schema leaves as it is. -/
structure TextFits (max : Nat) (s : String) : Prop where
  trimmed : ecmaTrim s = s
  nonempty : s ≠ ""
  length : utf16Length s ≤ max

structure SubjectFits (subject : Connector.SubjectIdentity) : Prop where
  userId : ∀ id ∈ subject.applicationUserId, TextFits 512 id
  email : ∀ id ∈ subject.email, TextFits 512 id
  identified : subject.applicationUserId.isSome = true ∨ subject.email.isSome = true

structure SelectionFits (selection : ExportSelection) : Prop where
  names : ∀ name ∈ selection.resources, utf16Length name ≤ 128 ∧ isResourceName name = true
  count : 1 ≤ selection.resources.length ∧ selection.resources.length ≤ 128

/-- What the adapter asks of a message to read it as it was meant. -/
def AdapterMessage.Fits : AdapterMessage → Prop
  | .health => True
  | .discover subject request => SubjectFits subject ∧ TextFits 256 request.requestId ∧
    (request.requestType = "access" ∨ request.requestType = "delete")
  | .export subject selection => SubjectFits subject ∧ SelectionFits selection
  | .erase .. => False
  | .verify .. => False

/-! ## Texts and subjects -/

theorem utf16Length_pos {s : String} : 1 ≤ utf16Length s ↔ s ≠ "" := by
  constructor
  · rintro h rfl
    exact absurd h (by decide)
  · intro h
    have hchars : s.toList ≠ [] := fun hnil => h (String.toList_inj.mp (by rw [hnil]; rfl))
    obtain ⟨c, cs, hcs⟩ := List.exists_cons_of_ne_nil hchars
    unfold utf16Length
    rw [hcs, List.map_cons, List.sum_cons]
    split_ifs <;> omega

theorem trimmedText_iff {max : Nat} {s t : String} :
    trimmedText max (.string s) = some t ↔
      ecmaTrim s = t ∧ t ≠ "" ∧ utf16Length t ≤ max := by
  unfold trimmedText Json.asString
  rw [Option.bind_some, ← utf16Length_pos]
  constructor
  · intro h
    split_ifs at h with hfits
    obtain rfl := Option.some.inj h
    exact ⟨rfl, hfits⟩
  · rintro ⟨rfl, hfits⟩
    exact if_pos hfits

theorem trimmedText_self {max : Nat} {s : String} :
    trimmedText max (.string s) = some s ↔ TextFits max s := by
  rw [trimmedText_iff]
  exact ⟨fun ⟨htrim, hne, hlength⟩ => ⟨htrim, hne, hlength⟩,
    fun h => ⟨h.trimmed, h.nonempty, h.length⟩⟩

/-- An identifier that is written where there is one. -/
theorem present_memberIf {name : String} {value : Option String} {others : Json.Members String}
    (hothers : Json.named name others = []) :
    Json.present (trimmedText 512) name (Json.memberIf name .string value ++ others) =
        some value ↔ ∀ id ∈ value, TextFits 512 id := by
  cases value with
  | none =>
    unfold Json.present Json.memberIf
    rw [List.nil_append, hothers]
    simp
  | some id =>
    unfold Json.present Json.memberIf
    rw [Json.named_append, Json.named_cons, if_pos rfl, hothers]
    show (trimmedText 512 (.string id)).map some = some (some id) ↔ _
    rw [Option.map_eq_some_iff]
    simp [trimmedText_self]

theorem subjectIdentitySchema_iff {subject : Connector.SubjectIdentity} :
    subjectIdentitySchema (adapterSubject subject) = some (subjectMeant subject) ↔
      SubjectFits subject := by
  obtain ⟨userId, email⟩ := subject
  have huser : Json.present (trimmedText 512) "userId" (Json.memberIf "userId" .string userId ++
      Json.memberIf "email" .string email) = some userId ↔ ∀ id ∈ userId, TextFits 512 id :=
    present_memberIf (by cases email <;> rfl)
  have hemail : Json.present (trimmedText 512) "email" (Json.memberIf "userId" .string userId ++
      Json.memberIf "email" .string email) = some email ↔ ∀ id ∈ email, TextFits 512 id := by
    have hnamed : Json.named "email" (Json.memberIf "userId" Json.string userId ++
        Json.memberIf "email" .string email) =
          Json.named "email" (Json.memberIf "email" .string email ++ []) := by
      cases userId <;> simp [Json.memberIf]
    have hlast : Json.present (trimmedText 512) "email" (Json.memberIf "email" .string email ++ []) =
        some email ↔ ∀ id ∈ email, TextFits 512 id := present_memberIf rfl
    rw [← hlast]
    unfold Json.present
    rw [hnamed]
  have hnames : Json.onlyNames ["userId", "email"] (Json.memberIf "userId" Json.string userId ++
      Json.memberIf "email" .string email) = true := by
    cases userId <;> cases email <;> rfl
  unfold subjectIdentitySchema adapterSubject subjectMeant Json.strict Json.asObject
  dsimp only
  rw [if_pos hnames]
  simp only [Option.bind_eq_bind, Option.bind_eq_some_iff]
  constructor
  · rintro ⟨u, hu, e, he, hread⟩
    split_ifs at hread with hsome
    obtain ⟨rfl, rfl⟩ := SubjectIdentity.mk.inj (Option.some.inj hread)
    exact ⟨huser.mp hu, hemail.mp he, hsome⟩
  · intro h
    refine ⟨userId, huser.mpr h.userId, email, hemail.mpr h.email, ?_⟩
    exact if_pos h.identified

/-! ## Messages -/

/-- An object that is written with the members its schema names is read member by member. -/
theorem strict_object {α : Type} {names : List String} {read : Json.Members String → Option α}
    {members : Json.Members String} (h : Json.onlyNames names members = true) :
    Json.strict names read (.object members) = read members := by
  unfold Json.strict Json.asObject
  exact if_pos h

/-- A member that its schema does not name is refused. -/
theorem strict_unknown {α : Type} {names : List String} {read : Json.Members String → Option α}
    {members : Json.Members String} (h : Json.onlyNames names members = false) :
    Json.strict names read (.object members) = none := by
  unfold Json.strict Json.asObject
  exact if_neg (by rw [h]; decide)

theorem discoverRequestSchema_body (subject : Connector.SubjectIdentity)
    (request : DiscoveryRequest) :
    discoverRequestSchema (AdapterMessage.discover subject request).body =
      (subjectIdentitySchema (adapterSubject subject)).bind fun parsed =>
        (trimmedText 256 (.string request.requestId)).bind fun requestId =>
          (enumSchema id ["access", "delete"] (.string request.requestType)).bind fun requestType =>
            some (.discover parsed ⟨requestId, requestType⟩) := by
  unfold discoverRequestSchema AdapterMessage.body
  rw [strict_object rfl]
  simp only [Json.required, Json.named_cons, Json.named_nil, String.reduceEq, if_true, if_false,
    discoveryRequest, Option.bind_eq_bind]
  rw [strict_object rfl]
  simp only [Json.named_cons, Json.named_nil, String.reduceEq, if_true, if_false, requestIdSchema,
    Option.bind_assoc, Option.pure_def, Option.bind_some]

theorem exportRequestSchema_body (subject : Connector.SubjectIdentity)
    (selection : ExportSelection) :
    exportRequestSchema (AdapterMessage.export subject selection).body =
      (subjectIdentitySchema (adapterSubject subject)).bind fun parsed =>
        (arraySchema resourceNameSchema 128 (.array (selection.resources.map .string))).bind
          fun resources => some (.export parsed resources) := by
  unfold exportRequestSchema AdapterMessage.body
  rw [strict_object rfl]
  simp only [Json.required, Json.named_cons, Json.named_nil, String.reduceEq, if_true, if_false,
    exportSelection, Option.bind_eq_bind]
  rw [strict_object rfl]
  simp only [Json.named_cons, Json.named_nil, if_true, Option.pure_def]

/-- The plan is written with the resource, and no plan is read with one. -/
theorem eraseStepSchema_erasePlan (plan : ErasePlan) : eraseStepSchema (erasePlan plan) = none :=
  strict_unknown rfl

/-- The expectation is written with the resource, and none is read with one. -/
theorem stateSchema_verificationExpectation {α : Type} (read : Json.Members String → Option α)
    (expectation : VerificationExpectation) :
    Json.strict ["state"] read (verificationExpectation expectation) = none :=
  strict_unknown rfl

theorem enumSchema_self {s : String} :
    enumSchema id ["access", "delete"] (.string s) = some s ↔ s = "access" ∨ s = "delete" := by
  unfold enumSchema Json.asString
  rw [Option.bind_some]
  by_cases haccess : s = "access"
  · rw [haccess]
    exact iff_of_true rfl (.inl rfl)
  · by_cases hdelete : s = "delete"
    · rw [hdelete]
      exact iff_of_true rfl (.inr rfl)
    · have hnone : ["access", "delete"].find? (fun a => id a = s) = none := by
        rw [List.find?_eq_none]
        intro a ha
        rw [decide_eq_true_eq]
        rintro rfl
        rcases List.mem_pair.mp ha with h | h
        · exact haccess h
        · exact hdelete h
      rw [hnone]
      exact iff_of_false nofun (not_or.mpr ⟨haccess, hdelete⟩)

theorem resourceNameSchema_string {name : String} :
    resourceNameSchema (.string name) = some name ↔
      utf16Length name ≤ 128 ∧ isResourceName name = true := by
  unfold resourceNameSchema Json.asString
  rw [Option.filter_eq_some_iff, decide_eq_true_eq, utf16Length_pos]
  constructor
  · rintro ⟨-, -, hfits⟩
    exact hfits
  · rintro ⟨hlength, hname⟩
    refine ⟨rfl, ?_, hlength, hname⟩
    rintro rfl
    exact absurd hname (by decide)

/-- A list of texts is read back exactly where each text is. -/
theorem asArray_self {read : Json String → Option String} {names : List String} :
    Json.asArray read (.array (names.map .string)) = some names ↔
      ∀ name ∈ names, read (.string name) = some name := by
  constructor
  · intro h
    have hread : (names.map Json.string).mapM read = some names := h
    clear h
    induction names with
    | nil => exact nofun
    | cons name names ih =>
      rw [List.map_cons, List.mapM_cons] at hread
      simp only [Option.bind_eq_bind, Option.bind_eq_some_iff, Option.pure_def, Option.some.injEq,
        List.cons.injEq] at hread
      obtain ⟨first, hfirst, rest, hrest, rfl, rfl⟩ := hread
      intro n hn
      rcases List.mem_cons.mp hn with rfl | hn
      · exact hfirst
      · exact ih hrest n hn
  · intro h
    have hread : Json.asArray read (.array (names.map .string)) = some (names.map id) :=
      Json.asArray_map h
    rwa [List.map_id] at hread

theorem arraySchema_resources {selection : ExportSelection} :
    arraySchema resourceNameSchema 128 (.array (selection.resources.map .string)) =
      some selection.resources ↔ SelectionFits selection := by
  unfold arraySchema
  rw [Option.filter_eq_some_iff, decide_eq_true_eq, asArray_self]
  simp only [resourceNameSchema_string]
  exact ⟨fun ⟨hnames, hcount⟩ => ⟨hnames, hcount⟩, fun h => ⟨h.names, h.count⟩⟩

theorem discover_agrees {subject : Connector.SubjectIdentity} {request : DiscoveryRequest} :
    discoverRequestSchema (AdapterMessage.discover subject request).body =
        some (.discover (subjectMeant subject) request) ↔
      SubjectFits subject ∧ TextFits 256 request.requestId ∧
        (request.requestType = "access" ∨ request.requestType = "delete") := by
  rw [discoverRequestSchema_body, ← subjectIdentitySchema_iff, ← trimmedText_self,
    ← enumSchema_self]
  simp only [Option.bind_eq_some_iff, Option.some.injEq, AdapterRequestBody.discover.injEq]
  constructor
  · rintro ⟨_, hsubject, _, hid, _, htype, rfl, rfl⟩
    exact ⟨hsubject, hid, htype⟩
  · rintro ⟨hsubject, hid, htype⟩
    exact ⟨_, hsubject, _, hid, _, htype, rfl, rfl⟩

theorem export_agrees {subject : Connector.SubjectIdentity} {selection : ExportSelection} :
    exportRequestSchema (AdapterMessage.export subject selection).body =
        some (.export (subjectMeant subject) selection.resources) ↔
      SubjectFits subject ∧ SelectionFits selection := by
  rw [exportRequestSchema_body, ← subjectIdentitySchema_iff, ← arraySchema_resources]
  simp only [Option.bind_eq_some_iff, Option.some.injEq, AdapterRequestBody.export.injEq]
  constructor
  · rintro ⟨_, hsubject, _, hselection, rfl, rfl⟩
    exact ⟨hsubject, hselection⟩
  · rintro ⟨hsubject, hselection⟩
    exact ⟨_, hsubject, _, hselection, rfl, rfl⟩

/-- No erase is accepted. -/
theorem eraseRequestSchema_body (subject : Connector.SubjectIdentity) (plan : ErasePlan)
    (context : ExecutionContext) :
    eraseRequestSchema (AdapterMessage.erase subject plan context).body = none := by
  unfold eraseRequestSchema AdapterMessage.body
  rw [strict_object rfl]
  simp only [Json.required, Json.named_cons, Json.named_nil, String.reduceEq, if_true, if_false,
    eraseStepSchema_erasePlan, Option.bind_eq_bind, Option.bind_none, Option.bind_fun_none]

/-- No verification is accepted. -/
theorem verifyRequestSchema_body (subject : Connector.SubjectIdentity)
    (expectation : VerificationExpectation) :
    verifyRequestSchema (AdapterMessage.verify subject expectation).body = none := by
  unfold verifyRequestSchema AdapterMessage.body
  rw [strict_object rfl]
  simp only [Json.required, Json.named_cons, Json.named_nil, String.reduceEq, if_true, if_false,
    stateSchema_verificationExpectation, Option.bind_eq_bind, Option.bind_none,
    Option.bind_fun_none]

/-- The message is understood as it was meant exactly where it fits. -/
theorem agrees_iff_fits (m : AdapterMessage) : m.Agrees ↔ m.Fits := by
  cases m with
  | health => exact iff_of_true rfl trivial
  | discover subject request => exact discover_agrees
  | «export» subject selection => exact export_agrees
  | erase subject plan context =>
    refine iff_of_false (fun h => ?_) id
    exact absurd ((eraseRequestSchema_body subject plan context).symm.trans h) nofun
  | verify subject expectation =>
    refine iff_of_false (fun h => ?_) id
    exact absurd ((verifyRequestSchema_body subject expectation).symm.trans h) nofun

def userOne : Connector.SubjectIdentity := ⟨some "user-1", none⟩

/-- An erase, a verification and a discovery of an export request, all refused. -/
theorem agrees_fails_on_erase :
    ¬ (AdapterMessage.erase userOne ⟨"profiles", "operation-1", .delete⟩
        ⟨"request-1", "attempt-1", "step-1", "key-1", false⟩).Agrees ∧
      ¬ (AdapterMessage.verify userOne ⟨"profiles", .deleted⟩).Agrees ∧
      ¬ (AdapterMessage.discover userOne ⟨"request-1", "export"⟩).Agrees := by
  unfold AdapterMessage.Agrees
  decide

end ForgetOps.AdapterHttp
