import ForgetOps.Agent.DefiniteFailure
import ForgetOps.Sdk.Responses

/-
  Which answers of the adapter the connector understands as they were meant.

  What is written and what is read are compared by their content, strings in the units of
  JavaScript. An answer is understood exactly where all its strings are well formed, each item of a
  discovery says what it depends on, and its body fits the limit: `understood_iff`.
-/

namespace ForgetOps.AdapterHttp

open Connector AdapterSdk Json

/-! ## Contents -/

structure ItemContent where
  localReference : JsString
  resourceType : JsString
  proposedAction : ProposedAction
  estimatedCount : Nat
  risk : RiskLevel
  dependencies : List JsString
  retentionReason : Option JsString
  deriving DecidableEq

inductive Content where
  | health (healthy : Bool) (checks : List (JsString × Bool × Option JsString))
  | discover (items : List ItemContent)
  | erase (operationKey : JsString) (outcome : LifecycleOutcome) (affectedCount : Nat)
      (reason : Option JsString)
  | verify (satisfied : Bool) (remainingCount : Nat) (reason : Option JsString)
  deriving DecidableEq

def checkMeant (check : String × Option HealthCheckResult) : JsString × Bool × Option JsString :=
  (jsString check.1, (checked check.2).healthy, (checked check.2).code)

def itemMeant (item : String × AdapterSdk.DiscoveryResult) : ItemContent where
  localReference := localReference item
  resourceType := jsString item.1
  proposedAction := item.2.proposedAction
  estimatedCount := item.2.estimatedCount.val
  risk := item.2.risk
  dependencies := item.2.dependencies.getD []
  retentionReason := item.2.retentionReason

/-- What the resources said. -/
def meant : AdapterAnswer → Content
  | .health checks =>
    .health (checks.all fun check => (checked check.2).healthy) (checks.map checkMeant)
  | .discover items => .discover (items.map itemMeant)
  | .erase result =>
    .erase result.operationKey result.outcome result.affectedCount.val result.reason
  | .verify result => .verify result.satisfied result.remainingCount.val result.reason

def checkRead (check : HealthCheck) : JsString × Bool × Option JsString :=
  (jsString check.name, check.healthy, check.code.map jsString)

def itemRead (item : DiscoveryItem) : ItemContent where
  localReference := jsString item.localReference
  resourceType := jsString item.resourceType
  proposedAction := item.proposedAction
  estimatedCount := item.estimatedCount
  risk := item.risk
  dependencies := item.dependencies.map jsString
  retentionReason := item.retentionReason.map jsString

/-- What the connector understood. -/
def Received.content : Received → Content
  | .health status => .health status.healthy (status.checks.map checkRead)
  | .discover result => .discover (result.items.map itemRead)
  | .erase result =>
    .erase (jsString result.operationKey) result.outcome result.affectedCount
      (result.reason.map jsString)
  | .verify result =>
    .verify result.satisfied result.remainingCount (result.reason.map jsString)

/-- The connector reads what the resources said. -/
def Understood (maxResponseBytes : Nat) (fromSlice : List UInt8 → Option (Json JsString))
    (answer : AdapterAnswer) (chunks : List (List UInt8)) : Prop :=
  ∃ received, receive maxResponseBytes fromSlice answer chunks = .ok received ∧
    received.content = meant answer

/-! ## What fits -/

/-- No unit of the string stands alone. -/
def WellFormed (us : JsString) : Prop := (Utf16.text us).isSome = true

instance (us : JsString) : Decidable (WellFormed us) := inferInstanceAs (Decidable (_ = _))

/-- The item says what it depends on, in well-formed strings. -/
structure ItemFits (item : AdapterSdk.DiscoveryResult) : Prop where
  dependencies : ∃ dependencies, item.dependencies = some dependencies ∧
    ∀ d ∈ dependencies, WellFormed d
  retentionReason : ∀ us ∈ item.retentionReason, WellFormed us
  localReference : ∀ us ∈ item.localReference, WellFormed us

def AnswerFits : AdapterAnswer → Prop
  | .health checks => ∀ check ∈ checks, ∀ us ∈ (checked check.2).code, WellFormed us
  | .discover items => ∀ item ∈ items, ItemFits item.2
  | .erase result => WellFormed result.operationKey ∧ ∀ us ∈ result.reason, WellFormed us
  | .verify result => ∀ us ∈ result.reason, WellFormed us

/-! ## Members -/

theorem wellFormed_iff {us : JsString} : WellFormed us ↔ ∃ s, jsString s = us := by
  unfold WellFormed
  rw [Option.isSome_iff_exists]
  constructor
  · rintro ⟨cs, hcs⟩
    refine ⟨String.ofList cs, ?_⟩
    unfold jsString
    rw [String.toList_ofList]
    exact Utf16.text_iff.mp hcs
  · rintro ⟨s, hs⟩
    exact ⟨s.toList, Utf16.text_iff.mpr hs⟩

/-- A name of an enumeration is read back. -/
theorem asName_text {α : Type} {name : α → String} {values : List α} {a : α}
    (h : values.find? (fun b => name b = name a) = some a) :
    asName name values (text (name a)) = some a := by
  unfold asName
  rw [asText_text, Option.bind_some, h]

theorem asAction_text (a : ProposedAction) : asAction (text (actionName a)) = some a :=
  asName_text (by cases a <;> rfl)

theorem asOutcome_text (o : LifecycleOutcome) : asOutcome (text (outcomeName o)) = some o :=
  asName_text (by cases o <;> rfl)

theorem asRisk_text (r : RiskLevel) : asRisk (text (riskName r)) = some r :=
  asName_text (by cases r <;> rfl)

theorem asUnsigned_count (n : Count) : asUnsigned 64 (.number n.val : Json JsString) = some n.val := by
  have hn := n.property
  exact asUnsigned_iff.mpr ⟨by omega, rfl⟩

/-- An optional string that is written where there is one. -/
theorem optional_asText {name : String} {members : Members JsString} {value : Option JsString}
    {read : Option String} (h : named name members = value.toList.map .string) :
    Json.optional asText name members = some read ↔ read.map jsString = value := by
  unfold Json.optional
  rw [h]
  cases value with
  | none =>
    show some none = some read ↔ _
    cases read <;> simp
  | some us =>
    show (asText (.string us)).map some = some read ↔ _
    rw [Option.map_eq_some_iff]
    cases read with
    | none => simp
    | some s => simp [asText_iff]

theorem exists_map_jsString {value : Option JsString} :
    (∃ read : Option String, read.map jsString = value) ↔ ∀ us ∈ value, WellFormed us := by
  cases value with
  | none => exact iff_of_true ⟨none, rfl⟩ nofun
  | some us => simp [wellFormed_iff]

/-! ## Lists -/

/-- Two lists that agree item by item. -/
theorem forall₂_map_eq {α β γ : Type} {f : α → γ} {g : β → γ} {as : List α} {bs : List β} :
    List.Forall₂ (fun a b => g b = f a) as bs ↔ bs.map g = as.map f := by
  rw [← List.forall₂_eq_eq_eq, List.forall₂_map_left_iff, List.forall₂_map_right_iff]
  exact ⟨List.Forall₂.flip, List.Forall₂.flip⟩

theorem exists_map_eq {α β γ : Type} {f : α → γ} {g : β → γ} {as : List α} :
    (∃ bs : List β, bs.map g = as.map f) ↔ ∀ a ∈ as, ∃ b, g b = f a := by
  induction as with
  | nil => exact iff_of_true ⟨[], rfl⟩ nofun
  | cons a as ih =>
    rw [List.forall_mem_cons, ← ih]
    constructor
    · rintro ⟨bs, hbs⟩
      rw [List.map_cons] at hbs
      obtain ⟨b, rest, -, hb, hrest⟩ := List.map_eq_cons_iff.mp hbs
      exact ⟨⟨b, hb⟩, rest, hrest⟩
    · rintro ⟨⟨b, hb⟩, rest, hrest⟩
      exact ⟨b :: rest, by rw [List.map_cons, List.map_cons, hb, hrest]⟩

/-! ## Results -/

theorem asHealthCheck_iff {check : String × Option HealthCheckResult} {read : HealthCheck} :
    asHealthCheck (healthCheckObject check) = some read ↔ checkRead read = checkMeant check := by
  have hcode : ∀ code, Json.optional asText "code" ([("name", text check.1),
      ("healthy", .bool (checked check.2).healthy)] ++
        memberIf "code" .string (checked check.2).code) = some code ↔
      code.map jsString = (checked check.2).code :=
    fun code => optional_asText (by simp)
  unfold asHealthCheck healthCheckObject checkRead checkMeant asObject
  dsimp only
  rw [required_of_named (v := text check.1) (by simp),
    required_of_named (v := .bool (checked check.2).healthy) (by simp), asText_text]
  simp only [Option.bind_eq_bind, Option.bind_some, Option.bind_eq_some_iff, hcode, asBool,
    Option.pure_def, Option.some.injEq, Prod.mk.injEq]
  constructor
  · rintro ⟨code, h, rfl⟩
    exact ⟨rfl, rfl, h⟩
  · rintro ⟨hname, hhealthy, h⟩
    refine ⟨read.code, h, ?_⟩
    rw [← jsString_injective hname, ← hhealthy]

/-- A list of strings that is written where there is one, and is always read. -/
theorem required_asArray_asText {name : String} {members : Members JsString}
    {value : Option (List JsString)} {read : List String}
    (h : named name members = value.toList.map fun ds => .array (ds.map .string)) :
    required (asArray asText) name members = some read ↔ value = some (read.map jsString) := by
  unfold required
  rw [h]
  cases value with
  | none => exact iff_of_false nofun nofun
  | some ds =>
    show asArray asText (.array (ds.map .string)) = some read ↔ _
    rw [asArray_map_iff, Option.some.injEq]
    simp only [asText_iff]
    have hlists : List.Forall₂ (fun d s => jsString s = id d) ds read ↔
        read.map jsString = ds.map id := forall₂_map_eq
    rw [List.map_id] at hlists
    exact hlists.trans eq_comm

theorem asDiscoveryItem_iff {item : String × AdapterSdk.DiscoveryResult} {read : DiscoveryItem} :
    asDiscoveryItem (discoveryItemObject item) = some read ↔
      item.2.dependencies.isSome = true ∧ itemRead read = itemMeant item := by
  have hdependencies : ∀ ds, required (asArray asText) "dependencies"
      ([("resourceType", text item.1), ("estimatedCount", .number item.2.estimatedCount.val),
        ("proposedAction", text (actionName item.2.proposedAction)),
        ("risk", text (riskName item.2.risk)), ("localReference", .string (localReference item))] ++
      (memberIf "dependencies" (fun ds => .array (ds.map .string)) item.2.dependencies ++
        memberIf "retentionReason" .string item.2.retentionReason)) = some ds ↔
      item.2.dependencies = some (ds.map jsString) :=
    fun ds => required_asArray_asText (by simp)
  have hreason : ∀ reason, Json.optional asText "retentionReason"
      ([("resourceType", text item.1), ("estimatedCount", .number item.2.estimatedCount.val),
        ("proposedAction", text (actionName item.2.proposedAction)),
        ("risk", text (riskName item.2.risk)), ("localReference", .string (localReference item))] ++
      (memberIf "dependencies" (fun ds => .array (ds.map .string)) item.2.dependencies ++
        memberIf "retentionReason" .string item.2.retentionReason)) = some reason ↔
      reason.map jsString = item.2.retentionReason :=
    fun reason => optional_asText (by simp)
  unfold asDiscoveryItem discoveryItemObject itemRead itemMeant asObject
  dsimp only
  rw [required_of_named (v := .string (localReference item)) (by simp),
    required_of_named (v := text item.1) (by simp),
    required_of_named (v := text (actionName item.2.proposedAction)) (by simp),
    required_of_named (v := .number item.2.estimatedCount.val) (by simp),
    required_of_named (v := text (riskName item.2.risk)) (by simp),
    asText_text, asAction_text, asUnsigned_count, asRisk_text]
  simp only [Option.bind_eq_bind, Option.bind_some, Option.bind_eq_some_iff, hdependencies, hreason,
    asText_iff, Option.pure_def, Option.some.injEq, ItemContent.mk.injEq]
  constructor
  · rintro ⟨localReference, hlocal, dependencies, hds, reason, hr, rfl⟩
    refine ⟨by rw [hds]; rfl, hlocal, rfl, rfl, rfl, rfl, ?_, hr⟩
    rw [hds]
    rfl
  · rintro ⟨hsome, hlocal, htype, haction, hcount, hrisk, hds, hr⟩
    obtain ⟨ds, hnamed⟩ := Option.isSome_iff_exists.mp hsome
    rw [hnamed] at hds
    refine ⟨read.localReference, hlocal, read.dependencies, by rw [hnamed, hds]; rfl,
      read.retentionReason, hr, ?_⟩
    rw [← jsString_injective htype, ← haction, ← hcount, ← hrisk]

theorem asEraseResult_iff {result : AdapterSdk.EraseResult} {read : Connector.EraseResult} :
    asEraseResult (AdapterAnswer.erase result).response = some read ↔
      (Received.erase read).content = meant (.erase result) := by
  have hreason : ∀ reason, Json.optional asText "reason"
      ([("operationKey", .string result.operationKey),
        ("affectedCount", .number result.affectedCount.val),
        ("outcome", text (outcomeName result.outcome))] ++
      memberIf "reason" .string result.reason) = some reason ↔
      reason.map jsString = result.reason :=
    fun reason => optional_asText (by simp)
  unfold asEraseResult AdapterAnswer.response Received.content meant asObject
  dsimp only
  rw [required_of_named (v := .string result.operationKey) (by simp),
    required_of_named (v := text (outcomeName result.outcome)) (by simp),
    required_of_named (v := .number result.affectedCount.val) (by simp),
    asOutcome_text, asUnsigned_count]
  simp only [Option.bind_eq_bind, Option.bind_some, Option.bind_eq_some_iff, hreason, asText_iff,
    Option.pure_def, Option.some.injEq, Content.erase.injEq]
  constructor
  · rintro ⟨operationKey, hkey, reason, hr, rfl⟩
    exact ⟨hkey, rfl, rfl, hr⟩
  · rintro ⟨hkey, houtcome, hcount, hr⟩
    refine ⟨read.operationKey, hkey, read.reason, hr, ?_⟩
    rw [← houtcome, ← hcount]

theorem asVerificationResult_iff {result : AdapterSdk.VerificationResult}
    {read : Connector.VerificationResult} :
    asVerificationResult (AdapterAnswer.verify result).response = some read ↔
      (Received.verify read).content = meant (.verify result) := by
  have hreason : ∀ reason, Json.optional asText "reason"
      ([("satisfied", .bool result.satisfied),
        ("remainingCount", .number result.remainingCount.val)] ++
      memberIf "reason" .string result.reason) = some reason ↔
      reason.map jsString = result.reason :=
    fun reason => optional_asText (by simp)
  unfold asVerificationResult AdapterAnswer.response Received.content meant asObject
  dsimp only
  rw [required_of_named (v := .bool result.satisfied) (by simp),
    required_of_named (v := .number result.remainingCount.val) (by simp), asUnsigned_count]
  simp only [Option.bind_eq_bind, Option.bind_some, Option.bind_eq_some_iff, hreason, asBool,
    Option.pure_def, Option.some.injEq, Content.verify.injEq]
  constructor
  · rintro ⟨reason, hr, rfl⟩
    exact ⟨rfl, rfl, hr⟩
  · rintro ⟨hsatisfied, hcount, hr⟩
    refine ⟨read.reason, hr, ?_⟩
    rw [← hsatisfied, ← hcount]

/-! ## Answers -/

/-- Each item of a discovery has its list, as the Rust type asks. -/
def NamesDependencies : AdapterAnswer → Prop
  | .discover items => ∀ item ∈ items, item.2.dependencies.isSome = true
  | _ => True

theorem asHealthStatus_iff {checks : List (String × Option HealthCheckResult)}
    {read : HealthStatus} :
    asHealthStatus (AdapterAnswer.health checks).response = some read ↔
      (Received.health read).content = meant (.health checks) := by
  unfold asHealthStatus AdapterAnswer.response Received.content meant asObject
  dsimp only
  rw [required_of_named (v := .bool (checks.all fun check => (checked check.2).healthy)) (by simp),
    required_of_named (v := .array (checks.map healthCheckObject)) (by simp)]
  simp only [Option.bind_eq_bind, Option.bind_some, Option.bind_eq_some_iff, asBool,
    asArray_map_iff, asHealthCheck_iff, forall₂_map_eq, Option.pure_def, Option.some.injEq,
    Content.health.injEq]
  constructor
  · rintro ⟨read, h, rfl⟩
    exact ⟨rfl, h⟩
  · rintro ⟨hhealthy, h⟩
    exact ⟨read.checks, h, by rw [← hhealthy]⟩

theorem asDiscoveryResult_iff {items : List (String × AdapterSdk.DiscoveryResult)}
    {read : Connector.DiscoveryResult} :
    asDiscoveryResult (AdapterAnswer.discover items).response = some read ↔
      NamesDependencies (.discover items) ∧
        (Received.discover read).content = meant (.discover items) := by
  unfold asDiscoveryResult AdapterAnswer.response Received.content meant NamesDependencies asObject
  dsimp only
  rw [required_of_named (v := .array (items.map discoveryItemObject)) (by simp)]
  simp only [Option.bind_eq_bind, Option.bind_eq_some_iff, asArray_map_iff, asDiscoveryItem_iff,
    List.forall₂_and_left, forall₂_map_eq, Option.pure_def, Option.some.injEq,
    Content.discover.injEq]
  constructor
  · rintro ⟨read, h, rfl⟩
    exact h
  · intro h
    exact ⟨read.items, h, rfl⟩

theorem readAnswer_iff {answer : AdapterAnswer} {received : Received} :
    readAnswer answer answer.response = some received ↔
      NamesDependencies answer ∧ received.content = meant answer := by
  cases answer with
  | health checks =>
    show Option.map _ _ = _ ↔ _
    rw [Option.map_eq_some_iff]
    simp only [asHealthStatus_iff]
    constructor
    · rintro ⟨status, h, rfl⟩
      exact ⟨trivial, h⟩
    · rintro ⟨_, h⟩
      cases received with
      | health status => exact ⟨status, h, rfl⟩
      | _ => cases h
  | discover items =>
    show Option.map _ _ = _ ↔ _
    rw [Option.map_eq_some_iff]
    simp only [asDiscoveryResult_iff]
    constructor
    · rintro ⟨result, h, rfl⟩
      exact h
    · rintro ⟨hnames, h⟩
      cases received with
      | discover result => exact ⟨result, ⟨hnames, h⟩, rfl⟩
      | _ => cases h
  | erase result =>
    show Option.map _ _ = _ ↔ _
    rw [Option.map_eq_some_iff]
    simp only [asEraseResult_iff]
    constructor
    · rintro ⟨read, h, rfl⟩
      exact ⟨trivial, h⟩
    · rintro ⟨_, h⟩
      cases received with
      | erase read => exact ⟨read, h, rfl⟩
      | _ => cases h
  | verify result =>
    show Option.map _ _ = _ ↔ _
    rw [Option.map_eq_some_iff]
    simp only [asVerificationResult_iff]
    constructor
    · rintro ⟨read, h, rfl⟩
      exact ⟨trivial, h⟩
    · rintro ⟨_, h⟩
      cases received with
      | verify read => exact ⟨read, h, rfl⟩
      | _ => cases h

theorem exists_checkRead {check : String × Option HealthCheckResult} :
    (∃ read, checkRead read = checkMeant check) ↔
      ∀ us ∈ (checked check.2).code, WellFormed us := by
  rw [← exists_map_jsString]
  unfold checkRead checkMeant
  simp only [Prod.mk.injEq]
  constructor
  · rintro ⟨read, _, _, hcode⟩
    exact ⟨read.code, hcode⟩
  · rintro ⟨code, hcode⟩
    exact ⟨⟨check.1, (checked check.2).healthy, code⟩, rfl, rfl, hcode⟩

/-- The name of the resource stands in for a missing reference, and it is well formed. -/
theorem exists_localReference {item : String × AdapterSdk.DiscoveryResult} :
    (∃ s, jsString s = localReference item) ↔
      ∀ us ∈ item.2.localReference, WellFormed us := by
  unfold localReference
  cases item.2.localReference with
  | none => exact iff_of_true ⟨item.1, rfl⟩ nofun
  | some us => simp [wellFormed_iff]

theorem itemFits_iff {item : String × AdapterSdk.DiscoveryResult} :
    ItemFits item.2 ↔ item.2.dependencies.isSome = true ∧ ∃ read, itemRead read = itemMeant item := by
  have hlist : ∀ ds : List JsString, (∃ read : List String, read.map jsString = ds) ↔
      ∀ d ∈ ds, WellFormed d := by
    intro ds
    have hlists : (∃ read : List String, read.map jsString = ds.map id) ↔
        ∀ d ∈ ds, ∃ s, jsString s = d := exists_map_eq
    rw [List.map_id] at hlists
    simp only [wellFormed_iff]
    exact hlists
  constructor
  · intro h
    obtain ⟨ds, hnamed, hds⟩ := h.dependencies
    obtain ⟨dependencies, hread⟩ := (hlist ds).mpr hds
    obtain ⟨reason, hreason⟩ := exists_map_jsString.mpr h.retentionReason
    obtain ⟨reference, hreference⟩ := exists_localReference.mpr h.localReference
    refine ⟨by rw [hnamed]; rfl, ⟨reference, item.1, item.2.proposedAction,
      item.2.estimatedCount.val, item.2.risk, dependencies, reason⟩, ?_⟩
    unfold itemRead itemMeant
    rw [hnamed]
    simp only [hreference, hread, hreason, Option.getD_some]
  · rintro ⟨hsome, read, h⟩
    obtain ⟨hreference, -, -, -, -, hds, hreason⟩ := ItemContent.mk.inj h
    obtain ⟨ds, hnamed⟩ := Option.isSome_iff_exists.mp hsome
    rw [hnamed] at hds
    exact
      { dependencies := ⟨ds, hnamed, (hlist ds).mp ⟨read.dependencies, hds⟩⟩
        retentionReason := exists_map_jsString.mp ⟨read.retentionReason, hreason⟩
        localReference := exists_localReference.mp ⟨read.localReference, hreference⟩ }

/-- An answer that fits is one whose dependencies are named and whose content a reader can have. -/
theorem answerFits_iff {answer : AdapterAnswer} :
    AnswerFits answer ↔
      NamesDependencies answer ∧ ∃ received : Received, received.content = meant answer := by
  cases answer with
  | health checks =>
    show (∀ check ∈ checks, _) ↔ True ∧ _
    simp only [← exists_checkRead, true_and]
    rw [← exists_map_eq]
    constructor
    · rintro ⟨read, h⟩
      exact ⟨.health ⟨_, read⟩, congrArg (Content.health _) h⟩
    · rintro ⟨received, h⟩
      cases received with
      | health status => exact ⟨status.checks, (Content.health.inj h).2⟩
      | _ => cases h
  | discover items =>
    show (∀ item ∈ items, _) ↔ (∀ item ∈ items, _) ∧ _
    simp only [itemFits_iff, forall_and]
    rw [← exists_map_eq]
    refine and_congr_right fun _ => ?_
    constructor
    · rintro ⟨read, h⟩
      exact ⟨.discover ⟨read⟩, congrArg Content.discover h⟩
    · rintro ⟨received, h⟩
      cases received with
      | discover result => exact ⟨result.items, Content.discover.inj h⟩
      | _ => cases h
  | erase result =>
    show _ ∧ _ ↔ True ∧ _
    rw [← exists_map_jsString, wellFormed_iff, true_and]
    constructor
    · rintro ⟨⟨key, hkey⟩, reason, hreason⟩
      refine ⟨.erase ⟨key, result.outcome, result.affectedCount.val, reason⟩, ?_⟩
      show Content.erase _ _ _ _ = Content.erase _ _ _ _
      rw [hkey, hreason]
    · rintro ⟨received, h⟩
      cases received with
      | erase read =>
        obtain ⟨hkey, -, -, hreason⟩ := Content.erase.inj h
        exact ⟨⟨read.operationKey, hkey⟩, read.reason, hreason⟩
      | _ => cases h
  | verify result =>
    show (∀ us ∈ result.reason, _) ↔ True ∧ _
    rw [← exists_map_jsString, true_and]
    constructor
    · rintro ⟨reason, hreason⟩
      refine ⟨.verify ⟨result.satisfied, result.remainingCount.val, reason⟩, ?_⟩
      show Content.verify _ _ _ = Content.verify _ _ _
      rw [hreason]
    · rintro ⟨received, h⟩
      cases received with
      | verify read => exact ⟨read.reason, (Content.verify.inj h).2.2⟩
      | _ => cases h

/-! ## The response -/

/-- The chunks are read as one body, if they fit the limit. -/
theorem readBounded_result {max : Nat} {chunks : List (List UInt8)} {body : List UInt8} :
    (readBounded max [] (chunks.map some)).result = .ok body ↔
      body = chunks.flatten ∧ chunks.flatten.length ≤ max := by
  unfold Connecting.result
  constructor
  · intro h
    obtain ⟨⟨parts, hparts, hbody, hlength⟩, -⟩ :=
      (readBounded_ok_iff (Nat.zero_le max)).mp (Prod.ext h rfl)
    obtain rfl := List.map_injective_iff.mpr (Option.some_injective _) hparts
    rw [List.nil_append] at hbody
    rw [hbody] at hlength
    exact ⟨hbody, hlength⟩
  · rintro ⟨rfl, hlength⟩
    have hread : (readBounded max [] (chunks.map some)).outcome false =
        (.ok chunks.flatten, false) :=
      (readBounded_ok_iff (Nat.zero_le max)).mpr ⟨⟨chunks, rfl, rfl, hlength⟩, rfl⟩
    rw [hread]

/-- What is received, where the deserializer reads the body back. -/
theorem receive_ok_iff {max : Nat} {fromSlice : List UInt8 → Option (Json JsString)}
    {answer : AdapterAnswer} (hread : fromSlice answer.body = some answer.response)
    {chunks : List (List UInt8)} (hchunks : chunks.flatten = answer.body) {received : Received} :
    receive max fromSlice answer chunks = .ok received ↔
      answer.body.length ≤ max ∧ NamesDependencies answer ∧ received.content = meant answer := by
  unfold receive
  rw [Guards.bind_ok]
  simp only [Guards.okOr_ok, readBounded_result, hchunks]
  rw [← readAnswer_iff]
  constructor
  · rintro ⟨body, ⟨rfl, hlength⟩, h⟩
    rw [hread] at h
    exact ⟨hlength, h⟩
  · rintro ⟨hlength, h⟩
    exact ⟨answer.body, ⟨rfl, hlength⟩, by rw [hread]; exact h⟩

/-- Where the deserializer reads the body back, the connector understands an answer exactly if it
    fits and its body is within the limit. -/
theorem understood_iff (maxResponseBytes : Nat)
    (fromSlice : List UInt8 → Option (Json JsString)) (answer : AdapterAnswer)
    (hread : fromSlice answer.body = some answer.response) (chunks : List (List UInt8))
    (hchunks : chunks.flatten = answer.body) :
    Understood maxResponseBytes fromSlice answer chunks ↔
      AnswerFits answer ∧ answer.body.length ≤ maxResponseBytes := by
  unfold Understood
  simp only [receive_ok_iff hread hchunks]
  rw [answerFits_iff]
  constructor
  · rintro ⟨received, ⟨hlength, hnames, hcontent⟩, _⟩
    exact ⟨⟨hnames, received, hcontent⟩, hlength⟩
  · rintro ⟨⟨hnames, received, hcontent⟩, hlength⟩
    exact ⟨received, ⟨hlength, hnames, hcontent⟩, hcontent⟩

/-- A deserializer that knows one body. -/
def readsBack (answer : AdapterAnswer) (bytes : List UInt8) : Option (Json JsString) :=
  if bytes = answer.body then some answer.response else none

theorem one_count : 1 < 2 ^ 53 := by decide

def discovered (dependencies : Option (List JsString)) : AdapterAnswer :=
  .discover [("profiles", ⟨⟨1, one_count⟩, .delete, .low, dependencies, none, none⟩)]

theorem discovered_length :
    (discovered (some [])).body.length ≤ 2 ^ 20 ∧ (discovered none).body.length ≤ 2 ^ 20 := by
  decide +kernel

theorem understood_with_dependencies :
    Understood (2 ^ 20) (readsBack (discovered (some []))) (discovered (some []))
      [(discovered (some [])).body] := by
  refine (understood_iff (2 ^ 20) _ _ (if_pos rfl) _ (List.append_nil _)).mpr
    ⟨?_, discovered_length.1⟩
  intro item hitem
  obtain rfl := List.mem_singleton.mp hitem
  exact ⟨⟨[], rfl, nofun⟩, nofun, nofun⟩

/-- Without dependencies the item is well typed where it is written and not where it is read. -/
theorem understood_fails_without_dependencies :
    (discovered none).body.length ≤ 2 ^ 20 ∧
      ¬ Understood (2 ^ 20) (readsBack (discovered none)) (discovered none)
        [(discovered none).body] := by
  refine ⟨discovered_length.2, ?_⟩
  rintro ⟨received, h, -⟩
  obtain ⟨-, hnames, -⟩ := (receive_ok_iff (if_pos rfl) (List.append_nil _)).mp h
  exact absurd (hnames _ List.mem_cons_self) (by decide)

end ForgetOps.AdapterHttp
