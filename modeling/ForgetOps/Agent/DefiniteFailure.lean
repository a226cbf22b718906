import ForgetOps.Agent.DestructiveErase

/-
  When a definite failure of a destructive erase means that nothing was changed.
  `Misreports` says of any call that it can throw a definite error after a mutation; it has one
  rule for each construct the connectors are written with. From the rules `adapter_misreports`,
  `eraseAuthUser_misreports`, `eraseTable_misreports` and, by induction on the rounds of the loop,
  `eraseBucket_misreports`; `definitelyUnchanged_iff` puts them together.
-/

namespace ForgetOps.Connector

/-! ## Calls that may throw -/

namespace Connecting

variable {α β : Type} {x : Connecting α} {f : α → Connecting β} {e : ConnectorError} {m : Bool}

/-- The call throws a definite error although something was mutated. -/
def Misreports (x : Connecting α) (mutated : Bool) : Prop :=
  ∃ e : ConnectorError, x.outcome mutated = (.error e, true) ∧ e.isUncertain = false

theorem outcome_pure (a : α) (m : Bool) : (pure a : Connecting α).outcome m = (.ok a, m) := rfl

theorem outcome_throw (e : ConnectorError) (m : Bool) :
    (throw e : Connecting α).outcome m = (.error e, m) := rfl

theorem outcome_bind (x : Connecting α) (f : α → Connecting β) (m : Bool) :
    (x >>= f).outcome m = (match x.outcome m with
      | (.ok a, m') => (f a).outcome m'
      | (.error e, m') => (.error e, m')) := by
  have unfolded : (x >>= f).outcome m = (ExceptT.bindCont f (x.outcome m).1) (x.outcome m).2 := rfl
  rw [unfolded]
  obtain ⟨result, m'⟩ := x.outcome m
  cases result with
  | ok a => rfl
  | error e => rfl

theorem not_misreports_pure (a : α) : ¬ (pure a : Connecting α).Misreports m := by
  rintro ⟨e, thrown, -⟩
  rw [outcome_pure] at thrown
  cases thrown

theorem misreports_throw :
    (throw e : Connecting α).Misreports m ↔ m = true ∧ e.isUncertain = false := by
  constructor
  · rintro ⟨e', thrown, definite⟩
    rw [outcome_throw] at thrown
    cases thrown
    exact ⟨rfl, definite⟩
  · rintro ⟨rfl, definite⟩
    exact ⟨e, rfl, definite⟩

theorem bind_ok_iff {b : β} {m'' : Bool} :
    (x >>= f).outcome m = (.ok b, m'') ↔
      ∃ a m', x.outcome m = (.ok a, m') ∧ (f a).outcome m' = (.ok b, m'') := by
  rw [outcome_bind]
  rcases x.outcome m with ⟨result, m'⟩
  cases result with
  | ok a =>
    constructor
    · intro h
      exact ⟨a, m', rfl, h⟩
    · rintro ⟨a', m₁, returned, h⟩
      cases returned
      exact h
  | error e => simp

theorem failIf_ok_iff {c : Prop} [Decidable c] {u : Unit} {m' : Bool} :
    (failIf c e).outcome m = (.ok u, m') ↔ ¬ c ∧ m' = m := by
  unfold failIf
  by_cases h : c
  · simp [h, outcome_throw]
  · simp [h, outcome_pure, eq_comm]

theorem okOr_ok_iff {o : Option α} {a : α} {m' : Bool} :
    (okOr o e).outcome m = (.ok a, m') ↔ o = some a ∧ m' = m := by
  cases o with
  | none => simp [okOr, outcome_throw]
  | some b => simp [okOr, outcome_pure, eq_comm]

/-- A call that returns leaves the answer to what follows it. -/
theorem misreports_bind_of_ok {a : α} {m' : Bool} (returned : x.outcome m = (.ok a, m')) :
    (x >>= f).Misreports m ↔ (f a).Misreports m' := by
  unfold Misreports
  rw [outcome_bind, returned]

theorem misreports_bind_of_error {m' : Bool} (thrown : x.outcome m = (.error e, m')) :
    (x >>= f).Misreports m ↔ m' = true ∧ e.isUncertain = false := by
  have same : (x >>= f).outcome m = (throw e : Connecting β).outcome m' := by
    rw [outcome_bind, thrown, outcome_throw]
  rw [← misreports_throw (α := β)]
  unfold Misreports
  rw [same]

theorem misreports_bind :
    (x >>= f).Misreports m ↔
      x.Misreports m ∨ ∃ a m', x.outcome m = (.ok a, m') ∧ (f a).Misreports m' := by
  rcases ran : x.outcome m with ⟨result, m'⟩
  cases result with
  | ok a =>
    rw [misreports_bind_of_ok ran]
    constructor
    · intro h
      exact Or.inr ⟨a, m', rfl, h⟩
    · rintro (⟨e, thrown, -⟩ | ⟨a', m'', returned, h⟩)
      · rw [ran] at thrown
        cases thrown
      · cases returned
        exact h
  | error e =>
    rw [misreports_bind_of_error ran]
    constructor
    · rintro ⟨rfl, definite⟩
      exact Or.inl ⟨e, ran, definite⟩
    · rintro (⟨e', thrown, definite⟩ | ⟨a, m'', returned, -⟩)
      · rw [ran] at thrown
        cases thrown
        exact ⟨rfl, definite⟩
      · cases returned

theorem misreports_map (g : α → β) : (g <$> x).Misreports m ↔ x.Misreports m := by
  rw [map_eq_pure_bind, misreports_bind]
  constructor
  · rintro (h | ⟨a, m', -, h⟩)
    · exact h
    · exact absurd h (not_misreports_pure _)
  · exact Or.inl

theorem misreports_ite {c : Prop} [Decidable c] {y : Connecting α} :
    (if c then x else y).Misreports m ↔ (c ∧ x.Misreports m) ∨ (¬ c ∧ y.Misreports m) := by
  by_cases h : c
  · simp [h]
  · simp [h]

theorem misreports_failIf {c : Prop} [Decidable c] {f : Unit → Connecting β} :
    (failIf c e >>= f).Misreports m ↔
      (c ∧ m = true ∧ e.isUncertain = false) ∨ (¬ c ∧ (f ()).Misreports m) := by
  by_cases h : c
  · have thrown : (failIf c e).outcome m = (.error e, m) := by
      unfold failIf
      rw [if_pos h, outcome_throw]
    simp [misreports_bind_of_error thrown, h]
  · have returned : (failIf c e).outcome m = (.ok (), m) := by
      unfold failIf
      rw [if_neg h, outcome_pure]
    simp [misreports_bind_of_ok returned, h]

theorem misreports_okOr_bind {o : Option α} :
    (okOr o e >>= f).Misreports m ↔
      (o = none ∧ m = true ∧ e.isUncertain = false) ∨ ∃ a, o = some a ∧ (f a).Misreports m := by
  cases o with
  | none => simp [okOr, misreports_throw]
  | some a => simp [okOr]

theorem misreports_okOr {o : Option α} :
    (okOr o e).Misreports m ↔ o = none ∧ m = true ∧ e.isUncertain = false := by
  cases o with
  | none => simp [okOr, misreports_throw]
  | some a => simp [okOr, not_misreports_pure]

theorem misreports_deliver {applied : Bool} {f : Unit → Connecting β} :
    (deliver applied >>= f).Misreports m ↔ (f ()).Misreports (m || applied) :=
  misreports_bind_of_ok rfl

/-- The call sends nothing to the remote. -/
def Silent (x : Connecting α) : Prop := ∀ m, (x.outcome m).2 = m

theorem silent_bind (first : x.Silent) (next : ∀ a, (f a).Silent) : (x >>= f).Silent := by
  intro m
  rw [outcome_bind]
  have same := first m
  rcases ran : x.outcome m with ⟨result, m'⟩
  rw [ran] at same
  dsimp only at same
  rw [same]
  cases result with
  | ok a => exact next a m
  | error e => rfl

theorem silent_failIf {c : Prop} [Decidable c] : (failIf c e).Silent := by
  intro m
  unfold failIf
  split_ifs
  · rw [outcome_throw]
  · rw [outcome_pure]

theorem silent_okOr {o : Option α} : (okOr o e).Silent := by
  intro m
  cases o with
  | none => rfl
  | some a => rfl

theorem not_misreports_of_silent (h : x.Silent) : ¬ x.Misreports false := by
  rintro ⟨e, thrown, -⟩
  have := h false
  rw [thrown] at this
  cases this

end Connecting

open Connecting

/-! ## Which answers are definite -/

@[simp] theorem isUncertain_invalidConfig (code : String) :
    (ConnectorError.invalidConfig code).isUncertain = false := rfl

@[simp] theorem isUncertain_invalidResponse (code : String) :
    (ConnectorError.invalidResponse code).isUncertain = false := rfl

@[simp] theorem isUncertain_uncertain (code : String) : (uncertain code).isUncertain = true := rfl

@[simp] theorem isUncertain_remote (code : String) : (remote code).isUncertain = false := rfl

/-- `destructive_http_error` leaves open only what the server itself failed at. -/
theorem isUncertain_destructiveHttpError (status : Nat) (code : String) :
    (destructiveHttpError status code).isUncertain = isServerError status := by
  simp only [destructiveHttpError, ConnectorError.isUncertain, isServerError]
  split_ifs with h₁ h₂ h₃
  · have : ¬ (500 ≤ status ∧ status ≤ 599) := by omega
    simp [this]
  · have : ¬ (500 ≤ status ∧ status ≤ 599) := by omega
    simp [this]
  · simp_all
  · simp_all

theorem classifyStatus_misreports {status : Nat} {m : Bool} :
    (classifyStatus status).Misreports m ↔ isSuccess status = false ∧ m = true := by
  unfold classifyStatus
  rw [misreports_ite]
  simp only [not_misreports_pure, misreports_throw, and_false, false_or, Bool.not_eq_true]
  refine and_congr_right fun _ => and_iff_left ?_
  simp only [ConnectorError.isUncertain]
  split_ifs <;> rfl

theorem classifyStatus_outcome {status : Nat} (h : isSuccess status = true) (m : Bool) :
    (classifyStatus status).outcome m = (.ok (), m) := by
  unfold classifyStatus
  rw [if_pos h, outcome_pure]

/-! ## The adapter -/

/-- The envelope that `send` signs over a body. -/
def AdapterHttpConnector.envelope (c : AdapterHttpConnector) (path timestamp nonce : String)
    (body : List UInt8) : SignatureEnvelope :=
  { bodyDigest := "sha256:" ++ c.libraries.hexDigest body, contentType := "application/json",
    method := "POST", nonce, path, timestamp, messageType := "forgetops.adapter-request",
    version := 1 }

/-- The request can be encoded, is not too large, and can be signed and addressed. -/
def AdapterHttpConnector.Sends (c : AdapterHttpConnector) (path timestamp nonce : String)
    (payload : EraseRequest) : Prop :=
  ∃ body, c.libraries.toVec payload = some body ∧ body.length ≤ c.maxResponseBytes ∧
    path.toList.head? = some '/' ∧ 16 ≤ nonce.utf8ByteSize ∧
    (∃ signature, c.libraries.mac c.secret (c.envelope path timestamp nonce body) =
      some signature) ∧
    ∃ url, c.libraries.joinUrl path = some url

/-- Every chunk arrives, the body is within the limit, and it is decoded. -/
def AdapterHttpConnector.Reads (c : AdapterHttpConnector) (body : List (Option (List UInt8))) :
    Prop :=
  ∃ chunks : List (List UInt8), body = chunks.map some ∧ chunks.flatten.length ≤ c.maxResponseBytes ∧
    ∃ result, c.libraries.fromSlice chunks.flatten = some result

theorem signAdapterRequest_ok_iff {libraries : Libraries} {secret : List UInt8}
    {method path timestamp nonce contentType : String} {body : List UInt8} {signature : String}
    {m m' : Bool} :
    (signAdapterRequest libraries secret method path timestamp nonce contentType body).outcome m =
        (.ok signature, m') ↔
      32 ≤ secret.length ∧ method = method.toUpper ∧ path.toList.head? = some '/' ∧
        16 ≤ nonce.utf8ByteSize ∧
        libraries.mac secret
          { bodyDigest := "sha256:" ++ libraries.hexDigest body, contentType, method, nonce, path,
            timestamp, messageType := "forgetops.adapter-request", version := 1 } =
          some signature ∧ m' = m := by
  unfold signAdapterRequest
  simp only [bind_ok_iff, failIf_ok_iff, okOr_ok_iff]
  constructor
  · rintro ⟨u, m₁, ⟨accepted, rfl⟩, signed, rfl⟩
    simp only [not_or, not_lt, not_not] at accepted
    exact ⟨accepted.1, accepted.2.1, accepted.2.2.1, accepted.2.2.2, signed, rfl⟩
  · rintro ⟨long, upper, rooted, fresh, signed, rfl⟩
    refine ⟨(), m', ⟨?_, rfl⟩, signed, rfl⟩
    simp only [not_or, not_lt, not_not]
    exact ⟨long, upper, rooted, fresh⟩

theorem prepare_ok_iff {c : AdapterHttpConnector} {path timestamp nonce : String}
    {payload : EraseRequest} {u : Unit} {m m' : Bool} :
    (c.prepare path timestamp nonce payload).outcome m = (.ok u, m') ↔
      c.Sends path timestamp nonce payload ∧ m' = m := by
  unfold AdapterHttpConnector.prepare AdapterHttpConnector.Sends
  simp only [bind_ok_iff, failIf_ok_iff, okOr_ok_iff, signAdapterRequest_ok_iff, outcome_pure]
  constructor
  · rintro ⟨body, _, ⟨encoded, rfl⟩, _, _, ⟨small, rfl⟩, signature, _,
      ⟨-, -, rooted, fresh, signed, rfl⟩, url, _, ⟨joined, rfl⟩, returned⟩
    cases returned
    have small : body.length ≤ c.maxResponseBytes := by omega
    exact ⟨⟨body, encoded, small, rooted, fresh, ⟨signature, signed⟩, url, joined⟩, rfl⟩
  · rintro ⟨⟨body, encoded, small, rooted, fresh, ⟨signature, signed⟩, url, joined⟩, rfl⟩
    have upper : "POST" = "POST".toUpper := by
      apply String.toList_injective
      rw [String.toUpper, String.toList_map]
      decide
    exact ⟨body, m', ⟨encoded, rfl⟩, (), m', ⟨by omega, rfl⟩, signature, m',
      ⟨c.secret_length, upper, rooted, fresh, signed, rfl⟩, url, m', ⟨joined, rfl⟩, rfl⟩

/-- Before the request leaves nothing has been mutated. -/
theorem silent_prepare {c : AdapterHttpConnector} {path timestamp nonce : String}
    {payload : EraseRequest} : (c.prepare path timestamp nonce payload).Silent := by
  unfold AdapterHttpConnector.prepare signAdapterRequest
  refine silent_bind silent_okOr fun body => ?_
  refine silent_bind silent_failIf fun _ => ?_
  refine silent_bind (silent_bind silent_failIf fun _ => silent_okOr) fun _ => ?_
  exact silent_bind silent_okOr fun _ _ => rfl

/-- `read_bounded` returns the concatenated chunks, if all arrive and fit. -/
theorem readBounded_ok_iff {maxBytes : Nat} {body : List (Option (List UInt8))} {m m' : Bool}
    {bytes read : List UInt8} (fits : bytes.length ≤ maxBytes) :
    (readBounded maxBytes bytes body).outcome m = (.ok read, m') ↔
      (∃ chunks : List (List UInt8), body = chunks.map some ∧ read = bytes ++ chunks.flatten ∧
        read.length ≤ maxBytes) ∧ m' = m := by
  induction body generalizing bytes with
  | nil =>
    simp only [readBounded, outcome_pure, Prod.mk.injEq, Except.ok.injEq]
    constructor
    · rintro ⟨rfl, rfl⟩
      exact ⟨⟨[], rfl, by simp, fits⟩, rfl⟩
    · rintro ⟨⟨chunks, empty, rfl, -⟩, rfl⟩
      have : chunks = [] := List.map_eq_nil_iff.mp empty.symm
      simp [this]
  | cons chunk body ih =>
    cases chunk with
    | none =>
      constructor
      · intro h
        rw [readBounded, outcome_throw] at h
        cases h
      · rintro ⟨⟨chunks, all, -⟩, -⟩
        cases chunks with
        | nil => cases all
        | cons first chunks => cases all
    | some chunk =>
      simp only [readBounded, bind_ok_iff, failIf_ok_iff]
      constructor
      · rintro ⟨u, m₁, ⟨small, rfl⟩, h⟩
        have fits' : (bytes ++ chunk).length ≤ maxBytes := by
          rw [List.length_append]
          omega
        obtain ⟨⟨chunks, rfl, rfl, bounded⟩, rfl⟩ := (ih fits').mp h
        exact ⟨⟨chunk :: chunks, rfl, by simp, bounded⟩, rfl⟩
      · rintro ⟨⟨chunks, all, rfl, bounded⟩, rfl⟩
        cases chunks with
        | nil => cases all
        | cons first chunks =>
          rw [List.map_cons, List.cons.injEq, Option.some.injEq] at all
          obtain ⟨rfl, rfl⟩ := all
          simp only [List.flatten_cons, List.length_append] at bounded
          have fits' : (bytes ++ chunk).length ≤ maxBytes := by
            rw [List.length_append]
            omega
          refine ⟨(), m', ⟨by omega, rfl⟩, (ih fits').mpr ⟨⟨chunks, rfl, ?_, ?_⟩, rfl⟩⟩
          · simp
          · simp only [List.flatten_cons, List.length_append]
            omega

/-- Every failure of `read_bounded` is definite. -/
theorem readBounded_misreports {maxBytes : Nat} {body : List (Option (List UInt8))} {m : Bool}
    {bytes : List UInt8} :
    (readBounded maxBytes bytes body).Misreports m ↔
      m = true ∧ ∀ read, (readBounded maxBytes bytes body).outcome m ≠ (.ok read, m) := by
  induction body generalizing bytes with
  | nil => simp [readBounded, not_misreports_pure, outcome_pure]
  | cons chunk body ih =>
    cases chunk with
    | none => simp [readBounded, misreports_throw, outcome_throw]
    | some chunk =>
      simp only [readBounded, misreports_failIf, ih, ne_eq, bind_ok_iff, failIf_ok_iff,
        isUncertain_invalidResponse, and_true]
      by_cases large : bytes.length + chunk.length > maxBytes
      · simp [large]
      · simp [large]

/-- What is left to go wrong once the remote has answered. -/
theorem answered_misreports {c : AdapterHttpConnector} {response : HttpResponse} {m : Bool} :
    (classifyStatus response.status >>= fun _ =>
        readBounded c.maxResponseBytes [] response.body >>= fun body =>
          okOr (c.libraries.fromSlice body) (.invalidResponse "ADAPTER_RESPONSE_INVALID")).Misreports
        m ↔
      m = true ∧ ¬ (isSuccess response.status = true ∧ c.Reads response.body) := by
  by_cases success : isSuccess response.status = true
  · rw [misreports_bind_of_ok (classifyStatus_outcome success m), misreports_bind,
      readBounded_misreports]
    have whole : ∀ read m', (readBounded c.maxResponseBytes [] response.body).outcome m =
        (.ok read, m') ↔ (∃ chunks : List (List UInt8), response.body = chunks.map some ∧
          read = chunks.flatten ∧ read.length ≤ c.maxResponseBytes) ∧ m' = m :=
      fun _ _ => readBounded_ok_iff (Nat.zero_le _)
    simp only [ne_eq, whole, misreports_okOr, isUncertain_invalidResponse, and_true, success,
      true_and, AdapterHttpConnector.Reads]
    constructor
    · rintro (⟨mutated, unread⟩ | ⟨read, _, ⟨⟨chunks, all, rfl, bounded⟩, rfl⟩, undecoded, mutated⟩)
      · refine ⟨mutated, ?_⟩
        rintro ⟨chunks, all, bounded, -⟩
        exact unread _ ⟨chunks, all, rfl, bounded⟩
      · refine ⟨mutated, ?_⟩
        rintro ⟨chunks', all', -, result, decoded⟩
        have : chunks = chunks' := by
          apply List.map_injective_iff.mpr (Option.some_injective _)
          rw [← all, ← all']
        rw [this, decoded] at undecoded
        cases undecoded
    · rintro ⟨mutated, unreadable⟩
      by_cases read : ∃ chunks : List (List UInt8), response.body = chunks.map some ∧
          chunks.flatten.length ≤ c.maxResponseBytes
      · obtain ⟨chunks, all, bounded⟩ := read
        refine Or.inr ⟨chunks.flatten, m, ⟨⟨chunks, all, rfl, bounded⟩, rfl⟩, ?_, mutated⟩
        by_contra decoded
        obtain ⟨result, decoded⟩ := Option.ne_none_iff_exists'.mp decoded
        exact unreadable ⟨chunks, all, bounded, result, decoded⟩
      · refine Or.inl ⟨mutated, ?_⟩
        rintro _ ⟨chunks, all, rfl, bounded⟩
        exact read ⟨chunks, all, bounded⟩
  · rw [misreports_bind]
    have refused : isSuccess response.status = false := by simpa using success
    constructor
    · rintro (h | ⟨_, m', returned, -⟩)
      · exact ⟨(classifyStatus_misreports.mp h).2, fun both => success both.1⟩
      · unfold classifyStatus at returned
        rw [if_neg success, outcome_throw] at returned
        cases returned
    · rintro ⟨mutated, -⟩
      exact Or.inl (classifyStatus_misreports.mpr ⟨refused, mutated⟩)

theorem postJson_misreports {c : AdapterHttpConnector} {path timestamp nonce : String}
    {payload : EraseRequest} {exchange : Exchange} :
    (c.postJson path timestamp nonce payload true exchange).Misreports false ↔
      c.Sends path timestamp nonce payload ∧ exchange.applied = true ∧
        ∃ response, exchange.response = some response ∧
          ¬ (isSuccess response.status = true ∧ c.Reads response.body) := by
  unfold AdapterHttpConnector.postJson AdapterHttpConnector.send
  simp only [bind_assoc, pure_bind]
  rw [misreports_bind]
  simp only [not_misreports_of_silent silent_prepare, false_or, prepare_ok_iff, misreports_deliver,
    misreports_okOr_bind, answered_misreports]
  constructor
  · rintro ⟨_, _, ⟨sent, rfl⟩, ⟨-, -, definite⟩ | ⟨response, arrived, mutated, failed⟩⟩
    · cases definite
    · exact ⟨sent, mutated, response, arrived, failed⟩
  · rintro ⟨sent, applied, response, arrived, failed⟩
    exact ⟨(), false, ⟨sent, rfl⟩, Or.inr ⟨response, arrived, by simpa using applied, failed⟩⟩

/-! ## The Supabase connector -/

/-- The deletion was answered as done, or as having found nothing. -/
def Exchange.Accepted (x : Exchange) : Prop :=
  ∃ response, x.response = some response ∧ (isSuccess response.status = true ∨ response.status = 404)

/-- The deletion was refused by something other than a failure of the server. -/
def Exchange.Refused (x : Exchange) : Prop :=
  ∃ response, x.response = some response ∧ isSuccess response.status = false ∧
    response.status ≠ 404 ∧ isServerError response.status = false

/-- The page names objects, and their deletion was applied. -/
def Page.Mutates (p : Page) : Prop :=
  ∃ names, p.names = some names ∧ names ≠ [] ∧ p.deletion.applied = true

/-- The page was full and its deletion accepted, so that the loop goes on. -/
def Page.Continues (p : Page) : Prop :=
  ∃ names, p.names = some names ∧ storageDeleteBatch ≤ names.length ∧ p.deletion.Accepted

/-- The names of the page could not be read, or their deletion was refused. -/
def Page.Breaks (p : Page) : Prop :=
  p.names = none ∨ ∃ names, p.names = some names ∧ names ≠ [] ∧ p.deletion.Refused

/-- The loop breaks at a page, with objects of that page or of an earlier one deleted, or something
    mutated before the loop. -/
def BrokenAfter (mutated : Prop) (pages : List Page) : Prop :=
  ∃ done page later, pages = done ++ page :: later ∧ (∀ p ∈ done, p.Continues) ∧ page.Breaks ∧
    (mutated ∨ ∃ p ∈ done ++ [page], p.Mutates)

/-- The URL of a path under the service. -/
def SupabaseConnector.Addresses (c : SupabaseConnector) (segments : List String) : Prop :=
  ∃ api, c.api = some api ∧ ∃ url, api.url segments = some url

theorem apiUrl_ok_iff {c : SupabaseConnector} {segments : List String} {url : String}
    {m m' : Bool} :
    (c.apiUrl segments).outcome m = (.ok url, m') ↔
      (∃ api, c.api = some api ∧ api.url segments = some url) ∧ m' = m := by
  unfold SupabaseConnector.apiUrl
  simp only [bind_ok_iff, okOr_ok_iff]
  constructor
  · rintro ⟨api, _, ⟨present, rfl⟩, addressed, rfl⟩
    exact ⟨⟨api, present, addressed⟩, rfl⟩
  · rintro ⟨⟨api, present, addressed⟩, rfl⟩
    exact ⟨api, m', ⟨present, rfl⟩, addressed, rfl⟩

/-- An unusable address is a definite failure. -/
theorem apiUrl_misreports {c : SupabaseConnector} {segments : List String} {m : Bool} :
    (c.apiUrl segments).Misreports m ↔ m = true ∧ ¬ c.Addresses segments := by
  unfold SupabaseConnector.apiUrl SupabaseConnector.Addresses
  rw [misreports_okOr_bind]
  simp only [misreports_okOr, isUncertain_invalidConfig, and_true]
  cases c.api with
  | none => simp
  | some api =>
    simp only [reduceCtorEq, false_and, false_or, Option.some.injEq, exists_eq_left']
    rw [← Option.ne_none_iff_exists', not_not, and_comm]

theorem not_brokenAfter_nil {mutated : Prop} : ¬ BrokenAfter mutated [] := by
  rintro ⟨done, page, later, empty, -⟩
  cases done with
  | nil => cases empty
  | cons first done => cases empty

/-- One round of the loop: it breaks here, or it goes on with what this page has mutated. -/
theorem brokenAfter_cons {mutated : Prop} {page : Page} {pages : List Page} :
    BrokenAfter mutated (page :: pages) ↔
      (page.Breaks ∧ (mutated ∨ page.Mutates)) ∨
        (page.Continues ∧ BrokenAfter (mutated ∨ page.Mutates) pages) := by
  constructor
  · rintro ⟨done, last, later, split, continues, breaks, before⟩
    cases done with
    | nil =>
      obtain ⟨rfl, rfl⟩ := List.cons.inj split
      refine Or.inl ⟨breaks, before.imp_right ?_⟩
      rintro ⟨p, mem, mutates⟩
      have same : p = page := by simpa using mem
      exact same ▸ mutates
    | cons first done =>
      obtain ⟨rfl, rfl⟩ := List.cons.inj split
      refine Or.inr ⟨continues _ (List.mem_cons_self ..), done, last, later, rfl, ?_, breaks, ?_⟩
      · intro p mem
        exact continues p (List.mem_cons_of_mem _ mem)
      · rcases before with before | ⟨p, mem, mutates⟩
        · exact Or.inl (Or.inl before)
        · rw [List.cons_append, List.mem_cons] at mem
          rcases mem with rfl | mem
          · exact Or.inl (Or.inr mutates)
          · exact Or.inr ⟨p, mem, mutates⟩
  · rintro (⟨breaks, before⟩ | ⟨continues, done, last, later, rfl, all, breaks, before⟩)
    · refine ⟨[], page, pages, rfl, by simp, breaks, before.imp_right ?_⟩
      intro mutates
      exact ⟨page, by simp, mutates⟩
    · refine ⟨page :: done, last, later, rfl, ?_, breaks, ?_⟩
      · intro p mem
        rcases List.mem_cons.mp mem with rfl | mem
        · exact continues
        · exact all p mem
      · rcases before with (before | mutates) | ⟨p, mem, mutates⟩
        · exact Or.inl before
        · exact Or.inr ⟨page, by simp, mutates⟩
        · exact Or.inr ⟨p, List.mem_cons_of_mem _ mem, mutates⟩

/-- The failure of a page that names objects: the deletion was refused, or a later page breaks. -/
theorem deletion_misreports {c : SupabaseConnector} {bucket : String} {plan : ErasePlan}
    {affectedCount : Nat} {names : List String} {x : Exchange} {pages : List Page} {m : Bool} :
    (deliver x.applied >>= fun _ =>
        okOr x.response (uncertain "SUPABASE_STORAGE_DELETE_UNCERTAIN") >>= fun response =>
          failIf (isSuccess response.status = false ∧ response.status ≠ 404)
              (destructiveHttpError response.status "SUPABASE_STORAGE_DELETE_FAILED") >>= fun _ =>
            if names.length < storageDeleteBatch then
              (return some { operationKey := plan.operationKey, outcome := .deleted,
                             affectedCount := saturatingAdd affectedCount names.length,
                             reason := none } : Connecting (Option EraseResult))
            else
              c.eraseBucket bucket plan (saturatingAdd affectedCount names.length)
                pages).Misreports m ↔
      (x.Refused ∧ (m || x.applied) = true) ∨
        (x.Accepted ∧ storageDeleteBatch ≤ names.length ∧
          (c.eraseBucket bucket plan (saturatingAdd affectedCount names.length) pages).Misreports
            (m || x.applied)) := by
  simp only [misreports_deliver, misreports_okOr_bind, misreports_failIf, misreports_ite,
    not_misreports_pure, isUncertain_uncertain, isUncertain_destructiveHttpError, and_false,
    false_or, not_lt, Exchange.Refused, Exchange.Accepted, reduceCtorEq]
  constructor
  · rintro ⟨response, arrived, ⟨⟨unsuccessful, found⟩, mutated, definite⟩ | ⟨accepted, full, h⟩⟩
    · exact Or.inl ⟨⟨response, arrived, unsuccessful, found, definite⟩, mutated⟩
    · refine Or.inr ⟨⟨response, arrived, ?_⟩, full, h⟩
      by_contra refused
      rw [not_or, Bool.not_eq_true] at refused
      exact accepted refused
  · rintro (⟨⟨response, arrived, unsuccessful, found, definite⟩, mutated⟩ |
      ⟨⟨response, arrived, accepted⟩, full, h⟩)
    · exact ⟨response, arrived, Or.inl ⟨⟨unsuccessful, found⟩, mutated, definite⟩⟩
    · refine ⟨response, arrived, Or.inr ⟨?_, full, h⟩⟩
      rintro ⟨unsuccessful, found⟩
      rcases accepted with success | missing
      · rw [success] at unsuccessful
        cases unsuccessful
      · exact found missing

theorem eraseBucket_misreports {c : SupabaseConnector} {bucket : String} {plan : ErasePlan}
    {affectedCount : Nat} {pages : List Page} {m : Bool}
    (addressed : c.Addresses ["storage", "v1", "object", bucket]) :
    (c.eraseBucket bucket plan affectedCount pages).Misreports m ↔
      BrokenAfter (m = true) pages := by
  induction pages generalizing affectedCount m with
  | nil =>
    rw [SupabaseConnector.eraseBucket]
    exact iff_of_false (not_misreports_pure _) not_brokenAfter_nil
  | cons page pages ih =>
    obtain ⟨api, present, url, at_url⟩ := addressed
    have located : (c.apiUrl ["storage", "v1", "object", bucket]).outcome m = (.ok url, m) :=
      apiUrl_ok_iff.mpr ⟨⟨api, present, at_url⟩, rfl⟩
    rw [brokenAfter_cons, SupabaseConnector.eraseBucket, misreports_okOr_bind]
    simp only [misreports_ite, misreports_bind_of_ok located, deletion_misreports,
      not_misreports_pure, ih, isUncertain_remote, and_true, and_false, false_or, Page.Breaks,
      Page.Mutates, Page.Continues]
    cases named : page.names with
    | none => simp
    | some names =>
      by_cases empty : names = []
      · subst empty
        simp [storageDeleteBatch]
      · simp [empty, and_assoc, and_left_comm]

/-- Where the bucket has no address, no round gets as far as a deletion. -/
theorem eraseBucket_unaddressed {c : SupabaseConnector} {bucket : String} {plan : ErasePlan}
    {affectedCount : Nat} {pages : List Page}
    (unaddressed : ¬ c.Addresses ["storage", "v1", "object", bucket]) :
    ¬ (c.eraseBucket bucket plan affectedCount pages).Misreports false := by
  have nowhere : ∀ url m m', (c.apiUrl ["storage", "v1", "object", bucket]).outcome m ≠
      (.ok url, m') := by
    intro url m m' returned
    obtain ⟨⟨api, present, at_url⟩, -⟩ := apiUrl_ok_iff.mp returned
    exact unaddressed ⟨api, present, url, at_url⟩
  cases pages with
  | nil =>
    rw [SupabaseConnector.eraseBucket]
    exact not_misreports_pure _
  | cons page pages =>
    rw [SupabaseConnector.eraseBucket, misreports_okOr_bind]
    simp only [misreports_ite, misreports_bind, apiUrl_misreports, nowhere, not_misreports_pure]
    simp

/-- The storage erase reaches the loop over its bucket. -/
def SupabaseConnector.ErasesStorage (c : SupabaseConnector) (subject : SubjectIdentity)
    (plan : ErasePlan) (bucket : String) : Prop :=
  (∃ storage, c.storage.find? (·.localReference = plan.resource) = some storage ∧
    storage.bucket = bucket) ∧ plan.action = .delete ∧
    (∃ userId, nonEmpty subject.applicationUserId = some userId) ∧
    c.Addresses ["storage", "v1", "object", bucket]

theorem eraseStorage_misreports {c : SupabaseConnector} {subject : SubjectIdentity}
    {plan : ErasePlan} {pages : List Page} :
    (c.eraseStorage subject plan pages).Misreports false ↔
      ∃ bucket, c.ErasesStorage subject plan bucket ∧ BrokenAfter False pages := by
  unfold SupabaseConnector.eraseStorage SupabaseConnector.storageForResource stableUserId
  simp only [misreports_okOr_bind, misreports_failIf, Bool.false_eq_true, false_and, and_false,
    false_or, ne_eq, not_not]
  constructor
  · rintro ⟨storage, mapped, delete, userId, stable, h⟩
    have addressed : c.Addresses ["storage", "v1", "object", storage.bucket] := by
      by_contra unaddressed
      exact eraseBucket_unaddressed unaddressed h
    refine ⟨storage.bucket, ⟨⟨storage, mapped, rfl⟩, delete, ⟨userId, stable⟩, addressed⟩, ?_⟩
    simpa using (eraseBucket_misreports addressed).mp h
  · rintro ⟨_, ⟨⟨storage, mapped, rfl⟩, delete, ⟨userId, stable⟩, addressed⟩, broken⟩
    refine ⟨storage, mapped, delete, userId, stable, (eraseBucket_misreports addressed).mpr ?_⟩
    simpa using broken

/-- The erase of the user reaches its request. -/
def SupabaseConnector.ErasesUser (c : SupabaseConnector) (subject : SubjectIdentity)
    (plan : ErasePlan) : Prop :=
  c.deleteAuthUser = true ∧ plan.action = .delete ∧
    ∃ userId, nonEmpty subject.applicationUserId = some userId ∧
      c.Addresses ["auth", "v1", "admin", "users", userId]

/-- Of the answers about a user only a refusal is a definite failure. -/
theorem user_answered_misreports {response : HttpResponse} {result : Nat → EraseResult}
    {m : Bool} :
    (if isSuccess response.status then pure 1 >>= fun n => pure (result n)
      else if response.status = 404 then pure 0 >>= fun n => pure (result n)
      else throw (destructiveHttpError response.status "SUPABASE_AUTH_DELETE_FAILED") >>=
        fun n => pure (result n) : Connecting EraseResult).Misreports m ↔
      m = true ∧ isSuccess response.status = false ∧ response.status ≠ 404 ∧
        isServerError response.status = false := by
  rw [misreports_ite, misreports_ite, misreports_bind_of_error (outcome_throw _ m)]
  simp only [pure_bind, not_misreports_pure, isUncertain_destructiveHttpError, and_false,
    false_or, Bool.not_eq_true]
  tauto

theorem eraseAuthUser_misreports {c : SupabaseConnector} {subject : SubjectIdentity}
    {plan : ErasePlan} {exchange : Exchange} :
    (c.eraseAuthUser subject plan exchange).Misreports false ↔
      c.ErasesUser subject plan ∧ exchange.applied = true ∧ exchange.Refused := by
  unfold SupabaseConnector.eraseAuthUser stableUserId SupabaseConnector.ErasesUser Exchange.Refused
  simp only [misreports_failIf, misreports_okOr_bind, Bool.false_eq_true, false_and, and_false,
    false_or]
  constructor
  · rintro ⟨mapped, userId, stable, h⟩
    rw [not_or, not_not, Bool.not_eq_false] at mapped
    rw [misreports_bind] at h
    rcases h with unaddressed | ⟨url, _, located, h⟩
    · exact absurd (apiUrl_misreports.mp unaddressed).1 Bool.false_ne_true
    · obtain ⟨⟨api, present, at_url⟩, rfl⟩ := apiUrl_ok_iff.mp located
      rw [misreports_deliver, misreports_okOr_bind] at h
      rcases h with ⟨-, -, definite⟩ | ⟨response, arrived, h⟩
      · cases definite
      · obtain ⟨applied, refused⟩ := user_answered_misreports.mp h
        exact ⟨⟨mapped.1, mapped.2, userId, stable, api, present, url, at_url⟩,
          by simpa using applied, response, arrived, refused⟩
  · rintro ⟨⟨deletes, delete, userId, stable, api, present, url, at_url⟩, applied, response,
      arrived, refused⟩
    refine ⟨?_, userId, stable, ?_⟩
    · rw [not_or, not_not, Bool.not_eq_false]
      exact ⟨deletes, delete⟩
    · rw [misreports_bind_of_ok (apiUrl_ok_iff.mpr ⟨⟨api, present, at_url⟩, rfl⟩),
        misreports_deliver, misreports_okOr_bind]
      refine Or.inr ⟨response, arrived, user_answered_misreports.mpr ⟨?_, refused⟩⟩
      simpa using applied

/-- What a transaction leaves undone it has not changed, and an unanswered commit is uncertain. -/
theorem not_misreports_eraseTable {c : SupabaseConnector} {subject : SubjectIdentity}
    {plan : ErasePlan} {database : TableRemote} :
    ¬ (c.eraseTable subject plan database).Misreports false := by
  unfold SupabaseConnector.eraseTable SupabaseConnector.tableForResource TableMapping.subjectValue
  simp only [misreports_okOr_bind, misreports_failIf, misreports_deliver, not_misreports_pure,
    isUncertain_uncertain, Bool.false_eq_true, false_and, and_false, or_false,
    reduceCtorEq, exists_false, not_false_eq_true]

theorem eraseSubject_misreports {c : SupabaseConnector} {subject : SubjectIdentity}
    {plan : ErasePlan} {context : ExecutionContext} {remote : SupabaseRemote} :
    (c.eraseSubject subject plan context remote).Misreports false ↔
      context.dryRun = false ∧ trim context.idempotencyKey ≠ "" ∧ trim plan.operationKey ≠ "" ∧
        ((plan.resource = "supabase:auth:user" ∧ c.ErasesUser subject plan ∧
            remote.user.applied = true ∧ remote.user.Refused) ∨
          (plan.resource ≠ "supabase:auth:user" ∧
            "supabase:storage:".toList.isPrefixOf plan.resource.toList ∧
            ∃ bucket, c.ErasesStorage subject plan bucket ∧ BrokenAfter False remote.pages)) := by
  unfold SupabaseConnector.eraseSubject
  rw [misreports_failIf, misreports_ite, misreports_map, eraseAuthUser_misreports, misreports_ite,
    misreports_map, eraseStorage_misreports]
  simp only [not_misreports_eraseTable, Bool.false_eq_true, false_and, and_false, false_or,
    or_false, not_or, Bool.not_eq_true, ne_eq, and_assoc]

/-! ## Every destructive erase -/

/-- A connector with what its remote does during one erase. -/
inductive RemoteErase where
  | adapter (c : AdapterHttpConnector) (timestamp nonce : String) (exchange : Exchange)
  | supabase (c : SupabaseConnector) (remote : SupabaseRemote)

namespace RemoteErase

/-- `connector.erase(subject, plan, context)`. -/
def erase (x : RemoteErase) (subject : SubjectIdentity) (plan : ErasePlan)
    (context : ExecutionContext) : Connecting (Option EraseResult) :=
  match x with
  | adapter c timestamp nonce exchange =>
    some <$> c.erase timestamp nonce subject plan context exchange
  | supabase c remote => c.eraseSubject subject plan context remote

/-- A definite failure of the erase leaves everything remote as it was. -/
def DefinitelyUnchanged (x : RemoteErase) (subject : SubjectIdentity) (plan : ErasePlan)
    (context : ExecutionContext) : Prop :=
  ∀ e mutated, (x.erase subject plan context).outcome false = (.error e, mutated) →
    e.isUncertain = false → mutated = false

/-- The remote applied a request of this erase, and then it answered what a connector takes for a
    definite failure: an adapter any status but success or a body that cannot be read, the users
    of Supabase a refusal, a bucket a page that breaks. -/
def AppliedThenRefused (x : RemoteErase) (subject : SubjectIdentity) (plan : ErasePlan)
    (context : ExecutionContext) : Prop :=
  match x with
  | adapter c timestamp nonce exchange =>
    c.Sends "/forgetops/v1/erase" timestamp nonce (eraseRequest subject plan context) ∧
      exchange.applied = true ∧ ∃ response, exchange.response = some response ∧
        ¬ (isSuccess response.status = true ∧ c.Reads response.body)
  | supabase c remote =>
    context.dryRun = false ∧ trim context.idempotencyKey ≠ "" ∧ trim plan.operationKey ≠ "" ∧
      ((plan.resource = "supabase:auth:user" ∧ c.ErasesUser subject plan ∧
          remote.user.applied = true ∧ remote.user.Refused) ∨
        (plan.resource ≠ "supabase:auth:user" ∧
          "supabase:storage:".toList.isPrefixOf plan.resource.toList ∧
          ∃ bucket, c.ErasesStorage subject plan bucket ∧ BrokenAfter False remote.pages))

theorem definitelyUnchanged_iff_not_misreports (x : RemoteErase) (subject : SubjectIdentity)
    (plan : ErasePlan) (context : ExecutionContext) :
    x.DefinitelyUnchanged subject plan context ↔
      ¬ (x.erase subject plan context).Misreports false := by
  constructor
  · rintro unchanged ⟨e, thrown, definite⟩
    exact absurd (unchanged e true thrown definite) (by decide)
  · intro reported e mutated thrown definite
    by_contra changed
    rw [Bool.not_eq_false] at changed
    exact reported ⟨e, changed ▸ thrown, definite⟩

theorem definitelyUnchanged_iff (x : RemoteErase) (subject : SubjectIdentity) (plan : ErasePlan)
    (context : ExecutionContext) :
    x.DefinitelyUnchanged subject plan context ↔
      ¬ x.AppliedThenRefused subject plan context := by
  rw [definitelyUnchanged_iff_not_misreports, not_iff_not]
  cases x with
  | adapter c timestamp nonce exchange =>
    unfold erase AppliedThenRefused AdapterHttpConnector.erase
    rw [misreports_map, postJson_misreports]
  | supabase c remote => exact eraseSubject_misreports

end RemoteErase

/-- A connector over the bucket of avatars. -/
def avatars : SupabaseConnector where
  tables := []
  storage := [{ bucket := "avatars", templatePrefix := "users/{user_id}/" }]
  deleteAuthUser := false
  api := some { url := fun segments => some ("https://project.supabase.co/" ++
    "/".intercalate segments) }

def avatarNames : List String :=
  (List.range storageDeleteBatch).map fun i => "users/u1/" ++ toString i ++ ".png"

/-- The first page is deleted, then the connection to the database is lost. -/
def lostAfterFirstPage : SupabaseRemote where
  table := { begins := false, affected := none, commitAnswered := false, commitApplied := false }
  pages := [{ names := some avatarNames,
              deletion := { applied := true, response := some { status := 200, body := [] } } },
            { names := none, deletion := { applied := false, response := none } }]
  user := { applied := false, response := none }

theorem definitelyUnchanged_fails_on_second_page :
    ¬ (RemoteErase.supabase avatars lostAfterFirstPage).DefinitelyUnchanged
      { applicationUserId := some "u1", email := none }
      { resource := "supabase:storage:avatars", operationKey := "op-1", action := .delete }
      { requestId := "r1", attemptId := "a1", stepId := "s1", idempotencyKey := "k1",
        dryRun := false } := by
  have full : avatarNames.length = storageDeleteBatch := by simp [avatarNames]
  have some_names : avatarNames ≠ [] := by
    intro empty
    rw [empty] at full
    cases full
  have reached : avatars.ErasesStorage { applicationUserId := some "u1", email := none }
      { resource := "supabase:storage:avatars", operationKey := "op-1", action := .delete }
      "avatars" :=
    ⟨⟨{ bucket := "avatars", templatePrefix := "users/{user_id}/" }, rfl, rfl⟩, rfl,
      ⟨"u1", by decide⟩, _, rfl, _, rfl⟩
  have first : Page.Continues ⟨some avatarNames, ⟨true, some ⟨200, []⟩⟩⟩ :=
    ⟨avatarNames, rfl, full.ge, _, rfl, Or.inl rfl⟩
  have broken : BrokenAfter False lostAfterFirstPage.pages := by
    refine ⟨[_], _, [], rfl, ?_, Or.inl rfl, Or.inr ⟨_, List.mem_cons_self .., avatarNames, rfl,
      some_names, rfl⟩⟩
    intro p mem
    rw [List.mem_singleton.mp mem]
    exact first
  rw [RemoteErase.definitelyUnchanged_iff_not_misreports, not_not]
  refine eraseSubject_misreports.mpr ⟨rfl, by decide, by decide, ?_⟩
  exact Or.inr ⟨by decide, by decide, "avatars", reached, broken⟩

end ForgetOps.Connector
