import ForgetOps.Library.Base64Url
import ForgetOps.Library.JsonParse
import ForgetOps.Library.Utf8
import ForgetOps.Signer.AuthorizationSigner

/-
  `PortalCapabilityService` (`apps/api/src/modules/privacy-portal/routes.ts`).

  A `Date` is its time in milliseconds, and nothing where the source has an invalid date; texts are
  lists of characters. HMAC under the secret, `canonicalize`, `Buffer.from(text, "base64url")` and
  `Date.parse` are parameters, of which `Documented` says what their documentation does. `verify`
  takes what `issue` wrote, and other spellings of it: `exact_iff`.
-/

namespace ForgetOps.Api.PrivacyPortal

open Json
open Signer (Date)
open Guards

inductive Permission where
  | readStatus
  | downloadExport
  deriving DecidableEq, Repr

def Permission.text : Permission → String
  | .readStatus => "read_status"
  | .downloadExport => "download_export"

structure PortalCapabilityClaims where
  requestId : JsString
  projectId : JsString
  portalSessionId : JsString
  tokenId : JsString
  permissions : List Permission
  issuedAt : String
  expiresAt : String
  deriving DecidableEq

def string (s : String) : Json JsString := .string (jsString s)

def PortalCapabilityClaims.members (claims : PortalCapabilityClaims) : Members JsString :=
  [("type", string "forgetops.portal-capability"),
    ("version", .number 1),
    ("audience", string "forgetops-privacy-portal"),
    ("requestId", .string claims.requestId),
    ("projectId", .string claims.projectId),
    ("portalSessionId", .string claims.portalSessionId),
    ("tokenId", .string claims.tokenId),
    ("permissions", .array (claims.permissions.map fun p => string p.text)),
    ("issuedAt", string claims.issuedAt),
    ("expiresAt", string claims.expiresAt)]

/-- What is not under the source. -/
structure PortalLibraries where
  canonicalize : Json JsString → Option (List Char)
  /-- `createHmac("sha256", secret)` of what it is updated with. -/
  hmac : List UInt8 → List UInt8
  /-- `Buffer.from(text, "base64url")`. -/
  fromBase64Url : List Char → List UInt8
  /-- `Date.parse` of a property. -/
  dateParse : Option (Json JsString) → Option Int

/-- Canonical claims are a JSON text of the claims, an HMAC has 32 bytes, and the decoder reads what
    the encoder writes. -/
structure PortalLibraries.Documented (lib : PortalLibraries) : Prop where
  canonical : ∀ (claims : PortalCapabilityClaims) text,
    lib.canonicalize (.object claims.members) = some text →
    ∃ members, members.Perm claims.members ∧ Json.parse text = some (.object members)
  length_hmac : ∀ message, (lib.hmac message).length = 32
  decodes : ∀ bytes, lib.fromBase64Url (Base64Url.encode bytes) = bytes

/-! ## `issue` -/

structure IssueInput where
  requestId : JsString
  projectId : JsString
  portalSessionId : JsString
  permissions : List Permission
  ttlMs : Option ℚ
  /-- `randomBytes(16).toString("hex")`. -/
  tokenId : JsString
  now : Date
  deriving DecidableEq

inductive PortalError where
  | ttlInvalid
  | invalidTime
  | tokenInvalid
  | syntaxError
  /-- A property of `null` is read. -/
  | typeError
  deriving DecidableEq, Repr

/-- A token, with the claims and the expiry it was issued for. -/
structure Issued where
  claims : PortalCapabilityClaims
  expires : Int
  payload : List Char
  signature : List Char

def Issued.token (i : Issued) : List Char := i.payload ++ '.' :: i.signature

/-- What the signature of a payload is made over. -/
def signed (payload : List Char) : List UInt8 :=
  Json.utf8 "forgetops.portal-capability.v1".toList ++ 0 :: Json.utf8 payload

def iso : Date → Except PortalError String
  | some time => .ok (IsoTimestamp.toISOString time)
  | none => .error .invalidTime

variable (lib : PortalLibraries)

def issue (input : IssueInput) : Except PortalError Issued := do
  let ttlMs := input.ttlMs.getD (60 * 60 * 1000)
  refuse (ttlMs ≤ 0 ∨ ttlMs > 60 * 60 * 1000) .ttlInvalid
  let issuedAt ← iso input.now
  let expiresAt ← iso (input.now.plus ttlMs)
  let claims : PortalCapabilityClaims :=
    { requestId := input.requestId
      projectId := input.projectId
      portalSessionId := input.portalSessionId
      tokenId := input.tokenId
      permissions := input.permissions.eraseDups
      issuedAt
      expiresAt }
  let text ← okOr (lib.canonicalize (.object claims.members)) .tokenInvalid
  let payload := Base64Url.encode (Json.utf8 text)
  return {
    claims
    expires := (input.now.plus ttlMs).getD 0
    payload
    signature := Base64Url.encode (lib.hmac (signed payload)) }

/-- The tokens of a history of calls. -/
def issued (history : List IssueInput) : List Issued :=
  history.filterMap fun input => (issue lib input).toOption

/-! ## `verify` -/

/-- `expires <= now`, which is false where either is `NaN`. -/
def expired : Option Int → Date → Bool
  | some expires, some now => expires ≤ now
  | _, _ => false

def asNumber : Json JsString → Option Int
  | .number n => some n
  | _ => none

/-- The checks of the claims that were read. -/
def checkClaims (now : Date) : Json JsString → Except PortalError Unit
  | .null => .error .typeError
  | .object members =>
    if (property "type" members).bind asString ≠ some (jsString "forgetops.portal-capability") ∨
        (property "version" members).bind asNumber ≠ some 1 ∨
        (property "audience" members).bind asString ≠ some (jsString "forgetops-privacy-portal") ∨
        expired (lib.dateParse (property "expiresAt" members)) now then
      .error .tokenInvalid
    else .ok ()
  | _ => .error .tokenInvalid

/-- `verify` at the time `now`. -/
def verify (token : List Char) (now : Date) : Except PortalError (Json JsString) :=
  match token.splitOn '.' with
  | payload :: signature :: extra =>
    if payload = [] ∨ signature = [] ∨ (extra.head?.getD [] ≠ []) then .error .tokenInvalid
    else if lib.hmac (signed payload) ≠ lib.fromBase64Url signature then .error .tokenInvalid
    else do
      let claims ← okOr (Json.parse (Utf8.decode (lib.fromBase64Url payload))) .syntaxError
      checkClaims lib now claims
      return claims
  | _ => .error .tokenInvalid

/-! ## Exactness -/

/-- The value that was read is an object with these claims. -/
def Same (claims : PortalCapabilityClaims) (v : Json JsString) : Prop :=
  ∃ members, members.Perm claims.members ∧ v = .object members

/-- `verify` takes the tokens that were issued and have not expired, and returns their claims. -/
structure Exact (history : List IssueInput) (token : List Char) (now : Int) : Prop where
  sound : ∀ v, verify lib token (some now) = .ok v →
    ∃ i ∈ issued lib history, i.token = token ∧ now < i.expires ∧ Same i.claims v
  complete : ∀ i ∈ issued lib history, i.token = token → now < i.expires →
    ∃ v, verify lib token (some now) = .ok v ∧ Same i.claims v

/-- `Date.parse` reads the expiries of these tokens as they were printed. -/
def Dated (history : List IssueInput) : Prop :=
  ∀ i ∈ issued lib history,
    lib.dateParse (some (string (IsoTimestamp.toISOString i.expires))) = some i.expires

/-- Nobody knows a valid signature of a payload that was not issued. -/
def Unforged (history : List IssueInput) (token : List Char) : Prop :=
  ∀ payload signature extra, token.splitOn '.' = payload :: signature :: extra →
    lib.fromBase64Url signature = lib.hmac (signed payload) →
    ∃ i ∈ issued lib history, i.payload = payload

/-- Another way to write a token: its payload, a text that decodes to its signature, and behind a
    second point nothing, or nothing up to a third one. -/
def Respells (i : Issued) (token : List Char) : Prop :=
  ∃ signature extra, token.splitOn '.' = i.payload :: signature :: extra ∧
    lib.fromBase64Url signature = lib.fromBase64Url i.signature ∧ extra.head?.getD [] = []

/-- Two parts, the second as it is encoded. -/
def WellSpelled (token : List Char) : Prop :=
  ∃ payload signature, token.splitOn '.' = [payload, signature] ∧
    signature = Base64Url.encode (lib.fromBase64Url signature)

variable {lib}

/-! ### What was issued -/

theorem iso_ok {date : Date} {s : String} :
    iso date = .ok s ↔ ∃ time, date = some time ∧ IsoTimestamp.toISOString time = s := by
  cases date with
  | none => simp [iso]
  | some time => simp [iso]

/-- What is known of a token that was issued. -/
structure Written (lib : PortalLibraries) (i : Issued) : Prop where
  expires : i.claims.expiresAt = IsoTimestamp.toISOString i.expires
  payload : ∃ text, lib.canonicalize (.object i.claims.members) = some text ∧
    i.payload = Base64Url.encode (Json.utf8 text)
  signature : i.signature = Base64Url.encode (lib.hmac (signed i.payload))

theorem expires_of_issue {input : IssueInput} {i : Issued} (h : issue lib input = .ok i) :
    input.now.plus (input.ttlMs.getD (60 * 60 * 1000)) = some i.expires := by
  unfold issue at h
  dsimp only at h
  obtain ⟨-, h⟩ := refuse_bind_ok.mp h
  obtain ⟨issuedAt, -, h⟩ := bind_ok.mp h
  obtain ⟨expiresAt, hexpires, h⟩ := bind_ok.mp h
  obtain ⟨time, htime, -⟩ := iso_ok.mp hexpires
  obtain ⟨text, -, h⟩ := bind_ok.mp h
  cases h
  rw [htime]
  rfl

theorem written_of_issue {input : IssueInput} {i : Issued} (h : issue lib input = .ok i) :
    Written lib i := by
  have htime := expires_of_issue h
  unfold issue at h
  dsimp only at h
  obtain ⟨-, h⟩ := refuse_bind_ok.mp h
  obtain ⟨issuedAt, -, h⟩ := bind_ok.mp h
  obtain ⟨expiresAt, hexpires, h⟩ := bind_ok.mp h
  obtain ⟨text, htext, h⟩ := bind_ok.mp h
  cases h
  refine ⟨?_, ⟨text, okOr_ok.mp htext, rfl⟩, rfl⟩
  rw [htime] at hexpires
  exact (Except.ok.inj hexpires).symm

/-- A call with a valid lifetime and dates issues a token. -/
theorem exists_issue (lib : PortalLibraries) (input : IssueInput) {now time : Int}
    (httl : ¬ (input.ttlMs.getD (60 * 60 * 1000) ≤ 0 ∨
      input.ttlMs.getD (60 * 60 * 1000) > 60 * 60 * 1000))
    (hnow : input.now = some now)
    (hplus : input.now.plus (input.ttlMs.getD (60 * 60 * 1000)) = some time)
    (hcanonical : ∀ v, lib.canonicalize v ≠ none) :
    ∃ i, issue lib input = .ok i ∧ i.expires = time := by
  cases hissue : issue lib input with
  | ok i =>
    have htime := expires_of_issue hissue
    rw [hplus] at htime
    exact ⟨i, rfl, (Option.some.inj htime).symm⟩
  | error e =>
    unfold issue at hissue
    rcases bind_error.mp hissue with hrefused | ⟨-, -, hissue⟩
    · exact absurd (refuse_error.mp hrefused).1 httl
    rcases bind_error.mp hissue with hinvalid | ⟨issuedAt, -, hissue⟩
    · rw [hnow] at hinvalid
      cases hinvalid
    rcases bind_error.mp hissue with hinvalid | ⟨expiresAt, -, hissue⟩
    · rw [hplus] at hinvalid
      cases hinvalid
    rcases bind_error.mp hissue with hundefined | ⟨text, -, hissue⟩
    · exact absurd (okOr_error.mp hundefined).1 (hcanonical _)
    · cases hissue

theorem written_of_mem {history : List IssueInput} {i : Issued} (h : i ∈ issued lib history) :
    Written lib i := by
  obtain ⟨input, -, hsome⟩ := List.mem_filterMap.mp h
  cases hissue : issue lib input with
  | error e =>
    rw [hissue] at hsome
    cases hsome
  | ok i' =>
    rw [hissue] at hsome
    cases hsome
    exact written_of_issue hissue

theorem point_notMem_encode (bytes : List UInt8) : '.' ∉ Base64Url.encode bytes :=
  fun h => absurd (Base64Url.mem_alphabet_of_mem_encode h) (by decide)

theorem encode_ne_nil {bytes : List UInt8} (h : bytes ≠ []) : Base64Url.encode bytes ≠ [] := by
  intro hnil
  have hlength := Base64Url.length_encode bytes
  rw [hnil] at hlength
  exact h (List.length_eq_zero_iff.mp hlength.symm)

variable {i : Issued}

/-- A token is written as its two parts. -/
theorem Written.splitOn (h : Written lib i) : i.token.splitOn '.' = [i.payload, i.signature] := by
  obtain ⟨text, -, hpayload⟩ := h.payload
  unfold Issued.token
  rw [hpayload, List.splitOn_append_cons_self_of_not_mem (point_notMem_encode _), h.signature,
    List.splitOn_eq_singleton (point_notMem_encode _)]

theorem Written.fromBase64Url (h : Written lib i) (hlib : lib.Documented) :
    lib.fromBase64Url i.signature = lib.hmac (signed i.payload) := by
  rw [h.signature, hlib.decodes]

/-- The payload is read as the claims that were issued. -/
theorem Written.read (h : Written lib i) (hlib : lib.Documented) :
    i.payload ≠ [] ∧ ∃ members, members.Perm i.claims.members ∧
      Json.parse (Utf8.decode (lib.fromBase64Url i.payload)) = some (.object members) := by
  obtain ⟨text, hcanonical, hpayload⟩ := h.payload
  obtain ⟨members, hperm, hparse⟩ := hlib.canonical i.claims text hcanonical
  have hdecode : Utf8.decode (Json.utf8 text) = text := Utf8.decode_encode text
  refine ⟨?_, members, hperm, ?_⟩
  · rw [hpayload]
    apply encode_ne_nil
    intro hnil
    rw [hnil] at hdecode
    rw [← hdecode] at hparse
    cases hparse
  · rw [hpayload, hlib.decodes, hdecode, hparse]

/-! ### The claims that are read -/

/-- The order of the members does not matter. -/
theorem property_perm {members members' : Members JsString} (h : members.Perm members')
    {name : String} {v : Json JsString} (hone : named name members' = [v]) :
    property name members = some v := by
  have hperm : (named name members).Perm [v] := by
    rw [← hone]
    exact (h.filter _).map _
  unfold property
  rw [List.perm_singleton.mp hperm]
  rfl

/-- Claims that were issued are refused once they have expired, and for nothing else. -/
theorem Written.checkClaims (h : Written lib i)
    (hdated : lib.dateParse (some (string (IsoTimestamp.toISOString i.expires))) = some i.expires)
    (now : Int) {members : Members JsString} (hperm : members.Perm i.claims.members) :
    PrivacyPortal.checkClaims lib (some now) (.object members) =
      if i.expires ≤ now then .error .tokenInvalid else .ok () := by
  have htype : property "type" members = some (string "forgetops.portal-capability") :=
    property_perm hperm rfl
  have hversion : property "version" members = some (.number 1) := property_perm hperm rfl
  have haudience : property "audience" members = some (string "forgetops-privacy-portal") :=
    property_perm hperm rfl
  have hexpires : property "expiresAt" members =
      some (string (IsoTimestamp.toISOString i.expires)) := by
    rw [← h.expires]
    exact property_perm hperm rfl
  unfold PrivacyPortal.checkClaims
  dsimp only
  rw [htype, hversion, haudience, hexpires, hdated]
  unfold expired
  simp [string, asString, asNumber]

/-! ### `verify` -/

/-- The parts of a token that is taken. -/
structure Taken (lib : PortalLibraries) (token : List Char) (now : Date) (v : Json JsString)
    (payload signature : List Char) (extra : List (List Char)) : Prop where
  splitOn : token.splitOn '.' = payload :: signature :: extra
  payload_ne : payload ≠ []
  signature_ne : signature ≠ []
  extra_eq : extra.head?.getD [] = []
  signature_eq : lib.fromBase64Url signature = lib.hmac (signed payload)
  read : Json.parse (Utf8.decode (lib.fromBase64Url payload)) = some v
  checked : PrivacyPortal.checkClaims lib now v = .ok ()

theorem verify_ok {token : List Char} {now : Date} {v : Json JsString} :
    verify lib token now = .ok v ↔ ∃ payload signature extra,
      Taken lib token now v payload signature extra := by
  unfold verify
  constructor
  · intro h
    split at h
    · next payload signature extra hsplit =>
      split_ifs at h with hparts hsignature
      rw [not_or, not_or, not_not] at hparts
      obtain ⟨claims, hread, h⟩ := bind_ok.mp h
      obtain ⟨u, hchecked, h⟩ := bind_ok.mp h
      cases h
      exact ⟨payload, signature, extra, hsplit, hparts.1, hparts.2.1, hparts.2.2,
        (not_not.mp hsignature).symm, okOr_ok.mp hread, hchecked⟩
    · cases h
  · rintro ⟨payload, signature, extra, h⟩
    rw [h.splitOn]
    dsimp only
    rw [if_neg (by simp [h.payload_ne, h.signature_ne, h.extra_eq]),
      if_neg (not_not.mpr h.signature_eq.symm), h.read]
    exact bind_ok.mpr ⟨v, rfl, bind_ok.mpr ⟨(), h.checked, rfl⟩⟩

/-- A signature has bytes. -/
theorem Written.ne_nil_of_same (h : Written lib i) (hlib : lib.Documented) {signature : List Char}
    (hsame : lib.fromBase64Url signature = lib.fromBase64Url i.signature) : signature ≠ [] := by
  rintro rfl
  have hnil : lib.fromBase64Url [] = [] := hlib.decodes []
  have hlength := hlib.length_hmac (signed i.payload)
  rw [← h.fromBase64Url hlib, ← hsame, hnil] at hlength
  cases hlength

/-- What spells a token that has not expired is taken, and answered with its claims. -/
theorem Written.taken (h : Written lib i) (hlib : lib.Documented)
    (hdated : lib.dateParse (some (string (IsoTimestamp.toISOString i.expires))) = some i.expires)
    {now : Int} (hnow : now < i.expires) {token : List Char} (hrespells : Respells lib i token) :
    ∃ v, verify lib token (some now) = .ok v ∧ Same i.claims v := by
  obtain ⟨signature, extra, hsplit, hsame, hextra⟩ := hrespells
  obtain ⟨hpayload, members, hperm, hread⟩ := h.read hlib
  refine ⟨.object members, verify_ok.mpr ⟨i.payload, signature, extra, hsplit, hpayload,
    h.ne_nil_of_same hlib hsame, hextra, ?_, hread, ?_⟩, members, hperm, rfl⟩
  · rw [hsame, h.fromBase64Url hlib]
  · rw [h.checkClaims hdated now hperm, if_neg (not_le.mpr hnow)]

theorem Written.respells_self (h : Written lib i) : Respells lib i i.token :=
  ⟨i.signature, [], h.splitOn, rfl, rfl⟩

/-- What is taken spells a token that has not expired. -/
theorem respells_of_verify (hlib : lib.Documented) {history : List IssueInput}
    (hdated : Dated lib history) {token : List Char} (hunforged : Unforged lib history token) {now : Int} {v : Json JsString}
    (h : verify lib token (some now) = .ok v) :
    ∃ i ∈ issued lib history, now < i.expires ∧ Respells lib i token ∧ Same i.claims v := by
  obtain ⟨payload, signature, extra, h⟩ := verify_ok.mp h
  obtain ⟨i, hi, rfl⟩ := hunforged payload signature extra h.splitOn h.signature_eq
  have hwritten := written_of_mem hi
  obtain ⟨-, members, hperm, hread⟩ := hwritten.read hlib
  obtain rfl : Json.object members = v := Option.some.inj (hread.symm.trans h.read)
  have hchecked := h.checked
  rw [hwritten.checkClaims (hdated i hi) now hperm] at hchecked
  split_ifs at hchecked with hexpired
  refine ⟨i, hi, not_le.mp hexpired, ⟨signature, extra, h.splitOn, ?_, h.extra_eq⟩, members,
    hperm, rfl⟩
  rw [h.signature_eq, hwritten.fromBase64Url hlib]

/-- A token is spelled well, and no other spelling of it is. -/
theorem Written.wellSpelled_iff (h : Written lib i) (hlib : lib.Documented) {token : List Char}
    (hrespells : Respells lib i token) : WellSpelled lib token ↔ i.token = token := by
  constructor
  · rintro ⟨payload, signature, hsplit, hencoded⟩
    obtain ⟨signature', extra, hsplit', hsame, -⟩ := hrespells
    obtain ⟨rfl, rfl, rfl⟩ : payload = i.payload ∧ signature = signature' ∧ [] = extra := by
      have hparts := hsplit.symm.trans hsplit'
      simpa using hparts
    have hsignature : signature = i.signature := by
      rw [hencoded, hsame, h.fromBase64Url hlib, h.signature]
    have hjoin : ['.'].intercalate (token.splitOn '.') = token := List.intercalate_splitOn '.'
    rw [hsplit, hsignature] at hjoin
    simpa [Issued.token] using hjoin
  · rintro rfl
    exact ⟨i.payload, i.signature, h.splitOn, by rw [h.fromBase64Url hlib, ← h.signature]⟩

/-- `verify` is exact on a text precisely if it is spelled well wherever it spells a token that has
    not expired. -/
theorem exact_iff (lib : PortalLibraries) (hlib : lib.Documented) (history : List IssueInput)
    (hdated : Dated lib history) (token : List Char) (hunforged : Unforged lib history token) (now : Int) :
    Exact lib history token now ↔
      ((∃ i ∈ issued lib history, now < i.expires ∧ Respells lib i token) →
        WellSpelled lib token) := by
  constructor
  · rintro hexact ⟨i, hi, hnow, hrespells⟩
    obtain ⟨v, hverify, -⟩ := (written_of_mem hi).taken hlib (hdated i hi) hnow hrespells
    obtain ⟨j, hj, rfl, -, -⟩ := hexact.sound v hverify
    have hwritten := written_of_mem hj
    exact (hwritten.wellSpelled_iff hlib hwritten.respells_self).mpr rfl
  · intro hspelled
    refine ⟨fun v hverify => ?_, fun i hi htoken hnow => ?_⟩
    · obtain ⟨i, hi, hnow, hrespells, hsame⟩ := respells_of_verify hlib hdated hunforged hverify
      have hwell := hspelled ⟨i, hi, hnow, hrespells⟩
      exact ⟨i, hi, ((written_of_mem hi).wellSpelled_iff hlib hrespells).mp hwell, hnow, hsame⟩
    · rw [← htoken]
      exact (written_of_mem hi).taken hlib (hdated i hi) hnow (written_of_mem hi).respells_self

/-! ### One token -/

/-- A point behind a token leaves it a spelling of the token. -/
theorem Written.splitOn_point (h : Written lib i) :
    (i.token ++ ['.']).splitOn '.' = [i.payload, i.signature, []] := by
  obtain ⟨text, -, hpayload⟩ := h.payload
  have hparts : i.token ++ ['.'] = i.payload ++ '.' :: (i.signature ++ '.' :: []) := by
    unfold Issued.token
    rw [List.append_assoc, List.cons_append]
  rw [hparts, hpayload, List.splitOn_append_cons_self_of_not_mem (point_notMem_encode _),
    h.signature, List.splitOn_append_cons_self_of_not_mem (point_notMem_encode _), List.splitOn_nil]

def firstInput : IssueInput where
  requestId := jsString "req_a"
  projectId := jsString "project_1"
  portalSessionId := jsString "session_1"
  permissions := [.readStatus]
  ttlMs := none
  tokenId := jsString "000102030405060708090a0b0c0d0e0f"
  now := some 1784851200000

def firstPayload : List Char :=
  ("eyJhdWRpZW5jZSI6ImZvcmdldG9wcy1wcml2YWN5LXBvcnRhbCIsImV4cGlyZXNBdCI6IjIwMjYtMDctMjRUMDE6MDA6MDAu" ++
    "MDAwWiIsImlzc3VlZEF0IjoiMjAyNi0wNy0yNFQwMDowMDowMC4wMDBaIiwicGVybWlzc2lvbnMiOlsicmVhZF9zdGF0dXMi" ++
    "XSwicG9ydGFsU2Vzc2lvbklkIjoic2Vzc2lvbl8xIiwicHJvamVjdElkIjoicHJvamVjdF8xIiwicmVxdWVzdElkIjoicmVx" ++
    "X2EiLCJ0b2tlbklkIjoiMDAwMTAyMDMwNDA1MDYwNzA4MDkwYTBiMGMwZDBlMGYiLCJ0eXBlIjoiZm9yZ2V0b3BzLnBvcnRh" ++
    "bC1jYXBhYmlsaXR5IiwidmVyc2lvbiI6MX0").toList

/-- Members in the order of their names, and an HMAC that is the one of the payload above under
    thirty-two bytes `0x05`. -/
def plainPortal : PortalLibraries where
  canonicalize v :=
    match v with
    | .object members =>
      some (stringify (.object (members.insertionSort fun m m' => m.1 ≤ m'.1)))
    | v => some (stringify v)
  hmac message :=
    if message = signed firstPayload then
      [247, 68, 64, 241, 59, 182, 92, 114, 152, 147, 115, 222, 188, 144, 106, 212,
        251, 15, 30, 67, 99, 186, 182, 134, 76, 59, 84, 185, 32, 125, 67, 129]
    else List.replicate 32 0
  fromBase64Url cs := (Base64Url.decodeForgiving cs).getD []
  dateParse v := do
    let us ← v.bind asString
    let cs ← Utf16.text us
    IsoTimestamp.parse (String.ofList cs)

theorem plainPortal_documented : plainPortal.Documented where
  canonical := by
    intro claims text htext
    cases htext
    exact ⟨_, List.perm_insertionSort _ _, parse_stringify _⟩
  length_hmac := by
    intro message
    show (if message = signed firstPayload then _ else _ : List UInt8).length = 32
    split_ifs <;> rfl
  decodes := by
    intro bytes
    show (Base64Url.decodeForgiving (Base64Url.encode bytes)).getD [] = bytes
    rw [Base64Url.decodeForgiving_of_decode (Base64Url.decode_encode bytes), Option.getD_some]

theorem first_issued : ∃ i, issued plainPortal [firstInput] = [i] ∧ i.expires = 1784854800000 := by
  have hplus : firstInput.now.plus (firstInput.ttlMs.getD (60 * 60 * 1000)) =
      some 1784854800000 := by
    norm_num [firstInput, Date.plus, Date.ofTime]
  obtain ⟨i, hissue, hexpires⟩ := exists_issue plainPortal firstInput
    (by norm_num [firstInput]) rfl hplus (by rintro ⟨⟩ <;> exact Option.some_ne_none _)
  have hone : (issue plainPortal firstInput).toOption = some i := by
    rw [hissue]
    rfl
  exact ⟨i, List.filterMap_cons_some hone, hexpires⟩

/-- The token of the first call. -/
def firstToken : List Char := (issued plainPortal [firstInput]).flatMap Issued.token

theorem exists_first_issued : ∃ i, issued plainPortal [firstInput] = [i] ∧
    i.token = firstToken ∧ i.expires = 1784854800000 ∧ Written plainPortal i := by
  obtain ⟨i, hissued, hexpires⟩ := first_issued
  refine ⟨i, hissued, ?_, hexpires, written_of_mem (hissued ▸ List.mem_cons_self)⟩
  unfold firstToken
  rw [hissued]
  exact (List.append_nil _).symm

theorem first_dated : Dated plainPortal [firstInput] := by
  obtain ⟨i, hissued, hexpires⟩ := first_issued
  intro j hj
  rw [hissued] at hj
  rw [List.mem_singleton.mp hj, hexpires]
  decide +kernel

/-- The first token is taken for an hour. -/
theorem exact_on_first_token : Exact plainPortal [firstInput] firstToken 1784851200000 := by
  obtain ⟨i, hissued, htoken, -, hwritten⟩ := exists_first_issued
  refine (exact_iff plainPortal plainPortal_documented [firstInput] first_dated firstToken ?_
    1784851200000).mpr ?_
  · intro payload signature extra hparts _
    rw [← htoken, hwritten.splitOn] at hparts
    exact ⟨i, hissued ▸ List.mem_cons_self, (List.cons.inj hparts).1⟩
  · rintro -
    rw [← htoken]
    exact (hwritten.wellSpelled_iff plainPortal_documented hwritten.respells_self).mpr rfl

/-- With a point behind it, it is taken as well. -/
theorem inexact_with_a_point :
    ¬ Exact plainPortal [firstInput] (firstToken ++ ['.']) 1784851200000 := by
  intro hexact
  obtain ⟨i, hissued, htoken, hexpires, hwritten⟩ := exists_first_issued
  have hsplit := htoken ▸ hwritten.splitOn_point
  have hrespells : Respells plainPortal i (firstToken ++ ['.']) :=
    ⟨i.signature, [[]], hsplit, rfl, rfl⟩
  have hnow : 1784851200000 < i.expires := by
    rw [hexpires]
    decide
  obtain ⟨v, hverify, -⟩ := hwritten.taken plainPortal_documented
    (first_dated i (hissued ▸ List.mem_cons_self)) hnow hrespells
  obtain ⟨j, hj, htoken', -, -⟩ := hexact.sound v hverify
  have hparts := (written_of_mem hj).splitOn
  rw [htoken', hsplit] at hparts
  simp at hparts

end ForgetOps.Api.PrivacyPortal
