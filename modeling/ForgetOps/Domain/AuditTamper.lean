import ForgetOps.Domain.Audit
import ForgetOps.Library.HashChain
import ForgetOps.Library.JsonText

/-
  Tamper evidence of the audit chain.

  A verified chain is a `HashChain.Chained` list of events sealed by `auditEventHash`, and so is a
  built one. The hash input puts up to 32 bytes of previous hash in front of the event without a
  length, so the injectivity of the whole rests on `ObjectText.eq_nil_of_append`.
-/

namespace ForgetOps.Domain

open JsonText (ObjectText)
open HashChain

/-! ## Bytes -/

theorem utf8_injective : Function.Injective utf8 := by
  intro s t h
  have hdata : s.toUTF8.data = t.toUTF8.data := Array.toList_inj.mp h
  exact String.toByteArray_inj.mp (ByteArray.ext hdata)

theorem hexValue_hexDigit : ∀ n < 16, hexValue (hexDigit n) = some n := by decide

theorem fromHex_toHex (bytes : List UInt8) : fromHex (toHex bytes) = bytes := by
  rw [fromHex, toHex, String.toList_ofList]
  induction bytes with
  | nil => rfl
  | cons b bytes ih =>
    have hlt := b.toNat_lt
    have hhigh := hexValue_hexDigit (b.toNat / 16) (by omega)
    have hlow := hexValue_hexDigit (b.toNat % 16) (by omega)
    simp only [List.flatMap_cons, List.cons_append, List.nil_append, hexBytes, hhigh, hlow, ih]
    rw [Nat.div_add_mod, UInt8.ofNat_toNat]

theorem toHex_injective : Function.Injective toHex :=
  Function.LeftInverse.injective fromHex_toHex

theorem previousBytes_length {previous : Option String} {bytes : List UInt8}
    (h : previousBytes previous = .ok bytes) : bytes.length = 0 ∨ bytes.length = 32 := by
  cases previous with
  | none =>
    cases h
    exact .inl rfl
  | some hash =>
    simp only [previousBytes] at h
    split_ifs at h with hempty hlen
    · cases h
      exact .inl rfl
    · cases h
      exact .inr (not_not.mp hlen)

/-- The hash of an event, as the next event names it. -/
theorem previousBytes_toHex (digest : Digest) :
    previousBytes (some (toHex digest.val)) = .ok digest.val := by
  have hne : toHex digest.val ≠ "" := by
    intro h
    have hlen := digest.property
    rw [← fromHex_toHex digest.val, h] at hlen
    cases hlen
  simp only [previousBytes, if_neg hne, fromHex_toHex, digest.property, ne_eq, not_true_eq_false,
    if_false]

/-- Nothing but the two parts goes into the hash: context and zero byte are fixed, and a previous
    hash in front of an event is not the beginning of another event. -/
theorem hashInput_injective {p p' e e' : List UInt8} (hp : p.length = 0 ∨ p.length = 32)
    (hp' : p'.length = 0 ∨ p'.length = 32) (he : ObjectText e) (he' : ObjectText e')
    (h : hashInput p e = hashInput p' e') : p = p' ∧ e = e' := by
  have h : p ++ e = p' ++ e' := by
    rw [hashInput, hashInput, List.append_assoc, List.append_assoc _ p' e'] at h
    exact List.append_cancel_left h
  have hlen : p.length = p'.length := by
    rcases hp with hp | hp <;> rcases hp' with hp' | hp'
    · rw [hp, hp']
    · obtain rfl := List.eq_nil_of_length_eq_zero hp
      rw [List.nil_append] at h
      rw [h] at he
      rw [he'.eq_nil_of_append he]
    · obtain rfl := List.eq_nil_of_length_eq_zero hp'
      rw [List.nil_append] at h
      rw [← h] at he'
      rw [he.eq_nil_of_append he']
    · rw [hp, hp']
  exact List.append_inj h hlen

/-! ## Chains -/

section Chains

variable {Metadata : Type} {sha256 : List UInt8 → Digest}
  {canonicalize : AuditEventWithoutHashes Metadata → Option String}

/-- The event carries the hash computed over it and the previous hash it names. -/
def SealedEvent (sha256 : List UInt8 → Digest)
    (canonicalize : AuditEventWithoutHashes Metadata → Option String)
    (event : CanonicalAuditEvent Metadata) : Prop :=
  auditEventHash sha256 canonicalize event.previousEventHash event.toAuditEventWithoutHashes =
    .ok event.eventHash

/-- The events continue a verified chain whose last hash is `previous`. -/
def EventChain (sha256 : List UInt8 → Digest)
    (canonicalize : AuditEventWithoutHashes Metadata → Option String) (previous : Option String)
    (chain : List (CanonicalAuditEvent Metadata)) : Prop :=
  Chained (·.previousEventHash) (·.eventHash) (SealedEvent sha256 canonicalize) previous chain

theorem auditEventHash_ok_iff {previous : Option String}
    {event : AuditEventWithoutHashes Metadata} {hash : String} :
    auditEventHash sha256 canonicalize previous event = .ok hash ↔
      ∃ p text, previousBytes previous = .ok p ∧ canonicalize event = some text ∧
        toHex (sha256 (hashInput p (utf8 text))).val = hash := by
  unfold auditEventHash canonicalAuditEventBytes
  cases previousBytes previous with
  | error e => simp [bind, Except.bind]
  | ok p =>
    cases canonicalize event with
    | none => simp [bind, Except.bind]
    | some text => simp [bind, Except.bind, pure, Except.pure]

theorem verifyFrom_cons {previous : Option String} {event : CanonicalAuditEvent Metadata}
    {chain : List (CanonicalAuditEvent Metadata)} {expected : String}
    (h : auditEventHash sha256 canonicalize previous event.toAuditEventWithoutHashes =
      .ok expected) :
    verifyFrom sha256 canonicalize previous (event :: chain) =
      if event.previousEventHash ≠ previous ∨ event.eventHash ≠ expected then
        .ok (.broken event.id)
      else verifyFrom sha256 canonicalize (some event.eventHash) chain := by
  rw [verifyFrom, h]
  rfl

theorem verifyFrom_cons_error {previous : Option String} {event : CanonicalAuditEvent Metadata}
    {chain : List (CanonicalAuditEvent Metadata)} {err : AuditError}
    (h : auditEventHash sha256 canonicalize previous event.toAuditEventWithoutHashes =
      .error err) :
    verifyFrom sha256 canonicalize previous (event :: chain) = .error err := by
  rw [verifyFrom, h]
  rfl

theorem verifyFrom_valid_iff {previous : Option String}
    {chain : List (CanonicalAuditEvent Metadata)} :
    verifyFrom sha256 canonicalize previous chain = .ok .valid ↔
      EventChain sha256 canonicalize previous chain := by
  induction chain generalizing previous with
  | nil => simp [verifyFrom, EventChain]
  | cons event chain ih =>
    rw [EventChain, chained_cons, ← EventChain, ← ih, SealedEvent]
    cases hhash : auditEventHash sha256 canonicalize previous event.toAuditEventWithoutHashes with
    | error err =>
      rw [verifyFrom_cons_error hhash]
      constructor
      · intro h
        cases h
      · rintro ⟨rfl, hsealed, -⟩
        rw [hhash] at hsealed
        cases hsealed
    | ok expected =>
      rw [verifyFrom_cons hhash]
      constructor
      · intro h
        by_cases hdiff : event.previousEventHash ≠ previous ∨ event.eventHash ≠ expected
        · rw [if_pos hdiff] at h
          cases h
        · rw [if_neg hdiff] at h
          simp only [ne_eq, not_or, not_not] at hdiff
          obtain ⟨rfl, rfl⟩ := hdiff
          exact ⟨rfl, hhash, h⟩
      · rintro ⟨rfl, hsealed, hrest⟩
        obtain rfl : expected = event.eventHash := Except.ok.inj (hhash.symm.trans hsealed)
        rw [if_neg (by simp)]
        exact hrest

/-- The event with the hashes the chain gives it. -/
theorem buildFrom_cons_ok_iff {previous : Option String}
    {event : AuditEventWithoutHashes Metadata} {events : List (AuditEventWithoutHashes Metadata)}
    {built : List (CanonicalAuditEvent Metadata)} :
    buildFrom sha256 canonicalize previous (event :: events) = .ok built ↔
      ∃ eventHash rest, auditEventHash sha256 canonicalize previous event = .ok eventHash ∧
        buildFrom sha256 canonicalize (some eventHash) events = .ok rest ∧
        built = { event with previousEventHash := previous, eventHash } :: rest := by
  rw [buildFrom]
  cases auditEventHash sha256 canonicalize previous event with
  | error err => simp [bind, Except.bind]
  | ok eventHash =>
    cases hrest : buildFrom sha256 canonicalize (some eventHash) events with
    | error err => simp [bind, Except.bind, hrest]
    | ok rest => simp [bind, Except.bind, pure, Except.pure, hrest, eq_comm]

/-- What `buildChain` returns is the one chain with these events. -/
theorem buildFrom_ok_iff {previous : Option String}
    {events : List (AuditEventWithoutHashes Metadata)}
    {built : List (CanonicalAuditEvent Metadata)} :
    buildFrom sha256 canonicalize previous events = .ok built ↔
      built.map (·.toAuditEventWithoutHashes) = events ∧
        EventChain sha256 canonicalize previous built := by
  induction events generalizing previous built with
  | nil =>
    rw [buildFrom, List.map_eq_nil_iff]
    constructor
    · intro h
      cases h
      exact ⟨rfl, chained_nil⟩
    · rintro ⟨rfl, -⟩
      rfl
  | cons event events ih =>
    rw [buildFrom_cons_ok_iff]
    constructor
    · rintro ⟨eventHash, rest, hhash, hrest, rfl⟩
      obtain ⟨rfl, hchain⟩ := ih.mp hrest
      exact ⟨rfl, rfl, hhash, hchain⟩
    · rintro ⟨hmap, hchain⟩
      obtain ⟨e, rest, rfl, rfl, rfl⟩ := List.map_eq_cons_iff.mp hmap
      obtain ⟨hprev, hsealed, hrest⟩ := hchain
      obtain rfl : previous = e.previousEventHash := hprev.symm
      exact ⟨e.eventHash, rest, hsealed, ih.mpr ⟨rfl, hrest⟩, rfl⟩

/-- Where every event is canonical, `buildChain` returns. -/
theorem exists_buildFrom {previous : Option String} {p : List UInt8}
    (hp : previousBytes previous = .ok p) {events : List (AuditEventWithoutHashes Metadata)}
    (hcanon : ∀ e ∈ events, canonicalize e ≠ none) :
    ∃ built, buildFrom sha256 canonicalize previous events = .ok built := by
  induction events generalizing previous p with
  | nil => exact ⟨[], rfl⟩
  | cons event events ih =>
    obtain ⟨text, htext⟩ := Option.ne_none_iff_exists'.mp (hcanon event (by simp))
    have hhash : auditEventHash sha256 canonicalize previous event = .ok _ :=
      auditEventHash_ok_iff.mpr ⟨p, text, hp, htext, rfl⟩
    obtain ⟨rest, hrest⟩ := ih (previousBytes_toHex _) fun e he => hcanon e (by simp [he])
    exact ⟨_, buildFrom_cons_ok_iff.mpr ⟨_, rest, hhash, hrest, rfl⟩⟩

/-- `verifyChain` stops at the first event that is not the next of the chain before it. -/
theorem verifyFrom_broken {previous : Option String}
    {chain : List (CanonicalAuditEvent Metadata)} {brokenAt : String}
    (h : verifyFrom sha256 canonicalize previous chain = .ok (.broken brokenAt)) :
    ∃ before event rest expected, chain = before ++ event :: rest ∧ event.id = brokenAt ∧
      EventChain sha256 canonicalize previous before ∧
      auditEventHash sha256 canonicalize (head (·.eventHash) previous before)
        event.toAuditEventWithoutHashes = .ok expected ∧
      (event.previousEventHash ≠ head (·.eventHash) previous before ∨
        event.eventHash ≠ expected) := by
  induction chain generalizing previous with
  | nil => cases h
  | cons event chain ih =>
    cases hhash : auditEventHash sha256 canonicalize previous event.toAuditEventWithoutHashes with
    | error err =>
      rw [verifyFrom_cons_error hhash] at h
      cases h
    | ok expected =>
      rw [verifyFrom_cons hhash] at h
      by_cases hdiff : event.previousEventHash ≠ previous ∨ event.eventHash ≠ expected
      · rw [if_pos hdiff] at h
        exact ⟨[], event, chain, expected, rfl, Verdict.broken.inj (Except.ok.inj h),
          chained_nil, hhash, hdiff⟩
      · rw [if_neg hdiff] at h
        simp only [ne_eq, not_or, not_not] at hdiff
        obtain ⟨rfl, rfl⟩ := hdiff
        obtain ⟨before, e, rest, expected, rfl, hid, hbefore, hexp, hne⟩ := ih h
        exact ⟨event :: before, e, rest, expected, rfl, hid, ⟨rfl, hhash, hbefore⟩, hexp, hne⟩

/-! ## Tamper evidence -/

/-- What is fed to the hash when the chain is built or verified. -/
def HashedInput (canonicalize : AuditEventWithoutHashes Metadata → Option String)
    (chain : List (CanonicalAuditEvent Metadata)) (input : List UInt8) : Prop :=
  ∃ event ∈ chain, ∃ p text, previousBytes event.previousEventHash = .ok p ∧
    canonicalize event.toAuditEventWithoutHashes = some text ∧ input = hashInput p (utf8 text)

/-- `canonicalize` writes the events of the chain as distinct JSON object texts. -/
structure CanonicalOn (canonicalize : AuditEventWithoutHashes Metadata → Option String)
    (events : Set (AuditEventWithoutHashes Metadata)) : Prop where
  objectText : ∀ e ∈ events, ∃ text, canonicalize e = some text ∧ ObjectText (utf8 text)
  injective : Set.InjOn canonicalize events

/-- Inside a verified chain the previous hash of an event is none, or a digest. -/
theorem EventChain.previous {chain : List (CanonicalAuditEvent Metadata)}
    (h : EventChain sha256 canonicalize none chain) :
    ∀ e ∈ chain, e.previousEventHash = none ∨
      ∃ digest : Digest, e.previousEventHash = some (toHex digest.val) := by
  induction chain using List.reverseRecOn with
  | nil => simp
  | append_singleton chain last ih =>
    obtain ⟨hchain, hprev, -, -⟩ := chained_append.mp h
    intro e he
    rcases List.mem_append.mp he with he | he
    · exact ih hchain e he
    have hprev : last.previousEventHash = head (·.eventHash) none chain := hprev
    rw [List.mem_singleton.mp he, hprev]
    obtain rfl | ⟨chain, prior, rfl⟩ := List.eq_nil_or_concat' chain
    · exact .inl rfl
    · obtain ⟨-, -, hsealed, -⟩ := chained_append.mp hchain
      obtain ⟨p, text, -, -, hhash⟩ := auditEventHash_ok_iff.mp hsealed
      rw [head_concat, ← hhash]
      exact .inr ⟨_, rfl⟩

/-- None or a digest: what `previousBytes` reads back exactly. -/
theorem previous_eq_of_bytes {previous previous' : Option String} {p : List UInt8}
    (h : previous = none ∨ ∃ digest : Digest, previous = some (toHex digest.val))
    (h' : previous' = none ∨ ∃ digest : Digest, previous' = some (toHex digest.val))
    (hp : previousBytes previous = .ok p) (hp' : previousBytes previous' = .ok p) :
    previous = previous' := by
  rcases h with rfl | ⟨digest, rfl⟩ <;> rcases h' with rfl | ⟨digest', rfl⟩
  · rfl
  · rw [previousBytes_toHex] at hp'
    cases hp
    exact absurd digest'.property (by rw [Except.ok.inj hp']; decide)
  · rw [previousBytes_toHex] at hp
    cases hp'
    exact absurd digest.property (by rw [Except.ok.inj hp]; decide)
  · rw [previousBytes_toHex] at hp hp'
    rw [Except.ok.inj hp, Except.ok.inj hp']

/-- Two sealed events with the same hash are the same event. -/
theorem sealed_eq_of_hash {c d : List (CanonicalAuditEvent Metadata)}
    (hsha : Set.InjOn sha256 (Set.union (HashedInput canonicalize c) (HashedInput canonicalize d)))
    (hcanon : CanonicalOn canonicalize
      {e | e ∈ (c ++ d).map (·.toAuditEventWithoutHashes)})
    (hc : EventChain sha256 canonicalize none c) (hd : EventChain sha256 canonicalize none d) :
    ∀ x ∈ c, ∀ y ∈ d, SealedEvent sha256 canonicalize x → SealedEvent sha256 canonicalize y →
      x.eventHash = y.eventHash → x = y := by
  intro x hx y hy hsx hsy hhash
  obtain ⟨p, text, hp, htext, hxh⟩ := auditEventHash_ok_iff.mp hsx
  obtain ⟨p', text', hp', htext', hyh⟩ := auditEventHash_ok_iff.mp hsy
  have hxmem : x.toAuditEventWithoutHashes ∈ (c ++ d).map (·.toAuditEventWithoutHashes) :=
    List.mem_map_of_mem (List.mem_append_left _ hx)
  have hymem : y.toAuditEventWithoutHashes ∈ (c ++ d).map (·.toAuditEventWithoutHashes) :=
    List.mem_map_of_mem (List.mem_append_right _ hy)
  have hinput : hashInput p (utf8 text) = hashInput p' (utf8 text') := by
    refine hsha (.inl ⟨x, hx, p, text, hp, htext, rfl⟩) (.inr ⟨y, hy, p', text', hp', htext', rfl⟩)
      ?_
    rw [← hxh, ← hyh] at hhash
    exact Subtype.ext (toHex_injective hhash)
  have hobj : ObjectText (utf8 text) := by
    obtain ⟨t, ht, hobj⟩ := hcanon.objectText _ hxmem
    rwa [Option.some.inj (htext.symm.trans ht)]
  have hobj' : ObjectText (utf8 text') := by
    obtain ⟨t, ht, hobj⟩ := hcanon.objectText _ hymem
    rwa [Option.some.inj (htext'.symm.trans ht)]
  obtain ⟨rfl, hutf8⟩ := hashInput_injective (previousBytes_length hp) (previousBytes_length hp')
    hobj hobj' hinput
  have hbody : x.toAuditEventWithoutHashes = y.toAuditEventWithoutHashes :=
    hcanon.injective hxmem hymem (by rw [htext, htext', utf8_injective hutf8])
  have hprev : x.previousEventHash = y.previousEventHash :=
    previous_eq_of_bytes (hc.previous x hx) (hd.previous y hy) hp hp'
  cases x
  cases y
  simp_all

/-- **Tamper evidence of the audit chain.** A chain verifies exactly when it is the chain built
    from its events. Where the hash has no collision among the inputs of two chains and
    `canonicalize` writes their events as distinct object texts, two verified chains with the same
    last hash are equal. A chain reported as broken is broken first at the event it names: what
    comes before is the rebuilt chain, and that event differs from the rebuilt one. -/
theorem audit_chain_tamper_evident (sha256 : List UInt8 → Digest)
    (canonicalize : AuditEventWithoutHashes Metadata → Option String) :
    (∀ c : List (CanonicalAuditEvent Metadata), verifyChain sha256 canonicalize c = .ok .valid ↔
      buildChain sha256 canonicalize (c.map (·.toAuditEventWithoutHashes)) = .ok c) ∧
    (∀ c d : List (CanonicalAuditEvent Metadata),
      Set.InjOn sha256 (Set.union (HashedInput canonicalize c) (HashedInput canonicalize d)) →
      CanonicalOn canonicalize {e | e ∈ (c ++ d).map (·.toAuditEventWithoutHashes)} →
      c ≠ [] → d ≠ [] →
      verifyChain sha256 canonicalize c = .ok .valid →
      verifyChain sha256 canonicalize d = .ok .valid →
      c.getLast?.map (·.eventHash) = d.getLast?.map (·.eventHash) → c = d) ∧
    (∀ (c : List (CanonicalAuditEvent Metadata)) brokenAt,
      (∀ e ∈ c, canonicalize e.toAuditEventWithoutHashes ≠ none) →
      verifyChain sha256 canonicalize c = .ok (.broken brokenAt) →
      ∃ before event rest rebuilt rebuiltRest, c = before ++ event :: rest ∧
        event.id = brokenAt ∧
        buildChain sha256 canonicalize (c.map (·.toAuditEventWithoutHashes)) =
          .ok (before ++ rebuilt :: rebuiltRest) ∧
        (event.previousEventHash ≠ rebuilt.previousEventHash ∨
          event.eventHash ≠ rebuilt.eventHash)) := by
  refine ⟨?_, ?_, ?_⟩
  · intro c
    rw [verifyChain, buildChain, verifyFrom_valid_iff, buildFrom_ok_iff]
    simp
  · intro c d hsha hcanon _ _ hc hd hlast
    have hc := verifyFrom_valid_iff.mp hc
    have hd := verifyFrom_valid_iff.mp hd
    refine Chained.eq_of_head hc hd (sealed_eq_of_hash hsha hcanon hc hd) ?_
    rw [head_eq_getLast?, head_eq_getLast?]
    exact hlast
  · intro c brokenAt hcanon h
    obtain ⟨before, event, rest, expected, rfl, hid, hbefore, hexp, hne⟩ := verifyFrom_broken h
    obtain ⟨p, text, -, -, rfl⟩ := auditEventHash_ok_iff.mp hexp
    have hrestcanon : ∀ e ∈ rest.map (·.toAuditEventWithoutHashes), canonicalize e ≠ none := by
      intro e he
      obtain ⟨x, hx, rfl⟩ := List.mem_map.mp he
      exact hcanon x (by simp [hx])
    obtain ⟨built, hbuilt⟩ : ∃ built, buildFrom sha256 canonicalize (some (toHex _))
        (rest.map (·.toAuditEventWithoutHashes)) = .ok built :=
      exists_buildFrom (previousBytes_toHex _) hrestcanon
    obtain ⟨hmap, hrest⟩ := buildFrom_ok_iff.mp hbuilt
    refine ⟨before, event, rest, { event with
      previousEventHash := head (·.eventHash) none before, eventHash := _ }, built, rfl, hid,
      buildFrom_ok_iff.mpr ⟨?_, chained_append.mpr ⟨hbefore, rfl, hexp, hrest⟩⟩, hne⟩
    simp [hmap]

end Chains

/-! ## Two events, with their real hashes -/

def firstEvent : CanonicalAuditEvent Unit where
  id := "a1"
  tenantId := "t"
  environmentId := "env"
  sequence := "1"
  requestId := some "r"
  actorType := .user
  actorId := "u"
  action := "PrivacyRequestCreated"
  metadata := ()
  createdAt := "2026-07-21T12:00:00.000Z"
  previousEventHash := none
  eventHash := "440e49924c2a191f4ea7387729bd7bafc120454882f15076e18df4b4fde8022e"

def secondEvent : CanonicalAuditEvent Unit :=
  { firstEvent with
    id := "a2"
    sequence := "2"
    action := "IdentityVerified"
    previousEventHash := some firstEvent.eventHash
    eventHash := "1ef295a899e7104f50bc6b0f34f43cf4ec0203cc3683eaf9a5e554170d5e13aa" }

def firstText : String :=
  "\x7b\"action\":\"PrivacyRequestCreated\",\"actorId\":\"u\",\"actorType\":\"user\",\"createdAt\":\"2026-07-21T12:00:00.000Z\",\"environmentId\":\"env\",\"id\":\"a1\",\"metadata\":\x7b\x7d,\"requestId\":\"r\",\"sequence\":\"1\",\"tenantId\":\"t\"\x7d"

def secondText : String :=
  "\x7b\"action\":\"IdentityVerified\",\"actorId\":\"u\",\"actorType\":\"user\",\"createdAt\":\"2026-07-21T12:00:00.000Z\",\"environmentId\":\"env\",\"id\":\"a2\",\"metadata\":\x7b\x7d,\"requestId\":\"r\",\"sequence\":\"2\",\"tenantId\":\"t\"\x7d"

/-- The digest `hash` writes, or zeros where it writes none. -/
def digestOf (hash : String) : Digest :=
  if h : (fromHex hash).length = 32 then ⟨fromHex hash, h⟩ else ⟨List.replicate 32 0, by simp⟩

/-- SHA-256 on the two inputs hashed here. -/
def tableSha256 (input : List UInt8) : Digest :=
  if input = hashInput [] (utf8 firstText) then digestOf firstEvent.eventHash
  else if input = hashInput (fromHex firstEvent.eventHash) (utf8 secondText) then
    digestOf secondEvent.eventHash
  else digestOf ""

def tableCanonicalize (event : AuditEventWithoutHashes Unit) : Option String :=
  if event = firstEvent.toAuditEventWithoutHashes then some firstText
  else if event = secondEvent.toAuditEventWithoutHashes then some secondText
  else none

def genuineChain : List (CanonicalAuditEvent Unit) := [firstEvent, secondEvent]

def alteredChain : List (CanonicalAuditEvent Unit) :=
  [firstEvent, { secondEvent with eventHash := firstEvent.eventHash }]

/-- What the chains compute on these events, evaluated once. -/
theorem twoEvents_evaluated :
    previousBytes secondEvent.previousEventHash = .ok (fromHex firstEvent.eventHash) ∧
      tableSha256 (hashInput [] (utf8 firstText)) ≠
        tableSha256 (hashInput (fromHex firstEvent.eventHash) (utf8 secondText)) ∧
      (ObjectText (utf8 firstText) ∧ ObjectText (utf8 secondText) ∧ firstText ≠ secondText) ∧
      verifyChain tableSha256 tableCanonicalize genuineChain = .ok .valid ∧
      verifyChain tableSha256 tableCanonicalize alteredChain = .ok (.broken "a2") := by
  decide +kernel

theorem tableCanonicalize_first :
    tableCanonicalize firstEvent.toAuditEventWithoutHashes = some firstText :=
  if_pos rfl

theorem tableCanonicalize_second :
    tableCanonicalize secondEvent.toAuditEventWithoutHashes = some secondText := by
  have hne : secondEvent.toAuditEventWithoutHashes ≠ firstEvent.toAuditEventWithoutHashes := by
    intro heq
    have hid : "a2" = "a1" := congrArg AuditEventWithoutHashes.id heq
    revert hid
    decide
  rw [tableCanonicalize, if_neg hne, if_pos rfl]

theorem hashedInput_genuineChain {input : List UInt8}
    (h : HashedInput tableCanonicalize genuineChain input) :
    input = hashInput [] (utf8 firstText) ∨
      input = hashInput (fromHex firstEvent.eventHash) (utf8 secondText) := by
  obtain ⟨event, hmem, p, text, hp, htext, rfl⟩ := h
  simp only [genuineChain, List.mem_cons, List.not_mem_nil, or_false] at hmem
  rcases hmem with rfl | rfl
  · have hp' : previousBytes firstEvent.previousEventHash = .ok [] := rfl
    rw [hp'] at hp
    rw [tableCanonicalize_first] at htext
    cases hp
    cases htext
    exact .inl rfl
  · rw [twoEvents_evaluated.1] at hp
    rw [tableCanonicalize_second] at htext
    cases hp
    cases htext
    exact .inr rfl

theorem injOn_genuineChain :
    Set.InjOn tableSha256 (Set.union (HashedInput tableCanonicalize genuineChain)
      (HashedInput tableCanonicalize genuineChain)) := by
  obtain ⟨-, hne, -⟩ := twoEvents_evaluated
  intro x hx y hy hxy
  have hx := hashedInput_genuineChain (hx.elim id id)
  have hy := hashedInput_genuineChain (hy.elim id id)
  rcases hx with rfl | rfl <;> rcases hy with rfl | rfl
  · rfl
  · exact absurd hxy hne
  · exact absurd hxy.symm hne
  · rfl

theorem canonicalOn_genuineChain :
    CanonicalOn tableCanonicalize
      {e | e ∈ (genuineChain ++ genuineChain).map (·.toAuditEventWithoutHashes)} := by
  obtain ⟨-, -, ⟨hfirst, hsecond, hne⟩, -⟩ := twoEvents_evaluated
  have hmem : ∀ e ∈ (genuineChain ++ genuineChain).map (·.toAuditEventWithoutHashes),
      e = firstEvent.toAuditEventWithoutHashes ∨ e = secondEvent.toAuditEventWithoutHashes := by
    simp [genuineChain]
  constructor
  · intro e he
    rcases hmem e he with rfl | rfl
    · exact ⟨firstText, tableCanonicalize_first, hfirst⟩
    · exact ⟨secondText, tableCanonicalize_second, hsecond⟩
  · intro e he e' he' heq
    rcases hmem e he with rfl | rfl <;> rcases hmem e' he' with rfl | rfl
    · rfl
    · rw [tableCanonicalize_first, tableCanonicalize_second] at heq
      exact absurd (Option.some.inj heq) hne
    · rw [tableCanonicalize_first, tableCanonicalize_second] at heq
      exact absurd (Option.some.inj heq).symm hne
    · rfl

/-- The genuine chain is determined by its head; altering a hash is found at that event. -/
theorem audit_chain_tamper_evident_of_two_events :
    genuineChain = [firstEvent, secondEvent] ∧
      ∃ before event rest rebuilt rebuiltRest, alteredChain = before ++ event :: rest ∧
        event.id = "a2" ∧
        buildChain tableSha256 tableCanonicalize
            (alteredChain.map (·.toAuditEventWithoutHashes)) =
          .ok (before ++ rebuilt :: rebuiltRest) ∧
        (event.previousEventHash ≠ rebuilt.previousEventHash ∨
          event.eventHash ≠ rebuilt.eventHash) := by
  obtain ⟨-, -, -, hvalid, haltered⟩ := twoEvents_evaluated
  obtain ⟨-, hhead, hbroken⟩ := audit_chain_tamper_evident tableSha256 tableCanonicalize
  refine ⟨hhead genuineChain [firstEvent, secondEvent] injOn_genuineChain canonicalOn_genuineChain
    (by decide) (by decide) hvalid hvalid rfl, hbroken alteredChain "a2" ?_ haltered⟩
  decide

end ForgetOps.Domain
