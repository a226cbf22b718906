import ForgetOps.Library.IpAddress

/-
  Where webhooks are sent (`apps/worker/src/security/webhook-destination.ts`).

  The URL parser, the resolver and the answers of the hosts are the outside's. `isPrivateAddress`
  tests octets and the beginning of a text; `routable_iff` says which addresses it lets through that
  are not globally routable.
-/

namespace ForgetOps.Webhook

open IpAddress

/-! ## Addresses -/

/-- `isIP` of `node:net`. -/
def isIP (address : List Char) : Nat :=
  if (readIpv4 address).isSome then 4 else if (readIpv6 address).isSome then 6 else 0

/-- The beginnings of the texts that are private in IPv6. -/
def privateBeginnings : List (List Char) :=
  ["fc".toList, "fd".toList, "fe8".toList, "fe9".toList, "fea".toList, "feb".toList, "ff".toList]

def beginsPrivate (normalized : List Char) : Bool := privateBeginnings.any (· <+: normalized)

def isPrivateAddress (address : List Char) : Bool :=
  if isIP address = 4 then
    let octets := (parts '.' address).map fun text => Nat.ofDigitChars 10 text 0
    octets.getD 0 0 = 10 ∨ octets.getD 0 0 = 127 ∨
      (octets.getD 0 0 = 169 ∧ octets.getD 1 0 = 254) ∨
      (octets.getD 0 0 = 172 ∧ octets.getD 1 0 ≥ 16 ∧ octets.getD 1 0 ≤ 31) ∨
      (octets.getD 0 0 = 192 ∧ octets.getD 1 0 = 168) ∨ octets.getD 0 0 ≥ 224
  else if isIP address = 6 then
    let normalized := address.map Char.toLower
    normalized = "::1".toList ∨ beginsPrivate normalized
  else true

def isPrivateHost (hostname : String) : Bool :=
  hostname = "localhost" ∨ ".localhost".toList <:+ hostname.toList ∨
    hostname = "metadata.google.internal" ∨ hostname = "host.docker.internal"

/-! ## Requests -/

structure Url where
  protocol : String
  username : String
  password : String
  hostname : String
  href : String
  deriving DecidableEq, Repr

inductive Code where
  | httpsRequired
  | hostInvalid
  | privateAddress
  | redirectRejected
  | responseTooLarge
  deriving DecidableEq, Repr

/-- `WebhookDestinationError`, or what the resolver, the request or the URL of a redirect throws. -/
inductive Failure where
  | destination (code : Code)
  | other
  deriving DecidableEq, Repr

structure Response where
  status : Nat
  location : Option String
  /-- The length of its body, where it arrives. -/
  byteLength : Option Nat
  deriving DecidableEq, Repr

structure Outside where
  /-- `new URL(value)`. -/
  parseUrl : String → Option Url
  /-- `new URL(location, url).toString()`. -/
  resolveUrl : String → Url → Option String
  /-- The addresses of a name, at any time. -/
  lookup : String → Option (List String)
  /-- The answer to the request with this number. -/
  respond : Nat → Url → Option Response

structure Options where
  maxResponseBytes : Nat
  allowPrivate : Bool
  deriving DecidableEq, Repr

/-- `options.maxResponseBytes ?? 1_048_576`, `allowPrivate` not set. -/
def Options.default : Options := ⟨1048576, false⟩

def assertSafeWebhookUrl (o : Outside) (options : Options) (value : String) : Except Failure Url :=
  match o.parseUrl value with
  | none => .error (.destination .hostInvalid)
  | some url =>
    if url.protocol ≠ "https:" then .error (.destination .httpsRequired)
    else if url.hostname = "" ∨ url.username ≠ "" ∨ url.password ≠ "" then
      .error (.destination .hostInvalid)
    else if ¬ options.allowPrivate ∧ isPrivateHost url.hostname then
      .error (.destination .privateAddress)
    else
      match o.lookup url.hostname with
      | none => .error .other
      | some records =>
        if ¬ options.allowPrivate ∧ records.any (isPrivateAddress ·.toList) then
          .error (.destination .privateAddress)
        else .ok url

def redirects : List Nat := [301, 302, 303, 307, 308]

/-- The loop, with so many redirects left; the result, and the URLs that requests are sent to. -/
def send (o : Outside) (options : Options) : Nat → Url → Except Failure Response × List Url
  | left, url =>
    match o.respond (3 - left) url with
    | none => (.error .other, [url])
    | some response =>
      if response.status ∉ redirects then
        match response.byteLength with
        | none => (.error .other, [url])
        | some length =>
          if length > options.maxResponseBytes then
            (.error (.destination .responseTooLarge), [url])
          else (.ok response, [url])
      else
        match left with
        | 0 => (.error (.destination .redirectRejected), [url])
        | left + 1 =>
          if response.location.getD "" = "" then
            (.error (.destination .redirectRejected), [url])
          else
            match o.resolveUrl (response.location.getD "") url with
            | none => (.error .other, [url])
            | some target =>
              match assertSafeWebhookUrl o options target with
              | .error e => (.error e, [url])
              | .ok next => ((send o options left next).1, url :: (send o options left next).2)

def postWebhook (o : Outside) (options : Options) (destination : String) :
    Except Failure Response × List Url :=
  match assertSafeWebhookUrl o options destination with
  | .error e => (.error e, [])
  | .ok url => send o options 3 url

/-! ## Addresses that are let through -/

/-- The blocks of IPv4 that are not globally routable and not private either. -/
def missedIpv4 : List Block :=
  [⟨ipv4 0 0 0 0, 8⟩, ⟨ipv4 100 64 0 0, 10⟩, ⟨ipv4 192 0 0 0, 24⟩, ⟨ipv4 192 0 2 0, 24⟩,
    ⟨ipv4 198 18 0 0, 15⟩, ⟨ipv4 198 51 100 0, 24⟩, ⟨ipv4 203 0 113 0, 24⟩]

/-- The blocks of IPv4 that are private. -/
def privateIpv4 : List Block :=
  [⟨ipv4 10 0 0 0, 8⟩, ⟨ipv4 127 0 0 0, 8⟩, ⟨ipv4 169 254 0 0, 16⟩, ⟨ipv4 172 16 0 0, 12⟩,
    ⟨ipv4 192 168 0 0, 16⟩, ⟨ipv4 224 0 0 0, 4⟩, ⟨ipv4 240 0 0 0, 4⟩]

/-- The blocks of IPv6 whose texts are private: unique local, link-local, multicast. -/
def privateIpv6 : List Block := [⟨ipv6 0xfc00 0, 7⟩, ⟨ipv6 0xfe80 0, 10⟩, ⟨ipv6 0xff00 0, 8⟩]

/-- The first group is written with fewer than four digits, and begins as a private one. -/
def ShortBeginning (address : List Char) : Prop :=
  (address.takeWhile (· ≠ ':')).length < 4 ∧ beginsPrivate (address.map Char.toLower) = true

/-- The text of an address that is not globally routable and that the check lets through. -/
def Missed (address : List Char) : Prop :=
  (∃ n, readIpv4 address = some n ∧ missedIpv4.any (·.contains 32 n) = true) ∨
  ∃ n, readIpv6 address = some n ∧ globalIpv6 n = false ∧
    privateIpv6.any (·.contains 128 n) = false ∧ address.map Char.toLower ≠ "::1".toList ∧
    ¬ ShortBeginning address

/-- The octets that are private, in terms of the first two. -/
theorem isPrivateAddress_ipv4 {address : List Char} {a b : Nat} {t₁ t₂ t₃ t₄ : List Char}
    (hparts : parts '.' address = [t₁, t₂, t₃, t₄]) (h : (readIpv4 address).isSome = true)
    (ha : readOctet t₁ = some a) (hb : readOctet t₂ = some b) :
    isPrivateAddress address = true ↔ a = 10 ∨ a = 127 ∨ (a = 169 ∧ b = 254) ∨
      (a = 172 ∧ b ≥ 16 ∧ b ≤ 31) ∨ (a = 192 ∧ b = 168) ∨ a ≥ 224 := by
  have hip : isIP address = 4 := if_pos h
  unfold isPrivateAddress
  rw [if_pos hip, hparts]
  simp [readOctet_eq ha, readOctet_eq hb]

theorem private_octets {a b c d : Nat} (h : Octets a b c d) :
    privateIpv4.any (·.contains 32 (ipv4 a b c d)) = true ↔ a = 10 ∨ a = 127 ∨
      (a = 169 ∧ b = 254) ∨ (a = 172 ∧ b ≥ 16 ∧ b ≤ 31) ∨ (a = 192 ∧ b = 168) ∨ a ≥ 224 := by
  have hwithin := h.contains_within 172 16 4 (by decide) (by decide)
  simp only [privateIpv4, List.any_cons, List.any_nil, Bool.or_false, Bool.or_eq_true,
    h.contains_one, h.contains_two _ 254 (by decide), h.contains_two _ 168 (by decide), hwithin,
    h.contains_half, decide_eq_true_eq]
  have ha := h.first
  omega

/-- Of what is not globally routable the missed blocks are not private. -/
theorem globalIpv4_eq (n : Nat) :
    globalIpv4 n = (!(privateIpv4.any (·.contains 32 n) || missedIpv4.any (·.contains 32 n))) := by
  have hperm : specialIpv4.Perm (privateIpv4 ++ missedIpv4) := by decide
  unfold globalIpv4
  rw [decide_not, Bool.decide_eq_true, ← List.any_append, hperm.any_eq]

/-- In IPv4 exactly the missed blocks are let through. -/
theorem globalIpv4_iff {address : List Char} {n : Nat} (hread : readIpv4 address = some n)
    (h : isPrivateAddress address = false) :
    globalIpv4 n = true ↔ ¬ missedIpv4.any (·.contains 32 n) = true := by
  obtain ⟨t₁, t₂, t₃, t₄, a, b, c, d, hparts, ha, hb, hoctets, rfl⟩ := readIpv4_octets hread
  have hprivate : ¬ privateIpv4.any (·.contains 32 (ipv4 a b c d)) = true := by
    rw [private_octets hoctets, ← isPrivateAddress_ipv4 hparts (by rw [hread]; rfl) ha hb, h]
    exact Bool.false_ne_true
  rw [globalIpv4_eq, Bool.eq_false_of_not_eq_true hprivate, Bool.false_or, Bool.not_eq_true',
    Bool.not_eq_true]

/-! A text of IPv6 is private by the way it begins. -/

theorem prefix_append_of_notMem {α : Type} {x : α} {p d rest : List α} (hx : x ∉ p) :
    p <+: d ++ x :: rest ↔ p <+: d := by
  constructor
  · intro h
    induction d generalizing p with
    | nil =>
      cases p with
      | nil => exact List.nil_prefix
      | cons y p =>
        obtain ⟨rfl, -⟩ := List.cons_prefix_cons.mp h
        exact absurd List.mem_cons_self hx
    | cons y d ih =>
      cases p with
      | nil => exact List.nil_prefix
      | cons z p =>
        obtain ⟨rfl, hp⟩ := List.cons_prefix_cons.mp h
        have hx' : x ∉ p := fun hmem => hx (List.mem_cons_of_mem _ hmem)
        exact List.cons_prefix_cons.mpr ⟨rfl, ih hx' hp⟩
  · exact fun h => h.trans (List.prefix_append _ _)

/-- Only what comes before the first colon counts. -/
theorem beginsPrivate_append (d rest : List Char) :
    beginsPrivate (d ++ ':' :: rest) = beginsPrivate d := by
  have hcolon : ∀ p ∈ privateBeginnings, ':' ∉ p := by decide
  unfold beginsPrivate
  rw [Bool.eq_iff_iff, List.any_eq_true, List.any_eq_true]
  refine exists_congr fun p => and_congr_right fun hp => ?_
  rw [decide_eq_true_eq, decide_eq_true_eq, prefix_append_of_notMem (hcolon p hp)]

theorem digitChar_eq {v w : Nat} (hv : v < 16) (hw : w < 16) :
    Nat.digitChar v = Nat.digitChar w ↔ v = w := by
  interval_cases v <;> interval_cases w <;> decide

/-- A first group of four digits begins as a private one exactly when it is in a private block. -/
theorem beginsPrivate_group {d : List Char} {g : Nat} (h : readGroup d = some g)
    (hlength : d.length = 4) :
    beginsPrivate (d.map Char.toLower) = true ↔ g / 512 = 126 ∨ g / 64 = 1018 ∨ g / 256 = 255 := by
  obtain ⟨v₁, v₂, v₃, v₄, h₁, h₂, h₃, h₄, hlower, rfl⟩ := readGroup_four h hlength
  rw [hlower]
  have hchars : privateBeginnings =
      [[Nat.digitChar 15, Nat.digitChar 12], [Nat.digitChar 15, Nat.digitChar 13],
        [Nat.digitChar 15, Nat.digitChar 14, Nat.digitChar 8],
        [Nat.digitChar 15, Nat.digitChar 14, Nat.digitChar 9],
        [Nat.digitChar 15, Nat.digitChar 14, Nat.digitChar 10],
        [Nat.digitChar 15, Nat.digitChar 14, Nat.digitChar 11],
        [Nat.digitChar 15, Nat.digitChar 15]] := by decide
  have hdigit : ∀ {v w : Nat}, v < 16 → w < 16 → (Nat.digitChar w = Nat.digitChar v ↔ v = w) :=
    fun hv hw => (digitChar_eq hw hv).trans eq_comm
  unfold beginsPrivate
  rw [hchars]
  simp only [List.any_cons, List.any_nil, Bool.or_false, Bool.or_eq_true, decide_eq_true_eq,
    List.cons_prefix_cons, List.nil_prefix, and_true]
  rw [hdigit h₁ (by decide), hdigit h₂ (by decide), hdigit h₂ (by decide), hdigit h₂ (by decide),
    hdigit h₃ (by decide), hdigit h₃ (by decide), hdigit h₃ (by decide), hdigit h₃ (by decide),
    hdigit h₂ (by decide)]
  omega

/-- The private blocks in terms of the first group. -/
theorem private_group (n : Nat) :
    privateIpv6.any (·.contains 128 n) = true ↔
      n / 2 ^ 112 / 512 = 126 ∨ n / 2 ^ 112 / 64 = 1018 ∨ n / 2 ^ 112 / 256 = 255 := by
  have h7 : (ipv6 0xfc00 0) / 2 ^ (128 - 7) = 126 := by decide
  have h10 : (ipv6 0xfe80 0) / 2 ^ (128 - 10) = 1018 := by decide
  have h8 : (ipv6 0xff00 0) / 2 ^ (128 - 8) = 255 := by decide
  simp only [privateIpv6, List.any_cons, List.any_nil, Bool.or_false, Bool.or_eq_true,
    Block.contains, decide_eq_true_eq, h7, h10, h8, Nat.div_div_eq_div_mul]
  exact Iff.rfl

/-- A text of IPv6 is private where its address is in a private block, where it is the shortest
    text of the loopback address, and where its first group is short and begins as a private one. -/
theorem isPrivateAddress_ipv6 {address : List Char} {n : Nat} (h4 : readIpv4 address = none)
    (hread : readIpv6 address = some n) :
    isPrivateAddress address = true ↔ address.map Char.toLower = "::1".toList ∨
      privateIpv6.any (·.contains 128 n) = true ∨ ShortBeginning address := by
  have hip : isIP address = 6 := by
    unfold isIP
    rw [h4, hread]
    rfl
  have hprivate : isPrivateAddress address = true ↔
      address.map Char.toLower = "::1".toList ∨
        beginsPrivate (address.map Char.toLower) = true := by
    unfold isPrivateAddress
    rw [hip, if_neg (by decide), if_pos rfl, decide_eq_true_eq]
  rw [hprivate, private_group]
  refine or_congr_right ?_
  rcases firstGroup hread with ⟨rest, rfl, hn⟩ | ⟨d, rest, g, rfl, hd, hn⟩
  · have hbegins : beginsPrivate ((':' :: rest).map Char.toLower) = false := beginsPrivate_append [] _
    rw [ShortBeginning, hbegins, hn]
    simp
  · have hcolon := colon_notMem_readGroup hd
    have htake : (d ++ ':' :: rest).takeWhile (· ≠ ':') = d := by
      have hall : ∀ c ∈ d, decide (c ≠ ':') = true := by
        intro c hc
        refine decide_eq_true ?_
        rintro rfl
        exact hcolon hc
      rw [List.takeWhile_append_of_pos hall, List.takeWhile_cons_of_neg (by simp), List.append_nil]
    have hbegins : beginsPrivate ((d ++ ':' :: rest).map Char.toLower) =
        beginsPrivate (d.map Char.toLower) := by
      rw [List.map_append]
      exact beginsPrivate_append _ _
    rw [ShortBeginning, htake, hbegins, hn]
    rcases Nat.lt_or_ge d.length 4 with hlt | hge
    · have hsmall := readGroup_short hd hlt
      constructor
      · exact fun h => .inr ⟨hlt, h⟩
      · rintro (h | h)
        · omega
        · exact h.2
    · have hlength : d.length = 4 := by
        have hle := readGroup_length hd
        omega
      rw [beginsPrivate_group hd hlength]
      constructor
      · exact .inl
      · rintro (h | ⟨hlt, -⟩)
        · exact h
        · omega

theorem readIpv4_of_readIpv6 {address : List Char} {n : Nat} (h : readIpv6 address = some n) :
    readIpv4 address = none := by
  have hcolon : ':' ∈ address := by
    rcases firstGroup h with ⟨rest, rfl, -⟩ | ⟨d, rest, g, rfl, -, -⟩
    · exact List.mem_cons_self
    · exact List.mem_append_right _ List.mem_cons_self
  by_contra hsome
  obtain ⟨m, hm⟩ := Option.ne_none_iff_exists'.mp hsome
  exact colon_notMem_readIpv4 hm hcolon

/-- What the check lets through is globally routable but for the missed addresses. -/
theorem routable_iff {address : List Char} (h : isPrivateAddress address = false) :
    Routable address ↔ ¬ Missed address := by
  cases h4 : readIpv4 address with
  | some n =>
    have h6 : readIpv6 address = none := by
      by_contra hsome
      obtain ⟨m, hm⟩ := Option.ne_none_iff_exists'.mp hsome
      rw [readIpv4_of_readIpv6 hm] at h4
      cases h4
    have hiff := globalIpv4_iff h4 h
    unfold Routable Missed
    rw [h4, h6]
    simpa using hiff
  | none =>
    cases h6 : readIpv6 address with
    | none =>
      have hip : isIP address = 0 := by
        unfold isIP
        rw [h4, h6]
        rfl
      have hprivate : isPrivateAddress address = true := by
        unfold isPrivateAddress
        rw [hip]
        rfl
      rw [hprivate] at h
      cases h
    | some n =>
      have hprivate := (isPrivateAddress_ipv6 h4 h6).not
      rw [h, not_or, not_or] at hprivate
      obtain ⟨hloopback, hblock, hshort⟩ := hprivate.mp Bool.false_ne_true
      have hblock := Bool.eq_false_of_not_eq_true hblock
      constructor
      · rintro (⟨m, hm, -⟩ | ⟨m, hm, hglobal⟩)
        · rw [h4] at hm
          cases hm
        · rintro (⟨k, hk, -⟩ | ⟨k, hk, hlocal, -⟩)
          · rw [h4] at hk
            cases hk
          · obtain rfl := Option.some.inj (hm.symm.trans hk)
            rw [hglobal] at hlocal
            cases hlocal
      · intro hmissed
        refine .inr ⟨n, h6, ?_⟩
        by_contra hlocal
        have hlocal := Bool.eq_false_of_not_eq_true hlocal
        exact hmissed (.inr ⟨n, h6, hlocal, hblock, hloopback, hshort⟩)

end ForgetOps.Webhook
