import ForgetOps.Signer.ExecutionLease

/-
  `verify_execution_lease` of the agent (`agent/crates/agent-core/src/authorization.rs`).

  Text is a list of characters, an `i128` an integer that wraps at 128 bits. The verification of
  the signature, `verify_signed_value`, is an argument. `parseRfc3339_toISOString` compares the
  agent's reading of timestamps with what the signers print, and `verifyExecutionLease_ok` says
  what the agent accepts.
-/

namespace ForgetOps.Agent

open Calendar Guards Signer

inductive AuthorizationError where
  | invalidPublicKey
  | invalidSignature
  | signatureVerificationFailed
  | invalidClaims
  | claimsExpired
  | claimsNotYetValid
  | requestVersionMismatch
  | planVersionMismatch
  | scopeViolation
  | agentUnavailable
  | executionPaused
  | authorizationAlreadyConsumed
  deriving DecidableEq, Repr

/-! ## Timestamps -/

/-- An `i128` after arithmetic that wraps. -/
def wrap (n : Int) : Int := n.bmod (2 ^ 128)

/-- `text.split_once(c)`. -/
def splitOnce (c : Char) (text : List Char) : Option (List Char × List Char) :=
  if c ∈ text then some (text.takeWhile (· ≠ c), (text.dropWhile (· ≠ c)).tail) else none

/-- `text.strip_suffix(c)`. -/
def stripSuffix (c : Char) (text : List Char) : Option (List Char) :=
  if text.getLast? = some c then some text.dropLast else none

/-- The digits of a number without its sign. -/
def parseDigits (text : List Char) : Option Int :=
  if text = [] then none else (Decimal.value text).map (↑)

/-- `text.parse::<i128>()`: a sign, then digits, in the range of the type. -/
def parseI128 (text : List Char) : Option Int := do
  let n ← match text with
    | '+' :: digits => parseDigits digits
    | '-' :: digits => (parseDigits digits).map (- ·)
    | digits => parseDigits digits
  if -2 ^ 127 ≤ n ∧ n < 2 ^ 127 then some n else none

/-- The days of a date, with the divisions of Rust, which round towards zero. -/
def daysOf (year month day : Int) : Int :=
  let adjustedYear := if month ≤ 2 then year - 1 else year
  let adjustedMonth := if month ≤ 2 then month + 12 else month
  365 * adjustedYear + adjustedYear.tdiv 4 - adjustedYear.tdiv 100 + adjustedYear.tdiv 400 +
    (153 * (adjustedMonth - 3) + 2) / 5 + day - 1 - 719468

/-- The digits after the point as nanoseconds. -/
def nanosOf (fraction : List Char) : Option Int :=
  if fraction.length > 9 ∨ ¬ fraction.all Char.isDigit then none
  else if fraction = [] then some 0
  else (parseI128 fraction).map (· * 10 ^ (9 - fraction.length))

/-- `parse_rfc3339`: nanoseconds since 1970. -/
def parseRfc3339 (value : List Char) : Option Int := do
  let value ← stripSuffix 'Z' value
  let (date, time) ← splitOnce 'T' value
  match date.splitOn '-', time.splitOn ':' with
  | year :: month :: day :: _, hour :: minute :: seconds :: _ =>
    let year ← parseI128 year
    let month ← parseI128 month
    let day ← parseI128 day
    let hour ← parseI128 hour
    let minute ← parseI128 minute
    let (secondText, fractionText) := (splitOnce '.' seconds).getD (seconds, [])
    let second ← parseI128 secondText
    let nanos ← nanosOf fractionText
    if ¬ (1 ≤ month ∧ month ≤ 12) ∨ ¬ (1 ≤ day ∧ day ≤ 31) ∨ hour > 23 ∨ minute > 59 ∨
        second > 59 then none
    else
      let days := daysOf year month day
      some (wrap ((((days * 24 + hour) * 60 + minute) * 60 + second) * 1000000000 + nanos))
  | _, _ => none

/-! ## What the signers print -/

section Printed

theorem stripSuffix_concat (c : Char) (text : List Char) : stripSuffix c (text ++ [c]) = some text := by
  simp [stripSuffix]

theorem splitOnce_append {c : Char} {before after : List Char} (h : c ∉ before) :
    splitOnce c (before ++ c :: after) = some (before, after) := by
  have hall : ∀ x ∈ before, decide (x ≠ c) = true := by
    intro x hx
    rw [decide_eq_true_eq]
    rintro rfl
    exact h hx
  unfold splitOnce
  rw [if_pos (by simp), List.takeWhile_append_of_pos hall, List.dropWhile_append_of_pos hall]
  simp

theorem splitOn_three {c : Char} {x y z : List Char} (hx : c ∉ x) (hy : c ∉ y) (hz : c ∉ z) :
    (x ++ c :: (y ++ c :: z)).splitOn c = [x, y, z] := by
  rw [List.splitOn_append_cons_self_of_not_mem hx, List.splitOn_append_cons_self_of_not_mem hy,
    List.splitOn_eq_singleton hz]

theorem parseI128_digits {width n : Nat} (h : n < 10 ^ width) (hpos : 0 < width)
    (hwidth : width ≤ 9) : parseI128 (Decimal.digits width n) = some (n : Int) := by
  have hvalue := Decimal.value_digits h
  have hlength := Decimal.length_digits width n
  have hdigit : ∀ c ∈ Decimal.digits width n, c.isDigit = true :=
    fun c hc => Decimal.isDigit_of_mem_digits hc
  have hbound : n < 10 ^ 9 := lt_of_lt_of_le h (Nat.pow_le_pow_right (by decide) hwidth)
  generalize Decimal.digits width n = text at *
  have hne : text ≠ [] := by
    rintro rfl
    rw [← hlength] at hpos
    exact absurd hpos (by decide)
  have hparse : parseDigits text = some (n : Int) := by
    unfold parseDigits
    rw [if_neg hne, hvalue, Option.map_some]
  have hrange : -2 ^ 127 ≤ (n : Int) ∧ (n : Int) < 2 ^ 127 := by
    constructor <;> omega
  unfold parseI128
  split
  · exact absurd (hdigit '+' List.mem_cons_self) (by decide)
  · exact absurd (hdigit '-' List.mem_cons_self) (by decide)
  · rw [hparse, Option.bind_eq_bind, Option.bind_some]
    exact if_pos hrange

theorem nanosOf_digits {n : Nat} (h : n < 1000) :
    nanosOf (Decimal.digits 3 n) = some (n * 1000000 : Int) := by
  have hne : Decimal.digits 3 n ≠ [] := by simp [Decimal.digits]
  have hall : (Decimal.digits 3 n).all Char.isDigit = true :=
    List.all_eq_true.mpr fun c hc => Decimal.isDigit_of_mem_digits hc
  unfold nanosOf
  rw [if_neg (by simp [Decimal.length_digits, hall]), if_neg hne,
    parseI128_digits h (by decide) (by decide), Decimal.length_digits]
  rfl

theorem wrap_of_small {n : Int} (h : -2 ^ 127 ≤ n ∧ n < 2 ^ 127) : wrap n = n := by
  unfold wrap
  exact Int.bmod_eq_of_le (by omega) (by omega)

/-- The first moment of March of the year 0. -/
def marchOfYearZero : Int := -62162035200000

/-- The divisions that round towards zero add a day to the dates before March of the year 0. -/
theorem daysOf_ofDays {z : Int} (h : 0 ≤ (CivilDate.ofDays z).year) :
    daysOf (CivilDate.ofDays z).year (CivilDate.ofDays z).month (CivilDate.ofDays z).day =
      if z < -719468 then z + 1 else z := by
  have hdays := CivilDate.days_ofDays z
  have hmarch := CivilDate.marchYear_ofDays_nonneg z
  generalize CivilDate.ofDays z = c at *
  unfold CivilDate.marchYear at hmarch
  unfold CivilDate.days at hdays
  unfold daysOf
  dsimp only at hdays ⊢
  have hnonneg : ∀ y k : Int, 0 ≤ y → y.tdiv k = y / k := fun y k hy => Int.tdiv_eq_ediv_of_nonneg hy
  by_cases hz : z < -719468
  · have hneg : ¬ 0 ≤ if c.month ≤ 2 then c.year - 1 else c.year := by omega
    have hyear : (if c.month ≤ 2 then c.year - 1 else c.year) = -1 := by
      split_ifs at hneg ⊢ <;> omega
    rw [hyear] at hdays ⊢
    rw [if_pos hz]
    have hdivs : (-1 : Int).tdiv 4 = 0 ∧ (-1 : Int).tdiv 100 = 0 ∧ (-1 : Int).tdiv 400 = 0 := by
      decide
    rw [hdivs.1, hdivs.2.1, hdivs.2.2]
    omega
  · have hpos : 0 ≤ if c.month ≤ 2 then c.year - 1 else c.year := hmarch.mpr (by omega)
    rw [hnonneg _ _ hpos, hnonneg _ _ hpos, hnonneg _ _ hpos, if_neg hz]
    exact hdays

/-- What the agent reads where a signer prints the millisecond `t`. -/
def readBack (t : Int) : Int := 1000000 * (if t < marchOfYearZero then t + 86400000 else t)

open IsoTimestamp in
theorem parseRfc3339_toISOString {t : Int} {f : Fields}
    (h : fields (toISOString t).toList = some f) :
    parseRfc3339 (toISOString t).toList = some (readBack t) := by
  rw [toISOString, String.toList_ofList] at h ⊢
  have hyear := year_of_fields h
  have hmonth := CivilDate.month_bounds (t / 86400000)
  have hday := CivilDate.day_bounds (t / 86400000)
  have hdays := daysOf_ofDays hyear.1
  have hsmall : -1000000 < t / 86400000 ∧ t / 86400000 < 3000000 := by
    have hz := CivilDate.days_ofDays (t / 86400000)
    unfold CivilDate.days at hz
    dsimp only at hz
    omega
  have htime : (t % 86400000).toNat < 86400000 := by omega
  have hyears : (CivilDate.ofDays (t / 86400000)).year.toNat < 10 ^ 4 := by omega
  have hmonths : (CivilDate.ofDays (t / 86400000)).month.toNat < 10 ^ 2 := by omega
  have hdates : (CivilDate.ofDays (t / 86400000)).day.toNat < 10 ^ 2 := by omega
  have hhours : (t % 86400000).toNat / 3600000 < 10 ^ 2 := by omega
  have hminutes : (t % 86400000).toNat / 60000 % 60 < 10 ^ 2 := by omega
  have hseconds : (t % 86400000).toNat / 1000 % 60 < 10 ^ 2 := by omega
  have hms : (t % 86400000).toNat % 1000 < 1000 := by omega
  have hdash : ∀ width n, '-' ∉ Decimal.digits width n := fun _ _ => Decimal.notMem_digits rfl
  have hcolon : ∀ width n, ':' ∉ Decimal.digits width n := fun _ _ => Decimal.notMem_digits rfl
  have hpoint : ∀ width n, '.' ∉ Decimal.digits width n := fun _ _ => Decimal.notMem_digits rfl
  have htee : ∀ width n, 'T' ∉ Decimal.digits width n := fun _ _ => Decimal.notMem_digits rfl
  have htext : isoDigits t =
      (Decimal.digits 4 (CivilDate.ofDays (t / 86400000)).year.toNat ++
        '-' :: (Decimal.digits 2 (CivilDate.ofDays (t / 86400000)).month.toNat ++
        '-' :: Decimal.digits 2 (CivilDate.ofDays (t / 86400000)).day.toNat) ++
      'T' :: (Decimal.digits 2 ((t % 86400000).toNat / 3600000) ++
        ':' :: (Decimal.digits 2 ((t % 86400000).toNat / 60000 % 60) ++
        ':' :: (Decimal.digits 2 ((t % 86400000).toNat / 1000 % 60) ++
        '.' :: Decimal.digits 3 ((t % 86400000).toNat % 1000))))) ++ ['Z'] := by
    unfold isoDigits yearDigits
    dsimp only
    rw [if_pos hyear]
    simp only [List.append_assoc, List.cons_append]
  have hdate := splitOn_three (hdash 4 (CivilDate.ofDays (t / 86400000)).year.toNat)
    (hdash 2 (CivilDate.ofDays (t / 86400000)).month.toNat)
    (hdash 2 (CivilDate.ofDays (t / 86400000)).day.toNat)
  have hclock := splitOn_three (hcolon 2 ((t % 86400000).toNat / 3600000))
    (hcolon 2 ((t % 86400000).toNat / 60000 % 60))
    (z := Decimal.digits 2 ((t % 86400000).toNat / 1000 % 60) ++
      '.' :: Decimal.digits 3 ((t % 86400000).toNat % 1000)) (by simp [hcolon])
  rw [htext]
  unfold parseRfc3339
  rw [stripSuffix_concat]
  simp only [Option.bind_eq_bind, Option.bind_some]
  rw [splitOnce_append (by simp [htee])]
  simp only [Option.bind_some, hdate, hclock, splitOnce_append (hpoint _ _), Option.getD_some,
    parseI128_digits hyears (by decide) (by decide),
    parseI128_digits hmonths (by decide) (by decide),
    parseI128_digits hdates (by decide) (by decide),
    parseI128_digits hhours (by decide) (by decide),
    parseI128_digits hminutes (by decide) (by decide),
    parseI128_digits hseconds (by decide) (by decide), nanosOf_digits hms]
  rw [Int.toNat_of_nonneg hyear.1, Int.toNat_of_nonneg (by omega), Int.toNat_of_nonneg (by omega),
    hdays, if_neg (by simp only [not_or, not_not, not_lt]; omega)]
  unfold readBack marchOfYearZero
  rw [wrap_of_small (by split_ifs <;> constructor <;> omega), Option.some.injEq]
  split_ifs <;> omega

end Printed

/-! ## Verification -/

/-- The agent's conditions on the claims and their authorization. -/
structure LeaseScope (claims : ExecutionLeaseClaims)
    (authorization : ExecutionAuthorizationClaims) : Prop where
  type : claims.type = "forgetops.execution-lease"
  version : claims.version = 1
  environmentId : claims.environmentId = authorization.environmentId
  agentId : claims.agentId = authorization.agentId
  requestId : claims.requestId = authorization.requestId
  attemptId : claims.attemptId = authorization.attemptId
  nonempty : claims.allowedStepIds ≠ []
  subset : ∀ step ∈ claims.allowedStepIds, step ∈ authorization.allowedStepIds
  distinct : claims.allowedStepIds.Nodup

/-- `duplicate_ids(ids)`. -/
def duplicateIds (ids : List String) : Bool := ¬ ids.Nodup

/-- The verification of a signature over lease claims under a public key. -/
abbrev VerifySignedValue :=
  ExecutionLeaseClaims → String → String → Except AuthorizationError Unit

def verifyExecutionLease (verifySignedValue : VerifySignedValue) (claims : ExecutionLeaseClaims)
    (signature publicKey : String) (authorization : ExecutionAuthorizationClaims) (now : String) :
    Except AuthorizationError Unit := do
  verifySignedValue claims signature publicKey
  refuse (claims.type ≠ "forgetops.execution-lease" ∨ claims.version ≠ 1 ∨
    claims.environmentId ≠ authorization.environmentId ∨
    claims.agentId ≠ authorization.agentId ∨
    claims.requestId ≠ authorization.requestId ∨
    claims.attemptId ≠ authorization.attemptId ∨
    claims.allowedStepIds = [] ∨
    (∃ step ∈ claims.allowedStepIds, step ∉ authorization.allowedStepIds) ∨
    duplicateIds claims.allowedStepIds = true) .scopeViolation
  let issuedAt ← okOr (parseRfc3339 claims.issuedAt.toList) .invalidClaims
  let expiresAt ← okOr (parseRfc3339 claims.expiresAt.toList) .invalidClaims
  refuse (expiresAt ≤ issuedAt ∨ wrap (expiresAt - issuedAt) > 90000000000) .invalidClaims
  let current ← okOr (parseRfc3339 now.toList) .invalidClaims
  refuse (current ≥ expiresAt) .claimsExpired

theorem verifyExecutionLease_ok {verifySignedValue : VerifySignedValue}
    {claims : ExecutionLeaseClaims} {signature publicKey now : String}
    {authorization : ExecutionAuthorizationClaims} :
    verifyExecutionLease verifySignedValue claims signature publicKey authorization now = .ok () ↔
      verifySignedValue claims signature publicKey = .ok () ∧ LeaseScope claims authorization ∧
        ∃ issued expires current, parseRfc3339 claims.issuedAt.toList = some issued ∧
          parseRfc3339 claims.expiresAt.toList = some expires ∧
          (issued < expires ∧ wrap (expires - issued) ≤ 90000000000) ∧
          parseRfc3339 now.toList = some current ∧ current < expires := by
  unfold verifyExecutionLease duplicateIds
  simp only [bind_ok, okOr_ok, refuse_ok, not_or, not_le, not_lt, not_not, ge_iff_le, gt_iff_lt,
    not_exists, not_and, decide_eq_true_eq]
  constructor
  · rintro ⟨⟨⟩, hsigned, ⟨⟩, ⟨htype, hversion, henvironment, hagent, hrequest, hattempt, hne, hsubset,
      hdistinct⟩, issued, hissued, expires, hexpires, ⟨⟩, httl, current, hcurrent, hlt⟩
    exact ⟨hsigned, ⟨htype, hversion, henvironment, hagent, hrequest, hattempt, hne, hsubset,
      hdistinct⟩, issued, expires, current, hissued, hexpires, httl, hcurrent, hlt⟩
  · rintro ⟨hsigned, hscope, issued, expires, current, hissued, hexpires, httl, hcurrent, hlt⟩
    exact ⟨(), hsigned, (), ⟨hscope.type, hscope.version, hscope.environmentId, hscope.agentId,
      hscope.requestId, hscope.attemptId, hscope.nonempty, hscope.subset, hscope.distinct⟩,
      issued, hissued, expires, hexpires, (), httl, current, hcurrent, hlt⟩

end ForgetOps.Agent
