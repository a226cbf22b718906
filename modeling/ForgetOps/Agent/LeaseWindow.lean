import ForgetOps.Agent.CanonicalClock

/-
  The instants at which the agent accepts one signed lease.

  `Bounded` asks that they lie within 90 seconds, from `issuedAt` on, and that the control plane
  calls the lease active at each of them (`ExecutionLeaseService.isActive`). The agent never
  compares its clock with `issuedAt`, so a lease it can accept at all it accepts from the first
  instant of the calendar on: `bounded_iff`.
-/

namespace ForgetOps.Agent

open Signer IsoTimestamp

/-- `ExecutionLeaseService.isActive`, false where a date is `NaN`. -/
def isActive (dateParse : String → Option Int) (claims : ExecutionLeaseClaims) (now : Date) : Bool :=
  match dateParse claims.issuedAt, dateParse claims.expiresAt, now with
  | some issued, some expires, some time => issued ≤ time ∧ expires > time
  | _, _, _ => false

/-- The first instant of the canonical form, in milliseconds. -/
def firstInstant : Int := -62167219200000

/-- What the agent reads for it. -/
def firstReading : Int := -62167132800000000000

section Window

variable (dateParse : String → Option Int) (verifySignedValue : VerifySignedValue)
  (claims : ExecutionLeaseClaims) (signature publicKey : String)
  (authorization : ExecutionAuthorizationClaims)

/-- The agent accepts the lease when its clock says `now`. -/
def AcceptedAt (now : String) : Prop :=
  verifyExecutionLease verifySignedValue claims signature publicKey authorization now = .ok ()

/-- The lease authorises scheduling for less than 90 seconds, from its issue to its end. -/
structure Bounded : Prop where
  window : ∀ t₁ t₂ q₁ q₂, isCanonicalUtc t₁ = true → isCanonicalUtc t₂ = true →
    instant t₁ = some q₁ → instant t₂ = some q₂ →
    AcceptedAt verifySignedValue claims signature publicKey authorization t₁ →
    AcceptedAt verifySignedValue claims signature publicKey authorization t₂ → |q₁ - q₂| < 90000
  inside : ∀ t, isCanonicalUtc t = true →
    AcceptedAt verifySignedValue claims signature publicKey authorization t →
    ∃ issued expires current, parseRfc3339 claims.issuedAt.toList = some issued ∧
      parseRfc3339 claims.expiresAt.toList = some expires ∧
      parseRfc3339 t.toList = some current ∧ issued ≤ current ∧ current < expires
  active : ∀ t, isCanonicalUtc t = true →
    AcceptedAt verifySignedValue claims signature publicKey authorization t →
    isActive dateParse claims (parse t) = true

/-- The lease is signed, in the scope of its authorization, and of a lifetime the agent accepts,
    and it ends after the first instant of the canonical form. -/
structure Schedulable (issued expires : Int) : Prop where
  signed : verifySignedValue claims signature publicKey = .ok ()
  scope : LeaseScope claims authorization
  issuedAt : parseRfc3339 claims.issuedAt.toList = some issued
  expiresAt : parseRfc3339 claims.expiresAt.toList = some expires
  lifetime : issued < expires ∧ wrap (expires - issued) ≤ 90000000000
  begun : firstReading < expires

/-- The lease is dated at the first instant of the canonical form, or before it, and both sides
    read the same end, within 90 seconds. -/
structure DatedFirst (issued expires : Int) : Prop where
  issued_le : issued ≤ firstReading
  expires_le : expires ≤ firstReading + 90000000000
  dates : ∃ i e, dateParse claims.issuedAt = some i ∧ dateParse claims.expiresAt = some e ∧
    i ≤ firstInstant ∧ expires ≤ 1000000 * (e + 86400000)

end Window

section FirstDay

/-- The timestamps of the first day are canonical, and read a day late. -/
theorem firstDay {k : Int} (h : 0 ≤ k) (hk : k < 86400000) :
    isCanonicalUtc (toISOString (firstInstant + k)) = true ∧
      instant (toISOString (firstInstant + k)) = some ((firstInstant + k : Int) : ℚ) ∧
      parse (toISOString (firstInstant + k)) = some (firstInstant + k) ∧
      parseRfc3339 (toISOString (firstInstant + k)).toList = some (firstReading + 1000000 * k) := by
  have hday : (firstInstant + k) / 86400000 = -719528 := by
    unfold firstInstant
    omega
  have htime : (firstInstant + k) % 86400000 = k := by
    unfold firstInstant
    omega
  have hdate : Calendar.CivilDate.ofDays (-719528) = ⟨0, 1, 1⟩ := by decide
  have hfields := fields_isoDigits (t := firstInstant + k) (by rw [hday, hdate])
    (by rw [hday, hdate]; decide)
  rw [hday, hdate, htime] at hfields
  have hdatetime : isDatetime (toISOString (firstInstant + k)) = true := by
    unfold isDatetime
    rw [toISOString, String.toList_ofList, hfields]
    unfold Fields.valid
    rw [decide_eq_true_eq]
    dsimp only
    refine ⟨by decide, by decide, by decide, by decide, ?_, ?_, ?_⟩ <;> omega
  have hlength : (toISOString (firstInstant + k)).toList.length = 24 := by
    rw [toISOString, String.toList_ofList]
    unfold isoDigits yearDigits
    rw [hday, hdate]
    simp [Calendar.Decimal.length_digits]
  refine ⟨by simp [isCanonicalUtc, hdatetime, hlength], instant_of_printed hdatetime,
    parse_of_printed hdatetime, ?_⟩
  rw [agent_of_printed hdatetime]
  unfold readBack firstReading firstInstant marchOfYearZero
  rw [if_pos (by omega), Option.some.injEq]
  omega

end FirstDay

section Window

variable {dateParse : String → Option Int} {verifySignedValue : VerifySignedValue}
  {claims : ExecutionLeaseClaims} {signature publicKey : String}
  {authorization : ExecutionAuthorizationClaims} {issued expires : Int}

/-- The agent accepts a lease it can schedule at every canonical clock it reads before the end. -/
theorem Schedulable.acceptedAt_iff
    (h : Schedulable verifySignedValue claims signature publicKey authorization issued expires)
    {t : String} {current : Int} (ht : parseRfc3339 t.toList = some current) :
    AcceptedAt verifySignedValue claims signature publicKey authorization t ↔ current < expires := by
  unfold AcceptedAt
  rw [verifyExecutionLease_ok]
  constructor
  · rintro ⟨-, -, -, e, c, -, he, -, hc, hlt⟩
    rw [h.expiresAt, Option.some.injEq] at he
    rw [ht, Option.some.injEq] at hc
    rw [hc, he]
    exact hlt
  · intro hlt
    exact ⟨h.signed, h.scope, issued, expires, current, h.issuedAt, h.expiresAt, h.lifetime, ht,
      hlt⟩

/-- No canonical text is read before the first reading. -/
theorem reading_of_canonical {t : String} (ht : isCanonicalUtc t = true) :
    ∃ q c, instant t = some q ∧ parseRfc3339 t.toList = some c ∧ (c : ℚ) = reading q ∧
      (firstInstant : ℚ) ≤ q ∧ firstReading ≤ c := by
  obtain ⟨q, c, hq, hc, hreading⟩ := parseRfc3339_canonical ht
  unfold isCanonicalUtc at ht
  rw [decide_eq_true_eq] at ht
  obtain ⟨p, hp, hle⟩ := instant_of_isDatetime ht.1
  rw [hq, Option.some.injEq] at hp
  rw [← hp] at hle
  have hfirst : (firstReading : ℚ) ≤ c := by
    rw [hreading]
    unfold reading firstReading marchOfYearZero
    push_cast
    split_ifs with hearly <;> linarith
  exact ⟨q, c, hq, hc, hreading, by unfold firstInstant; exact_mod_cast hle, by exact_mod_cast hfirst⟩

/-- What the agent accepts at a canonical clock, it can schedule. -/
theorem schedulable_of_accepted {t : String} (ht : isCanonicalUtc t = true)
    (h : AcceptedAt verifySignedValue claims signature publicKey authorization t) :
    ∃ issued expires,
      Schedulable verifySignedValue claims signature publicKey authorization issued expires := by
  obtain ⟨hsigned, hscope, issued, expires, current, hissued, hexpires, hlifetime, hcurrent, hlt⟩ :=
    verifyExecutionLease_ok.mp h
  obtain ⟨q, c, -, hc, -, -, hfirst⟩ := reading_of_canonical ht
  rw [hcurrent, Option.some.injEq] at hc
  exact ⟨issued, expires, hsigned, hscope, hissued, hexpires, hlifetime, by omega⟩

/-- A lease that can be scheduled stays within its window only if it is dated first. -/
theorem datedFirst_of_bounded
    (h : Schedulable verifySignedValue claims signature publicKey authorization issued expires)
    (hbounded : Bounded dateParse verifySignedValue claims signature publicKey authorization) :
    DatedFirst dateParse claims issued expires := by
  have hzero := firstDay (k := 0) (by decide) (by decide)
  have hbegun := h.begun
  have hfirst : AcceptedAt verifySignedValue claims signature publicKey authorization
      (toISOString (firstInstant + 0)) :=
    (h.acceptedAt_iff hzero.2.2.2).mpr (by omega)
  obtain ⟨s, e, c, hs, he, hc, hle, -⟩ := hbounded.inside _ hzero.1 hfirst
  rw [h.issuedAt, Option.some.injEq] at hs
  rw [hzero.2.2.2, Option.some.injEq] at hc
  have hend : expires ≤ firstReading + 90000000000 := by
    by_contra hlong
    have hlast := firstDay (k := 90000) (by decide) (by decide)
    have hlate : AcceptedAt verifySignedValue claims signature publicKey authorization
        (toISOString (firstInstant + 90000)) :=
      (h.acceptedAt_iff hlast.2.2.2).mpr (by omega)
    have hwindow := hbounded.window _ _ _ _ hzero.1 hlast.1 hzero.2.1 hlast.2.1 hfirst hlate
    push_cast at hwindow
    rw [abs_lt] at hwindow
    linarith [hwindow.1]
  have hactive := hbounded.active _ hzero.1 hfirst
  rw [hzero.2.2.1] at hactive
  unfold isActive at hactive
  split at hactive
  · next i e time hi he' htime =>
    rw [decide_eq_true_eq] at hactive
    obtain rfl : firstInstant + 0 = time := Option.some.inj htime
    refine ⟨by omega, hend, i, e, hi, he', by omega, ?_⟩
    by_contra hlate
    -- the end the control plane reads is itself a clock at which the agent accepts
    have hrange : 0 ≤ e - firstInstant ∧ e - firstInstant < 90000 := by
      unfold firstReading at hend
      unfold firstInstant at *
      omega
    have hclock := firstDay hrange.1 (by omega)
    rw [show firstInstant + (e - firstInstant) = e by ring] at hclock
    have haccepted : AcceptedAt verifySignedValue claims signature publicKey authorization
        (toISOString e) := by
      refine (h.acceptedAt_iff hclock.2.2.2).mpr ?_
      unfold firstReading firstInstant
      omega
    have hagain := hbounded.active _ hclock.1 haccepted
    rw [hclock.2.2.1] at hagain
    unfold isActive at hagain
    rw [hi, he'] at hagain
    simp at hagain
  · cases hactive

theorem bounded_of_datedFirst
    (h : Schedulable verifySignedValue claims signature publicKey authorization issued expires)
    (hdated : DatedFirst dateParse claims issued expires) :
    Bounded dateParse verifySignedValue claims signature publicKey authorization := by
  have hissued := hdated.issued_le
  have hend : ((expires : Int) : ℚ) ≤ firstReading + 90000000000 := by
    exact_mod_cast hdated.expires_le
  -- every clock at which the agent accepts is within the first 90 seconds it can show
  have hfirst : ∀ t, isCanonicalUtc t = true →
      AcceptedAt verifySignedValue claims signature publicKey authorization t →
      ∃ q c, instant t = some q ∧ parseRfc3339 t.toList = some c ∧ firstReading ≤ c ∧
        c < expires ∧ (c : ℚ) = 1000000 * (q + 86400000) ∧
        (firstInstant : ℚ) ≤ q ∧ q < firstInstant + 90000 := by
    intro t ht haccepted
    obtain ⟨q, c, hq, hc, hreading, hle, hbegun⟩ := reading_of_canonical ht
    have hlt := (h.acceptedAt_iff hc).mp haccepted
    have hcast : (c : ℚ) < expires := by exact_mod_cast hlt
    unfold reading marchOfYearZero at hreading
    unfold firstInstant firstReading at *
    push_cast at *
    split_ifs at hreading with hearly
    · exact ⟨q, c, hq, hc, hbegun, hlt, hreading, hle, by linarith⟩
    · linarith
  refine ⟨?_, ?_, ?_⟩
  · intro t₁ t₂ q₁ q₂ ht₁ ht₂ hq₁ hq₂ h₁ h₂
    obtain ⟨p₁, -, hp₁, -, -, -, -, hle₁, hlt₁⟩ := hfirst t₁ ht₁ h₁
    obtain ⟨p₂, -, hp₂, -, -, -, -, hle₂, hlt₂⟩ := hfirst t₂ ht₂ h₂
    rw [hq₁, Option.some.injEq] at hp₁
    rw [hq₂, Option.some.injEq] at hp₂
    rw [abs_lt]
    constructor <;> linarith
  · intro t ht haccepted
    obtain ⟨q, c, -, hc, hbegun, hlt, -, -, -⟩ := hfirst t ht haccepted
    exact ⟨issued, expires, c, h.issuedAt, h.expiresAt, hc, by omega, hlt⟩
  · intro t ht haccepted
    obtain ⟨q, c, hq, hc, -, hlt, hreading, -, -⟩ := hfirst t ht haccepted
    obtain ⟨i, e, hi, he, hile, hele⟩ := hdated.dates
    unfold isCanonicalUtc at ht
    rw [decide_eq_true_eq] at ht
    obtain ⟨p, n, hp, hn, hzero, hfloor⟩ := parse_of_isDatetime ht.1
    rw [hq, Option.some.injEq] at hp
    have hcast : (c : ℚ) < 1000000 * (e + 86400000) := by exact_mod_cast lt_of_lt_of_le hlt hele
    have hbefore : (n : ℚ) < e := by linarith
    have hbefore : n < e := by exact_mod_cast hbefore
    unfold isActive
    rw [hi, he, hn]
    simp only [decide_eq_true_eq]
    unfold firstInstant at hile
    omega

end Window

/-- The agent accepts a lease within its 90 seconds only, exactly where it can never schedule it,
    or where the lease is dated at the first instant the clock can show. -/
theorem bounded_iff (dateParse : String → Option Int) (verifySignedValue : VerifySignedValue)
    (claims : ExecutionLeaseClaims) (signature publicKey : String)
    (authorization : ExecutionAuthorizationClaims) :
    Bounded dateParse verifySignedValue claims signature publicKey authorization ↔
      ∀ issued expires,
        Schedulable verifySignedValue claims signature publicKey authorization issued expires →
        DatedFirst dateParse claims issued expires := by
  constructor
  · intro hbounded issued expires h
    exact datedFirst_of_bounded h hbounded
  · intro hdated
    by_cases hsome : ∃ issued expires,
        Schedulable verifySignedValue claims signature publicKey authorization issued expires
    · obtain ⟨issued, expires, h⟩ := hsome
      exact bounded_of_datedFirst h (hdated issued expires h)
    · exact ⟨fun _ _ _ _ ht _ _ _ h _ => absurd (schedulable_of_accepted ht h) hsome,
        fun _ ht h => absurd (schedulable_of_accepted ht h) hsome,
        fun _ ht h => absurd (schedulable_of_accepted ht h) hsome⟩

/-- The lease issued half a minute before its authorization ends can be scheduled. -/
theorem lateLease_schedulable :
    Schedulable (fun _ _ _ => .ok ()) lateLease.claims "signature" "key" authorizationOne
      1784636970000000000 1784637060000000000 where
  signed := rfl
  scope := ⟨rfl, rfl, rfl, rfl, rfl, rfl, by decide, by decide, by decide⟩
  issuedAt := by decide
  expiresAt := by decide
  lifetime := by decide
  begun := by decide

/-- The agent accepts it a quarter of a century before it was issued, and still at its end. -/
theorem bounded_fails_on_lateLease :
    AcceptedAt (fun _ _ _ => .ok ()) lateLease.claims "signature" "key" authorizationOne
        "2000-01-01T00:00:00.000Z" ∧
      AcceptedAt (fun _ _ _ => .ok ()) lateLease.claims "signature" "key" authorizationOne
        "2026-07-21T12:30:59.999Z" ∧
      ¬ Bounded IsoTimestamp.parse (fun _ _ _ => .ok ()) lateLease.claims "signature" "key"
        authorizationOne := by
  have hearly : parseRfc3339 "2000-01-01T00:00:00.000Z".toList = some 946684800000000000 := by
    decide
  have hlate : parseRfc3339 "2026-07-21T12:30:59.999Z".toList = some 1784637059999000000 := by
    decide
  refine ⟨(lateLease_schedulable.acceptedAt_iff hearly).mpr (by decide),
    (lateLease_schedulable.acceptedAt_iff hlate).mpr (by decide), fun hbounded => ?_⟩
  have hissued := (datedFirst_of_bounded lateLease_schedulable hbounded).issued_le
  exact absurd hissued (by decide)

end ForgetOps.Agent
