import ForgetOps.Library.Awaiting
import ForgetOps.Library.Table

/-
  Magic links (`apps/api/src/modules/identity-verification/magic-link-service.ts`).

  A call of `consume` looks at the challenge, waits for the adapter, and then marks the challenge it
  looked at. Challenges are objects: the map leads to their number, and a call that waits keeps it.
  Instants are in milliseconds. Links are used once, and in time, exactly when every positive answer
  finds its challenge as the call left it: `singleUse_iff`.
-/

namespace ForgetOps.Api.MagicLinks

open Awaiting

structure MagicLinkChallenge where
  id : String
  projectId : String
  expiresAt : Int
  consumedAt : Option Int
  tokenHash : String
  deriving DecidableEq, Repr

inductive Code where
  | invalid
  | expired
  | replayed
  deriving DecidableEq, Repr

/-- `MagicLinkError`, or what the adapter throws. -/
inductive Failure where
  | link (code : Code)
  | adapter
  deriving DecidableEq, Repr

structure MagicLinkService where
  challenges : Table String Nat
  objects : List MagicLinkChallenge

def MagicLinkService.new : MagicLinkService := ⟨Table.empty, []⟩

structure CreateInput where
  projectId : String
  ttlMs : Option Int
  /-- `new URL` takes the portal's base. -/
  portalBaseUrlParses : Bool
  challengeId : String
  token : String
  now : Int
  deriving DecidableEq, Repr

structure ConsumeInput where
  challengeId : String
  token : String
  now : Int
  deriving DecidableEq, Repr

/-- What `verifyMagicLink` answers, if it does not throw, and the time after it. -/
structure Answer where
  verified : Option Bool
  now : Int
  deriving DecidableEq, Repr

variable (digest : String → String)

def MagicLinkService.create (s : MagicLinkService) (input : CreateInput) :
    Except Failure MagicLinkService :=
  let ttlMs := input.ttlMs.getD (15 * 60 * 1000)
  if ttlMs ≤ 0 ∨ ttlMs > 30 * 60 * 1000 then .error (.link .invalid)
  else if ¬ input.portalBaseUrlParses then .error .adapter
  else
    .ok
      { challenges := s.challenges.set input.challengeId (some s.objects.length)
        objects := s.objects ++ [⟨input.challengeId, input.projectId, input.now + ttlMs, none,
          digest input.token⟩] }

/-- `consume` up to its `await`; the challenge that waits for the adapter. -/
def MagicLinkService.check (s : MagicLinkService) (input : ConsumeInput) : Except Failure Nat :=
  match s.challenges.find input.challengeId with
  | none => .error (.link .invalid)
  | some ref =>
    match s.objects[ref]? with
    | none => .error (.link .invalid)
    | some challenge =>
      if challenge.tokenHash ≠ digest input.token then .error (.link .invalid)
      else if challenge.consumedAt.isSome then .error (.link .replayed)
      else if challenge.expiresAt ≤ input.now then .error (.link .expired)
      else .ok ref

/-- `consume` from there on. -/
def MagicLinkService.finish (s : MagicLinkService) (ref : Nat) (a : Answer) :
    Except Failure String × MagicLinkService :=
  match a.verified, s.objects[ref]? with
  | none, _ => (.error .adapter, s)
  | some false, _ => (.error (.link .invalid), s)
  | some true, none => (.error (.link .invalid), s)
  | some true, some challenge =>
    (.ok challenge.projectId,
      { s with objects := s.objects.set ref { challenge with consumedAt := some a.now } })

def consume :
    Method MagicLinkService ConsumeInput Nat Answer (Except Failure String) CreateInput where
  start s input :=
    match s.check digest input with
    | .error e => .ended (.error e) s
    | .ok ref => .waits ref
  resume := MagicLinkService.finish
  other s input := (s.create digest input).toOption.getD s

abbrev Log := List (Entry ConsumeInput Nat Answer (Except Failure String))

abbrev Run := State MagicLinkService ConsumeInput Nat Answer (Except Failure String)

/-- The service after these events. -/
def after (events : List (Event ConsumeInput Answer CreateInput)) : Run :=
  run (consume digest) (.initial .new) events

/-! ## What is promised -/

/-- The challenges whose project was returned, and when. -/
def returns (log : Log) : List (Nat × Int) :=
  log.filterMap fun entry =>
    match entry.result, entry.waited with
    | .ok _, some (ref, a) => some (ref, a.now)
    | _, _ => none

/-- The expiry of a challenge. -/
def MagicLinkService.expiry (s : MagicLinkService) (ref : Nat) : Option Int :=
  s.objects[ref]?.map MagicLinkChallenge.expiresAt

/-- No challenge returns its project twice, or at its expiry or later. -/
structure SingleUse (r : Run) : Prop where
  once : ((returns r.log).map Prod.fst).Nodup
  inTime : ∀ ref now, (ref, now) ∈ returns r.log → ∀ x, r.store.expiry ref = some x → now < x

/-- A positive answer to a call that waits comes while its challenge is neither consumed nor
    expired. -/
def Undisturbed (r : Run) : Event ConsumeInput Answer CreateInput → Prop
  | .answer n a => ∀ input ref challenge, r.waiting[n]? = some (some (input, ref)) →
      a.verified = some true → r.store.objects[ref]? = some challenge →
      challenge.consumedAt = none ∧ a.now < challenge.expiresAt
  | _ => True

/-! ## The parts of a call -/

section Parts

variable {digest}

theorem create_ok {s s' : MagicLinkService} {input : CreateInput}
    (h : s.create digest input = .ok s') : ∃ challenge, s'.objects = s.objects ++ [challenge] ∧
      challenge.consumedAt = none := by
  unfold MagicLinkService.create at h
  dsimp only at h
  split_ifs at h
  cases h
  exact ⟨_, rfl, rfl⟩

end Parts

/-- A call is over and has returned no project, or it waits for the adapter. -/
theorem start_cases (s : MagicLinkService) (input : ConsumeInput) :
    (∃ e, (consume digest).start s input = .ended (.error e) s) ∨
    ∃ ref, (consume digest).start s input = .waits ref := by
  unfold consume
  dsimp only
  split
  · next e _ => exact .inl ⟨e, rfl⟩
  · next ref _ => exact .inr ⟨ref, rfl⟩

theorem other_cases (s : MagicLinkService) (input : CreateInput) :
    (consume digest).other s input = s ∨ ∃ challenge,
      ((consume digest).other s input).objects = s.objects ++ [challenge] ∧
        challenge.consumedAt = none := by
  have hother : (consume digest).other s input = (s.create digest input).toOption.getD s := rfl
  rw [hother]
  cases hcreate : s.create digest input with
  | error e => exact .inl rfl
  | ok s' => exact .inr (create_ok hcreate)

/-- `consume` after its `await` throws and changes nothing, or it marks the challenge. -/
theorem finish_cases (s : MagicLinkService) (ref : Nat) (a : Answer) :
    (∃ e, s.finish ref a = (.error e, s) ∧
      ∀ challenge, a.verified = some true → s.objects[ref]? ≠ some challenge) ∨
    ∃ challenge, a.verified = some true ∧ s.objects[ref]? = some challenge ∧
      s.finish ref a = (.ok challenge.projectId,
        { s with objects := s.objects.set ref { challenge with consumedAt := some a.now } }) := by
  unfold MagicLinkService.finish
  split
  · next hverified =>
    refine .inl ⟨_, rfl, fun _ htrue => ?_⟩
    rw [hverified] at htrue
    cases htrue
  · next hverified =>
    refine .inl ⟨_, rfl, fun _ htrue => ?_⟩
    rw [hverified] at htrue
    cases htrue
  · next hobject =>
    refine .inl ⟨_, rfl, fun _ _ hsome => ?_⟩
    rw [hobject] at hsome
    cases hsome
  · next challenge hverified hobject => exact .inr ⟨challenge, hverified, hobject, rfl⟩

/-- What is done to a challenge leaves its expiry. -/
theorem expiry_marked {s : MagicLinkService} {ref : Nat} {c : MagicLinkChallenge}
    (hobject : s.objects[ref]? = some c) (now : Int) (ref' : Nat) :
    { s with objects := s.objects.set ref { c with consumedAt := some now } }.expiry ref' =
      s.expiry ref' := by
  unfold MagicLinkService.expiry
  dsimp only
  rw [List.getElem?_set]
  by_cases href : ref = ref'
  · subst href
    rw [if_pos rfl, if_pos (List.getElem?_eq_some_iff.mp hobject).1, hobject]
    rfl
  · rw [if_neg href]

/-! ## Challenges are marked -/

/-- The challenge whose project a call has returned. -/
def returned (entry : Entry ConsumeInput Nat Answer (Except Failure String)) : Option Nat :=
  match entry.result, entry.waited with
  | .ok _, some (ref, _) => some ref
  | _, _ => none

theorem map_fst_returns (log : Log) : (returns log).map Prod.fst = log.filterMap returned := by
  unfold returns
  rw [List.map_filterMap]
  apply List.filterMap_congr
  intro entry _
  unfold returned
  split <;> rfl

def Consumed (s : MagicLinkService) (ref : Nat) : Prop :=
  Has (fun challenge => challenge.consumedAt ≠ none) s.objects ref

theorem marks : Marks (consume digest) returned Consumed where
  ended := by
    intro s input result s' hstart ref
    rcases start_cases digest s input with ⟨e, hended⟩ | ⟨ref', hwaits⟩
    · rw [hstart] at hended
      cases hended
      exact (or_iff_left nofun).symm
    · rw [hstart] at hwaits
      cases hwaits
  resumed := by
    intro s input ref a ref'
    rcases finish_cases s ref a with ⟨e, hfinish, -⟩ | ⟨c, -, hobject, hfinish⟩
    · have hresume : (consume digest).resume s ref a = (.error e, s) := hfinish
      rw [hresume]
      exact (or_iff_left nofun).symm
    · have hresume : (consume digest).resume s ref a = _ := hfinish
      rw [hresume]
      refine (has_set ?_ (List.getElem?_eq_some_iff.mp hobject).1 ref').trans ?_
      · exact Option.some_ne_none a.now
      · exact or_congr_right ⟨congrArg some, Option.some.inj⟩
  other := by
    intro s input ref
    unfold Consumed
    rcases other_cases digest s input with hother | ⟨c, hobjects, hnew⟩
    · rw [hother]
    · rw [hobjects]
      refine has_append ?_ ref
      exact not_not.mpr hnew

theorem new_unconsumed (ref : Nat) : ¬ Consumed .new ref := by
  rintro ⟨challenge, hobject, -⟩
  exact absurd hobject (by simp [MagicLinkService.new])

/-- A challenge whose project was returned is there. -/
theorem lt_of_mem_returns {events : List (Event ConsumeInput Answer CreateInput)} {ref : Nat}
    {now : Int} (h : (ref, now) ∈ returns (after digest events).log) :
    ref < (after digest events).store.objects.length := by
  have hmem : ref ∈ (after digest events).log.filterMap returned := by
    rw [← map_fst_returns]
    exact List.mem_map_of_mem h
  exact Has.lt (((marks digest).run new_unconsumed events ref).mpr hmem)

/-! ## In time -/

/-- A step leaves the expiry of every challenge. -/
theorem expiry_step (r : Run) (e : Event ConsumeInput Answer CreateInput) {ref : Nat}
    (href : ref < r.store.objects.length) :
    (step (consume digest) r e).store.expiry ref = r.store.expiry ref := by
  cases e with
  | call input =>
    rcases start_cases digest r.store input with ⟨e, hended⟩ | ⟨ref', hwaits⟩
    · rw [step_ended hended]
    · rw [step_waits hwaits]
  | answer n a =>
    by_cases hasked : ∃ input kept, r.waiting[n]? = some (some (input, kept))
    · obtain ⟨input, ref', hasked⟩ := hasked
      rw [step_answer hasked]
      rcases finish_cases r.store ref' a with ⟨e, hfinish, -⟩ | ⟨c, -, hobject, hfinish⟩
      · have hresume : (consume digest).resume r.store ref' a = (.error e, r.store) := hfinish
        rw [hresume]
      · have hresume : (consume digest).resume r.store ref' a = _ := hfinish
        rw [hresume]
        exact expiry_marked hobject a.now ref
    · rw [step_unasked fun input kept heq => hasked ⟨input, kept, heq⟩]
  | other input =>
    show ((consume digest).other r.store input).expiry ref = r.store.expiry ref
    unfold MagicLinkService.expiry
    rcases other_cases digest r.store input with hother | ⟨c, hobjects, -⟩
    · rw [hother]
    · rw [hobjects, List.getElem?_append_left href]

/-- A step returns no project, or it is a positive answer and returns that of its call. -/
theorem added_cases (r : Run) (e : Event ConsumeInput Answer CreateInput) :
    (returns (added (consume digest) r e).toList = [] ∧
      (added (consume digest) r e).bind returned = none ∧ Undisturbed r e) ∨
    ∃ n a input ref challenge, e = .answer n a ∧ r.waiting[n]? = some (some (input, ref)) ∧
      a.verified = some true ∧ r.store.objects[ref]? = some challenge ∧
      returns (added (consume digest) r e).toList = [(ref, a.now)] ∧
      (added (consume digest) r e).bind returned = some ref := by
  cases e with
  | call input =>
    refine .inl ?_
    rcases start_cases digest r.store input with ⟨e, hended⟩ | ⟨ref, hwaits⟩
    · rw [added_ended hended]
      exact ⟨rfl, rfl, trivial⟩
    · rw [added_waits hwaits]
      exact ⟨rfl, rfl, trivial⟩
  | other input => exact .inl ⟨rfl, rfl, trivial⟩
  | answer n a =>
    by_cases hasked : ∃ input kept, r.waiting[n]? = some (some (input, kept))
    · obtain ⟨input, ref, hasked⟩ := hasked
      rw [added_answer hasked]
      rcases finish_cases r.store ref a with
        ⟨e, hfinish, hnot⟩ | ⟨c, hverified, hobject, hfinish⟩
      · have hresume : (consume digest).resume r.store ref a = (.error e, r.store) := hfinish
        rw [hresume]
        refine .inl ⟨rfl, rfl, ?_⟩
        intro input' ref' challenge hasked' hverified hobject
        rw [hasked] at hasked'
        cases hasked'
        exact absurd hobject (hnot challenge hverified)
      · have hresume : (consume digest).resume r.store ref a = _ := hfinish
        rw [hresume]
        exact .inr ⟨n, a, input, ref, c, rfl, hasked, hverified, hobject, rfl, rfl⟩
    · have hnone : ∀ input kept, r.waiting[n]? ≠ some (some (input, kept)) :=
        fun input kept heq => hasked ⟨input, kept, heq⟩
      rw [added_unasked hnone]
      refine .inl ⟨rfl, rfl, ?_⟩
      intro input ref challenge hwait
      exact absurd hwait (hnone input ref)

/-- No project was returned at the expiry of its challenge or later. -/
def InTime (s : MagicLinkService) (log : Log) : Prop :=
  ∀ ref now, (ref, now) ∈ returns log → ∀ x, s.expiry ref = some x → now < x

theorem inTime_step (events : List (Event ConsumeInput Answer CreateInput))
    (e : Event ConsumeInput Answer CreateInput) :
    InTime (step (consume digest) (after digest events) e).store
        (step (consume digest) (after digest events) e).log ↔
      InTime (after digest events).store (after digest events).log ∧
        InTime (after digest events).store
          (added (consume digest) (after digest events) e).toList := by
  have hlog : ∀ ref now, (ref, now) ∈ returns (after digest events).log →
      ref < (after digest events).store.objects.length := fun ref now => lt_of_mem_returns digest
  generalize after digest events = r at hlog
  have hadded : ∀ ref now, (ref, now) ∈ returns (added (consume digest) r e).toList →
      ref < r.store.objects.length := by
    intro ref now hmem
    rcases added_cases digest r e with
      ⟨hnothing, -, -⟩ | ⟨n, a, input, ref', c, -, -, -, hobject, hone, -⟩
    · rw [hnothing] at hmem
      cases hmem
    · rw [hone] at hmem
      cases List.mem_singleton.mp hmem
      exact (List.getElem?_eq_some_iff.mp hobject).1
  have hreturns : returns (step (consume digest) r e).log =
      returns r.log ++ returns (added (consume digest) r e).toList := by
    rw [log_step]
    exact List.filterMap_append
  unfold InTime
  rw [hreturns]
  constructor
  · intro h
    refine ⟨fun ref now hmem x hx => ?_, fun ref now hmem x hx => ?_⟩
    · refine h ref now (List.mem_append_left _ hmem) x ?_
      rw [expiry_step digest r e (hlog ref now hmem), hx]
    · refine h ref now (List.mem_append_right _ hmem) x ?_
      rw [expiry_step digest r e (hadded ref now hmem), hx]
  · rintro ⟨hbefore, hlast⟩ ref now hmem x hx
    rcases List.mem_append.mp hmem with hmem | hmem
    · rw [expiry_step digest r e (hlog ref now hmem)] at hx
      exact hbefore ref now hmem x hx
    · rw [expiry_step digest r e (hadded ref now hmem)] at hx
      exact hlast ref now hmem x hx

theorem inTime_iff (events : List (Event ConsumeInput Answer CreateInput)) :
    InTime (after digest events).store (after digest events).log ↔
      ∀ before e, before ++ [e] <+: events → InTime (after digest before).store
        (added (consume digest) (after digest before) e).toList :=
  run_iff (m := consume digest) (P := fun r => InTime r.store r.log)
    (Q := fun r e => InTime r.store (added (consume digest) r e).toList) (s := .initial .new) nofun
    (inTime_step digest) events

/-! ## The result -/

/-- A step is undisturbed exactly when it returns what was not returned, and in time. -/
theorem undisturbed_iff (r : Run) (e : Event ConsumeInput Answer CreateInput) :
    Undisturbed r e ↔ Fresh (consume digest) returned Consumed r e ∧
      InTime r.store (added (consume digest) r e).toList := by
  unfold Fresh InTime
  rcases added_cases digest r e with
    ⟨hreturns, hreturned, hundisturbed⟩ |
    ⟨n, a, input, ref, c, rfl, hwait, hverified, hobject, hreturns, hreturned⟩
  · rw [hreturns, hreturned]
    exact iff_of_true hundisturbed ⟨nofun, nofun⟩
  · rw [hreturns, hreturned]
    have hexpiry : r.store.expiry ref = some c.expiresAt := by
      rw [MagicLinkService.expiry, hobject]
      rfl
    constructor
    · intro hundisturbed
      obtain ⟨hnone, hnow⟩ := hundisturbed input ref c hwait hverified hobject
      refine ⟨?_, ?_⟩
      · intro ref' href hconsumed
        obtain rfl : ref = ref' := Option.some.inj href
        exact (has_iff hobject).mp hconsumed hnone
      · intro ref' now hmem x hx
        cases List.mem_singleton.mp hmem
        rw [hexpiry] at hx
        cases hx
        exact hnow
    · rintro ⟨hfresh, hin⟩ input' ref' c' hwait' - hobject'
      cases hwait.symm.trans hwait'
      cases hobject.symm.trans hobject'
      refine ⟨?_, hin ref a.now List.mem_cons_self c.expiresAt hexpiry⟩
      by_contra hsome
      exact hfresh ref rfl ((has_iff hobject).mpr hsome)

/-- Magic links are used once, and in time, exactly when every positive answer comes while its
    challenge is neither consumed nor expired. -/
theorem singleUse_iff (events : List (Event ConsumeInput Answer CreateInput)) :
    SingleUse (after digest events) ↔
      ∀ before e, before ++ [e] <+: events → Undisturbed (after digest before) e := by
  have honce := (marks digest).nodup_iff new_unconsumed events
  constructor
  · intro h before e hbefore
    refine (undisturbed_iff digest (after digest before) e).mpr ⟨?_, ?_⟩
    · refine honce.mp ?_ before e hbefore
      exact (map_fst_returns _).symm ▸ h.once
    · exact (inTime_iff digest events).mp h.inTime before e hbefore
  · intro h
    refine ⟨?_, ?_⟩
    · rw [map_fst_returns]
      exact honce.mpr fun before e hbefore =>
        ((undisturbed_iff digest (after digest before) e).mp (h before e hbefore)).1
    · exact (inTime_iff digest events).mpr fun before e hbefore =>
        ((undisturbed_iff digest (after digest before) e).mp (h before e hbefore)).2

/-- A digest that gives the SHA-256 of one token. -/
def tokenDigest (token : String) : String :=
  if token = "Zm9yZ2V0b3BzLW1hZ2ljLWxpbmstdG9rZW4tMDAwMQ" then
    "6aa7919d548ef44a983415814d3b6b69f65b0af1c5b60e5c38b0bfac6d5853cc"
  else token

/-- The call for its challenge at a time. -/
def tokenCall (now : Int) : ConsumeInput :=
  ⟨"0f8d3c6a5b4e29178c7d6e5f4a3b2c1d", "Zm9yZ2V0b3BzLW1hZ2ljLWxpbmstdG9rZW4tMDAwMQ", now⟩

/-- Two calls that wait for the adapter at the same time both return the project. -/
def twoCalls : List (Event ConsumeInput Answer CreateInput) :=
  [.other ⟨"project_1", none, true, "0f8d3c6a5b4e29178c7d6e5f4a3b2c1d",
      "Zm9yZ2V0b3BzLW1hZ2ljLWxpbmstdG9rZW4tMDAwMQ", 0⟩,
    .call (tokenCall 1000), .call (tokenCall 1001),
    .answer 0 ⟨some true, 1500⟩, .answer 1 ⟨some true, 1501⟩]

theorem returns_twice : ¬ SingleUse (after tokenDigest twoCalls) := by
  intro h
  have honce := h.once
  revert honce
  decide +kernel

end ForgetOps.Api.MagicLinks
