import Mathlib.Data.List.Forall2
import Mathlib.Tactic

/-
  `run_connection_loop` and `ReconnectBackoff` (`agent/crates/agent-core/src/connection.rs`).

  A turn of the loop is what the transport answers in it, and what is drawn at random. Each session
  that fails is followed by one polling, whose delay is bounded by the sessions that failed since
  the last that did not, and the loop returns at the first turn that ends it (`connection_loop`).
-/

namespace ForgetOps.Agent.Connection

/-- The nanoseconds of `Duration::MAX`. -/
def maxNanos : Nat := (2 ^ 64 - 1) * 10 ^ 9 + 999999999

/-- A `Duration`, in nanoseconds. -/
abbrev Duration := { nanos : Nat // nanos ≤ maxNanos }

/-- `duration_millis`. -/
def durationMillis (nanos : Nat) : Nat := min (nanos / 10 ^ 6) (2 ^ 64 - 1)

/-- `saturating_mul`. -/
def saturatingMul (nanos k : Nat) : Nat := min (nanos * k) maxNanos

/-! ## The delays -/

/-- The assertions of `new` are fields. -/
structure ReconnectBackoff where
  base : Duration
  maximum : Duration
  attempt : Nat
  base_pos : 0 < base.val
  base_le : base.val ≤ maximum.val

namespace ReconnectBackoff

/-- A panic is `none`. -/
def new (base maximum : Duration) : Option ReconnectBackoff :=
  if h : 0 < base.val ∧ base.val ≤ maximum.val then some ⟨base, maximum, 0, h.1, h.2⟩ else none

variable (b : ReconnectBackoff)

def reset : ReconnectBackoff := { b with attempt := 0 }

def currentCap : Nat := min (saturatingMul b.base.val (2 ^ min b.attempt 31)) b.maximum.val

/-- `saturating_add` of `u32`, and no shift by more than 31. -/
def advance : ReconnectBackoff :=
  { b with attempt := min (min (b.attempt + 1) (2 ^ 32 - 1)) 31 }

/-- `random_range(0..=n)` is `draw n`. -/
def nextDelay (draw : (n : Nat) → Fin (n + 1)) : Nat × ReconnectBackoff :=
  ((draw (durationMillis b.currentCap)).val * 10 ^ 6, b.advance)

end ReconnectBackoff

/-! ## The loop -/

inductive ConnectionDirective where
  | reconnect
  | shutdown
  deriving DecidableEq, Repr

/-- One turn: the session returns a directive, or it fails and what polling answers follows. -/
inductive Turn (ε : Type) where
  | session (directive : ConnectionDirective)
  | failed (draw : (n : Nat) → Fin (n + 1)) (polled : Except ε ConnectionDirective)

inductive Loop (ε : Type) where
  | running (backoff : ReconnectBackoff)
  | returned (result : Except ε Unit)

section Loop

variable {ε : Type}

/-- What polling leaves of the loop. -/
def afterPolling (backoff : ReconnectBackoff) : Except ε ConnectionDirective → Loop ε
  | .ok .shutdown => .returned (.ok ())
  | .ok .reconnect => .running backoff
  | .error e => .returned (.error e)

/-- The delays that polling is asked to keep, and the loop after these turns. -/
def runConnectionLoop (backoff : ReconnectBackoff) : List (Turn ε) → List Nat × Loop ε
  | [] => ([], .running backoff)
  | .session .shutdown :: _ => ([], .returned (.ok ()))
  | .session .reconnect :: turns => runConnectionLoop backoff.reset turns
  | .failed draw polled :: turns =>
    match afterPolling (backoff.nextDelay draw).2 polled with
    | .running backoff' =>
      ((backoff.nextDelay draw).1 :: (runConnectionLoop backoff' turns).1,
        (runConnectionLoop backoff' turns).2)
    | .returned result => ([(backoff.nextDelay draw).1], .returned result)

/-! ## What is promised -/

/-- What the loop returns after this turn, if it does. -/
def Turn.ends : Turn ε → Option (Except ε Unit)
  | .session .shutdown => some (.ok ())
  | .session .reconnect => none
  | .failed _ (.ok .shutdown) => some (.ok ())
  | .failed _ (.ok .reconnect) => none
  | .failed _ (.error e) => some (.error e)

/-- The turns up to the first that ends the loop. -/
def taken : List (Turn ε) → List (Turn ε)
  | [] => []
  | turn :: turns => if turn.ends.isSome then [turn] else turn :: taken turns

/-- For each session that fails, how many did before it since the last that did not. -/
def failuresBefore (failures : Nat) : List (Turn ε) → List Nat
  | [] => []
  | .session _ :: turns => failuresBefore 0 turns
  | .failed _ _ :: turns => failures :: failuresBefore (failures + 1) turns

/-- The delay after so many failures. -/
def Bounded (base maximum : Duration) (delay failures : Nat) : Prop :=
  delay ≤ min (base.val * 2 ^ min failures 31) maximum.val

/-! ## One turn -/

/-- The backoff after so many failures. -/
structure After (base maximum : Duration) (failures : Nat) (b : ReconnectBackoff) : Prop where
  base_eq : b.base = base
  maximum_eq : b.maximum = maximum
  attempt_eq : b.attempt = min failures 31

variable {base maximum : Duration} {failures : Nat} {b : ReconnectBackoff}

theorem After.new (h : ReconnectBackoff.new base maximum = some b) : After base maximum 0 b := by
  unfold ReconnectBackoff.new at h
  split at h
  · cases h
    exact ⟨rfl, rfl, rfl⟩
  · cases h

theorem After.reset (h : After base maximum failures b) : After base maximum 0 b.reset :=
  ⟨h.base_eq, h.maximum_eq, rfl⟩

theorem After.advance (h : After base maximum failures b) :
    After base maximum (failures + 1) b.advance where
  base_eq := h.base_eq
  maximum_eq := h.maximum_eq
  attempt_eq := by
    have hattempt := h.attempt_eq
    show min (min (b.attempt + 1) (2 ^ 32 - 1)) 31 = _
    omega

theorem After.nextDelay (h : After base maximum failures b) (draw : (n : Nat) → Fin (n + 1)) :
    Bounded base maximum (b.nextDelay draw).1 failures := by
  have hdraw : (draw (durationMillis b.currentCap)).val ≤ b.currentCap / 10 ^ 6 :=
    (Nat.lt_succ_iff.mp (draw _).isLt).trans (min_le_left _ _)
  have hdelay : (b.nextDelay draw).1 ≤ b.currentCap :=
    (Nat.mul_le_mul_right _ hdraw).trans (Nat.div_mul_le_self _ _)
  have hexponent : min b.attempt 31 = min failures 31 := by
    rw [h.attempt_eq, min_assoc, min_self]
  refine hdelay.trans ?_
  unfold ReconnectBackoff.currentCap saturatingMul
  rw [h.base_eq, h.maximum_eq, hexponent]
  exact min_le_min_right _ (min_le_left _ _)

theorem afterPolling_of_ends (draw : (n : Nat) → Fin (n + 1))
    {polled : Except ε ConnectionDirective} :
    afterPolling b polled = (Turn.failed draw polled).ends.elim (.running b) .returned := by
  cases polled with
  | error e => rfl
  | ok directive =>
    cases directive with
    | reconnect | shutdown => rfl

/-! ## Runs -/

/-- The bound holds of every delay of the turns that are taken. -/
theorem After.delays (turns : List (Turn ε)) (h : After base maximum failures b) :
    List.Forall₂ (Bounded base maximum) (runConnectionLoop b turns).1
      (failuresBefore failures (taken turns)) := by
  induction turns generalizing failures b with
  | nil => exact .nil
  | cons turn turns ih =>
    cases turn with
    | session directive =>
      cases directive with
      | shutdown => exact .nil
      | reconnect => exact ih h.reset
    | failed draw polled =>
      unfold runConnectionLoop taken
      rw [afterPolling_of_ends draw]
      cases hends : (Turn.failed draw polled).ends with
      | none => exact .cons (h.nextDelay draw) (ih h.advance)
      | some result => exact .cons (h.nextDelay draw) .nil

theorem runConnectionLoop_returned (b : ReconnectBackoff) (turns : List (Turn ε))
    (result : Except ε Unit) : (runConnectionLoop b turns).2 = .returned result ↔
      turns.findSome? Turn.ends = some result := by
  induction turns generalizing b with
  | nil =>
    constructor
    · intro h
      cases h
    · intro h
      cases h
  | cons turn turns ih =>
    rw [List.findSome?_cons]
    cases turn with
    | session directive =>
      cases directive with
      | shutdown =>
        show Loop.returned (Except.ok ()) = _ ↔ some (Except.ok ()) = _
        rw [Loop.returned.injEq, Option.some.injEq]
      | reconnect => exact ih b.reset
    | failed draw polled =>
      unfold runConnectionLoop
      rw [afterPolling_of_ends draw]
      cases hends : (Turn.failed draw polled).ends with
      | none => exact ih _
      | some ended =>
        show Loop.returned ended = _ ↔ some ended = _
        rw [Loop.returned.injEq, Option.some.injEq]

/-- **The connection loop.** Whatever the transport answers, turn by turn: each failed session is
    followed by one polling, whose delay doubles at most with each failure since the last session
    that returned, up to the maximum, and the loop returns what the first turn that ends it says. -/
theorem connection_loop (h : ReconnectBackoff.new base maximum = some b) (turns : List (Turn ε)) :
    List.Forall₂ (Bounded base maximum) (runConnectionLoop b turns).1
        (failuresBefore 0 (taken turns)) ∧
      ∀ result, (runConnectionLoop b turns).2 = .returned result ↔
        turns.findSome? Turn.ends = some result :=
  ⟨(After.new h).delays turns, runConnectionLoop_returned b turns⟩

end Loop

/-! ## A few turns -/

theorem oneSecond_le : 10 ^ 9 ≤ maxNanos := by decide

theorem oneMinute_le : 60 * 10 ^ 9 ≤ maxNanos := by decide

def oneSecond : Duration := ⟨10 ^ 9, oneSecond_le⟩

def oneMinute : Duration := ⟨60 * 10 ^ 9, oneMinute_le⟩

/-- Two sessions fail, one returns, one more fails, and the last says to stop. -/
def fewTurns : List (Turn String) := [
  .failed Fin.last (.ok .reconnect),
  .failed Fin.last (.ok .reconnect),
  .session .reconnect,
  .failed Fin.last (.ok .reconnect),
  .session .shutdown]

theorem connection_loop_fewTurns : ∃ b, ReconnectBackoff.new oneSecond oneMinute = some b ∧
    (runConnectionLoop b fewTurns).1 = [10 ^ 9, 2 * 10 ^ 9, 10 ^ 9] ∧
    List.Forall₂ (Bounded oneSecond oneMinute) [10 ^ 9, 2 * 10 ^ 9, 10 ^ 9] [0, 1, 0] ∧
    (runConnectionLoop b fewTurns).2 = .returned (.ok ()) := by
  have hnew : ReconnectBackoff.new oneSecond oneMinute =
    some ⟨oneSecond, oneMinute, 0, by decide, by decide⟩ := rfl
  obtain ⟨hdelays, hreturned⟩ := connection_loop hnew fewTurns
  exact ⟨_, hnew, by decide, hdelays, (hreturned _).mpr rfl⟩

end ForgetOps.Agent.Connection
