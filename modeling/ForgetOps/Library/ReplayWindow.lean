import Mathlib.Tactic

/-
  Stores that remember an identifier until it expires.

  A guard says what its store remembers and carries the three facts that make it one: what it lets
  through it remembers, what has not expired it keeps, and what it remembers it does not let
  through. With clocks that do not run back, an identifier then passes again only after it has
  expired: `accepted_apart`.
-/

structure ReplayGuard (κ σ ι : Type) where
  /-- The outcome of presenting an identifier, with its expiry, at a time. -/
  consume : σ → ι → κ → Int → Int → Except Unit Bool × σ
  Remembers : σ → κ → Int → Prop
  learns : ∀ s io k expires now, (consume s io k expires now).1 = .ok true →
    Remembers (consume s io k expires now).2 k expires
  keeps : ∀ s io k k' expires expires' now, Remembers s k expires → now ≤ expires →
    Remembers (consume s io k' expires' now).2 k expires
  refuses : ∀ s io k expires expires' now, Remembers s k expires → now ≤ expires →
    (consume s io k expires' now).1 ≠ .ok true

namespace ReplayGuard

variable {κ σ ι : Type}

/-- One presentation: its identifier, the clock, what the outside does, and whether the store is
    asked at all. -/
structure Presentation (κ ι : Type) where
  id : κ
  now : Int
  io : ι
  asks : Bool

variable (guard : ReplayGuard κ σ ι) (retention : Int)

/-- Whether a presentation passes, and the store after it. -/
def step (s : σ) (p : Presentation κ ι) : Bool × σ :=
  if p.asks then
    ((guard.consume s p.io p.id (p.now + retention) p.now).1 matches .ok true,
      (guard.consume s p.io p.id (p.now + retention) p.now).2)
  else (false, s)

/-- The presentations in order, each with whether it passes. -/
def run : σ → List (Presentation κ ι) → List (Presentation κ ι × Bool)
  | _, [] => []
  | s, p :: ps => (p, (guard.step retention s p).1) :: run (guard.step retention s p).2 ps

variable {guard retention}

theorem step_fst {s : σ} {p : Presentation κ ι} :
    (guard.step retention s p).1 = true ↔
      p.asks = true ∧ (guard.consume s p.io p.id (p.now + retention) p.now).1 = .ok true := by
  unfold step
  split_ifs with hasks
  · rw [hasks]
    cases (guard.consume s p.io p.id (p.now + retention) p.now).1 with
    | error e => simp
    | ok passed => cases passed <;> simp
  · simp [hasks]

theorem step_snd {s : σ} {p : Presentation κ ι} :
    (guard.step retention s p).2 =
      if p.asks then (guard.consume s p.io p.id (p.now + retention) p.now).2 else s := by
  unfold step
  split_ifs <;> rfl

theorem remembers_step {s : σ} {p : Presentation κ ι} {k : κ} {expires : Int}
    (h : guard.Remembers s k expires) (hnow : p.now ≤ expires) :
    guard.Remembers (guard.step retention s p).2 k expires := by
  rw [step_snd]
  split_ifs
  · exact guard.keeps s p.io k p.id expires _ p.now h hnow
  · exact h

theorem mem_run {s : σ} {ps : List (Presentation κ ι)} {q : Presentation κ ι × Bool}
    (h : q ∈ guard.run retention s ps) : q.1 ∈ ps := by
  induction ps generalizing s with
  | nil => cases h
  | cons p ps ih =>
    rcases List.mem_cons.mp h with rfl | h
    · exact List.mem_cons_self
    · exact List.mem_cons_of_mem _ (ih h)

/-- What is remembered passes only after its expiry. -/
theorem expired_of_accepted {s : σ} {ps : List (Presentation κ ι)} {k : κ} {expires : Int}
    (hclock : ps.Pairwise fun a b => a.now ≤ b.now) (h : guard.Remembers s k expires)
    {q : Presentation κ ι × Bool} (hq : q ∈ guard.run retention s ps) (hid : q.1.id = k)
    (hpass : q.2 = true) : expires < q.1.now := by
  induction ps generalizing s with
  | nil => cases hq
  | cons p ps ih =>
    rw [List.pairwise_cons] at hclock
    by_cases hnow : p.now ≤ expires
    · rcases List.mem_cons.mp hq with rfl | hq
      · obtain ⟨-, hconsume⟩ := step_fst.mp hpass
        subst hid
        exact absurd hconsume (guard.refuses s p.io p.id expires _ p.now h hnow)
      · exact ih hclock.2 (remembers_step h hnow) hq
    · rw [not_le] at hnow
      rcases List.mem_cons.mp hq with rfl | hq
      · exact hnow
      · exact lt_of_lt_of_le hnow (hclock.1 q.1 (mem_run hq))

variable (guard retention) in
/-- Two presentations of one identifier that pass are further apart than the retention. -/
theorem accepted_apart (s : σ) {ps : List (Presentation κ ι)}
    (hclock : ps.Pairwise fun a b => a.now ≤ b.now) :
    (guard.run retention s ps).Pairwise fun a b =>
      a.2 = true → b.2 = true → a.1.id = b.1.id → a.1.now + retention < b.1.now := by
  induction ps generalizing s with
  | nil => exact List.Pairwise.nil
  | cons p ps ih =>
    rw [List.pairwise_cons] at hclock
    refine List.pairwise_cons.mpr ⟨?_, ih _ hclock.2⟩
    intro q hq hpass hpass' hid
    obtain ⟨hasks, hconsume⟩ := step_fst.mp hpass
    have hlearned := guard.learns s p.io p.id _ p.now hconsume
    have hstate : (guard.step retention s p).2 =
        (guard.consume s p.io p.id (p.now + retention) p.now).2 := by
      rw [step_snd, if_pos hasks]
    rw [← hstate] at hlearned
    exact expired_of_accepted hclock.2 hlearned hq hid.symm hpass'

end ReplayGuard
