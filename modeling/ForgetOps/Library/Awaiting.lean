import Mathlib.Tactic

/-
  Calls of one method that wait once, in any order.

  A call runs up to its `await`, or to its end where it does not come to it; what it keeps is all
  that it has when it goes on with the answer. Between the two anything may happen to the store: other
  calls, and what else there is. Calls that have not come back are numbered in the order of their
  start. `Keeps.run` is the rule for what holds of the store, of the log and of every waiting call
  after any run; `Marks.nodup_iff` says when no object is marked twice.
-/

namespace Awaiting

variable {σ I K A R O : Type}

/-- How a call begins: it is over, or it waits. -/
inductive Started (σ K R : Type) where
  | ended (result : R) (store : σ)
  | waits (kept : K)

structure Method (σ I K A R O : Type) where
  start : σ → I → Started σ K R
  resume : σ → K → A → R × σ
  /-- What else may be done to the store. -/
  other : σ → O → σ

/-- A call that came back: its input, what it kept and the answer where it waited, and its result. -/
structure Entry (I K A R : Type) where
  input : I
  waited : Option (K × A)
  result : R

structure State (σ I K A R : Type) where
  store : σ
  waiting : List (Option (I × K))
  log : List (Entry I K A R)

inductive Event (I A O : Type) where
  | call (input : I)
  | answer (n : Nat) (a : A)
  | other (o : O)

/-- No call yet. -/
def State.initial (store : σ) : State σ I K A R := ⟨store, [], []⟩

variable (m : Method σ I K A R O)

def step (s : State σ I K A R) : Event I A O → State σ I K A R
  | .call input =>
    match m.start s.store input with
    | .ended result store => ⟨store, s.waiting ++ [none], s.log ++ [⟨input, none, result⟩]⟩
    | .waits kept => { s with waiting := s.waiting ++ [some (input, kept)] }
  | .answer n a =>
    match s.waiting[n]? with
    | some (some (input, kept)) =>
      ⟨(m.resume s.store kept a).2, s.waiting.set n none,
        s.log ++ [⟨input, some (kept, a), (m.resume s.store kept a).1⟩]⟩
    | _ => s
  | .other o => { s with store := m.other s.store o }

def run (s : State σ I K A R) (events : List (Event I A O)) : State σ I K A R :=
  events.foldl (step m) s

variable {m}

theorem run_append (s : State σ I K A R) (events : List (Event I A O)) (e : Event I A O) :
    run m s (events ++ [e]) = step m (run m s events) e := by
  unfold run
  rw [List.foldl_append]
  rfl

/-! ## One step -/

section Steps

variable {s : State σ I K A R}

theorem step_ended {input : I} {result : R} {store : σ}
    (h : m.start s.store input = .ended result store) :
    step m s (.call input) = ⟨store, s.waiting ++ [none], s.log ++ [⟨input, none, result⟩]⟩ := by
  unfold step
  dsimp only
  rw [h]

theorem step_waits {input : I} {kept : K} (h : m.start s.store input = .waits kept) :
    step m s (.call input) = { s with waiting := s.waiting ++ [some (input, kept)] } := by
  unfold step
  dsimp only
  rw [h]

theorem step_answer {n : Nat} {a : A} {input : I} {kept : K}
    (h : s.waiting[n]? = some (some (input, kept))) :
    step m s (.answer n a) = ⟨(m.resume s.store kept a).2, s.waiting.set n none,
      s.log ++ [⟨input, some (kept, a), (m.resume s.store kept a).1⟩]⟩ := by
  unfold step
  dsimp only
  rw [h]

/-- An answer to a call that does not wait changes nothing. -/
theorem step_unasked {n : Nat} {a : A}
    (h : ∀ input kept, s.waiting[n]? ≠ some (some (input, kept))) :
    step m s (.answer n a) = s := by
  unfold step
  dsimp only
  split
  · next input kept heq => exact absurd heq (h input kept)
  · rfl

end Steps

/-! ## Runs -/

/-- What every step keeps: `Good` of the store and the log, and `Waits` of the store and every
    waiting call. -/
structure Keeps (m : Method σ I K A R O) (Good : σ → List (Entry I K A R) → Prop)
    (Waits : σ → I → K → Prop) : Prop where
  ended : ∀ {s log input result s'}, Good s log → m.start s input = .ended result s' →
    Good s' (log ++ [⟨input, none, result⟩]) ∧ ∀ i k, Waits s i k → Waits s' i k
  waits : ∀ {s log input kept}, Good s log → m.start s input = .waits kept → Waits s input kept
  resumed : ∀ {s log input kept} (a : A), Good s log → Waits s input kept →
    Good (m.resume s kept a).2 (log ++ [⟨input, some (kept, a), (m.resume s kept a).1⟩]) ∧
      ∀ i k, Waits s i k → Waits (m.resume s kept a).2 i k
  other : ∀ {s log} (o : O), Good s log →
    Good (m.other s o) log ∧ ∀ i k, Waits s i k → Waits (m.other s o) i k

variable {Good : σ → List (Entry I K A R) → Prop} {Waits : σ → I → K → Prop}

/-- `Good`, and `Waits` of all that wait. -/
def Holds (Good : σ → List (Entry I K A R) → Prop) (Waits : σ → I → K → Prop)
    (s : State σ I K A R) : Prop :=
  Good s.store s.log ∧ ∀ input kept, some (input, kept) ∈ s.waiting → Waits s.store input kept

theorem Keeps.step (h : Keeps m Good Waits) {s : State σ I K A R} (hs : Holds Good Waits s)
    (e : Event I A O) : Holds Good Waits (step m s e) := by
  obtain ⟨hgood, hwaits⟩ := hs
  cases e with
  | call input =>
    cases hstart : m.start s.store input with
    | ended result store =>
      obtain ⟨hgood', hstable⟩ := h.ended hgood hstart
      rw [step_ended hstart]
      refine ⟨hgood', fun i k hmem => hstable i k (hwaits i k ?_)⟩
      simpa using hmem
    | waits kept =>
      rw [step_waits hstart]
      refine ⟨hgood, fun i k hmem => ?_⟩
      rcases List.mem_append.mp hmem with hmem | hmem
      · exact hwaits i k hmem
      · cases List.mem_singleton.mp hmem
        exact h.waits hgood hstart
  | answer n a =>
    by_cases hasked : ∃ input kept, s.waiting[n]? = some (some (input, kept))
    · obtain ⟨input, kept, hasked⟩ := hasked
      have hwait := hwaits input kept (List.mem_of_getElem? hasked)
      obtain ⟨hgood', hstable⟩ := h.resumed a hgood hwait
      rw [step_answer hasked]
      refine ⟨hgood', fun i k hmem => hstable i k (hwaits i k ?_)⟩
      rcases List.mem_or_eq_of_mem_set hmem with hmem | hnone
      · exact hmem
      · cases hnone
    · rw [step_unasked fun input kept heq => hasked ⟨input, kept, heq⟩]
      exact ⟨hgood, hwaits⟩
  | other o =>
    obtain ⟨hgood', hstable⟩ := h.other o hgood
    exact ⟨hgood', fun i k hmem => hstable i k (hwaits i k hmem)⟩

/-- The rule for runs. -/
theorem Keeps.run (h : Keeps m Good Waits) {store : σ} (hstore : Good store [])
    (events : List (Event I A O)) : Holds Good Waits (run m (.initial store) events) := by
  induction events using List.reverseRecOn with
  | nil => exact ⟨hstore, nofun⟩
  | append_singleton events e ih =>
    rw [run_append]
    exact h.step ih e

/-- What a run has exactly when every step of it has `Q`. -/
theorem run_iff {P : State σ I K A R → Prop} {Q : State σ I K A R → Event I A O → Prop}
    {s : State σ I K A R} (hstart : P s)
    (hstep : ∀ events e, P (step m (run m s events) e) ↔ P (run m s events) ∧ Q (run m s events) e)
    (events : List (Event I A O)) :
    P (run m s events) ↔ ∀ before e, before ++ [e] <+: events → Q (run m s before) e := by
  induction events using List.reverseRecOn with
  | nil =>
    refine iff_of_true hstart ?_
    intro before e hbefore
    exact absurd (List.prefix_nil.mp hbefore) (by simp)
  | append_singleton events e ih =>
    rw [run_append, hstep, ih]
    constructor
    · rintro ⟨hbefore, hlast⟩ before e' hshorter
      rcases List.prefix_concat_iff.mp hshorter with heq | hshorter
      · obtain ⟨rfl, he⟩ := List.append_inj' heq rfl
        cases he
        exact hlast
      · exact hbefore before e' hshorter
    · intro h
      exact ⟨fun before e' hshorter => h before e' (hshorter.trans (List.prefix_append _ _)),
        h events e (List.prefix_refl _)⟩

/-! ## Objects that are marked once -/

variable (m) in
/-- What a step adds to the log. -/
def added (s : State σ I K A R) : Event I A O → Option (Entry I K A R)
  | .call input =>
    match m.start s.store input with
    | .ended result _ => some ⟨input, none, result⟩
    | .waits _ => none
  | .answer n a =>
    match s.waiting[n]? with
    | some (some (input, kept)) => some ⟨input, some (kept, a), (m.resume s.store kept a).1⟩
    | _ => none
  | .other _ => none

section Added

variable {s : State σ I K A R}

theorem added_ended {input : I} {result : R} {store : σ}
    (h : m.start s.store input = .ended result store) :
    added m s (.call input) = some ⟨input, none, result⟩ := by
  unfold added
  dsimp only
  rw [h]

theorem added_waits {input : I} {kept : K} (h : m.start s.store input = .waits kept) :
    added m s (.call input) = none := by
  unfold added
  dsimp only
  rw [h]

theorem added_answer {n : Nat} {a : A} {input : I} {kept : K}
    (h : s.waiting[n]? = some (some (input, kept))) :
    added m s (.answer n a) = some ⟨input, some (kept, a), (m.resume s.store kept a).1⟩ := by
  unfold added
  dsimp only
  rw [h]

theorem added_unasked {n : Nat} {a : A}
    (h : ∀ input kept, s.waiting[n]? ≠ some (some (input, kept))) :
    added m s (.answer n a) = none := by
  unfold added
  dsimp only
  split
  · next input kept heq => exact absurd heq (h input kept)
  · rfl

end Added

theorem log_step (s : State σ I K A R) (e : Event I A O) :
    (step m s e).log = s.log ++ (added m s e).toList := by
  cases e with
  | call input =>
    unfold step added
    dsimp only
    cases m.start s.store input with
    | ended result store => rfl
    | waits kept => exact (List.append_nil _).symm
  | answer n a =>
    unfold step added
    dsimp only
    split
    · rfl
    · exact (List.append_nil _).symm
  | other o => exact (List.append_nil _).symm

/-- Calls that come back may mark an object of the store, and nothing else marks one. -/
structure Marks (m : Method σ I K A R O) (mark : Entry I K A R → Option Nat)
    (marked : σ → Nat → Prop) : Prop where
  ended : ∀ {s input result s'}, m.start s input = .ended result s' →
    ∀ ref, marked s' ref ↔ marked s ref ∨ mark ⟨input, none, result⟩ = some ref
  resumed : ∀ s input kept a ref, marked (m.resume s kept a).2 ref ↔
    marked s ref ∨ mark ⟨input, some (kept, a), (m.resume s kept a).1⟩ = some ref
  other : ∀ s o ref, marked (m.other s o) ref ↔ marked s ref

variable {mark : Entry I K A R → Option Nat} {marked : σ → Nat → Prop}

theorem Marks.step (h : Marks m mark marked) (s : State σ I K A R) (e : Event I A O) (ref : Nat) :
    marked (Awaiting.step m s e).store ref ↔
      marked s.store ref ∨ (added m s e).bind mark = some ref := by
  cases e with
  | call input =>
    cases hstart : m.start s.store input with
    | ended result store =>
      rw [step_ended hstart, added_ended hstart]
      exact h.ended hstart ref
    | waits kept =>
      rw [step_waits hstart, added_waits hstart]
      exact (or_iff_left (by simp)).symm
  | answer n a =>
    by_cases hasked : ∃ input kept, s.waiting[n]? = some (some (input, kept))
    · obtain ⟨input, kept, hasked⟩ := hasked
      rw [step_answer hasked, added_answer hasked]
      exact h.resumed s.store input kept a ref
    · have hnone : ∀ input kept, s.waiting[n]? ≠ some (some (input, kept)) :=
        fun input kept heq => hasked ⟨input, kept, heq⟩
      rw [step_unasked hnone, added_unasked hnone]
      exact (or_iff_left (by simp)).symm
  | other o =>
    refine (h.other s.store o ref).trans ?_
    exact (or_iff_left (by simp [added])).symm

/-- The marked objects are those of the log. -/
theorem Marks.run (h : Marks m mark marked) {store : σ} (hstore : ∀ ref, ¬ marked store ref)
    (events : List (Event I A O)) (ref : Nat) :
    marked (Awaiting.run m (.initial store) events).store ref ↔
      ref ∈ (Awaiting.run m (.initial store) events).log.filterMap mark := by
  induction events using List.reverseRecOn with
  | nil => exact iff_of_false (hstore ref) List.not_mem_nil
  | append_singleton events e ih =>
    rw [run_append, h.step, ih, log_step, List.filterMap_append, List.mem_append]
    refine or_congr_right ?_
    cases added m (Awaiting.run m (.initial store) events) e with
    | none => simp
    | some entry => simp [List.mem_filterMap]

variable (m mark marked) in
/-- What the step marks is not marked yet. -/
def Fresh (s : State σ I K A R) (e : Event I A O) : Prop :=
  ∀ ref, (added m s e).bind mark = some ref → ¬ marked s.store ref

/-- One step marks nothing again exactly when what it marks is fresh. -/
theorem Marks.nodup_step (h : Marks m mark marked) {store : σ} (hstore : ∀ ref, ¬ marked store ref)
    (events : List (Event I A O)) (e : Event I A O) :
    ((Awaiting.step m (Awaiting.run m (.initial store) events) e).log.filterMap mark).Nodup ↔
      ((Awaiting.run m (.initial store) events).log.filterMap mark).Nodup ∧
        Fresh m mark marked (Awaiting.run m (.initial store) events) e := by
  have hmarked := h.run hstore events
  generalize Awaiting.run m (.initial store) events = s at hmarked
  rw [log_step, List.filterMap_append]
  unfold Fresh
  cases hadded : (added m s e).bind mark with
  | none =>
    have hnothing : (added m s e).toList.filterMap mark = [] := by
      cases hentry : added m s e with
      | none => rfl
      | some entry =>
        rw [hentry] at hadded
        exact List.filterMap_cons_none hadded
    rw [hnothing, List.append_nil]
    exact (and_iff_left nofun).symm
  | some ref =>
    have hone : (added m s e).toList.filterMap mark = [ref] := by
      cases hentry : added m s e with
      | none =>
        rw [hentry] at hadded
        cases hadded
      | some entry =>
        rw [hentry] at hadded
        exact List.filterMap_cons_some hadded
    rw [hone, List.nodup_append]
    constructor
    · rintro ⟨hnodup, -, hnew⟩
      refine ⟨hnodup, ?_⟩
      rintro ref' ⟨⟩ hmark
      exact hnew ref ((hmarked ref).mp hmark) ref List.mem_cons_self rfl
    · rintro ⟨hnodup, hfresh⟩
      refine ⟨hnodup, List.nodup_singleton _, ?_⟩
      rintro x hx y hy rfl
      rw [List.mem_singleton.mp hy] at hx
      exact hfresh ref rfl ((hmarked ref).mpr hx)

/-- Nothing is marked twice exactly when every step marks what is fresh. -/
theorem Marks.nodup_iff (h : Marks m mark marked) {store : σ} (hstore : ∀ ref, ¬ marked store ref)
    (events : List (Event I A O)) :
    ((Awaiting.run m (.initial store) events).log.filterMap mark).Nodup ↔
      ∀ before e, before ++ [e] <+: events →
        Fresh m mark marked (Awaiting.run m (.initial store) before) e :=
  run_iff (P := fun s => (s.log.filterMap mark).Nodup) (s := .initial store) List.nodup_nil
    (h.nodup_step hstore) events

/-! ## Lists of objects -/

section Objects

variable {α : Type} {P : α → Prop} {objects : List α}

/-- The object with this number has `P`. -/
def Has (P : α → Prop) (objects : List α) (ref : Nat) : Prop :=
  ∃ x, objects[ref]? = some x ∧ P x

theorem Has.lt {ref : Nat} (h : Has P objects ref) : ref < objects.length := by
  obtain ⟨x, hx, -⟩ := h
  exact (List.getElem?_eq_some_iff.mp hx).1

theorem has_iff {ref : Nat} {x : α} (h : objects[ref]? = some x) : Has P objects ref ↔ P x := by
  constructor
  · rintro ⟨y, hy, hP⟩
    rw [h] at hy
    cases hy
    exact hP
  · exact fun hP => ⟨x, h, hP⟩

/-- A new object without `P` changes nothing. -/
theorem has_append {x : α} (hx : ¬ P x) (ref : Nat) :
    Has P (objects ++ [x]) ref ↔ Has P objects ref := by
  constructor
  · rintro ⟨y, hy, hP⟩
    rcases Nat.lt_or_ge ref objects.length with hlt | hge
    · rw [List.getElem?_append_left hlt] at hy
      exact ⟨y, hy, hP⟩
    · rw [List.getElem?_append_right hge, List.getElem?_singleton] at hy
      split_ifs at hy
      cases hy
      exact absurd hP hx
  · rintro ⟨y, hy, hP⟩
    refine ⟨y, ?_, hP⟩
    rw [List.getElem?_append_left (List.getElem?_eq_some_iff.mp hy).1]
    exact hy

theorem has_set {ref : Nat} {x : α} (hx : P x) (hlt : ref < objects.length) (ref' : Nat) :
    Has P (objects.set ref x) ref' ↔ Has P objects ref' ∨ ref = ref' := by
  unfold Has
  rw [List.getElem?_set]
  by_cases href : ref = ref'
  · rw [if_pos href, if_pos hlt]
    exact iff_of_true ⟨x, rfl, hx⟩ (.inr href)
  · rw [if_neg href]
    exact (or_iff_left href).symm

end Objects

end Awaiting
