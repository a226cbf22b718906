import Mathlib.Tactic
import Mathlib.Logic.Relation

/-
  Transactions under read committed isolation, with row locks.

  A store is a value with rows addressed by keys. A transaction is a `Script` of statements: a
  plain read of the whole store, or a statement on one row that first waits until no other
  transaction holds the row, then sees its latest committed version and either writes and holds
  it, or leaves it alone. Writes are private until the commit; every statement sees the committed
  store with the transaction's own writes on top (`view`). Transactions interleave statement by
  statement, and any of them can abort at any time.

  `Reachable.invariant` is the rely-guarantee rule. Seen from its commit a transaction has run
  alone: every row it holds is as it was when it was locked, so its locking statements may be
  replayed at the commit (`Completes`), and only what it read without a lock can be out of date, by
  whatever the rely relation allows.
-/

namespace ReadCommitted

/-- A store with rows of type `ρ k` at the keys `k`. -/
class RowStore (σ : Type) (κ : outParam Type) (ρ : outParam (κ → Type)) where
  row : σ → (k : κ) → ρ k
  write : σ → (k : κ) → ρ k → σ
  row_write_self : ∀ w k v, row (write w k v) k = v
  row_write_of_ne : ∀ w k v k', k' ≠ k → row (write w k v) k' = row w k'
  write_row : ∀ w k, write w k (row w k) = w

open RowStore

attribute [simp] row_write_self row_write_of_ne write_row

inductive Script (σ : Type) {κ : Type} (ρ : κ → Type) (α : Type) : Type 1
  | done (a : α)
  | fail (code : String)
  | select {β : Type} (q : σ → β) (next : β → Script σ ρ α)
  | acquire {β : Type} (k : κ) (q : ρ k → Option (β × ρ k)) (next : Option β → Script σ ρ α)

namespace Script

variable {σ κ : Type} {ρ : κ → Type} {α β : Type}

def bind : Script σ ρ α → (α → Script σ ρ β) → Script σ ρ β
  | .done a, f => f a
  | .fail code, _ => .fail code
  | .select q next, f => .select q fun b => (next b).bind f
  | .acquire k q next, f => .acquire k q fun b => (next b).bind f

instance : Monad (Script σ ρ) where
  pure := .done
  bind := bind

/-- The answer of a plain read. -/
def read (q : σ → α) : Script σ ρ α := .select q .done

/-- The statement `q` on the row `k`: `none` if it leaves the row alone. -/
def update (k : κ) (q : ρ k → Option (α × ρ k)) : Script σ ρ (Option α) := .acquire k q .done

def failIf (c : Prop) [Decidable c] (code : String) : Script σ ρ Unit :=
  if c then .fail code else .done ()

/-- One statement for each of several rows, with the answers of those it did not leave alone. -/
def forRows (statement : String → Script σ ρ (Option α)) :
    List String → Script σ ρ (List (String × α))
  | [] => .done []
  | id :: ids => do
    let answer ← statement id
    let answers ← forRows statement ids
    return (answer.map fun a => (id, a)).toList ++ answers

/-- Every write of the script turns the row it is on into one that `P` allows. -/
def Writes (P : (k : κ) → ρ k → ρ k → Prop) : Script σ ρ α → Prop
  | .done _ => True
  | .fail _ => True
  | .select _ next => ∀ b, (next b).Writes P
  | .acquire k q next => (∀ r b v, q r = some (b, v) → P k r v) ∧ ∀ b, (next b).Writes P

/-- The rows the script may hold are all in `K`. -/
abbrev Touches (K : κ → Prop) (s : Script σ ρ α) : Prop := s.Writes fun k _ _ => K k

section Writes

variable {P : (k : κ) → ρ k → ρ k → Prop} {s : Script σ ρ α} {f : α → Script σ ρ β}

theorem Writes.bind (hs : s.Writes P) (hf : ∀ a, (f a).Writes P) : (s >>= f).Writes P := by
  show (Script.bind s f).Writes P
  induction s with
  | done a => exact hf a
  | fail code => trivial
  | select q next ih => exact fun b => ih b (hs b)
  | acquire k q next ih => exact ⟨hs.1, fun b => ih b (hs.2 b)⟩

theorem touches_all (s : Script σ ρ α) : s.Touches fun _ => True := by
  induction s with
  | done | fail => trivial
  | select q next ih => exact ih
  | acquire k q next ih => exact ⟨fun _ _ _ _ => trivial, ih⟩

@[simp] theorem writes_pure (a : α) : (pure a : Script σ ρ α).Writes P := trivial

@[simp] theorem writes_read (q : σ → α) : (read q : Script σ ρ α).Writes P := fun _ => trivial

@[simp] theorem writes_update (k : κ) (q : ρ k → Option (α × ρ k)) :
    (update k q : Script σ ρ (Option α)).Writes P ↔ ∀ r b v, q r = some (b, v) → P k r v :=
  ⟨fun h => h.1, fun h => ⟨h, fun _ => trivial⟩⟩

theorem touches_update {K : κ → Prop} {k : κ} (hk : K k) (q : ρ k → Option (α × ρ k)) :
    (update k q : Script σ ρ (Option α)).Touches K :=
  (writes_update k q).mpr fun _ _ _ _ => hk

theorem writes_forRows {statement : String → Script σ ρ (Option α)}
    (h : ∀ id, (statement id).Writes P) (ids : List String) :
    (forRows statement ids).Writes P := by
  induction ids with
  | nil => trivial
  | cons id ids ih => exact (h id).bind fun _ => ih.bind fun _ => trivial

@[simp] theorem writes_failIf (c : Prop) [Decidable c] (code : String) :
    (failIf c code : Script σ ρ Unit).Writes P := by
  unfold failIf
  split <;> trivial

end Writes

end Script

section Semantics

variable {σ κ : Type} {ρ : κ → Type} [RowStore σ κ ρ]

/-- The writes of a transaction, in order. -/
abbrev Log (ρ : κ → Type) := List (Σ k, ρ k)

def keys (log : Log ρ) : List κ := log.map Sigma.fst

/-- The store as a transaction with these writes sees it. -/
def view (w : σ) (log : Log ρ) : σ := log.foldl (fun w e => write w e.1 e.2) w

variable (σ ρ) in
/-- A running transaction: what was asked for, what is left to do and what it wrote. -/
structure Live (ι α : Type) where
  request : ι
  script : Script σ ρ α
  log : Log ρ

variable (σ ρ) in
structure Conf (ι α : Type) where
  world : σ
  live : ℕ → Option (Live σ ρ ι α)

variable (σ ρ) in
/-- The transactions of a system, what a commit does besides its writes, which commits are
    allowed, and how the store changes outside of transactions while some requests are live. -/
structure System (ι α : Type) where
  starts : σ → ι → Prop
  body : ι → Script σ ρ α
  commits : σ → ι → Prop
  settle : ι → α → σ → σ
  environment : (ι → Prop) → σ → σ → Prop

variable {ι α : Type}

def Conf.set (c : Conf σ ρ ι α) (i : ℕ) (t : Option (Live σ ρ ι α)) : Conf σ ρ ι α :=
  { c with live := Function.update c.live i t }

/-- No transaction but `i` holds `k`. -/
def Conf.Free (c : Conf σ ρ ι α) (i : ℕ) (k : κ) : Prop :=
  ∀ j t, j ≠ i → c.live j = some t → k ∉ keys t.log

inductive Step (S : System σ ρ ι α) (c : Conf σ ρ ι α) : Conf σ ρ ι α → Prop
  | start {i request} (hi : c.live i = none) (h : S.starts c.world request) :
      Step S c (c.set i (some ⟨request, S.body request, []⟩))
  | select {i request β log} {q : σ → β} {next}
      (hi : c.live i = some ⟨request, .select q next, log⟩) :
      Step S c (c.set i (some ⟨request, next (q (view c.world log)), log⟩))
  | take {i request k β log v} {b : β} {q next}
      (hi : c.live i = some ⟨request, .acquire k q next, log⟩) (hfree : c.Free i k)
      (hq : q (row (view c.world log) k) = some (b, v)) :
      Step S c (c.set i (some ⟨request, next (some b), log ++ [⟨k, v⟩]⟩))
  | skip {i request k β log} {q : ρ k → Option (β × ρ k)} {next}
      (hi : c.live i = some ⟨request, .acquire k q next, log⟩) (hfree : c.Free i k)
      (hq : q (row (view c.world log) k) = none) :
      Step S c (c.set i (some ⟨request, next none, log⟩))
  | commit {i request a log} (hi : c.live i = some ⟨request, .done a, log⟩)
      (h : S.commits c.world request) :
      Step S c { c.set i none with world := S.settle request a (view c.world log) }
  | abort {i} : Step S c (c.set i none)
  | environment {w}
      (h : S.environment (fun request => ∃ i t, c.live i = some t ∧ t.request = request)
        c.world w) :
      Step S c { c with world := w }

/-- The configurations of all interleavings from the store `w` with nothing running. -/
def Reachable (S : System σ ρ ι α) (w : σ) (c : Conf σ ρ ι α) : Prop :=
  Relation.ReflTransGen (Step S) ⟨w, fun _ => none⟩ c

/-! ## Views -/

@[simp] theorem view_nil (w : σ) : view w ([] : Log ρ) = w := rfl

theorem view_append (w : σ) (log log' : Log ρ) : view w (log ++ log') = view (view w log) log' :=
  List.foldl_append

@[simp] theorem view_concat (w : σ) (log : Log ρ) (k : κ) (v : ρ k) :
    view w (log ++ [⟨k, v⟩]) = write (view w log) k v := by
  rw [view_append]
  rfl

theorem keys_append (log log' : Log ρ) : keys (log ++ log') = keys log ++ keys log' :=
  List.map_append

@[simp] theorem keys_concat (log : Log ρ) (k : κ) (v : ρ k) :
    keys (log ++ [⟨k, v⟩]) = keys log ++ [k] :=
  List.map_append

theorem row_view_of_notMem {w : σ} {log : Log ρ} {k : κ} (h : k ∉ keys log) :
    row (view w log) k = row w k := by
  induction log using List.reverseRecOn with
  | nil => rfl
  | append_singleton log e ih =>
    obtain ⟨k', v⟩ := e
    rw [keys_concat, List.mem_append, List.mem_singleton, not_or] at h
    rw [view_concat, row_write_of_ne _ _ _ _ h.2, ih h.1]

/-- A row looks the same in two stores that agree on it unless it was written. -/
theorem row_view_congr {w w' : σ} {k : κ} (h : row w k = row w' k) (log : Log ρ) :
    row (view w log) k = row (view w' log) k := by
  induction log using List.reverseRecOn with
  | nil => exact h
  | append_singleton log e ih =>
    obtain ⟨k', v⟩ := e
    rw [view_concat, view_concat]
    by_cases hk : k = k'
    · subst hk
      simp
    · rw [row_write_of_ne _ _ _ _ hk, row_write_of_ne _ _ _ _ hk, ih]

theorem row_view_of_mem {w w' : σ} {log : Log ρ} {k : κ} (h : k ∈ keys log) :
    row (view w log) k = row (view w' log) k := by
  induction log using List.reverseRecOn with
  | nil => simp [keys] at h
  | append_singleton log e ih =>
    obtain ⟨k', v⟩ := e
    rw [view_concat, view_concat]
    by_cases hk : k = k'
    · subst hk
      simp
    · rw [keys_concat, List.mem_append, List.mem_singleton] at h
      rw [row_write_of_ne _ _ _ _ hk, row_write_of_ne _ _ _ _ hk, ih (h.resolve_right hk)]

/-- What no write on the rows of the log changes is the same behind the log. -/
theorem view_frame {γ : Type*} {w : σ} {log : Log ρ} {K : κ → Prop} (f : σ → γ)
    (hf : ∀ w k v, K k → f (write w k v) = f w) (h : ∀ k ∈ keys log, K k) :
    f (view w log) = f w := by
  induction log using List.reverseRecOn with
  | nil => rfl
  | append_singleton log e ih =>
    obtain ⟨k, v⟩ := e
    rw [keys_concat] at h
    rw [view_concat, hf _ _ _ (h k (by simp)), ih fun k' hk' => h k' (by simp [hk'])]

end Semantics

/-! ## Replay at the commit -/

section Replay

variable {σ κ : Type} {ρ : κ → Type} [RowStore σ κ ρ] {α β : Type}

/-- What a transaction that holds rows can count on while others run. -/
structure Rely (R : List κ → σ → σ → Prop) : Prop where
  refl : ∀ held w, R held w w
  trans : ∀ {held w w' w''}, R held w w' → R held w' w'' → R held w w''
  mono : ∀ {held held' w w'}, held ⊆ held' → R held' w w' → R held w w'
  agree : ∀ {held w w' k}, R held w w' → k ∈ held → row w k = row w' k

/-- `R`, and that `Inv` is kept. -/
def Within (Inv : σ → Prop) (R : List κ → σ → σ → Prop) (held : List κ) (w w' : σ) : Prop :=
  R held w w' ∧ (Inv w → Inv w')

theorem Rely.within {R : List κ → σ → σ → Prop} (hR : Rely R) (Inv : σ → Prop) :
    Rely (Within Inv R) where
  refl held w := ⟨hR.refl held w, id⟩
  trans h h' := ⟨hR.trans h.1 h'.1, h'.2 ∘ h.2⟩
  mono hsub h := ⟨hR.mono hsub h.1, h.2⟩
  agree h hk := hR.agree h.1 hk

variable (σ ρ) in
/-- How far a transaction has come: the last store it looked at, and its writes. -/
structure Point where
  time : σ
  log : Log ρ

/-- From `p` the script gets to `p'` as its statements found the store when they ran. -/
inductive Runs (R : List κ → σ → σ → Prop) (s₀ : Script σ ρ α) (p₀ : Point σ ρ) :
    Script σ ρ α → Point σ ρ → Prop
  | refl : Runs R s₀ p₀ s₀ p₀
  | wait {s u u' log} : Runs R s₀ p₀ s ⟨u, log⟩ → R (keys log) u u' → Runs R s₀ p₀ s ⟨u', log⟩
  | select {γ u log} {q : σ → γ} {next} : Runs R s₀ p₀ (.select q next) ⟨u, log⟩ →
      Runs R s₀ p₀ (next (q (view u log))) ⟨u, log⟩
  | take {γ u log k v} {b : γ} {q next} : Runs R s₀ p₀ (.acquire k q next) ⟨u, log⟩ →
      q (row (view u log) k) = some (b, v) → Runs R s₀ p₀ (next (some b)) ⟨u, log ++ [⟨k, v⟩]⟩
  | skip {γ u log k} {q : ρ k → Option (γ × ρ k)} {next} :
      Runs R s₀ p₀ (.acquire k q next) ⟨u, log⟩ → q (row (view u log) k) = none →
      Runs R s₀ p₀ (next none) ⟨u, log⟩

/-- From `p` the script returns `a` at `p'`, with its writing statements replayed on `w`. Between
    two statements time moves on as `R` allows. -/
inductive Completes (R : List κ → σ → σ → Prop) (w : σ) :
    Script σ ρ α → Point σ ρ → α → Point σ ρ → Prop
  | done {a u log} : Completes R w (.done a) ⟨u, log⟩ a ⟨u, log⟩
  | wait {s u u' log a p'} : R (keys log) u u' → Completes R w s ⟨u', log⟩ a p' →
      Completes R w s ⟨u, log⟩ a p'
  | select {γ u log a p'} {q : σ → γ} {next} :
      Completes R w (next (q (view u log))) ⟨u, log⟩ a p' →
      Completes R w (.select q next) ⟨u, log⟩ a p'
  | take {γ u log k v a p'} {b : γ} {q next} : q (row (view w log) k) = some (b, v) →
      Completes R w (next (some b)) ⟨u, log ++ [⟨k, v⟩]⟩ a p' →
      Completes R w (.acquire k q next) ⟨u, log⟩ a p'
  | skip {γ u log k a p'} {q : ρ k → Option (γ × ρ k)} {next} : q (row (view u log) k) = none →
      Completes R w (next none) ⟨u, log⟩ a p' → Completes R w (.acquire k q next) ⟨u, log⟩ a p'

variable {R : List κ → σ → σ → Prop}

/-- At its commit a transaction has run as if it had locked its rows just then. -/
theorem Runs.completes (hR : Rely R) {s₀ s : Script σ ρ α} {p₀ p p' : Point σ ρ} {a : α} {w : σ}
    (h : Runs R s₀ p₀ s p) (hw : R (keys p.log) p.time w) (hs : Completes R w s p a p') :
    Completes R w s₀ p₀ a p' ∧ R (keys p₀.log) p₀.time w := by
  induction h with
  | refl => exact ⟨hs, hw⟩
  | wait _ hstep ih => exact ih (hR.trans hstep hw) (.wait hstep hs)
  | select _ ih => exact ih hw (.select hs)
  | @take _ u log k v b q next _ hq ih =>
    have hkeys : keys log ⊆ keys (log ++ [⟨k, v⟩]) := by
      rw [keys_concat]
      exact List.subset_append_left _ _
    -- the row is held from here to the commit
    have hrow : row u k = row w k := hR.agree hw (by simp)
    rw [row_view_congr hrow] at hq
    exact ih (hR.mono hkeys hw) (.take hq hs)
  | skip _ hq ih => exact ih hw (.skip hq hs)

/-! ### Taking scripts apart -/

/-- `p` is over and its writes were made before `p'`, and time moved on as `R` allows. -/
theorem completes_done {w : σ} {a b : α} {p p' : Point σ ρ}
    (hR : Rely R) (h : Completes R w (.done a) p b p') :
    a = b ∧ p.log = p'.log ∧ R (keys p.log) p.time p'.time := by
  generalize hs : Script.done a = s at h
  induction h with
  | done =>
    cases hs
    exact ⟨rfl, rfl, hR.refl _ _⟩
  | wait hstep _ ih =>
    obtain ⟨rfl, hlog, htime⟩ := ih hs
    exact ⟨rfl, hlog, hR.trans hstep htime⟩
  | select | take | skip => cases hs

theorem completes_fail {w : σ} {code : String} {b : α} {p p' : Point σ ρ} :
    ¬ Completes R w (.fail code) p b p' := by
  intro h
  generalize hs : Script.fail code = s at h
  induction h with
  | wait _ _ ih => exact ih hs
  | done | select | take | skip => cases hs

theorem completes_select {w : σ} {q : σ → β} {next : β → Script σ ρ α} {a : α}
    {p p' : Point σ ρ} (hR : Rely R) (h : Completes R w (.select q next) p a p') :
    ∃ u, R (keys p.log) p.time u ∧ Completes R w (next (q (view u p.log))) ⟨u, p.log⟩ a p' := by
  generalize hs : Script.select q next = s at h
  induction h with
  | select h =>
    cases hs
    exact ⟨_, hR.refl _ _, h⟩
  | wait hstep _ ih =>
    obtain ⟨u, hu, hrest⟩ := ih hs
    exact ⟨u, hR.trans hstep hu, hrest⟩
  | done | take | skip => cases hs

theorem completes_acquire {w : σ} {k : κ} {q : ρ k → Option (β × ρ k)}
    {next : Option β → Script σ ρ α} {a : α} {p p' : Point σ ρ} (hR : Rely R)
    (h : Completes R w (.acquire k q next) p a p') :
    ∃ u, R (keys p.log) p.time u ∧
      ((∃ b v, q (row (view w p.log) k) = some (b, v) ∧
          Completes R w (next (some b)) ⟨u, p.log ++ [⟨k, v⟩]⟩ a p') ∨
        (q (row (view u p.log) k) = none ∧ Completes R w (next none) ⟨u, p.log⟩ a p')) := by
  generalize hs : Script.acquire k q next = s at h
  induction h with
  | take hq h =>
    cases hs
    exact ⟨_, hR.refl _ _, .inl ⟨_, _, hq, h⟩⟩
  | skip hq h =>
    cases hs
    exact ⟨_, hR.refl _ _, .inr ⟨hq, h⟩⟩
  | wait hstep _ ih =>
    obtain ⟨u, hu, hrest⟩ := ih hs
    exact ⟨u, hR.trans hstep hu, hrest⟩
  | done | select => cases hs

theorem completes_bind {w : σ} {s : Script σ ρ β} {f : β → Script σ ρ α} {a : α}
    {p p' : Point σ ρ} (hR : Rely R) (h : Completes R w (s >>= f) p a p') :
    ∃ b mid, Completes R w s p b mid ∧ Completes R w (f b) mid a p' := by
  change Completes R w (s.bind f) p a p' at h
  induction s generalizing p with
  | done b => exact ⟨b, p, .done, h⟩
  | fail code => exact absurd h completes_fail
  | select q next ih =>
    obtain ⟨u, hu, hrest⟩ := completes_select hR h
    obtain ⟨b, mid, hnext, hf⟩ := ih _ hrest
    exact ⟨b, mid, .wait hu (.select hnext), hf⟩
  | acquire k q next ih =>
    obtain ⟨u, hu, ⟨b, v, hq, hrest⟩ | ⟨hq, hrest⟩⟩ := completes_acquire hR h
    · obtain ⟨b', mid, hnext, hf⟩ := ih _ hrest
      exact ⟨b', mid, .wait hu (.take hq hnext), hf⟩
    · obtain ⟨b', mid, hnext, hf⟩ := ih _ hrest
      exact ⟨b', mid, .wait hu (.skip hq hnext), hf⟩

/-- Time moves on as `R` allows for the rows held at the start. -/
theorem Completes.rely (hR : Rely R) {w : σ} {s : Script σ ρ α} {p p' : Point σ ρ} {a : α}
    (h : Completes R w s p a p') : R (keys p.log) p.time p'.time := by
  induction h with
  | done => exact hR.refl _ _
  | wait hstep _ ih => exact hR.trans hstep ih
  | select _ ih | skip _ _ ih => exact ih
  | @take γ u log k v a p' b q next hq _ ih =>
    have hkeys : keys log ⊆ keys (log ++ [⟨k, v⟩]) := by
      rw [keys_concat]
      exact List.subset_append_left _ _
    exact hR.mono hkeys ih

/-- Time may move on behind the script. -/
theorem Completes.later {w : σ} {s : Script σ ρ α} {p p' : Point σ ρ} {a : α}
    (h : Completes R w s p a p') {u : σ} (hu : R (keys p'.log) p'.time u) :
    Completes R w s p a ⟨u, p'.log⟩ := by
  induction h with
  | done => exact .wait hu .done
  | wait hstep _ ih => exact .wait hstep (ih hu)
  | select _ ih => exact .select (ih hu)
  | take hq _ ih => exact .take hq (ih hu)
  | skip hq _ ih => exact .skip hq (ih hu)

/-- A script whose answer is only computed with. -/
theorem completes_map (hR : Rely R) {w : σ} {s : Script σ ρ β} {f : β → α} {b : α}
    {p p' : Point σ ρ} (h : Completes R w (s >>= fun a => pure (f a)) p b p') :
    ∃ a, f a = b ∧ Completes R w s p a p' := by
  obtain ⟨a, mid, hs, hdone⟩ := completes_bind hR h
  obtain ⟨hab, hlog, htime⟩ := completes_done hR hdone
  have hlater := hs.later htime
  rw [hlog] at hlater
  exact ⟨a, hab, hlater⟩

/-- A script whose answer is not used. -/
theorem completes_discard (hR : Rely R) {w : σ} {s : Script σ ρ β} {c b : α} {p p' : Point σ ρ}
    (h : Completes R w (s >>= fun _ => pure c) p b p') : ∃ a, Completes R w s p a p' := by
  obtain ⟨a, -, hs⟩ := completes_map hR h
  exact ⟨a, hs⟩

/-- The log grows by rows the script touches. -/
theorem Completes.log_eq {K : κ → Prop} {w : σ} {s : Script σ ρ α} {p p' : Point σ ρ} {a : α}
    (h : Completes R w s p a p') (hs : s.Touches K) :
    ∃ more, p'.log = p.log ++ more ∧ ∀ k ∈ keys more, K k := by
  induction h with
  | done => exact ⟨[], (List.append_nil _).symm, by simp [keys]⟩
  | wait _ _ ih => exact ih hs
  | select _ ih => exact ih (hs _)
  | skip _ _ ih => exact ih (hs.2 _)
  | @take γ u log k v a p' b q next hq _ ih =>
    obtain ⟨more, hlog, hmore⟩ := ih (hs.2 _)
    refine ⟨⟨k, v⟩ :: more, by simp [hlog], ?_⟩
    intro k' hk'
    rw [keys, List.map_cons, List.mem_cons] at hk'
    rcases hk' with rfl | hk'
    · exact hs.1 _ _ _ hq
    · exact hmore k' hk'

/-- Every row the script leaves behind is one that `P` allows. -/
theorem Completes.writes {P : (k : κ) → ρ k → ρ k → Prop} (hrefl : ∀ k r, P k r r)
    (htrans : ∀ k r r' r'', P k r r' → P k r' r'' → P k r r'') {w : σ} {s : Script σ ρ α}
    {p p' : Point σ ρ} {a : α} (h : Completes R w s p a p') (hs : s.Writes P) (k : κ) :
    P k (row (view w p.log) k) (row (view w p'.log) k) := by
  induction h with
  | done => exact hrefl _ _
  | wait _ _ ih => exact ih hs
  | select _ ih => exact ih (hs _)
  | skip _ _ ih => exact ih (hs.2 _)
  | @take γ u log k' v a p' b q next hq _ ih =>
    refine htrans _ _ _ _ ?_ (ih (hs.2 _))
    rw [view_concat]
    by_cases hk : k = k'
    · subst hk
      rw [row_write_self]
      exact hs.1 _ _ _ hq
    · rw [row_write_of_ne _ _ _ _ hk]
      exact hrefl _ _

/-! ### Scripts on the way to a commit -/

/-- From `p` the script returns `a` at `p'`, on the way to a commit on `w`. -/
def Leads (R : List κ → σ → σ → Prop) (w : σ) (s : Script σ ρ α) (p : Point σ ρ) (a : α)
    (p' : Point σ ρ) : Prop :=
  Completes R w s p a p' ∧ R (keys p'.log) p'.time w

section Leads

variable {w : σ} {p p' : Point σ ρ} {a : α}

theorem Completes.leads (hR : Rely R) {s : Script σ ρ α} {log : Log ρ}
    (h : Completes R w s p a ⟨w, log⟩) : Leads R w s p a ⟨w, log⟩ :=
  ⟨h, hR.refl _ _⟩

theorem Leads.rely (hR : Rely R) {s : Script σ ρ α} (h : Leads R w s p a p') :
    R (keys p.log) p.time p'.time :=
  h.1.rely hR

theorem Leads.keys_subset {s : Script σ ρ α} (h : Leads R w s p a p') :
    keys p.log ⊆ keys p'.log := by
  obtain ⟨more, hlog, -⟩ := h.1.log_eq (Script.touches_all s)
  rw [hlog, keys_append]
  exact List.subset_append_left _ _

theorem Leads.rely_commit (hR : Rely R) {s : Script σ ρ α} (h : Leads R w s p a p') :
    R (keys p.log) p.time w :=
  hR.trans (h.rely hR) (hR.mono h.keys_subset h.2)

theorem leads_bind (hR : Rely R) {s : Script σ ρ β} {f : β → Script σ ρ α}
    (h : Leads R w (s >>= f) p a p') : ∃ b mid, Leads R w s p b mid ∧ Leads R w (f b) mid a p' := by
  obtain ⟨b, mid, hs, hf⟩ := completes_bind hR h.1
  have hf' : Leads R w (f b) mid a p' := ⟨hf, h.2⟩
  exact ⟨b, mid, ⟨hs, hf'.rely_commit hR⟩, hf'⟩

theorem leads_pure {b : α} (hR : Rely R) (h : Leads R w (pure a) p b p') :
    a = b ∧ p'.log = p.log := by
  obtain ⟨hab, hlog, -⟩ := completes_done hR h.1
  exact ⟨hab, hlog.symm⟩

theorem leads_fail {code : String} (h : Leads R w (.fail code) p a p') : False :=
  completes_fail h.1

theorem leads_failIf {c : Prop} [Decidable c] {code : String} {b : Unit} (hR : Rely R)
    (h : Leads R w (Script.failIf c code) p b p') : ¬ c ∧ p'.log = p.log := by
  unfold Script.failIf at h
  split at h
  · exact (leads_fail h).elim
  · next hc => exact ⟨hc, (completes_done hR h.1).2.1.symm⟩

theorem leads_read {q : σ → α} (hR : Rely R) (h : Leads R w (Script.read q) p a p') :
    p'.log = p.log ∧ ∃ u, a = q (view u p.log) ∧ R (keys p.log) p.time u ∧
      R (keys p.log) u w := by
  obtain ⟨u, hu, hrest⟩ := completes_select hR h.1
  obtain ⟨rfl, hlog, htime⟩ := completes_done hR hrest
  have hw := h.2
  rw [← hlog] at hw
  exact ⟨hlog.symm, u, rfl, hu, hR.trans htime hw⟩

/-- A statement on a row either took it as it is at the commit, or left it alone. -/
theorem leads_update {k : κ} {q : ρ k → Option (α × ρ k)} {answer : Option α} (hR : Rely R)
    (h : Leads R w (Script.update k q) p answer p') :
    (∃ b v, answer = some b ∧ q (row (view w p.log) k) = some (b, v) ∧
        p'.log = p.log ++ [⟨k, v⟩]) ∨
      (answer = none ∧ p'.log = p.log ∧ ∃ u, q (row (view u p.log) k) = none ∧
        R (keys p.log) p.time u ∧ R (keys p.log) u w) := by
  obtain ⟨u, hu, ⟨b, v, hq, hrest⟩ | ⟨hq, hrest⟩⟩ := completes_acquire hR h.1
  · obtain ⟨rfl, hlog, -⟩ := completes_done hR hrest
    exact .inl ⟨b, v, rfl, hq, hlog.symm⟩
  · obtain ⟨rfl, hlog, htime⟩ := completes_done hR hrest
    have hw := h.2
    rw [← hlog] at hw
    exact .inr ⟨rfl, hlog.symm, u, hq, hu, hR.trans htime hw⟩

/-- On a row that is held already the statement is decided by the row itself. -/
theorem leads_update_held {k : κ} {q : ρ k → Option (α × ρ k)} {answer : Option α} (hR : Rely R)
    (hk : k ∈ keys p.log) (h : Leads R w (Script.update k q) p answer p') :
    (∃ b v, answer = some b ∧ q (row (view w p.log) k) = some (b, v) ∧
        p'.log = p.log ++ [⟨k, v⟩]) ∨
      (answer = none ∧ p'.log = p.log ∧ q (row (view w p.log) k) = none) := by
  rcases leads_update hR h with h | ⟨hans, hlog, u, hq, -, -⟩
  · exact .inl h
  · have hrow : row (view u p.log) k = row (view w p.log) k := row_view_of_mem hk
    rw [hrow] at hq
    exact .inr ⟨hans, hlog, hq⟩

end Leads

/-! ### Locking without writing -/

/-- The rows of the log are held as they are in `w`. -/
def Locks (w : σ) (log : Log ρ) : Prop := ∀ e ∈ log, e.2 = row w e.1

section Locks

variable {w u : σ} {log : Log ρ}

omit [RowStore σ κ ρ] in
theorem mem_keys_of_mem {e : Σ k, ρ k} (h : e ∈ log) : e.1 ∈ keys log :=
  List.mem_map_of_mem h

theorem locks_nil (w : σ) : Locks w ([] : Log ρ) := fun _ he => nomatch he

theorem Locks.concat (h : Locks w log) (k : κ) : Locks w (log ++ [⟨k, row w k⟩]) := by
  intro e he
  rcases List.mem_append.mp he with he | he
  · exact h e he
  · rw [List.mem_singleton.mp he]

theorem Locks.view_eq (h : Locks w log) : view w log = w := by
  induction log using List.reverseRecOn with
  | nil => rfl
  | append_singleton log e ih =>
    obtain ⟨k, v⟩ := e
    have hv : v = row w k := h ⟨k, v⟩ (by simp)
    rw [view_concat, ih fun e he => h e (by simp [he]), hv, write_row]

/-- Rows that are held are the same until the commit. -/
theorem Locks.at {u : σ} (hR : Rely R) (h : Locks w log) (hu : R (keys log) u w) : Locks u log :=
  fun e he => (h e he).trans (hR.agree hu (mem_keys_of_mem he)).symm

/-- A statement that locks a row, or finds nothing to lock. -/
theorem leads_lock {p p' : Point σ ρ} {k : κ} {q : ρ k → Option (α × ρ k)} {answer : Option α}
    (hR : Rely R) (hp : Locks w p.log) (hq : ∀ r b v, q r = some (b, v) → v = r)
    (h : Leads R w (Script.update k q) p answer p') :
    Locks w p'.log ∧
      ((∃ b, answer = some b ∧ q (row w k) = some (b, row w k) ∧ k ∈ keys p'.log) ∨
        (answer = none ∧ ∃ u, q (row u k) = none ∧ R (keys p.log) p.time u ∧
          R (keys p.log) u w)) := by
  rcases leads_update hR h with ⟨b, v, hans, htake, hlog⟩ | ⟨hans, hlog, u, hskip, hpu, huw⟩
  · rw [hp.view_eq] at htake
    obtain rfl := hq _ _ _ htake
    rw [hlog]
    exact ⟨hp.concat k, .inl ⟨b, hans, htake, by simp⟩⟩
  · rw [(hp.at hR huw).view_eq] at hskip
    rw [hlog]
    exact ⟨hp, .inr ⟨hans, u, hskip, hpu, huw⟩⟩

end Locks

end Replay

/-! ## The rule -/

section Rule

variable {σ κ : Type} {ρ : κ → Type} [RowStore σ κ ρ] {ι α : Type}

/-- What holds of every configuration on the way. -/
structure ConfInv (S : System σ ρ ι α) (Inv : σ → Prop) (R : ι → List κ → σ → σ → Prop)
    (c : Conf σ ρ ι α) : Prop where
  world : Inv c.world
  disjoint : ∀ i j t t', i ≠ j → c.live i = some t → c.live j = some t' →
    ∀ k ∈ keys t.log, k ∉ keys t'.log
  runs : ∀ i t, c.live i = some t → ∃ u, Inv u ∧ S.starts u t.request ∧
    Runs (Within Inv (R t.request)) (S.body t.request) ⟨u, []⟩ t.script ⟨c.world, t.log⟩

/-- The guarantee: what changes the store outside of transactions, and every commit, keeps `Inv`
    and lets the other transactions rely on `R`. -/
structure Guarantee (S : System σ ρ ι α) (Inv : σ → Prop) (R : ι → List κ → σ → σ → Prop) :
    Prop where
  rely : ∀ request, Rely (R request)
  environment : ∀ {live w w'}, Inv w → S.environment live w w' →
    Inv w' ∧ ∀ request held, live request → R request held w w'
  commit : ∀ {w u request a log}, Inv w → Inv u → S.starts u request → S.commits w request →
    Completes (Within Inv (R request)) w (S.body request) ⟨u, []⟩ a ⟨w, log⟩ →
    Inv (S.settle request a (view w log)) ∧
      ∀ request' held, (∀ k ∈ held, k ∉ keys log) →
        R request' held w (S.settle request a (view w log))

variable {S : System σ ρ ι α} {Inv : σ → Prop} {R : ι → List κ → σ → σ → Prop}
  {c c' : Conf σ ρ ι α}

omit [RowStore σ κ ρ] in
theorem Conf.live_set {i j : ℕ} {t : Option (Live σ ρ ι α)} :
    (c.set i t).live j = if j = i then t else c.live j := by
  simp only [Conf.set, Function.update_apply]

omit [RowStore σ κ ρ] in
/-- One transaction moves on, and holds at most one more row, which was free. -/
theorem Conf.disjoint_set
    (h : ∀ i j t t', i ≠ j → c.live i = some t → c.live j = some t' →
      ∀ k ∈ keys t.log, k ∉ keys t'.log)
    {i : ℕ} {t : Live σ ρ ι α} (hkeys : ∀ k ∈ keys t.log, c.Free i k) (j j' : ℕ)
    (s s' : Live σ ρ ι α) (hne : j ≠ j') (hj : (c.set i (some t)).live j = some s)
    (hj' : (c.set i (some t)).live j' = some s') : ∀ k ∈ keys s.log, k ∉ keys s'.log := by
  intro k hk
  rw [Conf.live_set] at hj hj'
  by_cases hji : j = i
  · subst hji
    rw [if_pos rfl] at hj
    rw [if_neg (Ne.symm hne)] at hj'
    cases hj
    exact hkeys k hk j' s' (Ne.symm hne) hj'
  · rw [if_neg hji] at hj
    by_cases hj'i : j' = i
    · subst hj'i
      rw [if_pos rfl] at hj'
      cases hj'
      intro hk'
      exact hkeys k hk' j s hji hj hk
    · rw [if_neg hj'i] at hj'
      exact h j j' s s' hne hj hj' k hk

omit [RowStore σ κ ρ] in
/-- A transaction that ends holds nothing any more. -/
theorem Conf.live_of_unset {i j : ℕ} {t : Live σ ρ ι α} (h : (c.set i none).live j = some t) :
    j ≠ i ∧ c.live j = some t := by
  rw [Conf.live_set] at h
  split_ifs at h with hji
  exact ⟨hji, h⟩

theorem ConfInv.set (h : ConfInv S Inv R c) {i : ℕ} {t : Live σ ρ ι α}
    (hkeys : ∀ k ∈ keys t.log, c.Free i k)
    (hruns : ∃ u, Inv u ∧ S.starts u t.request ∧
      Runs (Within Inv (R t.request)) (S.body t.request) ⟨u, []⟩ t.script ⟨c.world, t.log⟩) :
    ConfInv S Inv R (c.set i (some t)) where
  world := h.world
  disjoint := Conf.disjoint_set h.disjoint hkeys
  runs := by
    intro j s hj
    rw [Conf.live_set] at hj
    by_cases hji : j = i
    · rw [if_pos hji] at hj
      cases hj
      exact hruns
    · rw [if_neg hji] at hj
      exact h.runs j s hj

theorem ConfInv.unset (h : ConfInv S Inv R c) (i : ℕ) : ConfInv S Inv R (c.set i none) where
  world := h.world
  disjoint := by
    intro j j' s s' hne hj hj'
    exact h.disjoint j j' s s' hne (Conf.live_of_unset hj).2 (Conf.live_of_unset hj').2
  runs := by
    intro j s hj
    exact h.runs j s (Conf.live_of_unset hj).2

/-- The store changes in a way every live transaction allows for. -/
theorem ConfInv.change (h : ConfInv S Inv R c) {w : σ} (hw : Inv w)
    (hR : ∀ i t, c.live i = some t → R t.request (keys t.log) c.world w) :
    ConfInv S Inv R { c with world := w } where
  world := hw
  disjoint := h.disjoint
  runs := by
    intro i t hi
    obtain ⟨u, hu, hstart, hruns⟩ := h.runs i t hi
    exact ⟨u, hu, hstart, hruns.wait ⟨hR i t hi, fun _ => hw⟩⟩

theorem ConfInv.step (hG : Guarantee S Inv R) (h : ConfInv S Inv R c) (hstep : Step S c c') :
    ConfInv S Inv R c' := by
  have held {i : ℕ} {t : Live σ ρ ι α} (hi : c.live i = some t) :
      ∀ k ∈ keys t.log, c.Free i k :=
    fun k hk j s hji hj => h.disjoint i j t s (Ne.symm hji) hi hj k hk
  cases hstep with
  | start hi hstart =>
    exact h.set (by simp [keys]) ⟨c.world, h.world, hstart, .refl⟩
  | select hi =>
    obtain ⟨u, hu, hstart, hruns⟩ := h.runs _ _ hi
    exact h.set (fun k hk => held hi k hk) ⟨u, hu, hstart, hruns.select⟩
  | @take i request k β log v b q next hi hfree hq =>
    obtain ⟨u, hu, hstart, hruns⟩ := h.runs _ _ hi
    refine h.set ?_ ⟨u, hu, hstart, hruns.take hq⟩
    intro k' hk'
    rw [keys_concat, List.mem_append, List.mem_singleton] at hk'
    rcases hk' with hk' | rfl
    · exact held hi k' hk'
    · exact hfree
  | skip hi hfree hq =>
    obtain ⟨u, hu, hstart, hruns⟩ := h.runs _ _ hi
    exact h.set (fun k hk => held hi k hk) ⟨u, hu, hstart, hruns.skip hq⟩
  | @commit i request a log hi hok =>
    obtain ⟨u, hu, hstart, hruns⟩ := h.runs _ _ hi
    have hR := (hG.rely request).within Inv
    obtain ⟨hall, -⟩ := hruns.completes hR (hR.refl _ _) .done
    obtain ⟨hinv, hrely⟩ := hG.commit h.world hu hstart hok hall
    refine (h.unset i).change hinv ?_
    intro j s hj
    rw [Conf.live_set] at hj
    split_ifs at hj with hji
    exact hrely s.request (keys s.log) fun k hk => h.disjoint j i s _ hji hj hi k hk
  | abort => exact h.unset _
  | environment henv =>
    obtain ⟨hinv, hrely⟩ := hG.environment h.world henv
    exact h.change hinv fun i t hi => hrely t.request _ ⟨i, t, hi, rfl⟩

theorem Reachable.confInv (hG : Guarantee S Inv R) {w : σ} (hw : Inv w)
    (hc : Reachable S w c) : ConfInv S Inv R c := by
  have hinit : ConfInv S Inv R ⟨w, fun _ => none⟩ :=
    ⟨hw, (fun _ _ _ _ _ hi => nomatch hi), (fun _ _ hi => nomatch hi)⟩
  induction hc with
  | refl => exact hinit
  | tail _ hstep ih => exact ih.step hG hstep

/-- What the guarantee keeps holds of the committed store in every interleaving. -/
theorem Reachable.invariant (hG : Guarantee S Inv R) {w : σ} (hw : Inv w)
    (hc : Reachable S w c) : Inv c.world :=
  (hc.confInv hG hw).world

/-- How a transaction that is about to commit has run. -/
theorem Reachable.completes (hG : Guarantee S Inv R) {w : σ} (hw : Inv w)
    (hc : Reachable S w c) {i : ℕ} {request : ι} {a : α} {log : Log ρ}
    (hi : c.live i = some ⟨request, .done a, log⟩) :
    Inv c.world ∧ ∃ u, Inv u ∧ S.starts u request ∧
      Completes (Within Inv (R request)) c.world (S.body request) ⟨u, []⟩ a ⟨c.world, log⟩ := by
  have hall := hc.confInv hG hw
  obtain ⟨u, hu, hstart, hruns⟩ := hall.runs _ _ hi
  have hR := (hG.rely request).within Inv
  exact ⟨hall.world, u, hu, hstart, (hruns.completes hR (hR.refl _ _) .done).1⟩

/-- What every commit and every change outside of transactions allows relates any two stores of
    one run. -/
theorem Reachable.evolves (hG : Guarantee S Inv R) {E : σ → σ → Prop} (hrefl : ∀ w, E w w)
    (htrans : ∀ {w w' w''}, E w w' → E w' w'' → E w w'')
    (henv : ∀ {live w w'}, Inv w → S.environment live w w' → E w w')
    (hcommit : ∀ {w u request a log}, Inv w → Inv u → S.starts u request → S.commits w request →
      Completes (Within Inv (R request)) w (S.body request) ⟨u, []⟩ a ⟨w, log⟩ →
      E w (S.settle request a (view w log)))
    {w : σ} (hw : Inv w) (hc : Reachable S w c)
    (hsteps : Relation.ReflTransGen (Step S) c c') : E c.world c'.world := by
  induction hsteps with
  | refl => exact hrefl _
  | @tail d d' hd hstep ih =>
    refine htrans ih ?_
    have hdreach : Reachable S w d := hc.trans hd
    cases hstep with
    | start | select | take | skip | abort => exact hrefl _
    | commit hi hok =>
      obtain ⟨hinv, u, hu, hstart, hall⟩ := hdreach.completes hG hw hi
      exact hcommit hinv hu hstart hok hall
    | environment h => exact henv (hdreach.invariant hG hw) h

end Rule

end ReadCommitted
