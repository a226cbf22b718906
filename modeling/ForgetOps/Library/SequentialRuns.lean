import ForgetOps.Library.ReadCommitted

/-
  Transactions run one after the other.

  `Script.run` executes a script with nothing else going on but given changes of the store, one of
  them before each statement. `run_steps` makes it a run of any system that allows the changes, so
  that what is computed here is a possible interleaving.
-/

namespace ReadCommitted

open RowStore

variable {σ κ : Type} {ρ : κ → Type} [RowStore σ κ ρ] {α ι : Type}

/-- What a script that has returned leaves behind: its answer, the store and its writes, and the
    changes that are still to come. -/
structure Outcome (σ : Type) {κ : Type} (ρ : κ → Type) (α : Type) where
  answer : α
  world : σ
  log : Log ρ
  rest : List (σ → σ)

/-- The store after the first of the changes, if there is one. -/
def nextWorld (changes : List (σ → σ)) (w : σ) : σ := (changes.head?.getD id) w

/-- The script from `w` and `log` on, with the next of `changes` before each statement. -/
def Script.run : Script σ ρ α → σ → Log ρ → List (σ → σ) → Except String (Outcome σ ρ α)
  | .done answer, w, log, changes => .ok ⟨answer, w, log, changes⟩
  | .fail code, _, _, _ => .error code
  | .select q next, w, log, changes =>
    (next (q (view (nextWorld changes w) log))).run (nextWorld changes w) log changes.tail
  | .acquire k q next, w, log, changes =>
    match q (row (view (nextWorld changes w) log) k) with
    | some (b, v) => (next (some b)).run (nextWorld changes w) (log ++ [⟨k, v⟩]) changes.tail
    | none => (next none).run (nextWorld changes w) log changes.tail

/-! ### Statement by statement -/

theorem run_read {β : Type} (q : σ → β) (f : β → Script σ ρ α) (w : σ) (log : Log ρ) :
    (Script.read q >>= f).run w log [] = (f (q (view w log))).run w log [] := rfl

theorem run_update {β : Type} {k : κ} {q : ρ k → Option (β × ρ k)} {b : β} {v : ρ k} {w : σ}
    {log : Log ρ} (f : Option β → Script σ ρ α) (h : q (row (view w log) k) = some (b, v)) :
    (Script.update k q >>= f).run w log [] = (f (some b)).run w (log ++ [⟨k, v⟩]) [] := by
  change Script.run (.acquire k q f) w log [] = _
  rw [Script.run]
  simp only [nextWorld, List.head?_nil, Option.getD_none, id, h, List.tail_nil]

theorem run_update_none {β : Type} {k : κ} {q : ρ k → Option (β × ρ k)} {w : σ} {log : Log ρ}
    (f : Option β → Script σ ρ α) (h : q (row (view w log) k) = none) :
    (Script.update k q >>= f).run w log [] = (f none).run w log [] := by
  change Script.run (.acquire k q f) w log [] = _
  rw [Script.run]
  simp only [nextWorld, List.head?_nil, Option.getD_none, id, h, List.tail_nil]

theorem run_select {β : Type} {q : σ → β} {next : β → Script σ ρ α} {w : σ} {log : Log ρ} :
    Script.run (.select q next) w log [] = (next (q (view w log))).run w log [] := rfl

theorem run_acquire {β : Type} {k : κ} {q : ρ k → Option (β × ρ k)}
    {next : Option β → Script σ ρ α} {b : β} {v : ρ k} {w : σ} {log : Log ρ}
    (h : q (row (view w log) k) = some (b, v)) :
    Script.run (.acquire k q next) w log [] = (next (some b)).run w (log ++ [⟨k, v⟩]) [] := by
  rw [Script.run]
  simp only [nextWorld, List.head?_nil, Option.getD_none, id, h, List.tail_nil]

/-- What comes after a script begins where the script has ended. -/
theorem run_bind {β : Type} {s : Script σ ρ α} {f : α → Script σ ρ β} {w : σ} {log : Log ρ}
    {changes : List (σ → σ)} {o : Outcome σ ρ α} (h : s.run w log changes = .ok o) :
    (s >>= f).run w log changes = (f o.answer).run o.world o.log o.rest := by
  change (s.bind f).run w log changes = _
  induction s generalizing w log changes with
  | done a =>
    cases h
    rfl
  | fail code => cases h
  | select q next ih => exact ih _ h
  | acquire k q next ih =>
    simp only [Script.run, Script.bind] at h ⊢
    split at h
    · exact ih _ h
    · exact ih _ h

/-- Nothing is running but one transaction. -/
def alone (w : σ) (t : Live σ ρ ι α) : Conf σ ρ ι α :=
  Conf.set ⟨w, fun _ => none⟩ 0 (some t)

section Steps

variable {S : System σ ρ ι α} {request : ι} {w : σ}

omit [RowStore σ κ ρ] in
theorem live_alone (t : Live σ ρ ι α) (i : ℕ) :
    (alone w t).live i = if i = 0 then some t else none :=
  Conf.live_set

omit [RowStore σ κ ρ] in
theorem alone_free (t : Live σ ρ ι α) (k : κ) : (alone w t).Free 0 k := by
  intro j t' hj hlive
  rw [live_alone, if_neg hj] at hlive
  cases hlive

omit [RowStore σ κ ρ] in
theorem alone_set (t t' : Live σ ρ ι α) : (alone w t).set 0 (some t') = alone w t' := by
  simp only [alone, Conf.set, Function.update_idem]

/-- The changes are ones the system allows for. -/
def Allowed (S : System σ ρ ι α) (changes : List (σ → σ)) : Prop :=
  ∀ change ∈ changes, ∀ live w, Relation.ReflTransGen (S.environment live) w (change w)

omit [RowStore σ κ ρ] in
theorem allowed_nil (S : System σ ρ ι α) : Allowed S [] := fun _ h => nomatch h

omit [RowStore σ κ ρ] in
theorem Allowed.tail {changes : List (σ → σ)} (h : Allowed S changes) : Allowed S changes.tail :=
  fun change hmem => h change (List.mem_of_mem_tail hmem)

/-- A change while one transaction is running. -/
theorem steps_change {t : Live σ ρ ι α} {w' : σ}
    (h : ∀ live, Relation.ReflTransGen (S.environment live) w w') :
    Relation.ReflTransGen (Step S) (alone w t) (alone w' t) := by
  generalize hlive : (fun request => ∃ i t', (alone w t).live i = some t' ∧ t'.request = request) =
    live
  have hsteps := h live
  clear h
  induction hsteps with
  | refl => exact .refl
  | @tail w₁ w₂ _ hstep ih =>
    have hlive₁ : (fun request => ∃ i t', (alone w₁ t).live i = some t' ∧ t'.request = request) =
        live := hlive
    rw [← hlive₁] at hstep
    exact ih.tail (.environment hstep)

theorem steps_nextWorld {changes : List (σ → σ)} (h : Allowed S changes) (t : Live σ ρ ι α) :
    Relation.ReflTransGen (Step S) (alone w t) (alone (nextWorld changes w) t) := by
  cases changes with
  | nil => exact .refl
  | cons change changes => exact steps_change fun live => h change List.mem_cons_self live w

theorem run_steps {s : Script σ ρ α} {log : Log ρ} {changes : List (σ → σ)} {o : Outcome σ ρ α}
    (hallowed : Allowed S changes) (h : s.run w log changes = .ok o) :
    Relation.ReflTransGen (Step S) (alone w ⟨request, s, log⟩)
        (alone o.world ⟨request, .done o.answer, o.log⟩) ∧ Allowed S o.rest := by
  induction s generalizing w log changes with
  | done a =>
    cases h
    exact ⟨.refl, hallowed⟩
  | fail code => cases h
  | select q next ih =>
    obtain ⟨hrest, hallowed'⟩ := ih _ hallowed.tail h
    refine ⟨(steps_nextWorld hallowed _).trans (.head ?_ hrest), hallowed'⟩
    have hstep := Step.select (S := S) (live_alone (w := nextWorld changes w)
      (⟨request, .select q next, log⟩ : Live σ ρ ι α) 0)
    rwa [alone_set] at hstep
  | acquire k q next ih =>
    rw [Script.run] at h
    have hlive := live_alone (w := nextWorld changes w)
      (⟨request, .acquire k q next, log⟩ : Live σ ρ ι α) 0
    have hfree := alone_free (w := nextWorld changes w)
      (⟨request, .acquire k q next, log⟩ : Live σ ρ ι α) k
    split at h
    · next b v hq =>
      obtain ⟨hrest, hallowed'⟩ := ih _ hallowed.tail h
      refine ⟨(steps_nextWorld hallowed _).trans (.head ?_ hrest), hallowed'⟩
      have hstep := Step.take (S := S) hlive hfree hq
      rwa [alone_set] at hstep
    · next hq =>
      obtain ⟨hrest, hallowed'⟩ := ih _ hallowed.tail h
      refine ⟨(steps_nextWorld hallowed _).trans (.head ?_ hrest), hallowed'⟩
      have hstep := Step.skip (S := S) hlive hfree hq
      rwa [alone_set] at hstep

/-- A change while nothing is running. -/
theorem steps_idle {w' : σ} (h : S.environment (fun _ => False) w w') :
    Step S (⟨w, fun _ => none⟩ : Conf σ ρ ι α) ⟨w', fun _ => none⟩ := by
  refine Step.environment (c := ⟨w, fun _ => none⟩) ?_
  have hlive : (fun request => ∃ i t, (⟨w, fun _ => none⟩ : Conf σ ρ ι α).live i = some t ∧
      t.request = request) = fun _ => False := by
    funext request
    simp
  rwa [hlive]

theorem steps_start (h : S.starts w request) :
    Step S (⟨w, fun _ => none⟩ : Conf σ ρ ι α) (alone w ⟨request, S.body request, []⟩) :=
  Step.start (c := ⟨w, fun _ => none⟩) rfl h

theorem steps_commit {a : α} {log : Log ρ} (h : S.commits w request) :
    Step S (alone w ⟨request, .done a, log⟩)
      ⟨S.settle request a (view w log), fun _ => none⟩ := by
  have hstep := Step.commit (S := S) (live_alone (w := w)
    (⟨request, .done a, log⟩ : Live σ ρ ι α) 0) h
  have hnone : Function.update (alone w (⟨request, .done a, log⟩ : Live σ ρ ι α)).live 0 none =
      fun _ => none := by
    simp [alone, Conf.set]
  rwa [Conf.set, hnone] at hstep

/-- A whole transaction. -/
theorem steps_transaction {o : Outcome σ ρ α} {changes : List (σ → σ)}
    (hallowed : Allowed S changes) (hstart : S.starts w request)
    (h : (S.body request).run w [] changes = .ok o) (hok : S.commits o.world request) :
    Relation.ReflTransGen (Step S) (⟨w, fun _ => none⟩ : Conf σ ρ ι α)
      ⟨S.settle request o.answer (view o.world o.log), fun _ => none⟩ :=
  .head (steps_start hstart) ((run_steps hallowed h).1.tail (steps_commit hok))

theorem run_world {s : Script σ ρ α} {log : Log ρ} {o : Outcome σ ρ α}
    (h : s.run w log [] = .ok o) : o.world = w := by
  induction s generalizing log with
  | done a =>
    cases h
    rfl
  | fail code => cases h
  | select q next ih => exact ih _ h
  | acquire k q next ih =>
    rw [Script.run] at h
    split at h
    · exact ih _ h
    · exact ih _ h

end Steps

end ReadCommitted
