import ForgetOps.Library.SequentialRuns

/-
  The history of a run: what was committed, and with which answers, in the order of the commits.

  `Committed.invariant` keeps a property of the history and the store: at its commit a transaction
  has run as if it had locked its rows just then. `Committed.transaction` runs one more alone.
-/

namespace ReadCommitted

open RowStore

section Histories

variable {σ κ : Type} {ρ : κ → Type} [RowStore σ κ ρ] {ι α : Type}

/-- A run from `w` and its commits. A commit that leaves the store as it is may go without a record,
    as it may have been an abort. -/
inductive Committed (S : System σ ρ ι α) (w : σ) : List (ι × α) → Conf σ ρ ι α → Prop
  | initial : Committed S w [] ⟨w, fun _ => none⟩
  | commit {history c i request a log} (hc : Committed S w history c)
      (hi : c.live i = some ⟨request, .done a, log⟩) (h : S.commits c.world request) :
      Committed S w (history ++ [(request, a)])
        { c.set i none with world := S.settle request a (view c.world log) }
  | other {history c c'} (hc : Committed S w history c) (hstep : Step S c c')
      (hworld : c'.world = c.world) : Committed S w history c'
  | environment {history c w'} (hc : Committed S w history c)
      (h : S.environment (fun request => ∃ i t, c.live i = some t ∧ t.request = request)
        c.world w') :
      Committed S w history { c with world := w' }

variable {S : System σ ρ ι α} {w : σ} {history : List (ι × α)} {c : Conf σ ρ ι α}

theorem Committed.reachable (h : Committed S w history c) : Reachable S w c := by
  induction h with
  | initial => exact .refl
  | commit _ hi hok ih => exact ih.tail (.commit hi hok)
  | other _ hstep _ ih => exact ih.tail hstep
  | environment _ henv ih => exact ih.tail (.environment henv)

/-- Every run has a history. -/
theorem Reachable.committed (h : Reachable S w c) : ∃ history, Committed S w history c := by
  induction h with
  | refl => exact ⟨[], .initial⟩
  | tail _ hstep ih =>
    obtain ⟨history, hc⟩ := ih
    cases hstep with
    | commit hi hok => exact ⟨_, hc.commit hi hok⟩
    | environment henv => exact ⟨_, hc.environment henv⟩
    | start hi h => exact ⟨_, hc.other (.start hi h) rfl⟩
    | select hi => exact ⟨_, hc.other (.select hi) rfl⟩
    | take hi hfree hq => exact ⟨_, hc.other (.take hi hfree hq) rfl⟩
    | skip hi hfree hq => exact ⟨_, hc.other (.skip hi hfree hq) rfl⟩
    | abort => exact ⟨_, hc.other .abort rfl⟩

/-- What holds at the start, and what every commit and every change outside of transactions keeps,
    holds of the history and the store. -/
theorem Committed.invariant {Inv : σ → Prop} {R : ι → List κ → σ → σ → Prop}
    (hG : Guarantee S Inv R) {P : List (ι × α) → σ → Prop} (hw : Inv w) (hinitial : P [] w)
    (hcommit : ∀ {history w u request a log}, P history w → Inv w → Inv u → S.starts u request →
      S.commits w request →
      Completes (Within Inv (R request)) w (S.body request) ⟨u, []⟩ a ⟨w, log⟩ →
      P (history ++ [(request, a)]) (S.settle request a (view w log)))
    (henvironment : ∀ {history live w w'}, P history w → Inv w → S.environment live w w' →
      P history w')
    (h : Committed S w history c) : P history c.world := by
  induction h with
  | initial => exact hinitial
  | commit hc hi hok ih =>
    obtain ⟨hinv, u, hu, hstart, hall⟩ := hc.reachable.completes hG hw hi
    exact hcommit ih hinv hu hstart hok hall
  | other _ _ hworld ih =>
    rw [hworld]
    exact ih
  | environment hc henv ih =>
    exact henvironment ih (hc.reachable.invariant hG hw) henv

/-! ## One transaction more -/

theorem Committed.run {w' : σ} {request : ι} {s : Script σ ρ α} {log : Log ρ} {o : Outcome σ ρ α}
    (hc : Committed S w history (alone w' ⟨request, s, log⟩)) (h : s.run w' log [] = .ok o) :
    Committed S w history (alone w' ⟨request, .done o.answer, o.log⟩) := by
  induction s generalizing log with
  | done a =>
    cases h
    exact hc
  | fail code => cases h
  | select q next ih =>
    have hstep := Step.select (S := S) (live_alone (w := w')
      (⟨request, .select q next, log⟩ : Live σ ρ ι α) 0)
    rw [alone_set] at hstep
    exact ih _ (hc.other hstep rfl) h
  | acquire k q next ih =>
    rw [Script.run] at h
    have hlive := live_alone (w := w') (⟨request, .acquire k q next, log⟩ : Live σ ρ ι α) 0
    have hfree := alone_free (w := w') (⟨request, .acquire k q next, log⟩ : Live σ ρ ι α) k
    split at h
    · next b v hq =>
      have hstep := Step.take (S := S) hlive hfree hq
      rw [alone_set] at hstep
      exact ih _ (hc.other hstep rfl) h
    · next hq =>
      have hstep := Step.skip (S := S) hlive hfree hq
      rw [alone_set] at hstep
      exact ih _ (hc.other hstep rfl) h

theorem Committed.transaction {w' : σ} {request : ι} {o : Outcome σ ρ α}
    (hc : Committed S w history ⟨w', fun _ => none⟩) (hstart : S.starts w' request)
    (h : (S.body request).run w' [] [] = .ok o) (hok : S.commits w' request) :
    Committed S w (history ++ [(request, o.answer)])
      ⟨S.settle request o.answer (view w' o.log), fun _ => none⟩ := by
  have hstarted : Committed S w history (alone w' ⟨request, S.body request, []⟩) :=
    hc.other (steps_start hstart) rfl
  have hcommitted := (hstarted.run h).commit (i := 0) rfl hok
  have hnone : Function.update
      (alone w' (⟨request, .done o.answer, o.log⟩ : Live σ ρ ι α)).live 0 none =
      fun _ => none := by
    simp [alone, Conf.set]
  rwa [Conf.set, hnone] at hcommitted

end Histories

end ReadCommitted
