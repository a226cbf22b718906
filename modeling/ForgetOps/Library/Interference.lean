import ForgetOps.Library.CrashLogic

/-
  Programs that run side by side on one state.

  Processes perform their effects one at a time, in any order, and may be killed at any point.
  `among` is the weakest precondition of a program whose state others change between its effects:
  they do what it relies on, and it does what it guarantees them. `pool_rule` puts together what was
  shown of each program alone.
-/

namespace CrashLogic

open Prog

variable {E : Type} {R : E → Type} {α β ε ε' σ : Type}

/-! ## Pools -/

/-- The processes that run, and what those that have ended returned. -/
structure Pool (E : Type) (R : E → Type) (α σ : Type) where
  state : σ
  live : ℕ → Option (Prog E R α)
  returned : List α

/-- No process runs yet. -/
def Pool.initial (s : σ) : Pool E R α σ := ⟨s, fun _ => none, []⟩

/-- The environment may answer each process in its own way. -/
inductive PoolStep (env : ℕ → Env E R σ) (starts : Prog E R α → Prop) :
    Pool E R α σ → Pool E R α σ → Prop
  | start {p i prog} : p.live i = none → starts prog →
    PoolStep env starts p { p with live := Function.update p.live i (some prog) }
  | perform {p i e next r s'} : p.live i = some (.perform e next) → env i p.state e r s' →
    PoolStep env starts p
      { p with state := s', live := Function.update p.live i (some (next r)) }
  | finish {p i a} : p.live i = some (.pure a) →
    PoolStep env starts p
      { p with live := Function.update p.live i none, returned := a :: p.returned }
  | kill {p i} : PoolStep env starts p { p with live := Function.update p.live i none }

/-! ## Preconditions among others -/

/-- Whatever others do within `rely`, the program keeps to `guar` and returns with `Q`. -/
def among (env : Env E R σ) (rely guar : σ → σ → Prop) :
    Prog E R α → (α → σ → Prop) → σ → Prop
  | .pure a, Q, s => ∀ s₁, rely s s₁ → Q a s₁
  | .perform e next, Q, s => ∀ s₁, rely s s₁ → ∀ r s₂, env s₁ e r s₂ →
    guar s₁ s₂ ∧ among env rely guar (next r) Q s₂

section Rules

variable {env : Env E R σ} {rely guar : σ → σ → Prop} {s s' : σ} {Q : α → σ → Prop}

theorem among_stable (htrans : ∀ a b c, rely a b → rely b c → rely a c) {prog : Prog E R α}
    (h : among env rely guar prog Q s) (hs : rely s s') : among env rely guar prog Q s' := by
  cases prog with
  | pure a => exact fun s₁ hs₁ => h s₁ (htrans _ _ _ hs hs₁)
  | perform e next => exact fun s₁ hs₁ => h s₁ (htrans _ _ _ hs hs₁)

theorem among_pure {a : α} :
    among env rely guar (Pure.pure a : Prog E R α) Q s ↔ ∀ s₁, rely s s₁ → Q a s₁ := Iff.rfl

theorem among_effect {e : E} {Q : R e → σ → Prop} :
    among env rely guar (effect e : Prog E R (R e)) Q s ↔
      ∀ s₁, rely s s₁ → ∀ r s₂, env s₁ e r s₂ → guar s₁ s₂ ∧ ∀ s₃, rely s₂ s₃ → Q r s₃ := Iff.rfl

theorem among_mono {prog : Prog E R α} {Q' : α → σ → Prop} (hQ : ∀ a s, Q a s → Q' a s)
    (h : among env rely guar prog Q s) : among env rely guar prog Q' s := by
  induction prog generalizing s with
  | pure a => exact fun s₁ hs₁ => hQ a s₁ (h s₁ hs₁)
  | perform e next ih =>
    intro s₁ hs₁ r s₂ hanswer
    obtain ⟨hguar, hnext⟩ := h s₁ hs₁ r s₂ hanswer
    exact ⟨hguar, ih r hnext⟩

/-- A program after another, whose postcondition is its precondition. -/
theorem among_bind (hrefl : ∀ a, rely a a) {x : Prog E R α} {f : α → Prog E R β}
    {Q : β → σ → Prop}
    (h : among env rely guar x (fun a s' => among env rely guar (f a) Q s') s) :
    among env rely guar (x >>= f) Q s := by
  show among env rely guar (x.bind f) Q s
  induction x generalizing s with
  | pure a => exact h s (hrefl s)
  | perform e next ih =>
    intro s₁ hs₁ r s₂ hanswer
    obtain ⟨hguar, hnext⟩ := h s₁ hs₁ r s₂ hanswer
    exact ⟨hguar, ih r hnext⟩

/-- What a program leaves, on which others have worked since. -/
theorem among_map (hrefl : ∀ a, rely a a) {x : Prog E R α} {f : α → β} {Q : β → σ → Prop}
    (h : among env rely guar x (fun a s' => ∀ s₁, rely s' s₁ → Q (f a) s₁) s) :
    among env rely guar (f <$> x) Q s :=
  among_bind hrefl h

/-- The rule for `x?`: an error ends the program. -/
theorem among_try (hrefl : ∀ a, rely a a) {x : ExceptT ε (Prog E R) α}
    {f : α → ExceptT ε (Prog E R) β} {Q : Except ε β → σ → Prop}
    (h : among env rely guar x.run (fun r s' => match r with
        | .ok a => among env rely guar (f a).run Q s'
        | .error e => ∀ s₁, rely s' s₁ → Q (.error e) s₁) s) :
    among env rely guar (x >>= f).run Q s := by
  rw [ExceptT.run_bind]
  refine among_bind hrefl (among_mono (fun r s' hr => ?_) h)
  cases r with
  | ok a => exact hr
  | error e => exact hr

end Rules

/-! ## The rule for pools -/

section Pools

variable {env : ℕ → Env E R σ} {starts : Prog E R α → Prop} {rely guar : ℕ → σ → σ → Prop}
  {Q : α → σ → Prop}

/-- What holds of a pool: of each process its precondition, and of what was returned the
    postcondition. -/
structure Pool.Holds (env : ℕ → Env E R σ) (rely guar : ℕ → σ → σ → Prop) (Q : α → σ → Prop)
    (p : Pool E R α σ) : Prop where
  live : ∀ i prog, p.live i = some prog → among (env i) (rely i) (guar i) prog Q p.state
  returned : ∀ a ∈ p.returned, Q a p.state

theorem Pool.Holds.update {p : Pool E R α σ} (h : p.Holds env rely guar Q) {i : ℕ}
    {prog : Option (Prog E R α)}
    (hprog : ∀ x, prog = some x → among (env i) (rely i) (guar i) x Q p.state) :
    Pool.Holds env rely guar Q { p with live := Function.update p.live i prog } where
  live j x hx := by
    have hx : Function.update p.live i prog j = some x := hx
    by_cases hj : j = i
    · subst hj
      rw [Function.update_self] at hx
      exact hprog x hx
    · rw [Function.update_of_ne hj] at hx
      exact h.live j x hx
  returned := h.returned

/-- Each process keeps to what the others rely on: then what each program promises alone, from a
    state with `I`, holds in any order of their effects. -/
theorem pool_keeps {I : σ → Prop} (hrefl : ∀ i a, rely i a a)
    (htrans : ∀ i a b c, rely i a b → rely i b c → rely i a c)
    (hguar : ∀ i j, i ≠ j → ∀ a b, guar j a b → rely i a b)
    (hI : ∀ i s s', guar i s s' → I s → I s')
    (hQ : ∀ i a s s', guar i s s' → Q a s → Q a s')
    (hstarts : ∀ i prog s, starts prog → I s → among (env i) (rely i) (guar i) prog Q s)
    {p₀ p : Pool E R α σ} (hp₀ : p₀.Holds env rely guar Q) (hI₀ : I p₀.state)
    (hp : Relation.ReflTransGen (PoolStep env starts) p₀ p) :
    p.Holds env rely guar Q ∧ I p.state := by
  induction hp with
  | refl => exact ⟨hp₀, hI₀⟩
  | @tail p p' _ hstep ih =>
    obtain ⟨ih, hstate⟩ := ih
    cases hstep with
    | start hfree hprog =>
      refine ⟨ih.update fun x hx => ?_, hstate⟩
      obtain rfl := Option.some.inj hx
      exact hstarts _ _ _ hprog hstate
    | kill => exact ⟨ih.update fun x hx => (by cases hx), hstate⟩
    | @finish i a hi =>
      have hreturns := ih.live i _ hi _ (hrefl i _)
      have hrest : Pool.Holds env rely guar Q { p with live := Function.update p.live i none } :=
        ih.update fun x hx => by cases hx
      exact ⟨⟨hrest.live, List.forall_mem_cons.mpr ⟨hreturns, ih.returned⟩⟩, hstate⟩
    | @perform i e next r s' hi hanswer =>
      obtain ⟨hkeeps, hnext⟩ := ih.live i _ hi _ (hrefl i _) r s' hanswer
      refine ⟨⟨?_, ?_⟩, hI i _ _ hkeeps hstate⟩
      · intro j x hx
        have hx : Function.update p.live i (some (next r)) j = some x := hx
        by_cases hj : j = i
        · subst hj
          rw [Function.update_self] at hx
          obtain rfl := Option.some.inj hx
          exact hnext
        · rw [Function.update_of_ne hj] at hx
          have hrely : rely j p.state s' := hguar j i hj _ _ hkeeps
          exact among_stable (htrans j) (ih.live j x hx) hrely
      · exact fun a ha => hQ i a _ _ hkeeps (ih.returned a ha)

/-- A pool in which no process runs yet holds whatever is asked of it. -/
theorem Pool.holds_initial (s : σ) :
    (Pool.initial s : Pool E R α σ).Holds env rely guar Q where
  live _ _ h := by cases h
  returned _ h := absurd h List.not_mem_nil

/-- The rule for a pool in which no process runs yet. -/
theorem pool_rule (hrefl : ∀ i a, rely i a a)
    (htrans : ∀ i a b c, rely i a b → rely i b c → rely i a c)
    (hguar : ∀ i j, i ≠ j → ∀ a b, guar j a b → rely i a b)
    (hQ : ∀ i a s s', guar i s s' → Q a s → Q a s')
    (hstarts : ∀ i prog s, starts prog → among (env i) (rely i) (guar i) prog Q s) {s : σ}
    {p : Pool E R α σ} (hp : Relation.ReflTransGen (PoolStep env starts) (.initial s) p) :
    p.Holds env rely guar Q :=
  (pool_keeps (I := fun _ => True) hrefl htrans hguar (fun _ _ _ _ h => h) hQ
    (fun i prog s hprog _ => hstarts i prog s hprog) (Pool.holds_initial s) trivial hp).1

theorem Pool.Holds.mono {Q' : α → σ → Prop} {p : Pool E R α σ} (hQ : ∀ a s, Q a s → Q' a s)
    (h : p.Holds env rely guar Q) : p.Holds env rely guar Q' where
  live i prog hprog := among_mono hQ (h.live i prog hprog)
  returned a ha := hQ a _ (h.returned a ha)

end Pools

/-! ## Runs of one program -/

section Runs

variable {env : Env E R σ} {s s' s'' : σ} {o : Option β}

theorem Run.effect {e : E} {r : R e} (h : env s e r s') :
    Run env (effect e : Prog E R (R e)) s (some r) s' :=
  .perform h .pure

theorem Run.bind {x : Prog E R α} {f : α → Prog E R β} {a : α} {oa : Option α}
    (h : Run env x s oa s') (ha : oa = some a) (h' : Run env (f a) s' o s'') :
    Run env (x >>= f) s o s'' := by
  show Run env (x.bind f) s o s''
  induction h with
  | pure =>
    obtain rfl := Option.some.inj ha
    exact h'
  | lost | late => cases ha
  | perform hanswer _ ih => exact .perform hanswer (ih ha h')

theorem Run.map {x : Prog E R α} {f : α → β} {a : α} (h : Run env x s (some a) s') :
    Run env (f <$> x) s (some (f a)) s' :=
  h.bind rfl .pure

theorem Run.andThen {x : ExceptT ε (Prog E R) α} {f : α → ExceptT ε (Prog E R) β} {a : α}
    {o : Option (Except ε β)} (h : Run env x.run s (some (.ok a)) s')
    (h' : Run env (f a).run s' o s'') : Run env (x >>= f).run s o s'' := by
  rw [ExceptT.run_bind]
  exact h.bind rfl h'

/-- A process that nothing disturbs goes through such a run. -/
theorem pool_run {env : ℕ → Env E R σ} {starts : Prog E R α → Prop} {i : ℕ} {prog : Prog E R α}
    {o : Option α} {a : α} (h : Run (env i) prog s o s') (ho : o = some a) {p : Pool E R α σ}
    (hstate : p.state = s) (hi : p.live i = some prog) :
    Relation.ReflTransGen (PoolStep env starts) p
      ⟨s', Function.update p.live i none, a :: p.returned⟩ := by
  induction h generalizing p with
  | pure =>
    obtain rfl := Option.some.inj ho
    rw [← hstate]
    exact .single (.finish hi)
  | lost | late => cases ho
  | @perform e next s r s₁ o s₂ hanswer _ ih =>
    rw [← hstate] at hanswer
    have hrest := ih ho (p := ⟨s₁, Function.update p.live i (some (next r)), p.returned⟩) rfl
      (Function.update_self _ _ _)
    rw [show (⟨s₁, Function.update p.live i (some (next r)), p.returned⟩ : Pool E R α σ).live =
      Function.update p.live i (some (next r)) from rfl, Function.update_idem] at hrest
    exact .head (.perform hi hanswer) hrest

/-- It starts, runs and returns while no process is at its place. -/
theorem pool_call {env : ℕ → Env E R σ} {starts : Prog E R α → Prop} {i : ℕ} {prog : Prog E R α}
    {a : α} {returned : List α} (h : Run (env i) prog s (some a) s') (hstarts : starts prog) :
    Relation.ReflTransGen (PoolStep env starts) ⟨s, fun _ => none, returned⟩
      ⟨s', fun _ => none, a :: returned⟩ := by
  have hidle : Function.update (Function.update (fun _ => none) i (some prog)) i none =
      fun _ : ℕ => (none : Option (Prog E R α)) := by
    rw [Function.update_idem]
    exact Function.update_eq_self i _
  have hlive : Function.update (fun _ : ℕ => (none : Option (Prog E R α))) i (some prog) i =
    some prog := Function.update_self _ _ _
  have hrun : Relation.ReflTransGen (PoolStep env starts)
      ⟨s, Function.update (fun _ => none) i (some prog), returned⟩
      ⟨s', Function.update (Function.update (fun _ => none) i (some prog)) i none,
        a :: returned⟩ := pool_run h rfl rfl hlive
  rw [hidle] at hrun
  exact .head (.start rfl hstarts) hrun

end Runs

end CrashLogic
