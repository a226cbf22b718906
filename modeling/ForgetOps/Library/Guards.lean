import Mathlib.Tactic

/-
  Sequences of checks in `Except`: what it means that such a sequence returns.
-/

namespace Guards

variable {ε ε' α β : Type}

/-- `if (c) throw e;`. -/
def refuse (c : Prop) [Decidable c] (e : ε) : Except ε Unit := if c then throw e else pure ()

/-- `option.ok_or(e)`. -/
def okOr (o : Option α) (e : ε) : Except ε α := o.elim (throw e) pure

@[simp] theorem pure_ok {a b : α} : (pure a : Except ε α) = .ok b ↔ a = b := by
  simp [pure, Except.pure]

@[simp] theorem throw_ok {e : ε} {a : α} : (throw e : Except ε α) = .ok a ↔ False := by
  simp [throw, throwThe, MonadExceptOf.throw]

theorem bind_ok {x : Except ε α} {f : α → Except ε β} {b : β} :
    (x >>= f) = .ok b ↔ ∃ a, x = .ok a ∧ f a = .ok b := by
  cases x <;> simp [bind, Except.bind]

theorem mapError_ok {g : ε → ε'} {x : Except ε α} {a : α} :
    x.mapError g = .ok a ↔ x = .ok a := by
  cases x <;> simp [Except.mapError]

@[simp] theorem refuse_ok {c : Prop} [Decidable c] {e : ε} {u : Unit} :
    refuse c e = .ok u ↔ ¬ c := by
  unfold refuse
  split <;> simp_all

@[simp] theorem refuse_bind_ok {c : Prop} [Decidable c] {e : ε} {f : Unit → Except ε α} {a : α} :
    (refuse c e >>= f) = .ok a ↔ ¬ c ∧ f () = .ok a := by
  rw [bind_ok]
  simp only [refuse_ok]
  exact ⟨fun ⟨_, hc, h⟩ => ⟨hc, h⟩, fun ⟨hc, h⟩ => ⟨(), hc, h⟩⟩

@[simp] theorem okOr_ok {o : Option α} {e : ε} {a : α} : okOr o e = .ok a ↔ o = some a := by
  cases o <;> simp [okOr]

/-! ## What is thrown -/

theorem bind_error {x : Except ε α} {f : α → Except ε β} {e : ε} :
    (x >>= f) = .error e ↔ x = .error e ∨ ∃ a, x = .ok a ∧ f a = .error e := by
  cases x <;> simp [bind, Except.bind]

theorem mapError_error {g : ε → ε'} {x : Except ε α} {e : ε'} :
    x.mapError g = .error e ↔ ∃ d, x = .error d ∧ g d = e := by
  cases x <;> simp [Except.mapError]

theorem refuse_error {c : Prop} [Decidable c] {e e' : ε} :
    refuse c e = .error e' ↔ c ∧ e = e' := by
  unfold refuse
  split <;> simp_all [throw, throwThe, MonadExceptOf.throw, pure, Except.pure]

theorem okOr_error {o : Option α} {e e' : ε} : okOr o e = .error e' ↔ o = none ∧ e = e' := by
  cases o <;> simp [okOr, throw, throwThe, MonadExceptOf.throw, pure, Except.pure]

/-- What a sequence throws, its first check throws or the rest after it. -/
theorem refuse_bind_error {c : Prop} [Decidable c] {e e' : ε} {f : Unit → Except ε α} :
    (refuse c e >>= f) = .error e' ↔ (c ∧ e = e') ∨ (¬ c ∧ f () = .error e') := by
  rw [bind_error, refuse_error]
  simp only [refuse_ok]
  exact or_congr_right ⟨fun ⟨_, hc, h⟩ => ⟨hc, h⟩, fun ⟨hc, h⟩ => ⟨(), hc, h⟩⟩

end Guards
