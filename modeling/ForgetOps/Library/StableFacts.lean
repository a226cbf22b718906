import ForgetOps.Library.StoreProducts

/-
  Invariants across the rows of a store.

  A row can stand for a fact that no write takes back, such as what it belongs to, and be good only
  where other rows stand for theirs. `Learns` follows a script from fact to fact: between two
  statements the store may become any store whose rows are good and whose facts are at least those
  known by then. `Reachable.good` says that this is enough: where every script is sound in this
  sense, all rows stay good in every interleaving.
-/

namespace ReadCommitted

open RowStore

section Facts

variable {κ φ : Type}

/-- What is known about the rows. -/
abbrev Facts (κ φ : Type) := κ → Option φ

/-- Nothing known is forgotten. -/
def Facts.Le (known known' : Facts κ φ) : Prop := ∀ k f, known k = some f → known' k = some f

theorem Facts.Le.refl (known : Facts κ φ) : known.Le known := fun _ _ => id

theorem Facts.Le.trans {known known' known'' : Facts κ φ} (h : known.Le known')
    (h' : known'.Le known'') : known.Le known'' :=
  fun k f hk => h' k f (h k f hk)

/-- Nothing is known. -/
def Facts.none : Facts κ φ := fun _ => Option.none

theorem Facts.none_le (known : Facts κ φ) : Facts.none.Le known := nofun

end Facts

/-- The fact a row stands for, and when a row is good. -/
structure RowRules {κ : Type} (ρ : κ → Type) (φ : Type) where
  fact : (k : κ) → ρ k → Option φ
  good : Facts κ φ → (k : κ) → ρ k → Prop
  mono : ∀ {known known' k r}, known.Le known' → good known k r → good known' k r

variable {σ κ φ : Type} {ρ : κ → Type} [RowStore σ κ ρ] {α β : Type}

namespace RowRules

variable (T : RowRules ρ φ)

def facts (w : σ) : Facts κ φ := fun k => T.fact k (row w k)

/-- All rows are good. -/
def Holds (w : σ) : Prop := ∀ k, T.good (T.facts w) k (row w k)

/-- A write that needs no fact. -/
def Keeps (k : κ) (r v : ρ k) : Prop :=
  (∀ f, T.fact k r = some f → T.fact k v = some f) ∧
    ∀ known : Facts κ φ, known k = T.fact k v → T.good known k r → T.good known k v

variable {T}

theorem Keeps.refl {k : κ} (r : ρ k) : T.Keeps k r r := ⟨fun _ => id, fun _ _ => id⟩

theorem facts_write_self (w : σ) (k : κ) (v : ρ k) : T.facts (write w k v) k = T.fact k v := by
  unfold facts
  rw [row_write_self]

/-- A write that takes no fact back. -/
theorem facts_le_write {w : σ} {k : κ} {v : ρ k}
    (h : ∀ f, T.fact k (row w k) = some f → T.fact k v = some f) :
    (T.facts w).Le (T.facts (write w k v)) := by
  intro k' f hf
  by_cases hk : k' = k
  · subst hk
    rw [facts_write_self]
    exact h f hf
  · unfold facts at hf ⊢
    rw [row_write_of_ne _ _ _ _ hk]
    exact hf

theorem Holds.write {w : σ} {k : κ} {v : ρ k} (hw : T.Holds w)
    (hfact : ∀ f, T.fact k (row w k) = some f → T.fact k v = some f)
    (hgood : T.good (T.facts (write w k v)) k v) : T.Holds (write w k v) := by
  intro k'
  by_cases hk : k' = k
  · subst hk
    rw [row_write_self]
    exact hgood
  · rw [row_write_of_ne _ _ _ _ hk]
    exact T.mono (facts_le_write hfact) (hw k')

/-- Only the rows count. -/
theorem Holds.congr {w w' : σ} (hw : T.Holds w) (h : ∀ k, row w' k = row w k) : T.Holds w' := by
  have hfacts : T.facts w' = T.facts w := by
    funext k
    unfold facts
    rw [h]
  intro k
  rw [hfacts, h]
  exact hw k

end RowRules

/-! ## Scripts -/

/-- From what is known the script writes good rows only, and `post` holds of its answer and of what
    is known by then. -/
def Script.Learns (σ : Type) {κ : Type} {ρ : κ → Type} {φ α : Type} [RowStore σ κ ρ]
    (T : RowRules ρ φ) (post : α → Facts κ φ → Prop) : Script σ ρ α → Facts κ φ → Prop
  | .done a, known => post a known
  | .fail _, _ => True
  | .select q next, known => ∀ w : σ, T.Holds w → known.Le (T.facts w) →
      (next (q w)).Learns σ T post (T.facts w)
  | .acquire k q next, known => ∀ w : σ, T.Holds w → known.Le (T.facts w) →
      (∀ b v, q (row w k) = some (b, v) →
        (∀ f, T.fact k (row w k) = some f → T.fact k v = some f) ∧
          T.good (T.facts (write w k v)) k v ∧
          (next (some b)).Learns σ T post (T.facts (write w k v))) ∧
        (q (row w k) = none → (next none).Learns σ T post (T.facts w))

section Learns

variable {T : RowRules ρ φ} {known : Facts κ φ} {post : α → Facts κ φ → Prop}
  {P : β → Facts κ φ → Prop}

theorem learns_bind {s : Script σ ρ β} {f : β → Script σ ρ α} (hs : s.Learns σ T P known)
    (hf : ∀ b known', known.Le known' → P b known' → (f b).Learns σ T post known') :
    (s >>= f).Learns σ T post known := by
  show (Script.bind s f).Learns σ T post known
  induction s generalizing known with
  | done b => exact hf b known (Facts.Le.refl _) hs
  | fail code => trivial
  | select q next ih =>
    intro w hw hle
    exact ih _ (hs w hw hle) fun b known' h => hf b known' (hle.trans h)
  | acquire k q next ih =>
    intro w hw hle
    obtain ⟨htake, hskip⟩ := hs w hw hle
    refine ⟨fun b v hq => ?_, fun hq => ih _ (hskip hq) fun b known' h => hf b known' (hle.trans h)⟩
    obtain ⟨hfact, hgood, hnext⟩ := htake b v hq
    have hmore := RowRules.facts_le_write hfact
    exact ⟨hfact, hgood, ih _ hnext fun b known' h => hf b known' (hle.trans (hmore.trans h))⟩

theorem learns_pure {a : α} (h : post a known) : (pure a : Script σ ρ α).Learns σ T post known := h

theorem learns_failIf {post : Unit → Facts κ φ → Prop} {c : Prop} [Decidable c] {code : String}
    (h : ¬ c → post () known) : (Script.failIf c code : Script σ ρ Unit).Learns σ T post known := by
  unfold Script.failIf
  split
  · trivial
  · next hc => exact h hc

theorem learns_read {q : σ → α}
    (h : ∀ w : σ, T.Holds w → known.Le (T.facts w) → post (q w) (T.facts w)) :
    (Script.read q : Script σ ρ α).Learns σ T post known := h

/-- A statement on a row, which is good as it is found: before the write `known₁` is known, behind it
    `known₂`. -/
theorem learns_update {k : κ} {q : ρ k → Option (α × ρ k)} {post : Option α → Facts κ φ → Prop}
    (htake : ∀ known₁ r b v, known.Le known₁ → known₁ k = T.fact k r → T.good known₁ k r →
      q r = some (b, v) → (∀ f, T.fact k r = some f → T.fact k v = some f) ∧
        ∀ known₂, known₁.Le known₂ → known₂ k = T.fact k v →
          T.good known₂ k v ∧ post (some b) known₂)
    (hskip : ∀ known₁ r, known.Le known₁ → known₁ k = T.fact k r → T.good known₁ k r →
      q r = none → post none known₁) :
    (Script.update k q : Script σ ρ (Option α)).Learns σ T post known := by
  intro w hw hle
  refine ⟨fun b v htaken => ?_, fun hskipped => hskip _ _ hle rfl (hw k) hskipped⟩
  obtain ⟨hfact, hbehind⟩ := htake _ _ b v hle rfl (hw k) htaken
  obtain ⟨hgood, hpost⟩ :=
    hbehind _ (RowRules.facts_le_write hfact) (RowRules.facts_write_self w k v)
  exact ⟨hfact, hgood, hpost⟩

/-- A statement that locks a row, or finds nothing to lock. -/
theorem learns_lock {k : κ} {q : ρ k → Option (α × ρ k)} {post : Option α → Facts κ φ → Prop}
    (hq : ∀ r b v, q r = some (b, v) → v = r)
    (htake : ∀ known₁ r b, known.Le known₁ → known₁ k = T.fact k r → T.good known₁ k r →
      q r = some (b, r) → post (some b) known₁)
    (hskip : ∀ known₁, known.Le known₁ → post none known₁) :
    (Script.update k q : Script σ ρ (Option α)).Learns σ T post known := by
  intro w hw hle
  refine ⟨fun b v htaken => ?_, fun _ => hskip _ hle⟩
  obtain rfl := hq _ _ _ htaken
  rw [write_row]
  exact ⟨fun _ => id, hw k, htake _ _ b hle rfl (hw k) htaken⟩

/-- A statement whose writes need no fact. -/
theorem learns_update_keeps {k : κ} {q : ρ k → Option (α × ρ k)}
    {post : Option α → Facts κ φ → Prop} (hq : ∀ r b v, q r = some (b, v) → T.Keeps k r v)
    (htake : ∀ known₂ r b v, known.Le known₂ → q r = some (b, v) → known₂ k = T.fact k v →
      post (some b) known₂)
    (hskip : ∀ known₁, known.Le known₁ → post none known₁) :
    (Script.update k q : Script σ ρ (Option α)).Learns σ T post known := by
  refine learns_update (fun known₁ r b v hle _ hgood htaken => ?_) fun known₁ _ hle _ _ _ =>
    hskip known₁ hle
  obtain ⟨hfact, hkept⟩ := hq r b v htaken
  exact ⟨hfact, fun known₂ hle' hk => ⟨hkept known₂ hk (T.mono hle' hgood),
    htake known₂ r b v (hle.trans hle') htaken hk⟩⟩

theorem learns_mono {s : Script σ ρ α} {post' : α → Facts κ φ → Prop}
    (h : s.Learns σ T post known) (hpost : ∀ a known', known.Le known' → post a known' →
      post' a known') : s.Learns σ T post' known := by
  induction s generalizing known with
  | done a => exact hpost a known (Facts.Le.refl _) h
  | fail code => trivial
  | select q next ih =>
    intro w hw hle
    exact ih _ (h w hw hle) fun a known' hle' => hpost a known' (hle.trans hle')
  | acquire k q next ih =>
    intro w hw hle
    obtain ⟨htake, hskip⟩ := h w hw hle
    refine ⟨fun b v hq => ?_,
      fun hq => ih _ (hskip hq) fun a known' hle' => hpost a known' (hle.trans hle')⟩
    obtain ⟨hfact, hgood, hnext⟩ := htake b v hq
    have hmore := RowRules.facts_le_write hfact
    exact ⟨hfact, hgood, ih _ hnext fun a known' hle' => hpost a known' (hle.trans (hmore.trans hle'))⟩

/-- A script whose writes need no fact. -/
theorem learns_of_writes {s : Script σ ρ α} (h : s.Writes fun k r v => T.Keeps k r v)
    (known : Facts κ φ) : s.Learns σ T (fun _ _ => True) known := by
  induction s generalizing known with
  | done | fail => trivial
  | select q next ih => exact fun w _ _ => ih _ (h _) _
  | acquire k q next ih =>
    intro w hw _
    refine ⟨fun b v hq => ?_, fun _ => ih _ (h.2 _) _⟩
    obtain ⟨hfact, hgood⟩ := h.1 _ b v hq
    refine ⟨hfact, ?_, ih _ (h.2 _) _⟩
    exact hgood _ (RowRules.facts_write_self w k v)
      (T.mono (RowRules.facts_le_write hfact) (hw k))

end Learns

/-! ## Parts of a store -/

section Parts

variable {τ μ : Type} {π : μ → Type} [RowStore τ μ π] {T : RowRules (SideBySide ρ π) φ}
  {known : Facts (κ ⊕ μ) φ} {post : α → Facts (κ ⊕ μ) φ → Prop}
  {P : β → Facts (κ ⊕ μ) φ → Prop}

theorem learns_first_bind {s : Script σ ρ β} {f : β → Script σ ρ α}
    (hs : s.first.Learns (σ × τ) T P known)
    (hf : ∀ b known', known.Le known' → P b known' →
      (f b).first.Learns (σ × τ) T post known') :
    (s >>= f).first.Learns (σ × τ) T post known := by
  rw [Script.first_bind]
  exact learns_bind hs hf

theorem learns_first_failIf {post : Unit → Facts (κ ⊕ μ) φ → Prop} {c : Prop} [Decidable c]
    {code : String} (h : ¬ c → post () known) :
    (Script.failIf c code : Script σ ρ Unit).first.Learns (σ × τ) T post known := by
  unfold Script.failIf
  split
  · trivial
  · next hc => exact h hc

theorem learns_first_of_writes {s : Script σ ρ α}
    (h : s.Writes fun k r v => T.Keeps (.inl k) r v) (known : Facts (κ ⊕ μ) φ) :
    s.first.Learns (σ × τ) T (fun _ _ => True) known :=
  learns_of_writes (Script.writes_first h) known

end Parts

section Lenses

variable {σ' κ' : Type} {ρ' : κ' → Type} [RowStore σ' κ' ρ'] {l : StoreLens σ ρ σ' ρ'}
  {T : RowRules ρ' φ} {known : Facts κ' φ} {post : α → Facts κ' φ → Prop}
  {P : β → Facts κ' φ → Prop}

omit [RowStore σ κ ρ] in
theorem learns_along_bind {s : Script σ ρ β} {f : β → Script σ ρ α}
    (hs : (s.along l).Learns σ' T P known)
    (hf : ∀ b known', known.Le known' → P b known' →
      ((f b).along l).Learns σ' T post known') :
    ((s >>= f).along l).Learns σ' T post known := by
  rw [Script.along_bind]
  exact learns_bind hs hf

omit [RowStore σ κ ρ] in
theorem learns_along_failIf {post : Unit → Facts κ' φ → Prop} {c : Prop} [Decidable c]
    {code : String} (h : ¬ c → post () known) :
    ((Script.failIf c code : Script σ ρ Unit).along l).Learns σ' T post known := by
  unfold Script.failIf
  split
  · trivial
  · next hc => exact h hc

end Lenses

/-! ## Runs -/

section Runs

variable {T : RowRules ρ φ} {ι : Type} {S : System σ ρ ι α}

/-- A log that leaves the rows good and takes no fact back. -/
structure Sound (T : RowRules ρ φ) (w : σ) (log : Log ρ) : Prop where
  good : T.Holds (view w log)
  keeps : (T.facts w).Le (T.facts (view w log))

/-- Two logs without a common row can be committed one after the other. -/
theorem Sound.after {w : σ} {log log' : Log ρ} (h : Sound T w log) (h' : Sound T w log')
    (hdisjoint : ∀ k ∈ keys log', k ∉ keys log) :
    Sound T (view w log) log' ∧ (T.facts (view w log')).Le (T.facts (view (view w log) log')) := by
  have hheld : ∀ k ∈ keys log', row (view (view w log) log') k = row (view w log') k :=
    fun k hk => row_view_of_mem hk
  have hfree : ∀ k, k ∉ keys log' → row (view (view w log) log') k = row (view w log) k :=
    fun k hk => row_view_of_notMem hk
  have hown : (T.facts (view w log')).Le (T.facts (view (view w log) log')) := by
    intro k f hf
    unfold RowRules.facts at hf ⊢
    by_cases hk : k ∈ keys log'
    · rw [hheld k hk]
      exact hf
    · rw [hfree k hk]
      rw [row_view_of_notMem hk] at hf
      exact h.keeps k f hf
  have hother : (T.facts (view w log)).Le (T.facts (view (view w log) log')) := by
    intro k f hf
    by_cases hk : k ∈ keys log'
    · refine hown k f (h'.keeps k f ?_)
      unfold RowRules.facts at hf ⊢
      rwa [row_view_of_notMem (hdisjoint k hk)] at hf
    · unfold RowRules.facts at hf ⊢
      rw [hfree k hk]
      exact hf
  refine ⟨⟨fun k => ?_, hother⟩, hown⟩
  by_cases hk : k ∈ keys log'
  · rw [hheld k hk]
    exact T.mono hown (h'.good k)
  · rw [hfree k hk]
    exact T.mono hother (h.good k)

theorem Sound.concat {w : σ} {log : Log ρ} (h : Sound T w log) {k : κ} {v : ρ k}
    (hfact : ∀ f, T.fact k (row (view w log) k) = some f → T.fact k v = some f)
    (hgood : T.good (T.facts (write (view w log) k v)) k v) : Sound T w (log ++ [⟨k, v⟩]) := by
  constructor
  · rw [view_concat]
    exact h.good.write hfact hgood
  · rw [view_concat]
    exact h.keeps.trans (RowRules.facts_le_write hfact)

/-- A store that differs in nothing but what the rows do not show. -/
theorem Sound.congr {w w' : σ} {log : Log ρ} (h : Sound T w log) (hrows : ∀ k, row w' k = row w k) :
    Sound T w' log := by
  have hview : ∀ k, row (view w' log) k = row (view w log) k := fun k => row_view_congr (hrows k) log
  refine ⟨h.good.congr hview, fun k f hf => ?_⟩
  unfold RowRules.facts at hf ⊢
  rw [hview]
  rw [hrows] at hf
  exact h.keeps k f hf

/-- A transaction that has come as far as `t`. -/
def Follows (T : RowRules ρ φ) (w : σ) (t : Live σ ρ ι α) : Prop :=
  Sound T w t.log ∧ ∃ known, known.Le (T.facts (view w t.log)) ∧
    t.script.Learns σ T (fun _ _ => True) known

structure GoodConf (T : RowRules ρ φ) (c : Conf σ ρ ι α) : Prop where
  world : T.Holds c.world
  disjoint : ∀ i j t t', i ≠ j → c.live i = some t → c.live j = some t' →
    ∀ k ∈ keys t.log, k ∉ keys t'.log
  live : ∀ i t, c.live i = some t → Follows T c.world t

variable {c c' : Conf σ ρ ι α}

theorem GoodConf.set (h : GoodConf T c) {i : ℕ} {t : Live σ ρ ι α}
    (hkeys : ∀ k ∈ keys t.log, c.Free i k) (ht : Follows T c.world t) :
    GoodConf T (c.set i (some t)) := by
  refine ⟨h.world, Conf.disjoint_set h.disjoint hkeys, fun j s hj => ?_⟩
  rw [Conf.live_set] at hj
  by_cases hji : j = i
  · rw [if_pos hji] at hj
    cases hj
    exact ht
  · rw [if_neg hji] at hj
    exact h.live j s hj

theorem GoodConf.unset (h : GoodConf T c) (i : ℕ) : GoodConf T (c.set i none) := by
  refine ⟨h.world, fun j j' s s' hne hj hj' => ?_, fun j s hj => ?_⟩
  · exact h.disjoint j j' s s' hne (Conf.live_of_unset hj).2 (Conf.live_of_unset hj').2
  · exact h.live j s (Conf.live_of_unset hj).2

theorem GoodConf.step (body : ∀ request, (S.body request).Learns σ T (fun _ _ => True) Facts.none)
    (settle : ∀ request a w k, row (S.settle request a w) k = row w k)
    (environment : ∀ live w w', S.environment live w w' → ∀ k, row w' k = row w k)
    (h : GoodConf T c) (hstep : Step S c c') : GoodConf T c' := by
  have held {i : ℕ} {t : Live σ ρ ι α} (hi : c.live i = some t) : ∀ k ∈ keys t.log, c.Free i k :=
    fun k hk j s hji hj => h.disjoint i j t s (Ne.symm hji) hi hj k hk
  cases hstep with
  | @start i request hi hstart =>
    refine h.set (by simp [keys]) ⟨⟨h.world, Facts.Le.refl _⟩, Facts.none, ?_, body request⟩
    exact Facts.none_le _
  | select hi =>
    obtain ⟨hsound, known, hle, hscript⟩ := h.live _ _ hi
    exact h.set (fun k hk => held hi k hk)
      ⟨hsound, _, Facts.Le.refl _, hscript _ hsound.good hle⟩
  | @take i request k γ log v b q next hi hfree hq =>
    obtain ⟨hsound, known, hle, hscript⟩ := h.live _ _ hi
    obtain ⟨hfact, hgood, hnext⟩ := (hscript _ hsound.good hle).1 b v hq
    refine h.set ?_ ⟨hsound.concat hfact hgood, _, ?_, hnext⟩
    · intro k' hk'
      rw [keys_concat, List.mem_append, List.mem_singleton] at hk'
      rcases hk' with hk' | rfl
      · exact held hi k' hk'
      · exact hfree
    · rw [view_concat]
      exact Facts.Le.refl _
  | skip hi hfree hq =>
    obtain ⟨hsound, known, hle, hscript⟩ := h.live _ _ hi
    exact h.set (fun k hk => held hi k hk)
      ⟨hsound, _, Facts.Le.refl _, (hscript _ hsound.good hle).2 hq⟩
  | @commit i request a log hi hok =>
    obtain ⟨hsound, -⟩ := h.live _ _ hi
    have hrows := settle request a (view c.world log)
    refine ⟨hsound.good.congr hrows, (h.unset i).disjoint, fun j s hj => ?_⟩
    obtain ⟨hji, hj⟩ := Conf.live_of_unset hj
    obtain ⟨hlive, known, hle, hscript⟩ := h.live j s hj
    obtain ⟨hafter, hmore⟩ := hsound.after hlive fun k hk => h.disjoint j i s _ hji hj hi k hk
    have hview : ∀ k, row (view (S.settle request a (view c.world log)) s.log) k =
        row (view (view c.world log) s.log) k := fun k => row_view_congr (hrows k) s.log
    refine ⟨hafter.congr hrows, known, ?_, hscript⟩
    intro k f hf
    have hk := hmore k f (hle k f hf)
    unfold RowRules.facts at hk ⊢
    rwa [hview]
  | abort => exact h.unset _
  | environment henv =>
    have hrows := environment _ _ _ henv
    refine ⟨h.world.congr hrows, h.disjoint, fun j s hj => ?_⟩
    obtain ⟨hlive, known, hle, hscript⟩ := h.live j s hj
    refine ⟨hlive.congr hrows, known, fun k f hf => ?_, hscript⟩
    have hk := hle k f hf
    unfold RowRules.facts at hk ⊢
    rwa [row_view_congr (hrows k)]

/-- Sound scripts keep all rows good in every interleaving. -/
theorem Reachable.good (body : ∀ request, (S.body request).Learns σ T (fun _ _ => True) Facts.none)
    (settle : ∀ request a w k, row (S.settle request a w) k = row w k)
    (environment : ∀ live w w', S.environment live w w' → ∀ k, row w' k = row w k)
    {w : σ} (hw : T.Holds w) (hc : Reachable S w c) : T.Holds c.world := by
  have hall : GoodConf T c := by
    induction hc with
    | refl => exact ⟨hw, (fun _ _ _ _ _ hi => nomatch hi), (fun _ _ hi => nomatch hi)⟩
    | tail _ hstep ih => exact ih.step body settle environment hstep
  exact hall.world

end Runs

end ReadCommitted
