import Mathlib.Tactic

/-
  No JSON object text is a proper suffix of another.

  Texts are byte lists. `Balanced` is the part of well-formedness the argument needs: strings are
  closed, brackets match, and no backslash stands outside a string; every object of the JSON
  grammar has it, in UTF-8 (a byte of a non-ASCII character is a plain byte). A scanner reads a
  text with one bit of context, inside a string or not, and a bracket depth. Started at the wrong
  depth it ends at the wrong depth, and started with the wrong bit it ends with the wrong bit.
-/

namespace JsonText

def quote : UInt8 := 0x22
def backslash : UInt8 := 0x5c
def openBrace : UInt8 := 0x7b
def closeBrace : UInt8 := 0x7d
def openBracket : UInt8 := 0x5b
def closeBracket : UInt8 := 0x5d

@[simp] theorem backslash_ne_quote : backslash ≠ quote := by decide

def opens (b : UInt8) : Bool := b = openBrace ∨ b = openBracket

def closes (b : UInt8) : Bool := b = closeBrace ∨ b = closeBracket

/-- A byte that means nothing to the scanner outside a string. -/
def inert (b : UInt8) : Bool := ¬ (b = quote ∨ b = backslash ∨ opens b ∨ closes b)

/-- What may stand between the quotes of a string. -/
inductive StringBody : List UInt8 → Prop
  | nil : StringBody []
  | plain {b : UInt8} {body : List UInt8} (hq : b ≠ quote) (hs : b ≠ backslash) :
      StringBody body → StringBody (b :: body)
  | escape (b : UInt8) {body : List UInt8} : StringBody body → StringBody (backslash :: b :: body)

/-- Scalars, separators and blanks, strings, and bracketed groups, in any order. -/
inductive Balanced : List UInt8 → Prop
  | nil : Balanced []
  | inert {b : UInt8} {rest : List UInt8} (hb : inert b = true) :
      Balanced rest → Balanced (b :: rest)
  | string {body rest : List UInt8} :
      StringBody body → Balanced rest → Balanced (quote :: body ++ quote :: rest)
  | group {b c : UInt8} {inner rest : List UInt8} (hb : opens b = true) (hc : closes c = true) :
      Balanced inner → Balanced rest → Balanced (b :: inner ++ c :: rest)

/-- `{…}` around a balanced text. -/
def ObjectText (t : List UInt8) : Prop :=
  ∃ inner, Balanced inner ∧ t = openBrace :: inner ++ [closeBrace]

/-! ## The scanner -/

inductive Mode where
  | text
  | string
  | escape
  deriving DecidableEq, Repr

/-- Inside or outside a string, and how many brackets are open. -/
abbrev State := Mode × ℕ

def scanByte : State → UInt8 → Option State
  | (.text, d), b =>
    if b = quote then some (.string, d)
    else if b = backslash then none
    else if opens b then some (.text, d + 1)
    else if closes b then
      match d with
      | 0 => none
      | d + 1 => some (.text, d)
    else some (.text, d)
  | (.string, d), b =>
    if b = quote then some (.text, d) else if b = backslash then some (.escape, d)
    else some (.string, d)
  | (.escape, d), _ => some (.string, d)

def scan : State → List UInt8 → Option State
  | s, [] => some s
  | s, b :: rest => (scanByte s b).bind fun s' => scan s' rest

@[simp] theorem scan_nil (s : State) : scan s [] = some s := rfl

@[simp] theorem scan_cons (s : State) (b : UInt8) (rest : List UInt8) :
    scan s (b :: rest) = (scanByte s b).bind fun s' => scan s' rest := rfl

theorem scan_append (s : State) (t t' : List UInt8) :
    scan s (t ++ t') = (scan s t).bind fun s' => scan s' t' := by
  induction t generalizing s with
  | nil => rfl
  | cons b t ih =>
    rw [List.cons_append, scan_cons, scan_cons]
    cases scanByte s b with
    | none => rfl
    | some s' => exact ih s'

theorem scanByte_shift {m m' : Mode} {d d' : ℕ} {b : UInt8}
    (h : scanByte (m, d) b = some (m', d')) (k : ℕ) :
    scanByte (m, d + k) b = some (m', d' + k) := by
  cases m with
  | text =>
    cases d with
    | zero =>
      simp only [scanByte] at h ⊢
      split_ifs at h ⊢ <;> simp_all
      omega
    | succ d =>
      rw [Nat.succ_add]
      simp only [scanByte] at h ⊢
      split_ifs at h ⊢ <;> simp_all <;> omega
  | string =>
    simp only [scanByte] at h ⊢
    split_ifs at h ⊢ <;> simp_all
  | escape => simp_all [scanByte]

/-- More open brackets outside change nothing but the depth. -/
theorem scan_shift {m m' : Mode} {d d' : ℕ} {t : List UInt8}
    (h : scan (m, d) t = some (m', d')) (k : ℕ) : scan (m, d + k) t = some (m', d' + k) := by
  induction t generalizing m d with
  | nil =>
    obtain ⟨rfl, rfl⟩ : m = m' ∧ d = d' := by simpa using h
    rfl
  | cons b t ih =>
    rw [scan_cons] at h ⊢
    obtain ⟨⟨m₁, d₁⟩, hb, hrest⟩ := Option.bind_eq_some_iff.mp h
    rw [scanByte_shift hb k]
    exact ih hrest

theorem scan_stringBody {body : List UInt8} (h : StringBody body) (d : ℕ) :
    scan (.string, d) body = some (.string, d) := by
  induction h with
  | nil => rfl
  | plain hq hs _ ih => simpa [scanByte, hq, hs] using ih
  | escape b _ ih => simpa [scanByte] using ih

theorem scan_balanced {t : List UInt8} (h : Balanced t) (d : ℕ) :
    scan (.text, d) t = some (.text, d) := by
  induction h generalizing d with
  | nil => rfl
  | inert hb _ ih =>
    simp [inert] at hb
    simpa [scanByte, hb] using ih d
  | string hbody _ ih =>
    simp [scanByte, scan_append, scan_stringBody hbody, ih]
  | @group b c inner rest hb hc _ _ ihi ihr =>
    have hbq : b ≠ quote ∧ b ≠ backslash := by
      simp [opens] at hb
      rcases hb with rfl | rfl <;> decide
    have hcq : c ≠ quote ∧ c ≠ backslash ∧ opens c = false := by
      simp [closes] at hc
      rcases hc with rfl | rfl <;> decide
    simp [scanByte, scan_append, hb, hc, hbq, hcq, ihi, ihr]

/-! ## The scanner decides balance -/

/-- Balanced texts separated by `d` closing brackets: what is left behind `d` open ones. -/
def Closers : ℕ → List UInt8 → Prop
  | 0, t => Balanced t
  | d + 1, t => ∃ u c v, t = u ++ c :: v ∧ Balanced u ∧ closes c = true ∧ Closers d v

theorem Closers.append {d : ℕ} {p t : List UInt8} (hp : ∀ t, Balanced t → Balanced (p ++ t))
    (h : Closers d t) : Closers d (p ++ t) := by
  cases d with
  | zero => exact hp t h
  | succ d =>
    obtain ⟨u, c, v, rfl, hu, hc, hv⟩ := h
    exact ⟨p ++ u, c, v, (List.append_assoc _ _ _).symm, hp u hu, hc, hv⟩

theorem stringBody_of_scan {d : ℕ} (t : List UInt8)
    (h : scan (.string, d) t = some (.text, 0)) :
    ∃ body rest, t = body ++ quote :: rest ∧ StringBody body ∧
      scan (.text, d) rest = some (.text, 0) := by
  match t with
  | [] => simp at h
  | b :: t =>
    by_cases hq : b = quote
    · subst hq
      exact ⟨[], t, rfl, .nil, by simpa [scanByte] using h⟩
    by_cases hs : b = backslash
    · subst hs
      cases t with
      | nil => simp [scanByte] at h
      | cons b t =>
        obtain ⟨body, rest, rfl, hbody, hrest⟩ :=
          stringBody_of_scan t (by simpa [scanByte] using h)
        exact ⟨_, rest, rfl, .escape b hbody, hrest⟩
    · obtain ⟨body, rest, rfl, hbody, hrest⟩ :=
        stringBody_of_scan t (by simpa [scanByte, hq, hs] using h)
      exact ⟨_, rest, rfl, .plain hq hs hbody, hrest⟩
termination_by t.length

theorem closers_of_scan {d : ℕ} (t : List UInt8) (h : scan (.text, d) t = some (.text, 0)) :
    Closers d t := by
  match t with
  | [] =>
    obtain rfl : d = 0 := by simpa using h
    exact .nil
  | b :: t =>
    by_cases hq : b = quote
    · subst hq
      obtain ⟨body, rest, rfl, hbody, hrest⟩ :=
        stringBody_of_scan t (by simpa [scanByte] using h)
      have := (closers_of_scan rest hrest).append (p := quote :: body ++ [quote]) fun t ht => by
        simpa using ht.string hbody
      simpa using this
    by_cases hs : b = backslash
    · subst hs
      simp [scanByte] at h
    by_cases ho : opens b = true
    · obtain ⟨u, c, v, rfl, hu, hc, hv⟩ :=
        closers_of_scan (d := d + 1) t (by simpa [scanByte, hq, hs, ho] using h)
      have := hv.append (p := b :: u ++ [c]) fun t ht => by
        simpa using Balanced.group ho hc hu ht
      simpa using this
    by_cases hc : closes b = true
    · cases d with
      | zero => simp [scanByte, hq, hs, ho, hc] at h
      | succ d =>
        have ht := closers_of_scan (d := d) t (by simpa [scanByte, hq, hs, ho, hc] using h)
        exact ⟨[], b, t, rfl, .nil, hc, ht⟩
    · have ht := closers_of_scan (d := d) t (by simpa [scanByte, hq, hs, ho, hc] using h)
      exact ht.append (p := [b]) fun t ht => .inert (by simp [inert, hq, hs, ho, hc]) ht
termination_by t.length

theorem balanced_iff_scan {t : List UInt8} :
    Balanced t ↔ scan (.text, 0) t = some (.text, 0) :=
  ⟨fun h => scan_balanced h 0, fun h => closers_of_scan (d := 0) t h⟩

instance (t : List UInt8) : Decidable (Balanced t) := decidable_of_iff' _ balanced_iff_scan

theorem objectText_iff {t : List UInt8} :
    ObjectText t ↔ t = openBrace :: t.tail.dropLast ++ [closeBrace] ∧ Balanced t.tail.dropLast := by
  constructor
  · rintro ⟨inner, hinner, rfl⟩
    simpa using hinner
  · rintro ⟨ht, hinner⟩
    exact ⟨_, hinner, ht⟩

instance (t : List UInt8) : Decidable (ObjectText t) := decidable_of_iff' _ objectText_iff

/-! ## Suffixes -/

/-- One scanner is inside a string and the other is not. -/
def Opposite (m m' : Mode) : Prop := (m = .text ∧ m' = .string) ∨ (m = .string ∧ m' = .text)

theorem Opposite.symm {m m' : Mode} (h : Opposite m m') : Opposite m' m :=
  (Or.comm.mp h).imp And.symm And.symm

/-- Two scanners that disagree about being inside a string disagree to the end. A backslash would
    let them meet, but the one outside a string rejects it. -/
theorem Opposite.scan {m m' : Mode} (h : Opposite m m') {t : List UInt8} {d d' : ℕ}
    {s s' : State} (hs : JsonText.scan (m, d) t = some s)
    (hs' : JsonText.scan (m', d') t = some s') : Opposite s.1 s'.1 := by
  induction t generalizing m m' d d' with
  | nil =>
    obtain rfl : (m, d) = s := by simpa using hs
    obtain rfl : (m', d') = s' := by simpa using hs'
    exact h
  | cons b t ih =>
    rw [scan_cons] at hs hs'
    obtain ⟨⟨m₁, d₁⟩, hb, hrest⟩ := Option.bind_eq_some_iff.mp hs
    obtain ⟨⟨m₁', d₁'⟩, hb', hrest'⟩ := Option.bind_eq_some_iff.mp hs'
    refine ih ?_ hrest hrest'
    have outside {d d' d₁ d₁' : ℕ} {m₁ m₁' : Mode} (hb : scanByte (.text, d) b = some (m₁, d₁))
        (hb' : scanByte (.string, d') b = some (m₁', d₁')) : Opposite m₁ m₁' := by
      by_cases hq : b = quote
      · simp [scanByte, hq] at hb hb'
        exact .inr ⟨hb.1.symm, hb'.1.symm⟩
      by_cases hs : b = backslash
      · simp [scanByte, hs] at hb
      · have hm' : m₁' = .string := by
          simp [scanByte, hq, hs] at hb'
          exact hb'.1.symm
        have hm : m₁ = .text := by
          simp only [scanByte, if_neg hq, if_neg hs] at hb
          split_ifs at hb
          · exact (congrArg Prod.fst (Option.some.inj hb)).symm
          · cases d with
            | zero => cases hb
            | succ d => exact (congrArg Prod.fst (Option.some.inj hb)).symm
          · exact (congrArg Prod.fst (Option.some.inj hb)).symm
        exact .inl ⟨hm, hm'⟩
    rcases h with ⟨rfl, rfl⟩ | ⟨rfl, rfl⟩
    · exact outside hb hb'
    · exact (outside hb' hb).symm

theorem ObjectText.balanced {t : List UInt8} (h : ObjectText t) : Balanced t := by
  obtain ⟨inner, hinner, rfl⟩ := h
  exact .group rfl rfl hinner .nil

/-- Past its first byte and before its last, an object text is inside its outer braces. -/
theorem scan_inside {p s : List UInt8} (h : ObjectText (p ++ s)) (hp : p ≠ []) (hs : s ≠ []) :
    ∃ m d, scan (m, d + 1) s = some (.text, 0) := by
  have hall := scan_balanced h.balanced 0
  obtain ⟨inner, hinner, ht⟩ := h
  obtain ⟨b, p', rfl⟩ := List.exists_cons_of_ne_nil hp
  obtain rfl | ⟨s', c, rfl⟩ := List.eq_nil_or_concat' s
  · exact absurd rfl hs
  obtain ⟨rfl, hin⟩ : b = openBrace ∧ p' ++ s' = inner := by
    rw [List.cons_append, List.cons_append, List.cons.injEq, ← List.append_assoc] at ht
    exact ⟨ht.1, (List.append_inj' ht.2 rfl).1⟩
  -- the part of `p` behind the brace is a prefix of `inner`, which never closes that brace
  have hscan := scan_balanced hinner 0
  rw [← hin, scan_append] at hscan
  obtain ⟨⟨m, d⟩, hp', -⟩ := Option.bind_eq_some_iff.mp hscan
  have hstart : scan (.text, 0) (openBrace :: p') = some (m, d + 1) := scan_shift hp' 1
  rw [scan_append, hstart] at hall
  exact ⟨m, d, hall⟩

/-- No object text is a proper suffix of an object text. -/
theorem ObjectText.eq_nil_of_append {p s : List UInt8} (hs : ObjectText s)
    (h : ObjectText (p ++ s)) : p = [] := by
  by_contra hp
  have hs0 : s ≠ [] := by
    obtain ⟨inner, -, rfl⟩ := hs
    simp
  obtain ⟨m, d, hwrong⟩ := scan_inside h hp hs0
  cases m with
  | text =>
    have hright := scan_shift (scan_balanced hs.balanced 0) (d + 1)
    rw [Nat.zero_add, hwrong] at hright
    simp at hright
  | string | escape =>
    -- the opening brace of `s` is one more character of the string the scanner is in
    have hright := scan_balanced hs.balanced 0
    obtain ⟨inner, -, rfl⟩ := hs
    rw [List.cons_append, scan_cons] at hright hwrong
    have hopp : Opposite .text .string := .inl ⟨rfl, rfl⟩
    have hend := hopp.scan hright hwrong
    simp [Opposite] at hend

end JsonText
