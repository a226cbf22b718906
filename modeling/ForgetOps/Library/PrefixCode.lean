import Mathlib.Tactic

/-
  Codes whose codewords end by themselves.

  A reader finds the end of a codeword whatever follows it, so that two texts which begin with
  codewords are equal only codeword by codeword. Such codes are put together from fixed words,
  blocks of a fixed length and blocks behind their length; codewords that are not empty are read
  back from a row of them (`readAll_iff`).
-/

/-- Codewords for `α` over `β`, and a reader that takes one off the front of a text. -/
structure PrefixCode (α β : Type) where
  encode : α → List β
  decode : List β → Option (α × List β)
  decode_iff : ∀ {bs a rest}, decode bs = some (a, rest) ↔ encode a ++ rest = bs

namespace PrefixCode

variable {α β γ : Type}

theorem decode_append (c : PrefixCode α β) (a : α) (rest : List β) :
    c.decode (c.encode a ++ rest) = some (a, rest) := c.decode_iff.mpr rfl

/-! ## Codes -/

/-- One fixed word. -/
def word [DecidableEq β] (w : List β) : PrefixCode Unit β where
  encode _ := w
  decode bs := if w <+: bs then some ((), bs.drop w.length) else none
  decode_iff := by
    intro bs a rest
    rw [Option.ite_none_right_eq_some, Option.some.injEq, Prod.mk.injEq]
    constructor
    · rintro ⟨hw, -, rfl⟩
      exact List.prefix_iff_eq_append.mp hw
    · rintro rfl
      exact ⟨List.prefix_append w rest, rfl, List.drop_left⟩

/-- Blocks of one length. -/
def block (n : Nat) : PrefixCode { bs : List β // bs.length = n } β where
  encode bs := bs
  decode bs :=
    if h : n ≤ bs.length then some (⟨bs.take n, List.length_take_of_le h⟩, bs.drop n) else none
  decode_iff := by
    intro bs a rest
    constructor
    · intro h
      split_ifs at h with hn
      cases h
      exact List.take_append_drop n bs
    · rintro rfl
      obtain ⟨a, rfl⟩ := a
      have hn : a.length ≤ (a ++ rest).length := by
        rw [List.length_append]
        omega
      rw [dif_pos hn]
      simp only [List.take_left, List.drop_left]

/-- One codeword after the other. -/
def pair (c : PrefixCode α β) (d : PrefixCode γ β) : PrefixCode (α × γ) β where
  encode p := c.encode p.1 ++ d.encode p.2
  decode bs := do
    let (a, bs) ← c.decode bs
    let (b, rest) ← d.decode bs
    some ((a, b), rest)
  decode_iff := by
    intro bs p rest
    obtain ⟨a, b⟩ := p
    simp only [Option.bind_eq_bind, Option.bind_eq_some_iff, Prod.exists, Option.some.injEq,
      Prod.mk.injEq]
    constructor
    · rintro ⟨a', bs', ha, b', rest', hb, ⟨rfl, rfl⟩, rfl⟩
      rw [List.append_assoc, d.decode_iff.mp hb, c.decode_iff.mp ha]
    · intro h
      rw [List.append_assoc] at h
      exact ⟨a, _, c.decode_iff.mpr h, b, rest, d.decode_append b rest, ⟨rfl, rfl⟩, rfl⟩

/-- The same codewords, for other values. -/
def ofEquiv (c : PrefixCode α β) (e : α ≃ γ) : PrefixCode γ β where
  encode a := c.encode (e.symm a)
  decode bs := (c.decode bs).map fun p => (e p.1, p.2)
  decode_iff := by
    intro bs a rest
    rw [Option.map_eq_some_iff]
    constructor
    · rintro ⟨⟨b, rest'⟩, hread, hpair⟩
      cases hpair
      rw [e.symm_apply_apply]
      exact c.decode_iff.mp hread
    · intro h
      refine ⟨(e.symm a, rest), c.decode_iff.mpr h, ?_⟩
      rw [e.apply_symm_apply]

/-- A block behind its length. -/
def counted {n : Nat} (size : PrefixCode (Fin n) β) :
    PrefixCode { bs : List β // bs.length < n } β where
  encode bs := size.encode ⟨bs.1.length, bs.2⟩ ++ bs.1
  decode bs := do
    let (k, bs) ← size.decode bs
    let (b, rest) ← (block k.1).decode bs
    some (⟨b.1, b.2.symm ▸ k.2⟩, rest)
  decode_iff := by
    intro bs a rest
    simp only [Option.bind_eq_bind, Option.bind_eq_some_iff, Prod.exists, Option.some.injEq,
      Prod.mk.injEq]
    constructor
    · rintro ⟨k, bs', hk, ⟨b, hlength⟩, rest', hb, rfl, rfl⟩
      have hbs := (block k.1).decode_iff.mp hb
      have hsize : (⟨b.length, hlength.symm ▸ k.2⟩ : Fin n) = k := Fin.ext hlength
      rw [List.append_assoc, hsize, show b ++ rest' = bs' from hbs, size.decode_iff.mp hk]
    · intro h
      rw [List.append_assoc] at h
      exact ⟨⟨a.1.length, a.2⟩, _, size.decode_iff.mpr h, ⟨a.1, rfl⟩, rest,
        (block a.1.length).decode_append ⟨a.1, rfl⟩ rest, rfl, rfl⟩

/-! ## Numbers, the highest digit first -/

/-- The last `k` digits of a number, to the base 256. -/
def bigEndian : Nat → Nat → List UInt8
  | 0, _ => []
  | k + 1, n => bigEndian k (n / 256) ++ [UInt8.ofNat n]

def ofBigEndian (bs : List UInt8) : Nat := bs.foldl (fun n b => n * 256 + b.toNat) 0

@[simp] theorem length_bigEndian (k n : Nat) : (bigEndian k n).length = k := by
  induction k generalizing n with
  | zero => rfl
  | succ k ih => rw [bigEndian, List.length_append, ih, List.length_singleton]

theorem ofBigEndian_append (bs : List UInt8) (b : UInt8) :
    ofBigEndian (bs ++ [b]) = ofBigEndian bs * 256 + b.toNat := by
  rw [ofBigEndian, List.foldl_append]
  rfl

theorem ofBigEndian_bigEndian (k n : Nat) : ofBigEndian (bigEndian k n) = n % 256 ^ k := by
  induction k generalizing n with
  | zero => rw [pow_zero, Nat.mod_one]; rfl
  | succ k ih =>
    have hdigits : n % 256 ^ (k + 1) = n % 256 + 256 * (n / 256 % 256 ^ k) := by
      rw [pow_succ', Nat.mod_mul]
    rw [bigEndian, ofBigEndian_append, ih, UInt8.toNat_ofNat', hdigits]
    omega

theorem bigEndian_ofBigEndian (bs : List UInt8) :
    bigEndian bs.length (ofBigEndian bs) = bs ∧ ofBigEndian bs < 256 ^ bs.length := by
  induction bs using List.reverseRecOn with
  | nil => exact ⟨rfl, Nat.one_pos⟩
  | append_singleton bs b ih =>
    have hb := b.toNat_lt
    have hdiv : (ofBigEndian bs * 256 + b.toNat) / 256 = ofBigEndian bs := by omega
    have hlast : UInt8.ofNat (ofBigEndian bs * 256 + b.toNat) = b := by
      apply UInt8.toNat_inj.mp
      rw [UInt8.toNat_ofNat']
      omega
    rw [ofBigEndian_append, List.length_append, List.length_singleton, bigEndian, hdiv, hlast,
      ih.1, pow_succ]
    exact ⟨rfl, by have := ih.2; omega⟩

/-- The numbers of `k` digits. -/
def number (k : Nat) : PrefixCode (Fin (256 ^ k)) UInt8 :=
  (block k).ofEquiv {
    toFun := fun bs => ⟨ofBigEndian bs.1, by
      have h := (bigEndian_ofBigEndian bs.1).2
      rwa [bs.2] at h⟩
    invFun := fun n => ⟨bigEndian k n, length_bigEndian k n⟩
    left_inv := by
      rintro ⟨bs, rfl⟩
      exact Subtype.ext (bigEndian_ofBigEndian bs).1
    right_inv := by
      intro n
      apply Fin.ext
      exact (ofBigEndian_bigEndian k n).trans (Nat.mod_eq_of_lt n.2) }

theorem bigEndian_inj {k m n : Nat} (hm : m < 256 ^ k) (hn : n < 256 ^ k)
    (h : bigEndian k m = bigEndian k n) : m = n := by
  have hvalue := congrArg ofBigEndian h
  rwa [ofBigEndian_bigEndian, ofBigEndian_bigEndian, Nat.mod_eq_of_lt hm, Nat.mod_eq_of_lt hn]
    at hvalue

/-! ## Rows of codewords -/

variable (c : PrefixCode α β)

/-- A text of at most this many codewords, to its end. -/
def readMany : Nat → List β → Option (List α)
  | _, [] => some []
  | 0, _ :: _ => none
  | fuel + 1, b :: bs => do
    let (a, rest) ← c.decode (b :: bs)
    let as ← readMany fuel rest
    some (a :: as)

def readAll (bs : List β) : Option (List α) := c.readMany bs.length bs

variable {c}

theorem flatMap_of_readMany {fuel : Nat} {bs : List β} {as : List α}
    (h : c.readMany fuel bs = some as) : as.flatMap c.encode = bs := by
  induction fuel, bs using readMany.induct generalizing as with
  | case1 fuel =>
    rw [readMany] at h
    cases h
    rfl
  | case2 b bs => exact absurd h (by rw [readMany]; exact Option.some_ne_none _ ∘ Eq.symm)
  | case3 fuel b bs ih =>
    rw [readMany] at h
    obtain ⟨⟨a, rest⟩, hread, h⟩ := Option.bind_eq_some_iff.mp h
    obtain ⟨as', hrest, h⟩ := Option.bind_eq_some_iff.mp h
    cases h
    rw [List.flatMap_cons, ih rest hrest]
    exact c.decode_iff.mp hread

theorem readMany_flatMap (hne : ∀ a, c.encode a ≠ []) (fuel : Nat) {as : List α}
    (hfuel : (as.flatMap c.encode).length ≤ fuel) :
    c.readMany fuel (as.flatMap c.encode) = some as := by
  induction as generalizing fuel with
  | nil => rw [List.flatMap_nil, readMany]
  | cons a as ih =>
    have hlength := List.length_pos_of_ne_nil (hne a)
    rw [List.flatMap_cons, List.length_append] at hfuel
    obtain ⟨fuel, rfl⟩ := Nat.exists_eq_succ_of_ne_zero (show fuel ≠ 0 by omega)
    have hread := c.decode_append a (as.flatMap c.encode)
    have hrest := ih fuel (by omega)
    rw [List.flatMap_cons]
    obtain ⟨b, bs, hcons⟩ := List.exists_cons_of_ne_nil
      (List.append_ne_nil_of_left_ne_nil (hne a) (as.flatMap c.encode))
    rw [hcons] at hread ⊢
    rw [readMany, hread]
    exact Option.bind_eq_some_iff.mpr ⟨(a, _), rfl, Option.bind_eq_some_iff.mpr ⟨as, hrest, rfl⟩⟩

/-- A row of codewords is read back, and nothing else is. -/
theorem readAll_iff (hne : ∀ a, c.encode a ≠ []) {bs : List β} {as : List α} :
    c.readAll bs = some as ↔ as.flatMap c.encode = bs := by
  constructor
  · exact flatMap_of_readMany
  · rintro rfl
    exact readMany_flatMap hne _ le_rfl

end PrefixCode
