import Mathlib.Tactic

/-
  Texts in the units of UTF-16.

  A text of units is decoded to characters, and to units that stand alone where they belong to a
  pair. `text_iff` says which texts are those of characters: the encoded ones.
-/

namespace Utf16

def isHigh (u : UInt16) : Bool := 0xD800 ≤ u.toNat ∧ u.toNat ≤ 0xDBFF

def isLow (u : UInt16) : Bool := 0xDC00 ≤ u.toNat ∧ u.toNat ≤ 0xDFFF

def encodeChar (c : Char) : List UInt16 :=
  if c.toNat < 0x10000 then [UInt16.ofNat c.toNat]
  else [UInt16.ofNat (0xD800 + (c.toNat - 0x10000) / 1024),
    UInt16.ofNat (0xDC00 + (c.toNat - 0x10000) % 1024)]

def encode (cs : List Char) : List UInt16 := cs.flatMap encodeChar

inductive CodePoint where
  | char (c : Char)
  | lone (u : UInt16)
  deriving DecidableEq, Repr

/-- The units of a code point. -/
def CodePoint.units : CodePoint → List UInt16
  | .char c => encodeChar c
  | .lone u => [u]

/-- A unit that is not read in a pair. -/
def single (u : UInt16) : CodePoint :=
  if isHigh u ∨ isLow u then .lone u else .char (Char.ofNat u.toNat)

/-- The character of a pair. -/
def pair (u v : UInt16) : Char :=
  Char.ofNat (0x10000 + (u.toNat - 0xD800) * 1024 + (v.toNat - 0xDC00))

def decode : List UInt16 → List CodePoint
  | [] => []
  | [u] => [single u]
  | u :: v :: rest =>
    if isHigh u ∧ isLow v then .char (pair u v) :: decode rest
    else single u :: decode (v :: rest)

def CodePoint.toChar : CodePoint → Option Char
  | .char c => some c
  | .lone _ => none

/-- The characters of the text, where no unit stands alone. -/
def text (us : List UInt16) : Option (List Char) := (decode us).mapM CodePoint.toChar

/-! ## Characters -/

theorem toNat_ofNat {n : Nat} (h : n.isValidChar) : (Char.ofNat n).toNat = n := by
  rw [Char.ofNat, dif_pos h]
  rfl

theorem toNat_valid (c : Char) : c.toNat < 0xD800 ∨ (0xDFFF < c.toNat ∧ c.toNat < 0x110000) :=
  c.valid

theorem single_of_lt {n : Nat} (h : n < 0xD800 ∨ (0xDFFF < n ∧ n < 0x10000)) :
    single (UInt16.ofNat n) = .char (Char.ofNat n) := by
  have hn : (UInt16.ofNat n).toNat = n := by
    rw [UInt16.toNat_ofNat']
    omega
  unfold single isHigh isLow
  rw [hn, if_neg]
  simp only [decide_eq_true_eq, not_or]
  omega

/-- A unit that is no part of a pair is read alone. -/
theorem decode_single {u : UInt16} (h : isHigh u = false) (rest : List UInt16) :
    decode (u :: rest) = single u :: decode rest := by
  cases rest with
  | nil => rfl
  | cons v rest =>
    rw [decode, if_neg]
    rw [h]
    exact fun hpair => Bool.noConfusion hpair.1

theorem decode_encodeChar (c : Char) (rest : List UInt16) :
    decode (encodeChar c ++ rest) = .char c :: decode rest := by
  have hvalid := toNat_valid c
  unfold encodeChar
  split_ifs with hsmall
  · have hhigh : isHigh (UInt16.ofNat c.toNat) = false := by
      unfold isHigh
      rw [UInt16.toNat_ofNat', decide_eq_false_iff_not]
      omega
    rw [List.singleton_append, decode_single hhigh, single_of_lt (by omega), Char.ofNat_toNat]
  · have hu : (UInt16.ofNat (0xD800 + (c.toNat - 0x10000) / 1024)).toNat =
        0xD800 + (c.toNat - 0x10000) / 1024 := by
      rw [UInt16.toNat_ofNat']
      omega
    have hv : (UInt16.ofNat (0xDC00 + (c.toNat - 0x10000) % 1024)).toNat =
        0xDC00 + (c.toNat - 0x10000) % 1024 := by
      rw [UInt16.toNat_ofNat']
      omega
    have hpair : pair (UInt16.ofNat (0xD800 + (c.toNat - 0x10000) / 1024))
        (UInt16.ofNat (0xDC00 + (c.toNat - 0x10000) % 1024)) = c := by
      unfold pair
      rw [hu, hv]
      have hn : 0x10000 + (0xD800 + (c.toNat - 0x10000) / 1024 - 0xD800) * 1024 +
          (0xDC00 + (c.toNat - 0x10000) % 1024 - 0xDC00) = c.toNat := by omega
      rw [hn, Char.ofNat_toNat]
    rw [List.cons_append, List.cons_append, List.nil_append, decode, if_pos, hpair]
    unfold isHigh isLow
    rw [hu, hv]
    simp only [decide_eq_true_eq]
    omega

theorem decode_encode (cs : List Char) : decode (encode cs) = cs.map .char := by
  induction cs with
  | nil => rfl
  | cons c cs ih =>
    have hcons : encode (c :: cs) = encodeChar c ++ encode cs := by simp [encode]
    rw [hcons, decode_encodeChar, ih, List.map_cons]

theorem units_single (u : UInt16) : (single u).units = [u] := by
  unfold single
  split_ifs with h
  · rfl
  · have hu := u.toNat_lt
    unfold isHigh isLow at h
    simp only [decide_eq_true_eq, not_or] at h
    have hvalid : u.toNat.isValidChar := by
      unfold Nat.isValidChar
      omega
    unfold CodePoint.units encodeChar
    dsimp only
    rw [toNat_ofNat hvalid, if_pos (by omega), UInt16.ofNat_toNat]

theorem units_pair {u v : UInt16} (hu : isHigh u = true) (hv : isLow v = true) :
    encodeChar (pair u v) = [u, v] := by
  unfold isHigh at hu
  unfold isLow at hv
  rw [decide_eq_true_eq] at hu hv
  have hvalid : (0x10000 + (u.toNat - 0xD800) * 1024 + (v.toNat - 0xDC00)).isValidChar := by
    unfold Nat.isValidChar
    omega
  unfold pair encodeChar
  rw [toNat_ofNat hvalid, if_neg (by omega)]
  have hhigh : 0xD800 + (0x10000 + (u.toNat - 0xD800) * 1024 + (v.toNat - 0xDC00) - 0x10000) / 1024 =
      u.toNat := by omega
  have hlow : 0xDC00 + (0x10000 + (u.toNat - 0xD800) * 1024 + (v.toNat - 0xDC00) - 0x10000) % 1024 =
      v.toNat := by omega
  rw [hhigh, hlow, UInt16.ofNat_toNat, UInt16.ofNat_toNat]

/-- Nothing is lost in a decoded text. -/
theorem flatMap_units_decode (us : List UInt16) : (decode us).flatMap CodePoint.units = us := by
  induction us using decode.induct with
  | case1 => rfl
  | case2 u => simp [decode, units_single]
  | case3 u v rest h ih =>
    rw [decode, if_pos h, List.flatMap_cons, ih]
    show encodeChar (pair u v) ++ rest = u :: v :: rest
    rw [units_pair h.1 h.2]
    rfl
  | case4 u v rest h ih =>
    rw [decode, if_neg h, List.flatMap_cons, ih, units_single]
    rfl

/-- A text has characters exactly where it is what encodes them. -/
theorem text_iff {us : List UInt16} {cs : List Char} : text us = some cs ↔ encode cs = us := by
  unfold text
  constructor
  · intro h
    have hpoints : decode us = cs.map .char := by
      generalize decode us = points at h
      induction points generalizing cs with
      | nil =>
        obtain rfl := Option.some.inj h
        rfl
      | cons point points ih =>
        rw [List.mapM_cons] at h
        simp only [Option.bind_eq_bind, Option.bind_eq_some_iff, Option.pure_def,
          Option.some.injEq] at h
        obtain ⟨c, hc, rest, hrest, rfl⟩ := h
        cases point with
        | lone u => cases hc
        | char d =>
          obtain rfl := Option.some.inj hc
          rw [List.map_cons, ih hrest]
    rw [← flatMap_units_decode us, hpoints, List.flatMap_map]
    rfl
  · rintro rfl
    rw [decode_encode]
    induction cs with
    | nil => rfl
    | cons c cs ih =>
      rw [List.map_cons, List.mapM_cons, ih]
      rfl

end Utf16
