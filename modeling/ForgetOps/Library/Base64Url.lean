import Mathlib.Tactic

/-
  The URL-safe alphabet of base 64, without padding.

  Three bytes are four characters of six bits; one or two bytes at the end are two or three
  characters, whose unused bits have to be zero.
-/

namespace Base64Url

def alphabet : List Char :=
  "ABCDEFGHIJKLMNOPQRSTUVWXYZabcdefghijklmnopqrstuvwxyz0123456789-_".toList

/-- The character of six bits. -/
def charOf (n : Nat) : Char := alphabet.getD n 'A'

/-- The six bits of a character. -/
def sextet (c : Char) : Option Nat := if c ∈ alphabet then some (alphabet.idxOf c) else none

def encode : List UInt8 → List Char
  | [] => []
  | [a] => [charOf (a.toNat / 4), charOf (a.toNat % 4 * 16)]
  | [a, b] =>
    [charOf (a.toNat / 4), charOf (a.toNat % 4 * 16 + b.toNat / 16), charOf (b.toNat % 16 * 4)]
  | a :: b :: c :: rest =>
    charOf (a.toNat / 4) :: charOf (a.toNat % 4 * 16 + b.toNat / 16) ::
      charOf (b.toNat % 16 * 4 + c.toNat / 64) :: charOf (c.toNat % 64) :: encode rest

def decode : List Char → Option (List UInt8)
  | [] => some []
  | [_] => none
  | [w, x] => do
    let w ← sextet w
    let x ← sextet x
    if x % 16 = 0 then some [UInt8.ofNat (w * 4 + x / 16)] else none
  | [w, x, y] => do
    let w ← sextet w
    let x ← sextet x
    let y ← sextet y
    if y % 4 = 0 then
      some [UInt8.ofNat (w * 4 + x / 16), UInt8.ofNat (x % 16 * 16 + y / 4)]
    else none
  | w :: x :: y :: z :: rest => do
    let w ← sextet w
    let x ← sextet x
    let y ← sextet y
    let z ← sextet z
    let bytes ← decode rest
    some (UInt8.ofNat (w * 4 + x / 16) :: UInt8.ofNat (x % 16 * 16 + y / 4) ::
      UInt8.ofNat (y % 4 * 64 + z) :: bytes)

/-- A reader that ignores the unused bits. -/
def decodeForgiving : List Char → Option (List UInt8)
  | [] => some []
  | [_] => none
  | [w, x] => do
    let w ← sextet w
    let x ← sextet x
    some [UInt8.ofNat (w * 4 + x / 16)]
  | [w, x, y] => do
    let w ← sextet w
    let x ← sextet x
    let y ← sextet y
    some [UInt8.ofNat (w * 4 + x / 16), UInt8.ofNat (x % 16 * 16 + y / 4)]
  | w :: x :: y :: z :: rest => do
    let w ← sextet w
    let x ← sextet x
    let y ← sextet y
    let z ← sextet z
    let bytes ← decodeForgiving rest
    some (UInt8.ofNat (w * 4 + x / 16) :: UInt8.ofNat (x % 16 * 16 + y / 4) ::
      UInt8.ofNat (y % 4 * 64 + z) :: bytes)

set_option maxRecDepth 4000 in
theorem alphabet_nodup : alphabet.Nodup := by decide

theorem sextet_charOf {n : Nat} (h : n < 64) : sextet (charOf n) = some n := by
  have hlt : n < alphabet.length := h
  have hchar : charOf n = alphabet[n] := by rw [charOf, List.getD_eq_getElem?_getD, List.getElem?_eq_getElem hlt, Option.getD_some]
  rw [hchar, sextet, if_pos (List.getElem_mem hlt), alphabet_nodup.idxOf_getElem]

theorem ofNat_eq {n : Nat} {a : UInt8} (h : n = a.toNat) : UInt8.ofNat n = a := by
  rw [h, UInt8.ofNat_toNat]

/-- What is encoded is decoded. -/
theorem decode_encode (bytes : List UInt8) : decode (encode bytes) = some bytes := by
  induction bytes using encode.induct with
  | case1 => rfl
  | case2 a =>
    have ha := a.toNat_lt
    have hx : a.toNat % 4 * 16 % 16 = 0 := by omega
    simp only [encode, decode, sextet_charOf (show a.toNat / 4 < 64 by omega),
      sextet_charOf (show a.toNat % 4 * 16 < 64 by omega), Option.bind_eq_bind, Option.bind_some]
    rw [if_pos hx, ofNat_eq (a := a) (by omega)]
  | case3 a b =>
    have ha := a.toNat_lt
    have hb := b.toNat_lt
    have hy : b.toNat % 16 * 4 % 4 = 0 := by omega
    simp only [encode, decode, sextet_charOf (show a.toNat / 4 < 64 by omega),
      sextet_charOf (show a.toNat % 4 * 16 + b.toNat / 16 < 64 by omega),
      sextet_charOf (show b.toNat % 16 * 4 < 64 by omega), Option.bind_eq_bind, Option.bind_some]
    rw [if_pos hy, ofNat_eq (a := a) (by omega), ofNat_eq (a := b) (by omega)]
  | case4 a b c rest ih =>
    have ha := a.toNat_lt
    have hb := b.toNat_lt
    have hc := c.toNat_lt
    simp only [encode, decode, sextet_charOf (show a.toNat / 4 < 64 by omega),
      sextet_charOf (show a.toNat % 4 * 16 + b.toNat / 16 < 64 by omega),
      sextet_charOf (show b.toNat % 16 * 4 + c.toNat / 64 < 64 by omega),
      sextet_charOf (show c.toNat % 64 < 64 by omega), ih, Option.bind_eq_bind, Option.bind_some]
    rw [ofNat_eq (a := a) (by omega), ofNat_eq (a := b) (by omega), ofNat_eq (a := c) (by omega)]

/-- What is read with its unused bits zero, is read without a look at them. -/
theorem decodeForgiving_of_decode {cs : List Char} {bytes : List UInt8}
    (h : decode cs = some bytes) : decodeForgiving cs = some bytes := by
  induction cs using decode.induct generalizing bytes with
  | case1 => exact h
  | case2 w => exact h
  | case3 w x =>
    simp only [decode, Option.bind_eq_bind, Option.bind_eq_some_iff] at h
    obtain ⟨n, hn, k, hk, h⟩ := h
    split_ifs at h
    simp only [decodeForgiving, hn, hk, Option.bind_eq_bind, Option.bind_some, h]
  | case4 w x y =>
    simp only [decode, Option.bind_eq_bind, Option.bind_eq_some_iff] at h
    obtain ⟨n, hn, k, hk, m, hm, h⟩ := h
    split_ifs at h
    simp only [decodeForgiving, hn, hk, hm, Option.bind_eq_bind, Option.bind_some, h]
  | case5 w x y z rest ih =>
    simp only [decode, Option.bind_eq_bind, Option.bind_eq_some_iff] at h
    obtain ⟨n, hn, k, hk, m, hm, j, hj, tail, htail, h⟩ := h
    simp only [decodeForgiving, hn, hk, hm, hj, ih htail, Option.bind_eq_bind, Option.bind_some, h]

/-! ## The text -/

theorem charOf_mem {n : Nat} (h : n < 64) : charOf n ∈ alphabet := by
  have hlt : n < alphabet.length := h
  rw [charOf, List.getD_eq_getElem?_getD, List.getElem?_eq_getElem hlt, Option.getD_some]
  exact List.getElem_mem hlt

theorem mem_alphabet_of_mem_encode {bytes : List UInt8} {c : Char} (h : c ∈ encode bytes) :
    c ∈ alphabet := by
  induction bytes using encode.induct with
  | case1 => cases h
  | case2 a =>
    have ha := a.toNat_lt
    simp only [encode, List.mem_cons, List.not_mem_nil, or_false] at h
    rcases h with rfl | rfl <;> exact charOf_mem (by omega)
  | case3 a b =>
    have ha := a.toNat_lt
    have hb := b.toNat_lt
    simp only [encode, List.mem_cons, List.not_mem_nil, or_false] at h
    rcases h with rfl | rfl | rfl <;> exact charOf_mem (by omega)
  | case4 a b d rest ih =>
    have ha := a.toNat_lt
    have hb := b.toNat_lt
    have hd := d.toNat_lt
    simp only [encode, List.mem_cons] at h
    rcases h with rfl | rfl | rfl | rfl | h
    · exact charOf_mem (by omega)
    · exact charOf_mem (by omega)
    · exact charOf_mem (by omega)
    · exact charOf_mem (by omega)
    · exact ih h

/-- The length of the text tells how many bytes there are. -/
theorem length_encode (bytes : List UInt8) : (encode bytes).length * 3 / 4 = bytes.length := by
  induction bytes using encode.induct with
  | case1 => rfl
  | case2 a =>
    show (0 + 1 + 1) * 3 / 4 = 1
    rfl
  | case3 a b =>
    show (0 + 1 + 1 + 1) * 3 / 4 = 2
    rfl
  | case4 a b c rest ih =>
    simp only [encode, List.length_cons]
    omega

end Base64Url
