import ForgetOps.Library.Utf16

/-
  Reading bytes as UTF-8 where what is no character is replaced.

  The reader takes one byte at a time and holds the character it is in. A byte that does not
  continue it, or the end, leaves a replacement character in its place. What characters were
  written as is read back as they are: `decode_encode`.
-/

namespace Utf8

/-- A character that is being read: how many bytes of it are to come, its bits so far, and the
    least and the greatest byte that may be next. -/
structure Pending where
  needed : Nat
  codePoint : Nat
  lower : Nat
  upper : Nat
  deriving DecidableEq, Repr

def replacement : Char := '\uFFFD'

/-- A byte where no character is being read. -/
def start (b : Nat) : List Char × Option Pending :=
  if b ≤ 0x7F then ([Char.ofNat b], none)
  else if 0xC2 ≤ b ∧ b ≤ 0xDF then ([], some ⟨1, b % 0x20, 0x80, 0xBF⟩)
  else if 0xE0 ≤ b ∧ b ≤ 0xEF then
    ([], some ⟨2, b % 0x10, if b = 0xE0 then 0xA0 else 0x80, if b = 0xED then 0x9F else 0xBF⟩)
  else if 0xF0 ≤ b ∧ b ≤ 0xF4 then
    ([], some ⟨3, b % 8, if b = 0xF0 then 0x90 else 0x80, if b = 0xF4 then 0x8F else 0xBF⟩)
  else ([replacement], none)

def feed : Option Pending → Nat → List Char × Option Pending
  | none, b => start b
  | some p, b =>
    if p.lower ≤ b ∧ b ≤ p.upper then
      let codePoint := p.codePoint * 64 + b % 64
      if p.needed = 1 then ([Char.ofNat codePoint], none)
      else ([], some ⟨p.needed - 1, codePoint, 0x80, 0xBF⟩)
    else (replacement :: (start b).1, (start b).2)

def decodeFrom : Option Pending → List UInt8 → List Char
  | none, [] => []
  | some _, [] => [replacement]
  | p, b :: bytes => (feed p b.toNat).1 ++ decodeFrom (feed p b.toNat).2 bytes

/-- `buffer.toString("utf8")`. -/
def decode (bytes : List UInt8) : List Char := decodeFrom none bytes

/-! ## Characters -/

theorem toNat_ofNat {n : Nat} (h : n < 256) : (UInt8.ofNat n).toNat = n := by
  rw [UInt8.toNat_ofNat']
  exact Nat.mod_eq_of_lt h

/-- A byte that continues a character and is not its last one. -/
theorem feed_more {p : Pending} {b : Nat} (hb : p.lower ≤ b ∧ b ≤ p.upper) (hn : p.needed ≠ 1) :
    feed (some p) b = ([], some ⟨p.needed - 1, p.codePoint * 64 + b % 64, 0x80, 0xBF⟩) := by
  rw [feed, if_pos hb, if_neg hn]

theorem feed_last {p : Pending} {b : Nat} (hb : p.lower ≤ b ∧ b ≤ p.upper) (hn : p.needed = 1) :
    feed (some p) b = ([Char.ofNat (p.codePoint * 64 + b % 64)], none) := by
  rw [feed, if_pos hb, if_pos hn]

theorem start_two {b : Nat} (h : 0xC2 ≤ b ∧ b ≤ 0xDF) :
    start b = ([], some ⟨1, b % 0x20, 0x80, 0xBF⟩) := by
  rw [start, if_neg (by omega), if_pos h]

theorem start_three {b : Nat} (h : 0xE0 ≤ b ∧ b ≤ 0xEF) :
    start b =
      ([], some ⟨2, b % 0x10, if b = 0xE0 then 0xA0 else 0x80, if b = 0xED then 0x9F else 0xBF⟩) := by
  rw [start, if_neg (by omega), if_neg (by omega), if_pos h]

theorem start_four {b : Nat} (h : 0xF0 ≤ b ∧ b ≤ 0xF4) :
    start b =
      ([], some ⟨3, b % 8, if b = 0xF0 then 0x90 else 0x80, if b = 0xF4 then 0x8F else 0xBF⟩) := by
  rw [start, if_neg (by omega), if_neg (by omega), if_neg (by omega), if_pos h]

/-- The bytes of a character are read as that character. -/
theorem decodeFrom_encodeChar (c : Char) (bytes : List UInt8) :
    decodeFrom none (String.utf8EncodeChar c ++ bytes) = c :: decodeFrom none bytes := by
  have hvalid := Utf16.toNat_valid c
  have hval : c.val.toNat = c.toNat := rfl
  have hread : ∀ n, n = c.toNat → Char.ofNat n = c := by
    rintro n rfl
    exact Char.ofNat_toNat c
  unfold String.utf8EncodeChar
  dsimp only
  rw [hval]
  split_ifs with h1 h2 h3
  · simp only [List.cons_append, List.nil_append, decodeFrom]
    rw [toNat_ofNat (by omega), feed, start, if_pos (by omega), hread _ rfl]
    rfl
  · simp only [List.cons_append, List.nil_append, decodeFrom]
    rw [toNat_ofNat (by omega), toNat_ofNat (by omega), feed, start_two (by omega)]
    dsimp only
    rw [feed_last (by dsimp only; omega) rfl, hread _ (by dsimp only; omega)]
    rfl
  · simp only [List.cons_append, List.nil_append, decodeFrom]
    rw [toNat_ofNat (by omega), toNat_ofNat (by omega), toNat_ofNat (by omega), feed,
      start_three (by omega)]
    dsimp only
    rw [feed_more (by dsimp only; split_ifs <;> omega) (by dsimp only; omega)]
    dsimp only
    rw [feed_last (by dsimp only; omega) rfl, hread _ (by dsimp only; omega)]
    rfl
  · simp only [List.cons_append, List.nil_append, decodeFrom]
    rw [toNat_ofNat (by omega), toNat_ofNat (by omega), toNat_ofNat (by omega),
      toNat_ofNat (by omega), feed, start_four (by omega)]
    dsimp only
    rw [feed_more (by dsimp only; split_ifs <;> omega) (by dsimp only; omega)]
    dsimp only
    rw [feed_more (by dsimp only; omega) (by dsimp only; omega)]
    dsimp only
    rw [feed_last (by dsimp only; omega) rfl, hread _ (by dsimp only; omega)]
    rfl

theorem decode_encode (cs : List Char) : decode (cs.flatMap String.utf8EncodeChar) = cs := by
  unfold decode
  induction cs with
  | nil => rfl
  | cons c cs ih => rw [List.flatMap_cons, decodeFrom_encodeChar, ih]

end Utf8
