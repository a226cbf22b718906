import ForgetOps.Library.Lines

/-
  The texts of IP addresses, and which addresses are globally routable.

  An address is a number of 32 or 128 bits, its text four decimal octets or hexadecimal groups
  between colons, where `::` stands for the groups that are zero and the last two groups may be
  written as octets. Blocks are given by an address and a number of bits. `firstGroup` says how the
  text of an IPv6 address begins: with its first group, or with a colon where that group is zero.
-/

namespace IpAddress

/-! ## Texts -/

/-- The parts of a text between separators. -/
def parts (sep : Char) (cs : List Char) : List (List Char) :=
  (Lines.split sep cs).1 ++ [(Lines.split sep cs).2]

def ipv4 (a b c d : Nat) : Nat := ((a * 256 + b) * 256 + c) * 256 + d

/-- A decimal number up to 255 that does not begin with a zero. -/
def readOctet (cs : List Char) : Option Nat :=
  if cs ≠ [] ∧ cs.all Char.isDigit ∧ (cs.head? = some '0' → cs.length = 1) ∧
      Nat.ofDigitChars 10 cs 0 ≤ 255 then
    some (Nat.ofDigitChars 10 cs 0)
  else none

def readIpv4 (cs : List Char) : Option Nat :=
  match parts '.' cs with
  | [a, b, c, d] => do
    let a ← readOctet a
    let b ← readOctet b
    let c ← readOctet c
    let d ← readOctet d
    some (ipv4 a b c d)
  | _ => none

def hexDigit (c : Char) : Option Nat :=
  if c.isDigit then some (c.toNat - 48)
  else if 'a' ≤ c.toLower ∧ c.toLower ≤ 'f' then some (c.toLower.toNat - 87)
  else none

def readHex (n : Nat) : List Char → Option Nat
  | [] => some n
  | c :: cs => (hexDigit c).bind fun v => readHex (n * 16 + v) cs

/-- One to four hexadecimal digits. -/
def readGroup (cs : List Char) : Option Nat :=
  if cs ≠ [] ∧ cs.length ≤ 4 then readHex 0 cs else none

def readEach : List (List Char) → Option (List Nat)
  | [] => some []
  | cs :: rest => (readGroup cs).bind fun g => (readEach rest).map (g :: ·)

def readGroups (cs : List Char) : Option (List Nat) :=
  if cs = [] then some [] else readEach (parts ':' cs)

/-- Groups, the last two of which may be written as octets. -/
def readTail (cs : List Char) : Option (List Nat) :=
  if cs = [] then some []
  else
    match readIpv4 (Lines.split ':' cs).2 with
    | some n => (readEach (Lines.split ':' cs).1).map (· ++ [n / 65536, n % 65536])
    | none => readEach (parts ':' cs)

/-- The number of these groups. -/
def value : List Nat → Nat
  | [] => 0
  | g :: gs => g * 65536 ^ gs.length + value gs

/-- The text before and after the first `::`. -/
def splitDouble : List Char → Option (List Char × List Char)
  | [] => none
  | c :: cs =>
    if c = ':' ∧ cs.head? = some ':' then some ([], cs.tail)
    else (splitDouble cs).map fun r => (c :: r.1, r.2)

def readUnzoned (cs : List Char) : Option Nat :=
  match splitDouble cs with
  | none => do
    let gs ← readTail cs
    if gs.length = 8 then some (value gs) else none
  | some (before, after) => do
    let left ← readGroups before
    let right ← readTail after
    if left.length + right.length ≤ 7 then
      some (value (left ++ List.replicate (8 - (left.length + right.length)) 0 ++ right))
    else none

def inZone (c : Char) : Bool := c.isAlphanum ∨ c = '-' ∨ c = '.' ∨ c = ':'

/-- An IPv6 address, with a zone or without. -/
def readIpv6 (cs : List Char) : Option Nat :=
  if '%' ∈ cs then
    let zone := (cs.dropWhile (· ≠ '%')).tail
    if zone ≠ [] ∧ zone.all inZone then readUnzoned (cs.takeWhile (· ≠ '%')) else none
  else readUnzoned cs

/-! ## Blocks -/

/-- The addresses that share their first `bits` bits with `base`. -/
structure Block where
  base : Nat
  bits : Nat
  deriving DecidableEq, Repr

def Block.contains (b : Block) (width n : Nat) : Bool :=
  n / 2 ^ (width - b.bits) = b.base / 2 ^ (width - b.bits)

/-- The blocks of IPv4 that are not globally routable unicast: this network, private, shared,
    loopback, link-local, protocol assignments, documentation, benchmarking, multicast, reserved. -/
def specialIpv4 : List Block :=
  [⟨ipv4 0 0 0 0, 8⟩, ⟨ipv4 10 0 0 0, 8⟩, ⟨ipv4 100 64 0 0, 10⟩, ⟨ipv4 127 0 0 0, 8⟩,
    ⟨ipv4 169 254 0 0, 16⟩, ⟨ipv4 172 16 0 0, 12⟩, ⟨ipv4 192 0 0 0, 24⟩, ⟨ipv4 192 0 2 0, 24⟩,
    ⟨ipv4 192 168 0 0, 16⟩, ⟨ipv4 198 18 0 0, 15⟩, ⟨ipv4 198 51 100 0, 24⟩,
    ⟨ipv4 203 0 113 0, 24⟩, ⟨ipv4 224 0 0 0, 4⟩, ⟨ipv4 240 0 0 0, 4⟩]

def globalIpv4 (n : Nat) : Bool := ¬ specialIpv4.any (·.contains 32 n)

def ipv6 (first second : Nat) : Nat := value [first, second, 0, 0, 0, 0, 0, 0]

/-- The globally routable unicast addresses of IPv6 are in this block. -/
def unicastIpv6 : Block := ⟨ipv6 0x2000 0, 3⟩

/-- The blocks in it that are not: protocol assignments and documentation. -/
def specialIpv6 : List Block :=
  [⟨ipv6 0x2001 0, 23⟩, ⟨ipv6 0x2001 0xdb8, 32⟩, ⟨ipv6 0x3fff 0, 20⟩]

/-- The addresses of IPv4 in IPv6. -/
def mappedIpv4 : Block := ⟨value [0, 0, 0, 0, 0, 0xffff, 0, 0], 96⟩

def globalIpv6 (n : Nat) : Bool :=
  if mappedIpv4.contains 128 n then globalIpv4 (n % 2 ^ 32)
  else unicastIpv6.contains 128 n ∧ ¬ specialIpv6.any (·.contains 128 n)

/-- A text of an address that is globally routable. -/
def Routable (cs : List Char) : Prop :=
  (∃ n, readIpv4 cs = some n ∧ globalIpv4 n = true) ∨
    ∃ n, readIpv6 cs = some n ∧ globalIpv6 n = true

/-! ## The first group of a text -/

theorem toLower_of_isDigit {c : Char} (h : c.isDigit = true) : c.toLower = c := by
  unfold Char.isDigit at h
  rw [Bool.and_eq_true, decide_eq_true_eq, decide_eq_true_eq] at h
  unfold Char.toLower
  refine dif_neg ?_
  rintro ⟨hge, -⟩
  exact absurd (UInt32.le_trans hge h.2) (by decide)

/-- A hexadecimal digit in lower case is the one of its value. -/
theorem toLower_of_hexDigit {c : Char} {v : Nat} (h : hexDigit c = some v) :
    v < 16 ∧ c.toLower = Nat.digitChar v := by
  have hread : ∀ {d : Char} {n : Nat}, d.toNat = n → d = Char.ofNat n := by
    rintro d n rfl
    exact (Char.ofNat_toNat d).symm
  unfold hexDigit at h
  split_ifs at h with hdigit hletter
  · obtain ⟨hge, hle⟩ := Char.isDigit_iff_toNat.mp hdigit
    obtain rfl := Option.some.inj h
    rw [toLower_of_isDigit hdigit, @hread c _ rfl]
    have hge : 48 ≤ c.toNat := hge
    have hle : c.toNat ≤ 57 := hle
    generalize c.toNat = n at hge hle
    interval_cases n <;> decide
  · obtain ⟨hge, hle⟩ := hletter
    obtain rfl := Option.some.inj h
    have hge : 97 ≤ c.toLower.toNat := hge
    have hle : c.toLower.toNat ≤ 102 := hle
    have hlower := @hread c.toLower _ rfl
    generalize c.toLower.toNat = n at hge hle hlower
    rw [hlower]
    interval_cases n <;> decide

theorem hexDigit_lt {c : Char} {v : Nat} (h : hexDigit c = some v) : v < 16 :=
  (toLower_of_hexDigit h).1

theorem readHex_lt {cs : List Char} {n m : Nat} (h : readHex n cs = some m) :
    m < (n + 1) * 16 ^ cs.length := by
  induction cs generalizing n with
  | nil =>
    cases h
    simp
  | cons c cs ih =>
    obtain ⟨v, hv, hrest⟩ := Option.bind_eq_some_iff.mp h
    have hlt := hexDigit_lt hv
    have hm := ih hrest
    calc m < (n * 16 + v + 1) * 16 ^ cs.length := hm
      _ ≤ ((n + 1) * 16) * 16 ^ cs.length := Nat.mul_le_mul_right _ (by omega)
      _ = (n + 1) * 16 ^ (c :: cs).length := by rw [List.length_cons, Nat.pow_succ]; ring

theorem readGroup_lt {cs : List Char} {g : Nat} (h : readGroup cs = some g) : g < 65536 := by
  unfold readGroup at h
  split_ifs at h with hlength
  have hlt := readHex_lt h
  have hpow : 16 ^ cs.length ≤ 16 ^ 4 := Nat.pow_le_pow_right (by decide) hlength.2
  omega

/-- Four digits, in lower case, and their number. -/
theorem readGroup_four {cs : List Char} {g : Nat} (h : readGroup cs = some g)
    (hlength : cs.length = 4) :
    ∃ v₁ v₂ v₃ v₄, v₁ < 16 ∧ v₂ < 16 ∧ v₃ < 16 ∧ v₄ < 16 ∧
      cs.map Char.toLower =
        [Nat.digitChar v₁, Nat.digitChar v₂, Nat.digitChar v₃, Nat.digitChar v₄] ∧
      g = ((v₁ * 16 + v₂) * 16 + v₃) * 16 + v₄ := by
  obtain ⟨c₁, c₂, c₃, c₄, rfl⟩ := List.length_eq_four.mp hlength
  unfold readGroup at h
  split_ifs at h
  obtain ⟨v₁, h₁, h⟩ := Option.bind_eq_some_iff.mp h
  obtain ⟨v₂, h₂, h⟩ := Option.bind_eq_some_iff.mp h
  obtain ⟨v₃, h₃, h⟩ := Option.bind_eq_some_iff.mp h
  obtain ⟨v₄, h₄, h⟩ := Option.bind_eq_some_iff.mp h
  obtain rfl := Option.some.inj h
  obtain ⟨hlt₁, hlower₁⟩ := toLower_of_hexDigit h₁
  obtain ⟨hlt₂, hlower₂⟩ := toLower_of_hexDigit h₂
  obtain ⟨hlt₃, hlower₃⟩ := toLower_of_hexDigit h₃
  obtain ⟨hlt₄, hlower₄⟩ := toLower_of_hexDigit h₄
  refine ⟨v₁, v₂, v₃, v₄, hlt₁, hlt₂, hlt₃, hlt₄, ?_, by omega⟩
  simp only [List.map_cons, List.map_nil, hlower₁, hlower₂, hlower₃, hlower₄]

/-- Fewer digits make a smaller number. -/
theorem readGroup_short {cs : List Char} {g : Nat} (h : readGroup cs = some g)
    (hlength : cs.length < 4) : g < 4096 := by
  unfold readGroup at h
  split_ifs at h
  have hlt := readHex_lt h
  have hpow : 16 ^ cs.length ≤ 16 ^ 3 := Nat.pow_le_pow_right (by decide) (by omega)
  omega

theorem colon_notMem_readHex {cs : List Char} {n m : Nat} (h : readHex n cs = some m) :
    ':' ∉ cs := by
  induction cs generalizing n with
  | nil => exact List.not_mem_nil
  | cons c cs ih =>
    obtain ⟨v, hv, hrest⟩ := Option.bind_eq_some_iff.mp h
    rw [List.mem_cons, not_or]
    refine ⟨?_, ih hrest⟩
    rintro rfl
    cases hv

theorem colon_notMem_readGroup {cs : List Char} {g : Nat} (h : readGroup cs = some g) :
    ':' ∉ cs := by
  unfold readGroup at h
  split_ifs at h
  exact colon_notMem_readHex h

theorem readGroup_length {cs : List Char} {g : Nat} (h : readGroup cs = some g) :
    cs.length ≤ 4 := by
  unfold readGroup at h
  split_ifs at h with hlength
  exact hlength.2

theorem value_lt {gs : List Nat} (h : ∀ g ∈ gs, g < 65536) : value gs < 65536 ^ gs.length := by
  induction gs with
  | nil => exact Nat.one_pos
  | cons g gs ih =>
    have hg := h g List.mem_cons_self
    have hgs := ih fun g' hg' => h g' (List.mem_cons_of_mem _ hg')
    rw [value, List.length_cons, Nat.pow_succ]
    calc g * 65536 ^ gs.length + value gs < (g + 1) * 65536 ^ gs.length := by
          rw [Nat.add_mul, Nat.one_mul]
          omega
      _ ≤ 65536 * 65536 ^ gs.length := Nat.mul_le_mul_right _ (by omega)
      _ = 65536 ^ gs.length * 65536 := Nat.mul_comm _ _

/-- The first group of an address is in its highest bits. -/
theorem value_div {g : Nat} {gs : List Nat} (h : ∀ g' ∈ gs, g' < 65536) (hlength : gs.length = 7) :
    value (g :: gs) / 2 ^ 112 = g := by
  have hlt := value_lt h
  rw [value, hlength] at *
  rw [hlength] at hlt
  omega

theorem readOctet_le {cs : List Char} {n : Nat} (h : readOctet cs = some n) : n ≤ 255 := by
  unfold readOctet at h
  split_ifs at h with hoctet
  obtain rfl := Option.some.inj h
  exact hoctet.2.2.2

theorem readOctet_eq {cs : List Char} {n : Nat} (h : readOctet cs = some n) :
    Nat.ofDigitChars 10 cs 0 = n := by
  unfold readOctet at h
  split_ifs at h
  exact Option.some.inj h

theorem colon_notMem_readOctet {cs : List Char} {n : Nat} (h : readOctet cs = some n) :
    ':' ∉ cs := by
  unfold readOctet at h
  split_ifs at h with hoctet
  intro hmem
  exact absurd (List.all_eq_true.mp hoctet.2.1 ':' hmem) (by decide)

/-- An address of IPv4 is its four octets. -/
theorem readIpv4_iff {cs : List Char} {n : Nat} :
    readIpv4 cs = some n ↔ ∃ t₁ t₂ t₃ t₄ a b c d, parts '.' cs = [t₁, t₂, t₃, t₄] ∧
      readOctet t₁ = some a ∧ readOctet t₂ = some b ∧ readOctet t₃ = some c ∧
      readOctet t₄ = some d ∧ n = ipv4 a b c d := by
  unfold readIpv4
  constructor
  · intro h
    split at h
    · next t₁ t₂ t₃ t₄ hparts =>
      obtain ⟨a, ha, h⟩ := Option.bind_eq_some_iff.mp h
      obtain ⟨b, hb, h⟩ := Option.bind_eq_some_iff.mp h
      obtain ⟨c, hc, h⟩ := Option.bind_eq_some_iff.mp h
      obtain ⟨d, hd, h⟩ := Option.bind_eq_some_iff.mp h
      exact ⟨t₁, t₂, t₃, t₄, a, b, c, d, hparts, ha, hb, hc, hd, (Option.some.inj h).symm⟩
    · cases h
  · rintro ⟨t₁, t₂, t₃, t₄, a, b, c, d, hparts, ha, hb, hc, hd, rfl⟩
    rw [hparts]
    show (readOctet t₁).bind _ = _
    rw [ha, Option.bind_some]
    show (readOctet t₂).bind _ = _
    rw [hb, Option.bind_some]
    show (readOctet t₃).bind _ = _
    rw [hc, Option.bind_some]
    show (readOctet t₄).bind _ = _
    rw [hd, Option.bind_some]

/-- Octets. -/
structure Octets (a b c d : Nat) : Prop where
  first : a ≤ 255
  second : b ≤ 255
  third : c ≤ 255
  fourth : d ≤ 255

theorem readIpv4_octets {cs : List Char} {n : Nat} (h : readIpv4 cs = some n) :
    ∃ t₁ t₂ t₃ t₄ a b c d, parts '.' cs = [t₁, t₂, t₃, t₄] ∧ readOctet t₁ = some a ∧
      readOctet t₂ = some b ∧ Octets a b c d ∧ n = ipv4 a b c d := by
  obtain ⟨t₁, t₂, t₃, t₄, a, b, c, d, hparts, ha, hb, hc, hd, rfl⟩ := readIpv4_iff.mp h
  exact ⟨t₁, t₂, t₃, t₄, a, b, c, d, hparts, ha, hb,
    ⟨readOctet_le ha, readOctet_le hb, readOctet_le hc, readOctet_le hd⟩, rfl⟩

theorem readIpv4_lt {cs : List Char} {n : Nat} (h : readIpv4 cs = some n) : n < 2 ^ 32 := by
  obtain ⟨-, -, -, -, a, b, c, d, -, -, -, ⟨ha, hb, hc, hd⟩, rfl⟩ := readIpv4_octets h
  unfold ipv4
  omega

section Octets

variable {a b c d : Nat} (h : Octets a b c d)

include h

theorem Octets.contains_one (x : Nat) :
    (Block.mk (ipv4 x 0 0 0) 8).contains 32 (ipv4 a b c d) = decide (a = x) := by
  obtain ⟨ha, hb, hc, hd⟩ := h
  refine decide_eq_decide.mpr ?_
  show ipv4 a b c d / 2 ^ 24 = ipv4 x 0 0 0 / 2 ^ 24 ↔ _
  unfold ipv4
  omega

theorem Octets.contains_two (x y : Nat) (hy : y ≤ 255) :
    (Block.mk (ipv4 x y 0 0) 16).contains 32 (ipv4 a b c d) = decide (a = x ∧ b = y) := by
  obtain ⟨ha, hb, hc, hd⟩ := h
  refine decide_eq_decide.mpr ?_
  show ipv4 a b c d / 2 ^ 16 = ipv4 x y 0 0 / 2 ^ 16 ↔ _
  unfold ipv4
  omega

/-- A block that ends within the second octet. -/
theorem Octets.contains_within (x y k : Nat) (hk : k ≤ 8) (hy : y ≤ 255) :
    (Block.mk (ipv4 x y 0 0) (16 - k)).contains 32 (ipv4 a b c d) =
      decide (a = x ∧ b / 2 ^ k = y / 2 ^ k) := by
  obtain ⟨ha, hb, hc, hd⟩ := h
  refine decide_eq_decide.mpr ?_
  show ipv4 a b c d / 2 ^ (32 - (16 - k)) = ipv4 x y 0 0 / 2 ^ (32 - (16 - k)) ↔ _
  unfold ipv4
  interval_cases k <;> omega

/-- A block of the first four bits. -/
theorem Octets.contains_half (x : Nat) :
    (Block.mk (ipv4 x 0 0 0) 4).contains 32 (ipv4 a b c d) = decide (a / 16 = x / 16) := by
  obtain ⟨ha, hb, hc, hd⟩ := h
  refine decide_eq_decide.mpr ?_
  show ipv4 a b c d / 2 ^ 28 = ipv4 x 0 0 0 / 2 ^ 28 ↔ _
  unfold ipv4
  omega

end Octets

theorem colon_notMem_readIpv4 {cs : List Char} {n : Nat} (h : readIpv4 cs = some n) :
    ':' ∉ cs := by
  obtain ⟨t₁, t₂, t₃, t₄, a, b, c, d, hparts, h₁, h₂, h₃, h₄, -⟩ := readIpv4_iff.mp h
  have hjoin := Lines.join_split '.' cs
  unfold parts at hparts
  have hlines : (Lines.split '.' cs).1 = [t₁, t₂, t₃] ∧ (Lines.split '.' cs).2 = t₄ := by
    have happend : (Lines.split '.' cs).1 ++ [(Lines.split '.' cs).2] = [t₁, t₂, t₃] ++ [t₄] := hparts
    exact List.append_inj' happend rfl |>.imp id fun heq => (List.cons.inj heq).1
  rw [hlines.1, hlines.2] at hjoin
  rw [← hjoin]
  simp [Lines.join_cons, colon_notMem_readOctet h₁, colon_notMem_readOctet h₂,
    colon_notMem_readOctet h₃, colon_notMem_readOctet h₄]

theorem readEach_cons {cs : List Char} {rest : List (List Char)} {gs : List Nat} :
    readEach (cs :: rest) = some gs ↔
      ∃ g gs', readGroup cs = some g ∧ readEach rest = some gs' ∧ gs = g :: gs' := by
  rw [readEach, Option.bind_eq_some_iff]
  constructor
  · rintro ⟨g, hg, h⟩
    obtain ⟨gs', hgs', rfl⟩ := Option.map_eq_some_iff.mp h
    exact ⟨g, gs', hg, hgs', rfl⟩
  · rintro ⟨g, gs', hg, hgs', rfl⟩
    exact ⟨g, hg, by rw [hgs', Option.map_some]⟩

theorem readEach_lt {css : List (List Char)} {gs : List Nat} (h : readEach css = some gs) :
    ∀ g ∈ gs, g < 65536 := by
  induction css generalizing gs with
  | nil =>
    cases h
    exact nofun
  | cons cs css ih =>
    obtain ⟨g, gs', hg, hgs', rfl⟩ := readEach_cons.mp h
    intro g' hg'
    rcases List.mem_cons.mp hg' with rfl | hg'
    · exact readGroup_lt hg
    · exact ih hgs' g' hg'

theorem readGroups_lt {cs : List Char} {gs : List Nat} (h : readGroups cs = some gs) :
    ∀ g ∈ gs, g < 65536 := by
  unfold readGroups at h
  split_ifs at h
  · cases h
    exact nofun
  · exact readEach_lt h

theorem readTail_lt {cs : List Char} {gs : List Nat} (h : readTail cs = some gs) :
    ∀ g ∈ gs, g < 65536 := by
  unfold readTail at h
  split_ifs at h
  · cases h
    exact nofun
  · split at h
    · next n hn =>
      obtain ⟨gs', hgs', rfl⟩ := Option.map_eq_some_iff.mp h
      have hlt := readIpv4_lt hn
      intro g hg
      rcases List.mem_append.mp hg with hg | hg
      · exact readEach_lt hgs' g hg
      · simp only [List.mem_cons, List.not_mem_nil, or_false] at hg
        omega
    · exact readEach_lt h

/-- A text of groups begins with the first one. -/
theorem readGroups_cons {cs : List Char} {g : Nat} {gs : List Nat}
    (h : readGroups cs = some (g :: gs)) :
    readGroup cs = some g ∨ ∃ d rest, cs = d ++ ':' :: rest ∧ readGroup d = some g := by
  rcases eq_or_ne cs [] with rfl | hne
  · cases h
  rw [readGroups, if_neg hne, parts] at h
  rcases Lines.notMem_or_line ':' cs with hfree | ⟨d, rest, hd, rfl⟩
  · rw [Lines.split_of_notMem hfree, List.nil_append] at h
    obtain ⟨g', gs', hg', -, heq⟩ := readEach_cons.mp h
    rw [List.cons.injEq] at heq
    rw [heq.1]
    exact .inl hg'
  · rw [Lines.split_line hd, List.cons_append] at h
    obtain ⟨g', gs', hg', -, heq⟩ := readEach_cons.mp h
    rw [List.cons.injEq] at heq
    rw [heq.1]
    exact .inr ⟨d, rest, rfl, hg'⟩

/-- Three groups or more begin with a group and a colon. -/
theorem readTail_cons {cs : List Char} {gs : List Nat} (h : readTail cs = some gs)
    (hlength : 2 < gs.length) :
    ∃ d rest g gs', cs = d ++ ':' :: rest ∧ readGroup d = some g ∧ gs = g :: gs' := by
  unfold readTail at h
  split_ifs at h
  · cases h
    exact absurd hlength (by decide)
  · unfold parts at h
    rcases Lines.notMem_or_line ':' cs with hfree | ⟨d, rest, hd, rfl⟩
    · rw [Lines.split_of_notMem hfree] at h
      split at h
      · obtain rfl := Option.some.inj h
        exact absurd hlength (by simp)
      · obtain ⟨g, gs', -, hgs', rfl⟩ := readEach_cons.mp h
        obtain rfl := Option.some.inj hgs'
        exact absurd hlength (by simp)
    · rw [Lines.split_line hd] at h
      split at h
      · obtain ⟨gs', hgs', rfl⟩ := Option.map_eq_some_iff.mp h
        obtain ⟨g, gs'', hg, -, rfl⟩ := readEach_cons.mp hgs'
        exact ⟨d, rest, g, _, rfl, hg, rfl⟩
      · obtain ⟨g, gs', hg, -, rfl⟩ := readEach_cons.mp h
        exact ⟨d, rest, g, gs', rfl, hg, rfl⟩

theorem readGroups_nil {cs : List Char} (h : readGroups cs = some []) : cs = [] := by
  by_contra hne
  rw [readGroups, if_neg hne, parts] at h
  rcases Lines.notMem_or_line ':' cs with hfree | ⟨d, rest, hd, rfl⟩
  · rw [Lines.split_of_notMem hfree, List.nil_append] at h
    obtain ⟨g, gs, -, -, heq⟩ := readEach_cons.mp h
    cases heq
  · rw [Lines.split_line hd, List.cons_append] at h
    obtain ⟨g, gs, -, -, heq⟩ := readEach_cons.mp h
    cases heq

theorem splitDouble_eq {cs before after : List Char} (h : splitDouble cs = some (before, after)) :
    cs = before ++ ':' :: ':' :: after := by
  induction cs generalizing before after with
  | nil => cases h
  | cons c cs ih =>
    rw [splitDouble] at h
    split_ifs at h with hcolon
    · obtain ⟨rfl, hhead⟩ := hcolon
      cases h
      cases cs with
      | nil => cases hhead
      | cons c' cs =>
        obtain rfl := Option.some.inj hhead
        rfl
    · obtain ⟨⟨before', after'⟩, hrest, heq⟩ := Option.map_eq_some_iff.mp h
      cases heq
      rw [ih hrest]
      rfl

/-- An address begins with its first group, or with a colon where that group is zero. -/
theorem firstGroup_unzoned {cs : List Char} {n : Nat} (h : readUnzoned cs = some n) :
    (∃ rest, cs = ':' :: rest ∧ n / 2 ^ 112 = 0) ∨
      ∃ d rest g, cs = d ++ ':' :: rest ∧ readGroup d = some g ∧ n / 2 ^ 112 = g := by
  unfold readUnzoned at h
  split at h
  · obtain ⟨gs, hgs, h⟩ := Option.bind_eq_some_iff.mp h
    split_ifs at h with hlength
    obtain rfl := Option.some.inj h
    obtain ⟨d, rest, g, gs', rfl, hd, rfl⟩ := readTail_cons hgs (by omega)
    have hlt := readTail_lt hgs
    refine .inr ⟨d, rest, g, rfl, hd, value_div ?_ (by simpa using hlength)⟩
    exact fun g' hg' => hlt g' (List.mem_cons_of_mem _ hg')
  · next before after hsplit =>
    obtain rfl := splitDouble_eq hsplit
    obtain ⟨left, hleft, h⟩ := Option.bind_eq_some_iff.mp h
    obtain ⟨right, hright, h⟩ := Option.bind_eq_some_iff.mp h
    split_ifs at h with hlength
    obtain rfl := Option.some.inj h
    have hall : ∀ g ∈ left ++ List.replicate (8 - (left.length + right.length)) 0 ++ right,
        g < 65536 := by
      intro g hg
      rw [List.mem_append, List.mem_append] at hg
      rcases hg with (hg | hg) | hg
      · exact readGroups_lt hleft g hg
      · rw [List.eq_of_mem_replicate hg]
        decide
      · exact readTail_lt hright g hg
    have htotal : (left ++ List.replicate (8 - (left.length + right.length)) 0 ++ right).length =
        8 := by
      rw [List.length_append, List.length_append, List.length_replicate]
      omega
    cases left with
    | nil =>
      obtain rfl := readGroups_nil hleft
      rw [List.length_nil, Nat.zero_add] at hlength
      obtain ⟨k, hk⟩ : ∃ k, 8 - right.length = k + 1 := ⟨7 - right.length, by omega⟩
      simp only [List.length_nil, Nat.zero_add, List.nil_append, hk, List.replicate_succ,
        List.cons_append] at hall htotal ⊢
      refine .inl ⟨':' :: after, rfl, value_div ?_ (by simpa using htotal)⟩
      exact fun g' hg' => hall g' (List.mem_cons_of_mem _ hg')
    | cons g gs =>
      have hfirst : ∀ g' ∈ gs ++ List.replicate (8 - ((g :: gs).length + right.length)) 0 ++ right,
          g' < 65536 := fun g' hg' => hall g' (List.mem_cons_of_mem _ hg')
      have hdiv := value_div (g := g) hfirst (by simpa using htotal)
      rcases readGroups_cons hleft with hd | ⟨d, rest, rfl, hd⟩
      · exact .inr ⟨before, ':' :: after, g, rfl, hd, hdiv⟩
      · refine .inr ⟨d, rest ++ ':' :: ':' :: after, g, ?_, hd, hdiv⟩
        rw [List.append_assoc]
        rfl

theorem firstGroup {cs : List Char} {n : Nat} (h : readIpv6 cs = some n) :
    (∃ rest, cs = ':' :: rest ∧ n / 2 ^ 112 = 0) ∨
      ∃ d rest g, cs = d ++ ':' :: rest ∧ readGroup d = some g ∧ n / 2 ^ 112 = g := by
  unfold readIpv6 at h
  split_ifs at h with hzone
  · dsimp only at h
    split_ifs at h
    have hcs : cs.takeWhile (· ≠ '%') ++ cs.dropWhile (· ≠ '%') = cs := List.takeWhile_append_dropWhile
    rcases firstGroup_unzoned h with ⟨rest, hrest, hn⟩ | ⟨d, rest, g, hrest, hd, hn⟩
    · refine .inl ⟨rest ++ cs.dropWhile (· ≠ '%'), ?_, hn⟩
      rw [hrest] at hcs
      exact hcs.symm
    · refine .inr ⟨d, rest ++ cs.dropWhile (· ≠ '%'), g, ?_, hd, hn⟩
      rw [hrest, List.append_assoc] at hcs
      exact hcs.symm
  · exact firstGroup_unzoned h

end IpAddress
