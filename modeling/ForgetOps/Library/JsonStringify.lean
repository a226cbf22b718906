import ForgetOps.Library.Json
import ForgetOps.Library.Utf16

/-
  `JSON.stringify`, and its text in bytes.

  A string is written between quotes; quotes, backslashes, the characters below the blank and the
  units that stand alone are escaped. So no text has a line break: `newline_notMem_stringify`, and
  in bytes `newline_notMem_utf8`.
-/

namespace Json

/-- The strings of JavaScript, in units. -/
abbrev JsString := List UInt16

/-- The string of these characters. -/
def jsString (s : String) : JsString := Utf16.encode s.toList

/-! ## Text -/

def hexDigit (n : Nat) : Char := "0123456789abcdef".toList.getD n '0'

/-- `\uXXXX`. -/
def unicodeEscape (n : Nat) : List Char :=
  ['\\', 'u', hexDigit (n / 4096 % 16), hexDigit (n / 256 % 16), hexDigit (n / 16 % 16),
    hexDigit (n % 16)]

def quotePoint : Utf16.CodePoint → List Char
  | .char c =>
    if c = '"' then ['\\', '"']
    else if c = '\\' then ['\\', '\\']
    else if c.toNat = 8 then ['\\', 'b']
    else if c.toNat = 9 then ['\\', 't']
    else if c.toNat = 10 then ['\\', 'n']
    else if c.toNat = 12 then ['\\', 'f']
    else if c.toNat = 13 then ['\\', 'r']
    else if c.toNat < 32 then unicodeEscape c.toNat
    else [c]
  | .lone u => unicodeEscape u.toNat

def quote (us : JsString) : List Char := '"' :: (Utf16.decode us).flatMap quotePoint ++ ['"']

mutual

/-- `JSON.stringify(v)`. -/
def stringify : Json JsString → List Char
  | .null => "null".toList
  | .bool b => (if b then "true" else "false").toList
  | .number n => (toString n).toList
  | .string us => quote us
  | .array items => '[' :: stringifyItems items ++ [']']
  | .object members => '\x7b' :: stringifyMembers members ++ ['\x7d']

def stringifyItems : List (Json JsString) → List Char
  | [] => []
  | [v] => stringify v
  | v :: w :: vs => stringify v ++ ',' :: stringifyItems (w :: vs)

def stringifyMembers : List (String × Json JsString) → List Char
  | [] => []
  | [(name, v)] => quote (jsString name) ++ ':' :: stringify v
  | (name, v) :: member :: members =>
    quote (jsString name) ++ ':' :: stringify v ++ ',' :: stringifyMembers (member :: members)

end

/-! ## Line breaks -/

theorem newline_notMem_unicodeEscape (n : Nat) : '\n' ∉ unicodeEscape n := by
  have hdigit : ∀ k : Nat, '\n' ≠ hexDigit (k % 16) := by
    intro k
    have hlt : k % 16 < 16 := Nat.mod_lt _ (by decide)
    generalize k % 16 = d at hlt
    interval_cases d <;> decide
  unfold unicodeEscape
  simp only [List.mem_cons, List.not_mem_nil, or_false, not_or]
  exact ⟨by decide, by decide, hdigit _, hdigit _, hdigit _, hdigit _⟩

theorem newline_notMem_quote (us : JsString) : '\n' ∉ quote us := by
  unfold quote
  rw [List.cons_append, List.mem_cons, List.mem_append, List.mem_flatMap, not_or, not_or]
  refine ⟨by decide, ?_, by decide⟩
  rintro ⟨point, -, hmem⟩
  cases point with
  | lone u => exact newline_notMem_unicodeEscape _ hmem
  | char c =>
    unfold quotePoint at hmem
    dsimp only at hmem
    split_ifs at hmem with _ _ _ _ hline _ _ hsmall
    all_goals first
      | exact absurd hmem (by decide)
      | exact newline_notMem_unicodeEscape _ hmem
      | skip
    rw [List.mem_singleton] at hmem
    subst hmem
    exact hline rfl

theorem newline_notMem_repr (n : Nat) : '\n' ∉ n.repr.toList := by
  rw [Nat.toList_repr]
  intro hmem
  have hdigit := Nat.isDigit_of_mem_toDigits (by decide) (by decide) hmem
  exact absurd hdigit (by decide)

theorem newline_notMem_number (n : Int) : '\n' ∉ (toString n).toList := by
  cases n with
  | ofNat n => exact newline_notMem_repr n
  | negSucc n =>
    show '\n' ∉ ("-" ++ (n + 1).repr).toList
    rw [String.toList_append, List.mem_append, not_or]
    exact ⟨by decide, newline_notMem_repr (n + 1)⟩

mutual

/-- The text of a value is a single line. -/
theorem newline_notMem_stringify : ∀ v : Json JsString, '\n' ∉ stringify v
  | .null => by decide
  | .bool b => by cases b <;> decide
  | .number n => newline_notMem_number n
  | .string us => newline_notMem_quote us
  | .array items => by
    have hitems := newline_notMem_stringifyItems items
    simp [stringify, hitems]
  | .object members => by
    have hmembers := newline_notMem_stringifyMembers members
    simp [stringify, hmembers]

theorem newline_notMem_stringifyItems :
    ∀ items : List (Json JsString), '\n' ∉ stringifyItems items
  | [] => by decide
  | [v] => newline_notMem_stringify v
  | v :: w :: vs => by
    have hv := newline_notMem_stringify v
    have hvs := newline_notMem_stringifyItems (w :: vs)
    simp [stringifyItems, hv, hvs]

theorem newline_notMem_stringifyMembers :
    ∀ members : List (String × Json JsString), '\n' ∉ stringifyMembers members
  | [] => by decide
  | [(name, v)] => by
    have hv := newline_notMem_stringify v
    have hname := newline_notMem_quote (jsString name)
    simp [stringifyMembers, hv, hname]
  | (name, v) :: member :: members => by
    have hv := newline_notMem_stringify v
    have hname := newline_notMem_quote (jsString name)
    have hmembers := newline_notMem_stringifyMembers (member :: members)
    simp [stringifyMembers, hv, hname, hmembers]

end

/-! ## Bytes -/

/-- `new TextEncoder().encode(text)`. -/
def utf8 (cs : List Char) : List UInt8 := cs.flatMap String.utf8EncodeChar

/-- Only a line break has its byte. -/
theorem newline_of_mem_encodeChar {c : Char} (h : (0x0a : UInt8) ∈ String.utf8EncodeChar c) :
    c = '\n' := by
  have hbyte : ∀ n : Nat, UInt8.ofNat n = 0x0a → n % 256 = 10 := by
    intro n hn
    have htoNat := congrArg UInt8.toNat hn
    rwa [UInt8.toNat_ofNat'] at htoNat
  unfold String.utf8EncodeChar at h
  dsimp only at h
  split_ifs at h
  · have hn := hbyte _ (List.mem_singleton.mp h).symm
    apply Char.ext
    apply UInt32.toNat_inj.mp
    show c.val.toNat = 10
    omega
  -- every byte of a longer encoding is at least 128
  all_goals simp only [List.mem_cons, List.not_mem_nil, or_false] at h
  · rcases h with h | h <;> (have hn := hbyte _ h.symm; omega)
  · rcases h with h | h | h <;> (have hn := hbyte _ h.symm; omega)
  · rcases h with h | h | h | h <;> (have hn := hbyte _ h.symm; omega)

theorem newline_notMem_utf8 {cs : List Char} (h : '\n' ∉ cs) : (0x0a : UInt8) ∉ utf8 cs := by
  unfold utf8
  rw [List.mem_flatMap]
  rintro ⟨c, hc, hmem⟩
  rw [newline_of_mem_encodeChar hmem] at hc
  exact h hc

/-- The bytes of the text of a value. -/
def encode (v : Json JsString) : List UInt8 := utf8 (stringify v)

theorem newline_notMem_encode (v : Json JsString) : (0x0a : UInt8) ∉ encode v :=
  newline_notMem_utf8 (newline_notMem_stringify v)

theorem encode_object_ne_nil (members : List (String × Json JsString)) :
    encode (.object members) ≠ [] := by
  show utf8 ('\x7b' :: (stringifyMembers members ++ ['\x7d'])) ≠ []
  unfold utf8
  rw [List.flatMap_cons]
  exact List.append_ne_nil_of_left_ne_nil (by decide) _

end Json
