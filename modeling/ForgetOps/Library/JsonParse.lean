import ForgetOps.Library.JsonStringify

/-
  `JSON.parse`, for texts whose numbers are whole.

  An object keeps its members in the order of the text; who asks for one gets the last of its name.
  A name that is no text of characters is none that is asked for, and its member is left out. What
  `stringify` writes is read back as it was: `parse_stringify`.
-/

namespace Json

/-! ## Strings -/

def isBlank (c : Char) : Bool := c = ' ' ∨ c = '\t' ∨ c = '\n' ∨ c = '\r'

def skipBlanks (cs : List Char) : List Char := cs.dropWhile isBlank

def hexValue (c : Char) : Option Nat :=
  if '0' ≤ c ∧ c ≤ '9' then some (c.toNat - 48)
  else if 'a' ≤ c ∧ c ≤ 'f' then some (c.toNat - 87)
  else if 'A' ≤ c ∧ c ≤ 'F' then some (c.toNat - 55)
  else none

/-- The unit of `\uXXXX`. -/
def readUnit (a b c d : Char) : Option UInt16 := do
  let a ← hexValue a
  let b ← hexValue b
  let c ← hexValue c
  let d ← hexValue d
  some (UInt16.ofNat (((a * 16 + b) * 16 + c) * 16 + d))

/-- The unit of an escape of one character. -/
def readEscape (c : Char) : Option UInt16 :=
  if c = '"' ∨ c = '\\' ∨ c = '/' then some (UInt16.ofNat c.toNat)
  else if c = 'b' then some 8
  else if c = 't' then some 9
  else if c = 'n' then some 10
  else if c = 'f' then some 12
  else if c = 'r' then some 13
  else none

/-- A string after its first quote, and what comes after it. -/
def readString : List Char → Option (JsString × List Char)
  | [] => none
  | c :: cs =>
    if c = '"' then some ([], cs)
    else if c = '\\' then
      match cs with
      | [] => none
      | e :: cs =>
        if e = 'u' then
          match cs with
          | x₁ :: x₂ :: x₃ :: x₄ :: cs =>
            (readUnit x₁ x₂ x₃ x₄).bind fun u => (readString cs).map fun r => (u :: r.1, r.2)
          | _ => none
        else (readEscape e).bind fun u => (readString cs).map fun r => (u :: r.1, r.2)
    else if c.toNat < 32 then none
    else (readString cs).map fun r => (Utf16.encodeChar c ++ r.1, r.2)

/-! ## Numbers -/

/-- Digits, of which the first is zero only where it is the only one. -/
def readNatural (cs : List Char) : Option (Nat × List Char) :=
  if cs.head? = some '0' then some (0, cs.tail)
  else if cs.takeWhile Char.isDigit = [] then none
  else some (Nat.ofDigitChars 10 (cs.takeWhile Char.isDigit) 0, cs.dropWhile Char.isDigit)

/-- The number is not over. -/
def continues (c : Char) : Bool := c.isDigit ∨ c = '.' ∨ c = 'e' ∨ c = 'E'

def readNumber (cs : List Char) : Option (Json JsString × List Char) :=
  let negative := cs.head? = some '-'
  (readNatural (if negative then cs.tail else cs)).bind fun (n, rest) =>
    if rest.head?.any continues then none
    else some (.number (if negative then -n else n), rest)

/-! ## Values -/

/-- The text after this beginning. -/
def after (word : String) (cs : List Char) : Option (List Char) :=
  if word.toList <+: cs then some (cs.drop word.toList.length) else none

def addMember (name : JsString) (v : Json JsString) (members : Members JsString) :
    Members JsString :=
  match Utf16.text name with
  | some cs => (String.ofList cs, v) :: members
  | none => members

mutual

/-- A value, and what comes after it. -/
def readValue : Nat → List Char → Option (Json JsString × List Char)
  | 0, _ => none
  | fuel + 1, cs =>
    match skipBlanks cs with
    | [] => none
    | c :: rest =>
      if c = 'n' then (after "null" (c :: rest)).map (.null, ·)
      else if c = 't' then (after "true" (c :: rest)).map (.bool true, ·)
      else if c = 'f' then (after "false" (c :: rest)).map (.bool false, ·)
      else if c = '"' then (readString rest).map fun r => (.string r.1, r.2)
      else if c = '[' then
        if (skipBlanks rest).head? = some ']' then some (.array [], (skipBlanks rest).tail)
        else (readItems fuel rest).map fun r => (.array r.1, r.2)
      else if c = '\x7b' then
        if (skipBlanks rest).head? = some '\x7d' then some (.object [], (skipBlanks rest).tail)
        else (readMembers fuel rest).map fun r => (.object r.1, r.2)
      else readNumber (c :: rest)

/-- The items of an array that has some, to its closing bracket. -/
def readItems : Nat → List Char → Option (List (Json JsString) × List Char)
  | 0, _ => none
  | fuel + 1, cs =>
    match readValue fuel cs with
    | none => none
    | some (v, rest) =>
      match skipBlanks rest with
      | [] => none
      | c :: rest =>
        if c = ',' then (readItems fuel rest).map fun r => (v :: r.1, r.2)
        else if c = ']' then some ([v], rest)
        else none

/-- The members of an object that has some, to its closing brace. -/
def readMembers : Nat → List Char → Option (Members JsString × List Char)
  | 0, _ => none
  | fuel + 1, cs =>
    match skipBlanks cs with
    | [] => none
    | c :: rest =>
      if c = '"' then
        match readString rest with
        | none => none
        | some (name, rest) =>
          match skipBlanks rest with
          | [] => none
          | c :: rest =>
            if c = ':' then
              match readValue fuel rest with
              | none => none
              | some (v, rest) =>
                match skipBlanks rest with
                | [] => none
                | c :: rest =>
                  if c = ',' then
                    (readMembers fuel rest).map fun r => (addMember name v r.1, r.2)
                  else if c = '\x7d' then some (addMember name v [], rest)
                  else none
            else none
      else none

end

/-- `JSON.parse(text)`, where it does not throw. -/
def parse (cs : List Char) : Option (Json JsString) :=
  match readValue (cs.length + 1) cs with
  | none => none
  | some (v, rest) => if skipBlanks rest = [] then some v else none

/-- `object[name]`. -/
def property (name : String) (members : Members JsString) : Option (Json JsString) :=
  (named name members).getLast?

/-! ## What a string was written as -/

theorem hexValue_hexDigit {n : Nat} (h : n < 16) : hexValue (hexDigit n) = some n := by
  interval_cases n <;> decide

theorem readUnit_escape (u : UInt16) :
    readUnit (hexDigit (u.toNat / 4096 % 16)) (hexDigit (u.toNat / 256 % 16))
      (hexDigit (u.toNat / 16 % 16)) (hexDigit (u.toNat % 16)) = some u := by
  have hlt := u.toNat_lt
  unfold readUnit
  rw [hexValue_hexDigit (Nat.mod_lt _ (by decide)), hexValue_hexDigit (Nat.mod_lt _ (by decide)),
    hexValue_hexDigit (Nat.mod_lt _ (by decide)), hexValue_hexDigit (Nat.mod_lt _ (by decide))]
  show some (UInt16.ofNat _) = some u
  rw [Option.some.injEq, ← UInt16.toNat_inj, UInt16.toNat_ofNat']
  omega

theorem readString_unicodeEscape (u : UInt16) (cs : List Char) :
    readString (unicodeEscape u.toNat ++ cs) = (readString cs).map fun r => (u :: r.1, r.2) := by
  unfold unicodeEscape
  simp only [List.cons_append, List.nil_append]
  rw [readString, if_neg (by decide), if_pos rfl, if_pos rfl, readUnit_escape]
  rfl

theorem readString_close (cs : List Char) : readString ('"' :: cs) = some ([], cs) := by
  rw [readString.eq_def]
  exact if_pos rfl

theorem readString_escape {e : Char} {u : UInt16} (hu : e ≠ 'u') (h : readEscape e = some u)
    (cs : List Char) :
    readString ('\\' :: e :: cs) = (readString cs).map fun r => (u :: r.1, r.2) := by
  rw [readString.eq_def]
  dsimp only
  rw [if_neg (by decide), if_pos rfl, if_neg hu, h]
  rfl

theorem encodeChar_of_lt {c : Char} (h : c.toNat < 0x10000) :
    Utf16.encodeChar c = [UInt16.ofNat c.toNat] := if_pos h

theorem readString_quotePoint (p : Utf16.CodePoint) (cs : List Char) :
    readString (quotePoint p ++ cs) = (readString cs).map fun r => (p.units ++ r.1, r.2) := by
  cases p with
  | lone u => exact readString_unicodeEscape u cs
  | char c =>
    -- the characters that are written as an escape of one character
    have short : ∀ e u, e ≠ 'u' → readEscape e = some u → Utf16.encodeChar c = [u] →
        readString (['\\', e] ++ cs) =
          (readString cs).map fun r => (Utf16.encodeChar c ++ r.1, r.2) := by
      intro e u he hread hunits
      rw [hunits]
      exact readString_escape he hread cs
    show _ = (readString cs).map fun r => (Utf16.encodeChar c ++ r.1, r.2)
    unfold quotePoint
    dsimp only
    split_ifs with hquote hback h8 h9 h10 h12 h13 hcontrol
    · subst hquote
      exact short '"' 34 (by decide) (by decide) (by decide)
    · subst hback
      exact short '\\' 92 (by decide) (by decide) (by decide)
    · exact short 'b' 8 (by decide) (by decide) (by rw [encodeChar_of_lt (by omega), h8]; rfl)
    · exact short 't' 9 (by decide) (by decide) (by rw [encodeChar_of_lt (by omega), h9]; rfl)
    · exact short 'n' 10 (by decide) (by decide) (by rw [encodeChar_of_lt (by omega), h10]; rfl)
    · exact short 'f' 12 (by decide) (by decide) (by rw [encodeChar_of_lt (by omega), h12]; rfl)
    · exact short 'r' 13 (by decide) (by decide) (by rw [encodeChar_of_lt (by omega), h13]; rfl)
    · have hunit : (UInt16.ofNat c.toNat).toNat = c.toNat := by
        rw [UInt16.toNat_ofNat']
        omega
      have hread := readString_unicodeEscape (UInt16.ofNat c.toNat) cs
      rw [hunit] at hread
      rw [encodeChar_of_lt (by omega)]
      exact hread
    · rw [List.singleton_append, readString.eq_def]
      dsimp only
      rw [if_neg hquote, if_neg hback, if_neg hcontrol]

theorem readString_points (ps : List Utf16.CodePoint) (cs : List Char) :
    readString (ps.flatMap quotePoint ++ '"' :: cs) =
      some (ps.flatMap Utf16.CodePoint.units, cs) := by
  induction ps with
  | nil => exact readString_close cs
  | cons p ps ih =>
    rw [List.flatMap_cons, List.append_assoc, readString_quotePoint, ih, List.flatMap_cons]
    rfl

/-- A quoted string, after its first quote, is read as what was quoted. -/
theorem readString_quote (us : JsString) (cs : List Char) :
    readString ((Utf16.decode us).flatMap quotePoint ++ '"' :: cs) = some (us, cs) := by
  rw [readString_points, Utf16.flatMap_units_decode]

theorem quote_append (us : JsString) (cs : List Char) :
    quote us ++ cs = '"' :: ((Utf16.decode us).flatMap quotePoint ++ '"' :: cs) := by
  simp [quote]

theorem text_jsString (s : String) : Utf16.text (jsString s) = some s.toList :=
  Utf16.text_iff.mpr rfl

/-! ## What a number was written as -/

theorem head?_toDigits (n : Nat) (h : n ≠ 0) : (Nat.toDigits 10 n).head? ≠ some '0' := by
  induction n using Nat.strongRecOn with
  | _ n ih =>
    rcases Nat.lt_or_ge n 10 with hlt | hge
    · rw [Nat.toDigits_of_lt_base hlt]
      interval_cases n <;> first | exact absurd rfl h | decide
    · have hne : (Nat.toDigits 10 (n / 10)).head? ≠ none := by
        rw [Ne, List.head?_eq_none_iff]
        exact Nat.toDigits_ne_nil
      rw [Nat.toDigits_of_base_le (by decide) hge, List.head?_append]
      cases hhead : (Nat.toDigits 10 (n / 10)).head? with
      | none => exact absurd hhead hne
      | some c =>
        have hdigit := ih (n / 10) (by omega) (by omega)
        rw [hhead] at hdigit
        exact hdigit

theorem readNatural_repr (n : Nat) {cs : List Char} (h : cs.head?.any Char.isDigit = false) :
    readNatural (n.repr.toList ++ cs) = some (n, cs) := by
  rw [Nat.toList_repr]
  have hdigits : ∀ c ∈ Nat.toDigits 10 n, c.isDigit = true := fun c hc =>
    Nat.isDigit_of_mem_toDigits (by decide) (by decide) hc
  have hcs : cs.takeWhile Char.isDigit = [] ∧ cs.dropWhile Char.isDigit = cs := by
    cases cs with
    | nil => exact ⟨rfl, rfl⟩
    | cons c cs =>
      have hc : c.isDigit = false := h
      exact ⟨List.takeWhile_cons_of_neg (by simp [hc]), List.dropWhile_cons_of_neg (by simp [hc])⟩
  rcases eq_or_ne n 0 with rfl | hne
  · exact if_pos rfl
  · unfold readNatural
    rw [List.takeWhile_append_of_pos hdigits, List.dropWhile_append_of_pos hdigits, hcs.1, hcs.2,
      List.append_nil, Nat.ofDigitChars_ten_toDigits, if_neg ?_, if_neg Nat.toDigits_ne_nil]
    have hhead := head?_toDigits n hne
    rw [List.head?_append]
    cases hdigit : (Nat.toDigits 10 n).head? with
    | none => exact absurd (List.head?_eq_none_iff.mp hdigit) Nat.toDigits_ne_nil
    | some c =>
      rw [hdigit] at hhead
      exact hhead

theorem head?_repr (n : Nat) (cs : List Char) :
    ∃ c rest, n.repr.toList ++ cs = c :: rest ∧ c.isDigit = true := by
  rw [Nat.toList_repr]
  cases hdigits : Nat.toDigits 10 n with
  | nil => exact absurd hdigits Nat.toDigits_ne_nil
  | cons c digits =>
    have hmem : c ∈ Nat.toDigits 10 n := by
      rw [hdigits]
      exact List.mem_cons_self
    exact ⟨c, digits ++ cs, rfl, Nat.isDigit_of_mem_toDigits (by decide) (by decide) hmem⟩

theorem readNumber_toString (n : Int) {cs : List Char} (h : cs.head?.any continues = false) :
    readNumber ((toString n).toList ++ cs) = some (.number n, cs) := by
  have hdigit : cs.head?.any Char.isDigit = false := by
    cases hhead : cs.head? with
    | none => rfl
    | some c =>
      rw [hhead] at h
      simp [continues] at h
      simpa using h.1
  cases n with
  | ofNat n =>
    show readNumber (n.repr.toList ++ cs) = _
    obtain ⟨c, rest, hcs, hc⟩ := head?_repr n cs
    have hsign : ¬ (n.repr.toList ++ cs).head? = some '-' := by
      rw [hcs, List.head?_cons, Option.some.injEq]
      rintro rfl
      exact absurd hc (by decide)
    unfold readNumber
    simp only [hsign, Bool.false_eq_true, if_false, readNatural_repr n hdigit,
      Option.bind_some, h]
    rfl
  | negSucc n =>
    have htext : (toString (Int.negSucc n)).toList = '-' :: (n + 1).repr.toList := by
      show ("-" ++ (n + 1).repr).toList = _
      rw [String.toList_append]
      rfl
    rw [htext]
    unfold readNumber
    simp only [List.cons_append, List.head?_cons, if_true, List.tail_cons,
      readNatural_repr (n + 1) hdigit, Option.bind_some, h]
    rfl

/-! ## What a value was written as -/

theorem skipBlanks_cons {c : Char} (h : isBlank c = false) (cs : List Char) :
    skipBlanks (c :: cs) = c :: cs :=
  List.dropWhile_cons_of_neg (by simp [h])

theorem after_append (word : String) (cs : List Char) : after word (word.toList ++ cs) = some cs := by
  unfold after
  rw [if_pos (List.prefix_append _ _), List.drop_left]

/-- A text of a value does not begin with a blank, nor with what closes an array or an object. -/
theorem stringify_cons (v : Json JsString) :
    ∃ c cs, stringify v = c :: cs ∧ isBlank c = false ∧ c ≠ ']' := by
  cases v with
  | null => exact ⟨'n', "ull".toList, rfl, by decide, by decide⟩
  | bool b =>
    cases b with
    | false => exact ⟨'f', "alse".toList, rfl, by decide, by decide⟩
    | true => exact ⟨'t', "rue".toList, rfl, by decide, by decide⟩
  | number n =>
    cases n with
    | ofNat n =>
      obtain ⟨c, cs, hcs, hc⟩ := head?_repr n []
      rw [List.append_nil] at hcs
      refine ⟨c, cs, hcs, ?_, ?_⟩
      · by_contra hblank
        rw [Bool.not_eq_false] at hblank
        obtain rfl | rfl | rfl | rfl := of_decide_eq_true hblank <;> exact absurd hc (by decide)
      · rintro rfl
        exact absurd hc (by decide)
    | negSucc n =>
      refine ⟨'-', (n + 1).repr.toList, ?_, by decide, by decide⟩
      show ("-" ++ (n + 1).repr).toList = _
      rw [String.toList_append]
      rfl
  | string us => exact ⟨'"', _, rfl, by decide, by decide⟩
  | array items => exact ⟨'[', _, rfl, by decide, by decide⟩
  | object members => exact ⟨'\x7b', _, rfl, by decide, by decide⟩

theorem stringifyItems_cons (v : Json JsString) (vs : List (Json JsString)) :
    ∃ c cs, stringifyItems (v :: vs) = c :: cs ∧ isBlank c = false ∧ c ≠ ']' := by
  obtain ⟨c, cs, htext, hc⟩ := stringify_cons v
  cases vs with
  | nil => exact ⟨c, cs, by rw [stringifyItems, htext], hc⟩
  | cons w vs =>
    exact ⟨c, cs ++ ',' :: stringifyItems (w :: vs), by rw [stringifyItems, htext]; rfl, hc⟩

theorem stringifyMembers_cons (member : String × Json JsString) (members : Members JsString) :
    ∃ cs, stringifyMembers (member :: members) = '"' :: cs := by
  cases members with
  | nil => exact ⟨_, rfl⟩
  | cons member' members => exact ⟨_, rfl⟩

theorem readValue_string (fuel : Nat) (us : JsString) (cs : List Char) :
    readValue (fuel + 1) (quote us ++ cs) = some (.string us, cs) := by
  have hread := readString_quote us cs
  rw [quote_append, readValue, skipBlanks_cons (by decide)]
  dsimp only
  rw [if_neg (by decide), if_neg (by decide), if_neg (by decide), if_pos rfl, hread]
  rfl

/-- A text that begins as a number does is read as one. -/
theorem readValue_number {fuel : Nat} (n : Int) {cs : List Char}
    (h : cs.head?.any continues = false) :
    readValue (fuel + 1) ((toString n).toList ++ cs) = some (.number n, cs) := by
  have hread := readNumber_toString n h
  have hstart : ∀ c rest, (c.isDigit = true ∨ c = '-') →
      readValue (fuel + 1) (c :: rest) = readNumber (c :: rest) := by
    intro c rest hc
    have hne : ∀ d, d.isDigit = false → d ≠ '-' → c ≠ d := by
      rintro d hdigit hminus rfl
      rcases hc with hc | hc
      · rw [hdigit] at hc
        cases hc
      · exact hminus hc
    have hblank : isBlank c = false := by
      refine decide_eq_false ?_
      rintro (rfl | rfl | rfl | rfl) <;> exact hne _ (by decide) (by decide) rfl
    rw [readValue, skipBlanks_cons hblank]
    dsimp only
    rw [if_neg (hne _ (by decide) (by decide)), if_neg (hne _ (by decide) (by decide)),
      if_neg (hne _ (by decide) (by decide)), if_neg (hne _ (by decide) (by decide)),
      if_neg (hne _ (by decide) (by decide)), if_neg (hne _ (by decide) (by decide))]
  cases n with
  | ofNat n =>
    obtain ⟨c, rest, htext, hc⟩ := head?_repr n cs
    have htext : (toString (Int.ofNat n)).toList ++ cs = c :: rest := htext
    rw [htext] at hread ⊢
    exact (hstart c rest (.inl hc)).trans hread
  | negSucc n =>
    have htext : (toString (Int.negSucc n)).toList = '-' :: (n + 1).repr.toList := by
      show ("-" ++ (n + 1).repr).toList = _
      rw [String.toList_append]
      rfl
    rw [htext, List.cons_append] at hread ⊢
    exact (hstart '-' _ (.inr rfl)).trans hread

/-- What was written is read back, whatever follows it, by readers this deep. -/
structure ReadsBack (fuel : Nat) : Prop where
  value : ∀ v cs, (stringify v).length < fuel → cs.head?.any continues = false →
    readValue fuel (stringify v ++ cs) = some (v, cs)
  items : ∀ v vs cs, (stringifyItems (v :: vs)).length + 1 < fuel →
    readItems fuel (stringifyItems (v :: vs) ++ ']' :: cs) = some (v :: vs, cs)
  members : ∀ member members cs, (stringifyMembers (member :: members)).length + 1 < fuel →
    readMembers fuel (stringifyMembers (member :: members) ++ '\x7d' :: cs) =
      some (member :: members, cs)

theorem ReadsBack.value_succ {fuel : Nat} (h : ReadsBack fuel) (v : Json JsString) (cs : List Char)
    (hfuel : (stringify v).length < fuel + 1) (hcs : cs.head?.any continues = false) :
    readValue (fuel + 1) (stringify v ++ cs) = some (v, cs) := by
  cases v with
  | null =>
    show readValue (fuel + 1) ('n' :: ("ull".toList ++ cs)) = _
    rw [readValue, skipBlanks_cons (by decide)]
    dsimp only
    rw [if_pos rfl]
    exact congrArg _ (after_append "null" cs)
  | bool b =>
    cases b with
    | true =>
      show readValue (fuel + 1) ('t' :: ("rue".toList ++ cs)) = _
      rw [readValue, skipBlanks_cons (by decide)]
      dsimp only
      rw [if_neg (by decide), if_pos rfl]
      exact congrArg _ (after_append "true" cs)
    | false =>
      show readValue (fuel + 1) ('f' :: ("alse".toList ++ cs)) = _
      rw [readValue, skipBlanks_cons (by decide)]
      dsimp only
      rw [if_neg (by decide), if_neg (by decide), if_pos rfl]
      exact congrArg _ (after_append "false" cs)
  | number n => exact readValue_number n hcs
  | string us => exact readValue_string fuel us cs
  | array items =>
    rw [stringify, List.length_append, List.length_cons] at hfuel
    rw [stringify, List.append_assoc, List.cons_append, List.singleton_append, readValue,
      skipBlanks_cons (by decide)]
    dsimp only
    rw [if_neg (by decide), if_neg (by decide), if_neg (by decide), if_neg (by decide), if_pos rfl]
    cases items with
    | nil => rfl
    | cons v vs =>
      have hread := h.items v vs cs
        (by simp only [List.length_cons, List.length_nil] at hfuel; omega)
      have hne : (skipBlanks (stringifyItems (v :: vs) ++ ']' :: cs)).head? ≠ some ']' := by
        obtain ⟨c, rest, htext, hblank, hc⟩ := stringifyItems_cons v vs
        rw [htext, List.cons_append, skipBlanks_cons hblank, List.head?_cons, Ne,
          Option.some.injEq]
        exact hc
      rw [if_neg hne, hread]
      rfl
  | object members =>
    rw [stringify, List.length_append, List.length_cons] at hfuel
    rw [stringify, List.append_assoc, List.cons_append, List.singleton_append, readValue,
      skipBlanks_cons (by decide)]
    dsimp only
    rw [if_neg (by decide), if_neg (by decide), if_neg (by decide), if_neg (by decide),
      if_neg (by decide), if_pos rfl]
    cases members with
    | nil => rfl
    | cons member members =>
      have hread := h.members member members cs
        (by simp only [List.length_cons, List.length_nil] at hfuel; omega)
      have hne : (skipBlanks (stringifyMembers (member :: members) ++ '\x7d' :: cs)).head? ≠
          some '\x7d' := by
        obtain ⟨rest, htext⟩ := stringifyMembers_cons member members
        rw [htext, List.cons_append, skipBlanks_cons (by decide), List.head?_cons, Ne,
          Option.some.injEq]
        decide
      rw [if_neg hne, hread]
      rfl

theorem ReadsBack.items_succ {fuel : Nat} (h : ReadsBack fuel) (v : Json JsString)
    (vs : List (Json JsString)) (cs : List Char)
    (hfuel : (stringifyItems (v :: vs)).length + 1 < fuel + 1) :
    readItems (fuel + 1) (stringifyItems (v :: vs) ++ ']' :: cs) = some (v :: vs, cs) := by
  cases vs with
  | nil =>
    rw [stringifyItems] at hfuel ⊢
    have hread := h.value v (']' :: cs) (by omega) rfl
    rw [readItems, hread]
    dsimp only
    rw [skipBlanks_cons (by decide)]
    dsimp only
    rw [if_neg (by decide), if_pos rfl]
  | cons w vs =>
    rw [stringifyItems, List.length_append, List.length_cons] at hfuel
    have hread := h.value v (',' :: (stringifyItems (w :: vs) ++ ']' :: cs))
      (by omega) rfl
    have hmore := h.items w vs cs (by omega)
    rw [stringifyItems, List.append_assoc, List.cons_append, readItems, hread]
    dsimp only
    rw [skipBlanks_cons (by decide)]
    dsimp only
    rw [if_pos rfl, hmore]
    rfl

theorem ReadsBack.members_succ {fuel : Nat} (h : ReadsBack fuel) (member : String × Json JsString)
    (members : Members JsString) (cs : List Char)
    (hfuel : (stringifyMembers (member :: members)).length + 1 < fuel + 1) :
    readMembers (fuel + 1) (stringifyMembers (member :: members) ++ '\x7d' :: cs) =
      some (member :: members, cs) := by
  obtain ⟨name, v⟩ := member
  -- a member is read, up to what follows its value
  have hmember : ∀ rest, rest.head?.any continues = false → (stringify v).length < fuel →
      readMembers (fuel + 1) (quote (jsString name) ++ ':' :: (stringify v ++ rest)) =
        match skipBlanks rest with
        | [] => none
        | c :: rest =>
          if c = ',' then (readMembers fuel rest).map fun r => ((name, v) :: r.1, r.2)
          else if c = '\x7d' then some ([(name, v)], rest)
          else none := by
    intro rest hrest hlt
    have hstring := readString_quote (jsString name) (':' :: (stringify v ++ rest))
    have hvalue := h.value v rest hlt hrest
    have hadd : ∀ more, addMember (jsString name) v more = (name, v) :: more := by
      intro more
      unfold addMember
      rw [text_jsString]
      dsimp only
      rw [String.ofList_toList]
    rw [quote_append, readMembers, skipBlanks_cons (by decide)]
    dsimp only
    rw [if_pos rfl, hstring]
    dsimp only
    rw [skipBlanks_cons (by decide)]
    dsimp only
    rw [if_pos rfl, hvalue]
    simp only [hadd]
  cases members with
  | nil =>
    rw [stringifyMembers, List.length_append, List.length_cons] at hfuel
    rw [stringifyMembers, List.append_assoc, List.cons_append, hmember _ rfl (by omega),
      skipBlanks_cons (by decide)]
    dsimp only
    rw [if_neg (by decide), if_pos rfl]
  | cons member' members =>
    rw [stringifyMembers, List.length_append, List.length_append, List.length_cons,
      List.length_cons] at hfuel
    have hmore := h.members member' members cs (by omega)
    rw [stringifyMembers, List.append_assoc, List.append_assoc, List.cons_append, List.cons_append,
      hmember _ rfl (by omega), skipBlanks_cons (by decide)]
    dsimp only
    rw [if_pos rfl, hmore]
    rfl

theorem readsBack (fuel : Nat) : ReadsBack fuel := by
  induction fuel with
  | zero =>
    exact
      { value := fun _ _ hfuel => absurd hfuel (Nat.not_lt_zero _)
        items := fun _ _ _ hfuel => absurd hfuel (Nat.not_lt_zero _)
        members := fun _ _ _ hfuel => absurd hfuel (Nat.not_lt_zero _) }
  | succ fuel ih =>
    exact { value := ih.value_succ, items := ih.items_succ, members := ih.members_succ }

/-- What `stringify` writes is what `parse` reads. -/
theorem parse_stringify (v : Json JsString) : parse (stringify v) = some v := by
  have hread := (readsBack ((stringify v).length + 1)).value v [] (Nat.lt_succ_self _) rfl
  rw [List.append_nil] at hread
  unfold parse
  rw [hread]
  rfl

end Json
