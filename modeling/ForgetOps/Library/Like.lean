import Mathlib.Tactic

/-
  The patterns of `LIKE`, and the pattern that asks for a prefix.

  An escaped character and every other one stands for itself, `_` for any character and `%` for any
  text. A pattern that ends in its escape character is none. The pattern of an escaped prefix asks
  for the texts that begin with it: `likes_prefix`.
-/

namespace Like

inductive Token where
  | literal (c : Char)
  | one
  | any
  deriving DecidableEq, Repr

/-- What a character stands for that is not escaped. -/
def Token.ofChar (c : Char) : Token :=
  if c = '%' then .any else if c = '_' then .one else .literal c

/-- What the characters of a pattern stand for. -/
def tokens (escape : Char) : List Char → Option (List Token)
  | [] => some []
  | [c] => if c = escape then none else some [Token.ofChar c]
  | c :: d :: ds =>
    if c = escape then (tokens escape ds).map (.literal d :: ·)
    else (tokens escape (d :: ds)).map (Token.ofChar c :: ·)

def Token.matches : List Token → List Char → Bool
  | [], s => s.isEmpty
  | .literal c :: p, x :: s => c = x && Token.matches p s
  | .one :: p, _ :: s => Token.matches p s
  | .any :: p, s => s.tails.any (Token.matches p)
  | _ :: _, [] => false

/-- `s like pattern escape e`; false where the pattern is none. -/
def likes (escape : Char) (pattern s : List Char) : Bool :=
  (tokens escape pattern).elim false fun p => Token.matches p s

/-- The characters of a text that stands for itself in a pattern. -/
def escaped (escape : Char) (s : List Char) : List Char :=
  s.flatMap fun c => if c = '%' ∨ c = '_' ∨ c = escape then [escape, c] else [c]

theorem tokens_escape (escape d : Char) (ds : List Char) :
    tokens escape (escape :: d :: ds) = (tokens escape ds).map (.literal d :: ·) := by
  rw [tokens, if_pos rfl]

theorem tokens_cons {escape c : Char} (hc : c ≠ escape) (cs : List Char) :
    tokens escape (c :: cs) = (tokens escape cs).map (Token.ofChar c :: ·) := by
  cases cs with
  | nil => exact if_neg hc
  | cons d ds => rw [tokens, if_neg hc]

theorem tokens_escaped (escape : Char) (s pattern : List Char) :
    tokens escape (escaped escape s ++ pattern) =
      (tokens escape pattern).map (s.map .literal ++ ·) := by
  induction s with
  | nil => simp [escaped]
  | cons c s ih =>
    have hcons : escaped escape (c :: s) ++ pattern =
        (if c = '%' ∨ c = '_' ∨ c = escape then [escape, c] else [c]) ++
          (escaped escape s ++ pattern) := by
      simp [escaped]
    rw [hcons]
    split_ifs with hc
    · show tokens escape (escape :: c :: (escaped escape s ++ pattern)) = _
      rw [tokens_escape, ih, Option.map_map]
      rfl
    · rw [not_or, not_or] at hc
      have hliteral : Token.ofChar c = .literal c := by
        unfold Token.ofChar
        rw [if_neg hc.1, if_neg hc.2.1]
      show tokens escape (c :: (escaped escape s ++ pattern)) = _
      rw [tokens_cons hc.2.2, ih, Option.map_map, hliteral]
      rfl

theorem matches_any (s : List Char) : Token.matches [.any] s = true := by
  unfold Token.matches
  rw [List.any_eq_true]
  exact ⟨[], by simp, rfl⟩

theorem matches_literal (pre s : List Char) (p : List Token) :
    Token.matches (pre.map .literal ++ p) s = true ↔
      ∃ rest, s = pre ++ rest ∧ Token.matches p rest = true := by
  induction pre generalizing s with
  | nil => simp
  | cons c pre ih =>
    cases s with
    | nil => simp [Token.matches]
    | cons x s =>
      rw [List.map_cons, List.cons_append, Token.matches, Bool.and_eq_true, decide_eq_true_eq, ih]
      constructor
      · rintro ⟨rfl, rest, rfl, h⟩
        exact ⟨rest, rfl, h⟩
      · rintro ⟨rest, hrest, h⟩
        rw [List.cons_append, List.cons.injEq] at hrest
        exact ⟨hrest.1.symm, rest, hrest.2, h⟩

/-- The pattern of a prefix asks for the texts that begin with it. -/
theorem likes_prefix (escape : Char) (hescape : escape ≠ '%') (pre s : List Char) :
    likes escape (escaped escape pre ++ ['%']) s = true ↔ pre <+: s := by
  have htokens : tokens escape ['%'] = some [.any] := by
    rw [tokens, if_neg hescape.symm]
    rfl
  unfold likes
  rw [tokens_escaped, htokens, Option.map_some, Option.elim_some, matches_literal]
  constructor
  · rintro ⟨rest, rfl, -⟩
    exact List.prefix_append _ _
  · rintro ⟨rest, rfl⟩
    exact ⟨rest, rfl, matches_any rest⟩

end Like
