import Mathlib.Tactic

/-
  Linked lists of sealed records.

  A record names the digest of its predecessor (`prev`) and carries its own (`digest`); `Sealed`
  says that the digest is the one computed over the record. `Chained` is the check a verifier
  runs from the front, `head` the digest a later record would have to name. Where equal digests
  come from equal records only, the head determines the whole chain.
-/

namespace HashChain

variable {α δ : Type*} (prev : α → Option δ) (digest : α → δ) (Sealed : α → Prop)

/-- `xs` continues a chain whose last digest is `p`. -/
def Chained (p : Option δ) : List α → Prop
  | [] => True
  | x :: xs => prev x = p ∧ Sealed x ∧ Chained (some (digest x)) xs

/-- The last digest of the chain `xs` that starts behind `p`. -/
def head (p : Option δ) : List α → Option δ
  | [] => p
  | x :: xs => head (some (digest x)) xs

variable {prev digest Sealed}

@[simp] theorem chained_nil {p : Option δ} : Chained prev digest Sealed p [] := trivial

@[simp] theorem chained_cons {p : Option δ} {x : α} {xs : List α} :
    Chained prev digest Sealed p (x :: xs) ↔
      prev x = p ∧ Sealed x ∧ Chained prev digest Sealed (some (digest x)) xs := Iff.rfl

@[simp] theorem head_nil {p : Option δ} : head digest p ([] : List α) = p := rfl

@[simp] theorem head_cons {p : Option δ} {x : α} {xs : List α} :
    head digest p (x :: xs) = head digest (some (digest x)) xs := rfl

theorem head_append {p : Option δ} {xs ys : List α} :
    head digest p (xs ++ ys) = head digest (head digest p xs) ys := by
  induction xs generalizing p with
  | nil => rfl
  | cons x xs ih => exact ih

theorem head_concat {p : Option δ} {xs : List α} {x : α} :
    head digest p (xs ++ [x]) = some (digest x) := by
  rw [head_append]
  rfl

theorem head_eq_getLast? {xs : List α} : head digest none xs = xs.getLast?.map digest := by
  obtain rfl | ⟨xs, x, rfl⟩ := List.eq_nil_or_concat' xs
  · rfl
  · rw [head_concat, List.getLast?_concat]
    rfl

theorem chained_append {p : Option δ} {xs ys : List α} :
    Chained prev digest Sealed p (xs ++ ys) ↔
      Chained prev digest Sealed p xs ∧ Chained prev digest Sealed (head digest p xs) ys := by
  induction xs generalizing p with
  | nil => simp
  | cons x xs ih => simp [ih, and_assoc]

/-- Two chains with the same head are the same chain, provided that no two different records of
    theirs share a digest. -/
theorem Chained.eq_of_head {xs ys : List α} (hx : Chained prev digest Sealed none xs)
    (hy : Chained prev digest Sealed none ys)
    (hinj : ∀ x ∈ xs, ∀ y ∈ ys, Sealed x → Sealed y → digest x = digest y → x = y)
    (hhead : head digest none xs = head digest none ys) : xs = ys := by
  induction xs using List.reverseRecOn generalizing ys with
  | nil =>
    obtain rfl | ⟨ys, y, rfl⟩ := List.eq_nil_or_concat' ys
    · rfl
    · rw [head_concat] at hhead
      cases hhead
  | append_singleton xs x ih =>
    obtain rfl | ⟨ys, y, rfl⟩ := List.eq_nil_or_concat' ys
    · rw [head_concat] at hhead
      cases hhead
    rw [head_concat, head_concat] at hhead
    obtain ⟨hxs, hpx, hsx, -⟩ := chained_append.mp hx
    obtain ⟨hys, hpy, hsy, -⟩ := chained_append.mp hy
    obtain rfl := hinj x (by simp) y (by simp) hsx hsy (Option.some.inj hhead)
    have hrest : ∀ x ∈ xs, ∀ y ∈ ys, Sealed x → Sealed y → digest x = digest y → x = y :=
      fun x hx y hy => hinj x (List.mem_append_left _ hx) y (List.mem_append_left _ hy)
    rw [ih hxs hys hrest (hpx.symm.trans hpy)]

end HashChain
