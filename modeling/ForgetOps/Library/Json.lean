import Mathlib.Tactic

/-
  JSON values and two ways to read the members of an object.

  Strings are of any type, so that a writer of code units and a reader of characters can share the
  values; the numbers are whole. `required` and `optional` read a member as a derived deserializer
  does, `onlyNames` is what a reader asks that takes no other member.
-/

inductive Json (σ : Type) where
  | null
  | bool (b : Bool)
  | number (n : Int)
  | string (s : σ)
  | array (items : List (Json σ))
  | object (members : List (String × Json σ))

namespace Json

variable {σ α β : Type}

abbrev Members (σ : Type) := List (String × Json σ)

/-! ## Values -/

def asBool : Json σ → Option Bool
  | .bool b => some b
  | _ => none

def asString : Json σ → Option σ
  | .string s => some s
  | _ => none

/-- A number of `width` bits without a sign. -/
def asUnsigned (width : Nat) : Json σ → Option Nat
  | .number n => if 0 ≤ n ∧ n < 2 ^ width then some n.toNat else none
  | _ => none

def asArray (read : Json σ → Option α) : Json σ → Option (List α)
  | .array items => items.mapM read
  | _ => none

def asObject (read : Members σ → Option α) : Json σ → Option α
  | .object members => read members
  | _ => none

/-! ## Members -/

/-- The values under a name. -/
def named (name : String) (members : Members σ) : List (Json σ) :=
  (members.filter (·.1 = name)).map (·.2)

/-- The one value under a name. -/
def required (read : Json σ → Option α) (name : String) (members : Members σ) : Option α :=
  match named name members with
  | [v] => read v
  | _ => none

/-- The value under a name, if there is one and it is not null. -/
def optional (read : Json σ → Option α) (name : String) (members : Members σ) :
    Option (Option α) :=
  match named name members with
  | [] => some none
  | [.null] => some none
  | [v] => (read v).map some
  | _ => none

/-- The value under a name, if there is one; a null is a value like any other. -/
def present (read : Json σ → Option α) (name : String) (members : Members σ) :
    Option (Option α) :=
  match named name members with
  | [] => some none
  | [v] => (read v).map some
  | _ => none

/-- No member has another name. -/
def onlyNames (names : List String) (members : Members σ) : Bool :=
  members.all fun member => member.1 ∈ names

/-- An object that is read only without other members than those named. -/
def strict (names : List String) (read : Members σ → Option α) : Json σ → Option α :=
  asObject fun members => if onlyNames names members then read members else none

/-- A member that is written only where there is a value. -/
def memberIf (name : String) (write : α → Json σ) : Option α → Members σ
  | some a => [(name, write a)]
  | none => []

@[simp] theorem named_nil (name : String) : named name ([] : Members σ) = [] := rfl

@[simp] theorem named_cons (name key : String) (v : Json σ) (members : Members σ) :
    named name ((key, v) :: members) =
      if key = name then v :: named name members else named name members := by
  unfold named
  rw [List.filter_cons]
  split_ifs <;> simp_all

@[simp] theorem named_append (name : String) (members members' : Members σ) :
    named name (members ++ members') = named name members ++ named name members' := by
  simp [named]

@[simp] theorem named_memberIf (name key : String) (write : α → Json σ) (value : Option α) :
    named name (memberIf key write value) =
      if key = name then value.toList.map write else [] := by
  cases value with
  | none => simp [memberIf]
  | some a => simp [memberIf]

theorem asUnsigned_iff {width k m : Nat} :
    asUnsigned width (.number k : Json σ) = some m ↔ k < 2 ^ width ∧ k = m := by
  have hrange : (0 ≤ (k : Int) ∧ (k : Int) < 2 ^ width) ↔ k < 2 ^ width := by
    constructor
    · intro h
      exact_mod_cast h.2
    · intro h
      exact ⟨Int.natCast_nonneg k, by exact_mod_cast h⟩
  unfold asUnsigned
  simp only [hrange, Int.toNat_natCast]
  constructor
  · intro h
    split_ifs at h with hk
    exact ⟨hk, Option.some.inj h⟩
  · rintro ⟨hk, rfl⟩
    exact if_pos hk

theorem required_of_named {read : Json σ → Option α} {name : String} {members : Members σ}
    {v : Json σ} (h : named name members = [v]) : required read name members = read v := by
  unfold required
  rw [h]

theorem required_eq_some {read : Json σ → Option α} {name : String} {members : Members σ} {a : α} :
    required read name members = some a ↔
      ∃ v, named name members = [v] ∧ read v = some a := by
  constructor
  · intro h
    unfold required at h
    split at h
    · next v hv => exact ⟨v, hv, h⟩
    · cases h
  · rintro ⟨v, hv, h⟩
    rw [required_of_named hv, h]

@[simp] theorem onlyNames_nil (names : List String) : onlyNames names ([] : Members σ) = true := rfl

@[simp] theorem onlyNames_cons (names : List String) (member : String × Json σ)
    (members : Members σ) :
    onlyNames names (member :: members) = (decide (member.1 ∈ names) && onlyNames names members) :=
  rfl

@[simp] theorem onlyNames_append (names : List String) (members members' : Members σ) :
    onlyNames names (members ++ members') =
      (onlyNames names members && onlyNames names members') := by
  simp [onlyNames]

theorem strict_object {names : List String} {members : Members σ}
    (h : onlyNames names members = true) (read : Members σ → Option α) :
    strict names read (.object members) = read members :=
  if_pos h

/-- A list that is written item by item is read back. -/
theorem asArray_map {read : Json σ → Option β} {write : α → Json σ} {f : α → β} {items : List α}
    (h : ∀ a ∈ items, read (write a) = some (f a)) :
    asArray read (.array (items.map write)) = some (items.map f) := by
  show (items.map write).mapM read = some (items.map f)
  induction items with
  | nil => rfl
  | cons a items ih =>
    have htail := ih fun b hb => h b (List.mem_cons_of_mem _ hb)
    rw [List.map_cons, List.mapM_cons, h a List.mem_cons_self, htail]
    rfl

/-- A list is read item by item. -/
theorem asArray_map_iff {read : Json σ → Option β} {write : α → Json σ} {as : List α}
    {bs : List β} :
    asArray read (.array (as.map write)) = some bs ↔
      List.Forall₂ (fun a b => read (write a) = some b) as bs := by
  show (as.map write).mapM read = some bs ↔ _
  induction as generalizing bs with
  | nil =>
    rw [List.forall₂_nil_left_iff]
    exact ⟨fun h => (Option.some.inj h).symm, fun h => by rw [h]; rfl⟩
  | cons a as ih =>
    rw [List.map_cons, List.mapM_cons, List.forall₂_cons_left_iff]
    simp only [Option.bind_eq_bind, Option.bind_eq_some_iff, Option.pure_def, Option.some.injEq, ih]
    constructor
    · rintro ⟨b, hb, rest, hrest, rfl⟩
      exact ⟨b, rest, hb, hrest, rfl⟩
    · rintro ⟨b, rest, hb, hrest, rfl⟩
      exact ⟨b, hb, rest, hrest, rfl⟩

end Json
