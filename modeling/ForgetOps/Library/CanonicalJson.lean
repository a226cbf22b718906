import Mathlib.Data.List.Lex
import Mathlib.Data.List.Sort
import ForgetOps.Library.JsonParse
import ForgetOps.Library.Utf8

/-
  Canonical JSON: the value whose members stand in the order of their names, as a text.

  `ordered` is that value. It does not depend on the order in which the members were written
  (`ordered_of_perm`), and the canonical bytes determine it (`canonical_iff`).
-/

namespace Json

variable {σ τ : Type}

/-! ## The order of the members -/

/-- What names are compared by. -/
def nameUnits (name : String) : List ℕ := (jsString name).map UInt16.toNat

/-- The first member does not come behind the second. -/
def NameLe (m m' : String × Json σ) : Prop := nameUnits m.1 ≤ nameUnits m'.1

instance decidableNameLe : DecidableRel (NameLe (σ := σ)) :=
  fun _ _ => inferInstanceAs (Decidable (_ ≤ _))

mutual

/-- The value with the members of its objects in the order of their names. -/
def ordered : Json σ → Json σ
  | .null => .null
  | .bool b => .bool b
  | .number n => .number n
  | .string s => .string s
  | .array items => .array (orderedItems items)
  | .object members => .object (orderedMembers members)

def orderedItems : List (Json σ) → List (Json σ)
  | [] => []
  | v :: vs => v.ordered :: orderedItems vs

def orderedMembers : Members σ → Members σ
  | [] => []
  | (name, v) :: members => (orderedMembers members).orderedInsert NameLe (name, v.ordered)

end

mutual

/-- The value and the values in it. -/
def every (p : Json σ → Bool) : Json σ → Bool
  | .array items => p (.array items) && everyItem p items
  | .object members => p (.object members) && everyMember p members
  | v => p v

def everyItem (p : Json σ → Bool) : List (Json σ) → Bool
  | [] => true
  | v :: vs => v.every p && everyItem p vs

def everyMember (p : Json σ → Bool) : Members σ → Bool
  | [] => true
  | (_, v) :: members => v.every p && everyMember p members

end

def namesDistinct : Json σ → Bool
  | .object members => (members.map Prod.fst).Nodup
  | _ => true

/-- A double holds the number and its neighbours. -/
def numberSafe : Json σ → Bool
  | .number n => -(2 ^ 53) < n ∧ n < 2 ^ 53
  | _ => true

/-- No object has two members of one name. -/
def distinct (v : Json σ) : Bool := v.every namesDistinct

def safe (v : Json σ) : Bool := v.every numberSafe

/-! ### Names -/

theorem jsString_injective : Function.Injective jsString := by
  intro s s' h
  have htext := text_jsString s
  rw [h, text_jsString] at htext
  exact String.toList_injective (Option.some.inj htext).symm

theorem nameUnits_injective : Function.Injective nameUnits := by
  intro name name' h
  exact jsString_injective (List.map_injective_iff.mpr (fun _ _ => UInt16.toNat_inj.mp) h)

section Order

instance totalNameLe : Std.Total (NameLe (σ := σ)) := ⟨fun _ _ => le_total _ _⟩

instance transNameLe : IsTrans (String × Json σ) NameLe := ⟨fun _ _ _ => le_trans⟩

theorem orderedMembers_perm (members : Members σ) :
    (orderedMembers members).Perm (members.map fun m => (m.1, m.2.ordered)) := by
  induction members with
  | nil => exact .nil
  | cons member members ih =>
    obtain ⟨name, v⟩ := member
    rw [orderedMembers, List.map_cons]
    exact (List.perm_orderedInsert _ _ _).trans (ih.cons _)

theorem orderedMembers_pairwise (members : Members σ) :
    (orderedMembers members).Pairwise NameLe := by
  induction members with
  | nil => exact .nil
  | cons member members ih =>
    obtain ⟨name, v⟩ := member
    rw [orderedMembers]
    exact ih.orderedInsert _

theorem orderedMembers_eq (members : Members σ) :
    orderedMembers members = (members.map fun m => (m.1, m.2.ordered)).insertionSort NameLe := by
  induction members with
  | nil => rfl
  | cons member members ih =>
    obtain ⟨name, v⟩ := member
    rw [orderedMembers, ih]
    rfl

/-- One order of the members is as good as another. -/
theorem ordered_of_perm {members members' : Members σ} (h : members.Perm members')
    (hnodup : (members.map Prod.fst).Nodup) :
    (Json.object members).ordered = (Json.object members').ordered := by
  have hperm : (orderedMembers members).Perm (orderedMembers members') :=
    (orderedMembers_perm members).trans ((h.map _).trans (orderedMembers_perm members').symm)
  have hnames : ((orderedMembers members).map Prod.fst).Nodup := by
    have hsame := (orderedMembers_perm members).map Prod.fst
    rw [List.map_map] at hsame
    exact hsame.nodup_iff.mpr hnodup
  rw [ordered, ordered]
  refine congrArg Json.object (hperm.eq_of_pairwise (fun m m' hm hm' hle hle' => ?_)
    (orderedMembers_pairwise members) (orderedMembers_pairwise members'))
  have hname : m.1 = m'.1 := nameUnits_injective (le_antisymm hle hle')
  exact List.inj_on_of_nodup_map hnames hm (hperm.mem_iff.mpr hm') hname

theorem ordered_congr {members members' : Members σ}
    (h : (members.map fun m => (m.1, m.2.ordered)) = members'.map fun m => (m.1, m.2.ordered)) :
    (Json.object members).ordered = (Json.object members').ordered := by
  rw [ordered, ordered, orderedMembers_eq, orderedMembers_eq, h]

/-- Values that are one in order have the same members, in order. -/
theorem perm_of_ordered {members members' : Members σ}
    (h : (Json.object members).ordered = (Json.object members').ordered) :
    (members.map fun m => (m.1, m.2.ordered)).Perm (members'.map fun m => (m.1, m.2.ordered)) := by
  have hmembers : orderedMembers members = orderedMembers members' := Json.object.inj h
  refine (orderedMembers_perm members).symm.trans ?_
  rw [hmembers]
  exact orderedMembers_perm members'

theorem named_ordered (name : String) (members : Members σ) :
    named name (members.map fun m => (m.1, m.2.ordered)) = (named name members).map ordered := by
  unfold named
  rw [List.filter_map, List.map_map, List.map_map]
  rfl

/-- A name that stands once stands once in any order, over the same value. -/
theorem named_of_ordered {members members' : Members σ}
    (h : (Json.object members).ordered = (Json.object members').ordered) (name : String)
    {v : Json σ} (hv : named name members = [v]) :
    ∃ v', named name members' = [v'] ∧ v'.ordered = v.ordered := by
  have hperm : (named name (members.map fun m => (m.1, m.2.ordered))).Perm
      (named name (members'.map fun m => (m.1, m.2.ordered))) :=
    ((perm_of_ordered h).filter _).map _
  rw [named_ordered, named_ordered, hv, List.map_singleton, List.singleton_perm] at hperm
  obtain ⟨v', hv', hsame⟩ := List.map_eq_singleton_iff.mp hperm.symm
  exact ⟨v', hv', hsame⟩

theorem onlyNames_of_ordered {members members' : Members σ}
    (h : (Json.object members).ordered = (Json.object members').ordered) (names : List String)
    (hnames : onlyNames names members = true) : onlyNames names members' = true := by
  have hperm := (perm_of_ordered h).map Prod.fst
  rw [List.map_map, List.map_map] at hperm
  unfold onlyNames at hnames ⊢
  rw [List.all_eq_true] at hnames ⊢
  intro m' hm'
  have hname : m'.1 ∈ members.map Prod.fst := hperm.mem_iff.mpr (List.mem_map_of_mem hm')
  obtain ⟨m, hm, hsame⟩ := List.mem_map.mp hname
  rw [← hsame]
  exact hnames m hm

theorem ordered_eq_string {v : Json σ} {s : σ} (h : v.ordered = .string s) : v = .string s := by
  cases v with
  | string s' => exact h
  | _ => cases h

theorem ordered_eq_object {v : Json σ} {members : Members σ}
    (h : v.ordered = (Json.object members).ordered) : ∃ members', v = .object members' := by
  cases v with
  | object members' => exact ⟨members', rfl⟩
  | _ => cases h

end Order

/-! ## Values over other strings -/

mutual

def mapStrings (f : σ → τ) : Json σ → Json τ
  | .null => .null
  | .bool b => .bool b
  | .number n => .number n
  | .string s => .string (f s)
  | .array items => .array (mapItems f items)
  | .object members => .object (mapMembers f members)

def mapItems (f : σ → τ) : List (Json σ) → List (Json τ)
  | [] => []
  | v :: vs => v.mapStrings f :: mapItems f vs

def mapMembers (f : σ → τ) : Members σ → Members τ
  | [] => []
  | (name, v) :: members => (name, v.mapStrings f) :: mapMembers f members

end

theorem mapMembers_names (f : σ → τ) (members : Members σ) :
    (mapMembers f members).map Prod.fst = members.map Prod.fst := by
  induction members with
  | nil => rfl
  | cons member members ih =>
    obtain ⟨name, v⟩ := member
    rw [mapMembers, List.map_cons, List.map_cons, ih]

section Mapped

variable {f : σ → τ} {p : Json σ → Bool} {p' : Json τ → Bool}

mutual

theorem every_mapStrings (h : ∀ v, p' (v.mapStrings f) = p v) (v : Json σ) :
    (v.mapStrings f).every p' = v.every p := by
  have hv := h v
  cases v with
  | array items =>
    rw [mapStrings] at hv
    rw [mapStrings, every, every, hv, everyItem_mapItems h items]
  | object members =>
    rw [mapStrings] at hv
    rw [mapStrings, every, every, hv, everyMember_mapMembers h members]
  | _ => exact hv

theorem everyItem_mapItems (h : ∀ v, p' (v.mapStrings f) = p v) (items : List (Json σ)) :
    everyItem p' (mapItems f items) = everyItem p items := by
  cases items with
  | nil => rfl
  | cons v vs => rw [mapItems, everyItem, everyItem, every_mapStrings h v, everyItem_mapItems h vs]

theorem everyMember_mapMembers (h : ∀ v, p' (v.mapStrings f) = p v) (members : Members σ) :
    everyMember p' (mapMembers f members) = everyMember p members := by
  cases members with
  | nil => rfl
  | cons member members =>
    obtain ⟨name, v⟩ := member
    rw [mapMembers, everyMember, everyMember, every_mapStrings h v,
      everyMember_mapMembers h members]

end

end Mapped

theorem distinct_mapStrings (f : σ → τ) (v : Json σ) : (v.mapStrings f).distinct = v.distinct := by
  refine every_mapStrings (fun v => ?_) v
  cases v with
  | object members =>
    show decide ((mapMembers f members).map Prod.fst).Nodup = decide (members.map Prod.fst).Nodup
    rw [mapMembers_names]
  | _ => rfl

theorem safe_mapStrings (f : σ → τ) (v : Json σ) : (v.mapStrings f).safe = v.safe := by
  refine every_mapStrings (fun v => ?_) v
  cases v with
  | _ => rfl

theorem everyMember_eq_all (p : Json σ → Bool) (members : Members σ) :
    everyMember p members = members.all fun m => m.2.every p := by
  induction members with
  | nil => rfl
  | cons member members ih =>
    obtain ⟨name, v⟩ := member
    rw [everyMember, List.all_cons, ih]

theorem distinct_object_iff {members : Members σ} : (Json.object members).distinct = true ↔
    (members.map Prod.fst).Nodup ∧ ∀ m ∈ members, m.2.distinct = true := by
  show (decide (members.map Prod.fst).Nodup && everyMember namesDistinct members) = true ↔ _
  rw [Bool.and_eq_true_iff, decide_eq_true_iff, everyMember_eq_all, List.all_eq_true]
  rfl

theorem distinct_object {members : Members σ} (hnodup : (members.map Prod.fst).Nodup)
    (h : ∀ m ∈ members, m.2.distinct = true) : (Json.object members).distinct = true :=
  distinct_object_iff.mpr ⟨hnodup, h⟩

theorem safe_object {members : Members σ} (h : ∀ m ∈ members, m.2.safe = true) :
    (Json.object members).safe = true := by
  show everyMember numberSafe members = true
  rw [everyMember_eq_all, List.all_eq_true]
  exact h

theorem distinct_of_perm {members members' : Members σ} (hperm : members.Perm members')
    (h : (Json.object members).distinct = true) : (Json.object members').distinct = true := by
  obtain ⟨hnodup, hvalues⟩ := distinct_object_iff.mp h
  refine distinct_object ((hperm.map Prod.fst).nodup_iff.mp hnodup) fun m hm => ?_
  exact hvalues m (hperm.mem_iff.mpr hm)

theorem distinct_of_named {members : Members σ} (h : (Json.object members).distinct) {name : String}
    {v : Json σ} (hv : named name members = [v]) : v.distinct := by
  have hmem : v ∈ named name members := by
    rw [hv]
    exact List.mem_singleton_self v
  obtain ⟨m, hm, rfl⟩ := List.mem_map.mp hmem
  exact (distinct_object_iff.mp h).2 m (List.mem_of_mem_filter hm)

/-! ## Canonical bytes -/

/-- The bytes of a value in order. -/
def canonical (v : Json JsString) : List UInt8 := encode v.ordered

/-- What a canonical form promises: the order of the members does not matter, nothing else is lost
    of a value whose numbers are exact, and objects open a brace. -/
structure Canonicalizes (canonicalize : Json JsString → List UInt8) : Prop where
  same : ∀ v v', v.distinct → v'.distinct → v.ordered = v'.ordered →
    canonicalize v = canonicalize v'
  determined : ∀ v v', v.distinct → v'.distinct → v'.safe → canonicalize v = canonicalize v' →
    v.ordered = v'.ordered
  opens : ∀ members, (canonicalize (.object members)).head? = some 0x7b

theorem stringify_injective {v v' : Json JsString} (h : stringify v = stringify v') : v = v' := by
  have hparse := parse_stringify v
  rw [h, parse_stringify] at hparse
  exact (Option.some.inj hparse).symm

theorem encode_injective {v v' : Json JsString} (h : encode v = encode v') : v = v' := by
  refine stringify_injective ?_
  rw [← Utf8.decode_encode (stringify v), ← Utf8.decode_encode (stringify v')]
  exact congrArg Utf8.decode h

theorem canonical_iff {v v' : Json JsString} :
    canonical v = canonical v' ↔ v.ordered = v'.ordered :=
  ⟨encode_injective, congrArg encode⟩

theorem canonicalizes_canonical : Canonicalizes canonical where
  same _ _ _ _ h := canonical_iff.mpr h
  determined _ _ _ _ _ h := canonical_iff.mp h
  opens _ := rfl

end Json
