import Mathlib.Tactic

/-
  Pages of a sorted listing, each asked for with the last key of the one before.

  `page` is what `where key > after order by key limit n` answers. A loop that asks for pages until
  one is short goes through `Paged` keys; between two pages the listing may lose what lies behind.
  `Paged.pairwise`, `Paged.mem_iff`: these are all the keys beyond the first one, each of them once.
  A page of `n` keys brings the loop forward: `length_lt`.
-/

namespace Keyset

variable {α : Type}

/-- One key comes before another one, never both and never neither. -/
structure StrictTotal (before : α → α → Bool) : Prop where
  irrefl : ∀ a, before a a = false
  trans : ∀ a b c, before a b = true → before b c = true → before a c = true
  total : ∀ a b, a ≠ b → before a b = true ∨ before b a = true

/-- The keys beyond one, in their order. -/
def beyond (before : α → α → Bool) (listed : List α) (after : α) : List α :=
  (listed.filter (before after)).mergeSort fun a b => !before b a

def page (before : α → α → Bool) (listed : List α) (after : α) (limit : ℕ) : List α :=
  (beyond before listed after).take limit

/-- The keys of a loop that begins beyond `after`. -/
inductive Paged (before : α → α → Bool) (limit : ℕ) : α → List α → List α → Prop where
  | stop {after listed} : page before listed after limit = [] → Paged before limit after listed []
  | short {after listed names} : page before listed after limit = names → names.length < limit →
      Paged before limit after listed names
  | full {after listed first last listed' names} : page before listed after limit = first →
      first.getLast? = some last → limit ≤ first.length → listed'.Nodup →
      (∀ x, before last x = true → (x ∈ listed' ↔ x ∈ listed)) →
      Paged before limit last listed' names → Paged before limit after listed (first ++ names)

variable {before : α → α → Bool} {listed listed' names : List α} {after : α} {limit : ℕ}

theorem mem_beyond {x : α} :
    x ∈ beyond before listed after ↔ x ∈ listed ∧ before after x = true := by
  rw [beyond, List.mem_mergeSort, List.mem_filter]

theorem length_beyond :
    (beyond before listed after).length = (listed.filter (before after)).length :=
  List.length_mergeSort _

theorem StrictTotal.asymm (order : StrictTotal before) {a b : α} (h : before a b = true) :
    before b a = false := by
  by_contra hback
  rw [Bool.not_eq_false] at hback
  have hloop := order.trans a b a h hback
  rw [order.irrefl] at hloop
  cases hloop

theorem pairwise_le_beyond (order : StrictTotal before) (listed : List α) (after : α) :
    (beyond before listed after).Pairwise fun a b => (!before b a) = true := by
  refine List.pairwise_mergeSort (fun a b c hab hbc => ?_) (fun a b => ?_) _
  · simp only [Bool.not_eq_true'] at hab hbc ⊢
    by_contra hca
    rw [Bool.not_eq_false] at hca
    by_cases hb : a = b
    · rw [← hb, hca] at hbc
      cases hbc
    · have hforth := (order.total a b hb).resolve_right (by rw [hab]; decide)
      rw [order.trans c a b hca hforth] at hbc
      cases hbc
  · rw [Bool.or_eq_true, Bool.not_eq_true', Bool.not_eq_true']
    by_contra hboth
    rw [not_or, Bool.not_eq_false, Bool.not_eq_false] at hboth
    rw [order.asymm hboth.1] at hboth
    exact absurd hboth.2 (by decide)

theorem pairwise_beyond (order : StrictTotal before) (hnodup : listed.Nodup) (after : α) :
    (beyond before listed after).Pairwise fun a b => before a b = true := by
  have hsorted := pairwise_le_beyond order listed after
  have hdistinct : (beyond before listed after).Nodup :=
    (List.mergeSort_perm _ _).nodup_iff.mpr (hnodup.filter _)
  refine List.Pairwise.imp₂ ?_ hsorted hdistinct
  intro a b hle hne
  rw [Bool.not_eq_true'] at hle
  exact (order.total a b hne).resolve_right (by rw [hle]; decide)

theorem page_sublist : (page before listed after limit).Sublist (beyond before listed after) :=
  List.take_sublist _ _

/-- A short page is all there is. -/
theorem page_of_short (h : (page before listed after limit).length < limit) :
    page before listed after limit = beyond before listed after := by
  unfold page at h ⊢
  rw [List.length_take] at h
  exact List.take_of_length_le (by omega)

theorem page_eq_nil (hlimit : 0 < limit) (h : page before listed after limit = []) :
    beyond before listed after = [] := by
  rw [← page_of_short (by rw [h]; exact hlimit), h]

/-- A key beyond the first one is on the page or beyond its last one, were a key listed twice. -/
theorem page_or_beyond (order : StrictTotal before) {last x : α}
    (hlast : (page before listed after limit).getLast? = some last) (hx : x ∈ listed)
    (hafter : before after x = true) :
    x ∈ page before listed after limit ∨ before last x = true := by
  have hmem : last ∈ page before listed after limit := List.mem_of_getLast? hlast
  have hbeyond : x ∈ beyond before listed after := mem_beyond.mpr ⟨hx, hafter⟩
  have hsorted := pairwise_le_beyond order listed after
  have hsplit := List.take_append_drop limit (beyond before listed after)
  rw [← hsplit] at hbeyond hsorted
  rcases List.mem_append.mp hbeyond with hpage | hrest
  · exact .inl hpage
  · have hle : before x last = false := by
      simpa using (List.pairwise_append.mp hsorted).2.2 last hmem x hrest
    by_cases heq : x = last
    · exact .inl (heq ▸ hmem)
    · exact .inr ((order.total x last heq).resolve_left (by rw [hle]; decide))

/-- The keys of a listing are on the page or beyond its last one. -/
theorem mem_page_or_beyond (order : StrictTotal before) {last x : α}
    (hlast : (page before listed after limit).getLast? = some last) :
    x ∈ listed ∧ before after x = true ↔
      x ∈ page before listed after limit ∨ x ∈ listed ∧ before last x = true := by
  constructor
  · rintro ⟨hx, hafter⟩
    exact (page_or_beyond order hlast hx hafter).imp_right fun hbeyond => ⟨hx, hbeyond⟩
  · rintro (hx | ⟨hx, hbeyond⟩)
    · exact mem_beyond.mp (page_sublist.subset hx)
    · have hmem : last ∈ page before listed after limit := List.mem_of_getLast? hlast
      have hafter := (mem_beyond.mp (page_sublist.subset hmem)).2
      exact ⟨hx, order.trans _ _ _ hafter hbeyond⟩

theorem pairwise_page (order : StrictTotal before) (hnodup : listed.Nodup) (after : α)
    (limit : ℕ) : (page before listed after limit).Pairwise fun a b => before a b = true :=
  (pairwise_beyond order hnodup after).sublist page_sublist

/-- The keys of a loop are those beyond its first one. -/
theorem Paged.mem_iff (order : StrictTotal before) (hlimit : 0 < limit)
    (h : Paged before limit after listed names) (hnodup : listed.Nodup) {x : α} :
    x ∈ names ↔ x ∈ listed ∧ before after x = true := by
  induction h with
  | stop hpage => rw [← mem_beyond, page_eq_nil hlimit hpage]
  | short hpage hshort =>
    subst hpage
    rw [page_of_short hshort, mem_beyond]
  | full hpage hlast hfull hnodup' hsame _ ih =>
    subst hpage
    rw [mem_page_or_beyond order hlast, List.mem_append, ih hnodup']
    refine or_congr_right ⟨fun hx => ?_, fun hx => ?_⟩
    · exact ⟨(hsame x hx.2).mp hx.1, hx.2⟩
    · exact ⟨(hsame x hx.2).mpr hx.1, hx.2⟩

/-- The keys of a loop ascend. -/
theorem Paged.pairwise (order : StrictTotal before) (hlimit : 0 < limit)
    (h : Paged before limit after listed names) (hnodup : listed.Nodup) :
    names.Pairwise fun a b => before a b = true := by
  induction h with
  | stop => exact List.Pairwise.nil
  | short hpage => exact hpage ▸ pairwise_page order hnodup _ limit
  | @full after listed first last listed' names hpage hlast hfull hnodup' hsame hrest ih =>
    subst hpage
    have hsorted := pairwise_page order hnodup after limit
    refine List.pairwise_append.mpr ⟨hsorted, ih hnodup', fun a ha b hb => ?_⟩
    have hbeyond := ((hrest.mem_iff order hlimit hnodup').mp hb).2
    by_cases hsame : a = last
    · exact hsame ▸ hbeyond
    · refine order.trans a last b ?_ hbeyond
      obtain ⟨front, hfront⟩ := List.getLast?_eq_some_iff.mp hlast
      rw [hfront] at hsorted ha
      exact (List.pairwise_append.mp hsorted).2.2 a
        ((List.mem_append.mp ha).resolve_right fun h => hsame (List.mem_singleton.mp h)) last
        (List.mem_singleton.mpr rfl)

/-- Beyond the last key of a page there are fewer keys. -/
theorem length_lt (order : StrictTotal before) (hnodup' : listed'.Nodup) {last : α}
    (hlast : (page before listed after limit).getLast? = some last)
    (hsame : ∀ x, before last x = true → (x ∈ listed' ↔ x ∈ listed)) :
    (beyond before listed' last).length < (beyond before listed after).length := by
  have hmem := page_sublist.subset (List.mem_of_getLast? hlast)
  have hout : last ∉ beyond before listed' last := by
    rw [mem_beyond, order.irrefl]
    exact fun h => absurd h.2 (by decide)
  have hdistinct : (last :: beyond before listed' last).Nodup :=
    List.nodup_cons.mpr ⟨hout, (List.mergeSort_perm _ _).nodup_iff.mpr (hnodup'.filter _)⟩
  refine (List.subperm_of_subset hdistinct fun x hx => ?_).length_le
  rcases List.mem_cons.mp hx with rfl | hx
  · exact hmem
  · obtain ⟨hx, hbeyond⟩ := mem_beyond.mp hx
    exact mem_beyond.mpr
      ⟨(hsame x hbeyond).mp hx, order.trans _ _ _ (mem_beyond.mp hmem).2 hbeyond⟩

end Keyset
