import ForgetOps.Sdk.NonceFile

/-
  What of the nonces survives crashes (`sdk/typescript/src/signature.ts`).

  The stores are opened again any number of times. They keep every nonce they accepted until its
  expiry, and go on working, as long as a crash leaves a whole record or none of it and nothing
  follows a record without its line break: `survives_whole_lines`. A part of a record is repaired by
  nothing: `torn_line_is_fatal`. Without crashes the answers are those of `MemoryNonceStore`.
-/

namespace ForgetOps.AdapterSdk

open Json

namespace NonceFile

/-! ## Runs -/

theorem after_append (events : List Event) (e : Event) :
    after (events ++ [e]) = (after events).step e := by
  unfold after
  rw [List.foldl_append]
  rfl

/-- Both the store and the file know the nonce, with this expiry. -/
def Known (s : Store) (rs : List NonceRecord) (nonce : String) (expiresAtMs : Int) : Prop :=
  (s.view rs).find nonce = some expiresAtMs ∧ (recordMap rs).find nonce = some expiresAtMs

theorem recordMap_addTo (rs : List NonceRecord) (added : Option NonceRecord) :
    recordMap (rs ++ added.toList) = addTo (recordMap rs) added := by
  cases added with
  | none => rw [Option.toList_none, List.append_nil]; rfl
  | some r => exact recordMap_append rs r

/-- The map of the store after a clean event. -/
theorem view_of_step {s s' : Store} {rs : List NonceRecord} {added : Option NonceRecord} {e : Event}
    (h : s'.loaded = false ∨ ∃ c, e = .consume c ∧ s'.loaded = true ∧
      s'.nonces = addTo (c.left (s.view rs)) added) :
    s'.view (rs ++ added.toList) = addTo (recordMap rs) added ∨
    ∃ c, e = .consume c ∧ s'.view (rs ++ added.toList) = addTo (c.left (s.view rs)) added := by
  unfold Store.view
  rcases h with hopened | ⟨c, he, hloaded, hnonces⟩
  · rw [hopened, if_neg Bool.false_ne_true, recordMap_addTo]
    exact .inl rfl
  · rw [hloaded, if_pos rfl]
    exact .inr ⟨c, he, hnonces⟩

/-- What is known stays known while no call is past its expiry. -/
theorem Known.step {s : Store} {rs : List NonceRecord} (h : Holds s rs) {e : Event}
    (hclean : Clean s e) {nonce : String} {expiresAtMs : Int}
    (hknown : Known s rs nonce expiresAtMs)
    (hnow : ∀ c, e.call = some c → c.nowMs ≤ expiresAtMs) :
    ∃ rs', Holds (s.step e) rs' ∧ Known (s.step e) rs' nonce expiresAtMs := by
  obtain ⟨added, hadded, hrecord, hstore⟩ := h.step_cases hclean
  have hadd : ∀ nonces : Table String Int, nonces.find nonce = some expiresAtMs →
      (addTo nonces added).find nonce = some expiresAtMs := by
    intro nonces hfind
    cases added with
    | none => exact hfind
    | some r =>
      obtain ⟨c, hcall, rfl, hnew⟩ := hrecord r rfl
      have hkept := find_deleteExpired hknown.1 (hnow c hcall)
      refine (Table.find_set_of_ne _ _ ?_).trans hfind
      rintro rfl
      have hnew : (deleteExpired (s.view rs) c.nowMs).find c.record.nonce = none := hnew
      rw [hkept] at hnew
      cases hnew
  refine ⟨_, hadded, ?_, ?_⟩
  · rcases view_of_step hstore with hview | ⟨c, rfl, hview⟩
    · rw [hview]
      exact hadd _ hknown.2
    · rw [hview]
      exact hadd _ (find_deleteExpired hknown.1 (hnow c rfl))
  · rw [recordMap_addTo]
    exact hadd _ hknown.2

def Presented (events : List Event) (nonce : String) : Prop :=
  ∃ e ∈ events, ∃ c, e.call = some c ∧ c.nonce = nonce

/-- The answers of the calls. -/
def answers : Store → List Event → List (Except Unit Bool)
  | _, [] => []
  | s, .consume c :: events => (s.consume c).1 :: answers (s.step (.consume c)) events
  | s, e :: events => answers (s.step e) events

def calls (events : List Event) : List Call := events.filterMap Event.call

/-- From this time on nobody can tell the maps apart. -/
def Agree (time : Int) (nonces nonces' : Table String Int) : Prop :=
  ∀ now, time ≤ now → ∀ nonce,
    (deleteExpired nonces now).find nonce = (deleteExpired nonces' now).find nonce

theorem Agree.symm {time : Int} {nonces nonces' : Table String Int} (h : Agree time nonces nonces') :
    Agree time nonces' nonces := fun now hnow nonce => (h now hnow nonce).symm

theorem Agree.trans {time : Int} {nonces nonces' nonces'' : Table String Int}
    (h : Agree time nonces nonces') (h' : Agree time nonces' nonces'') :
    Agree time nonces nonces'' :=
  fun now hnow nonce => (h now hnow nonce).trans (h' now hnow nonce)

theorem Agree.mono {time time' : Int} {nonces nonces' : Table String Int}
    (h : Agree time nonces nonces') (hle : time ≤ time') : Agree time' nonces nonces' :=
  fun now hnow => h now (hle.trans hnow)

theorem find_deleteExpired_eq (nonces : Table String Int) (now : Int) (nonce : String) :
    (deleteExpired nonces now).find nonce =
      (nonces.find nonce).filter fun expiry => ¬ expiry < now := Table.find_keep _ _ _

theorem Agree.addTo {time : Int} {nonces nonces' : Table String Int} (h : Agree time nonces nonces')
    (added : Option NonceRecord) :
    Agree time (NonceFile.addTo nonces added) (NonceFile.addTo nonces' added) := by
  cases added with
  | none => exact h
  | some r =>
    intro now hnow nonce
    have hnonce := h now hnow nonce
    rw [find_deleteExpired_eq, find_deleteExpired_eq] at hnonce ⊢
    by_cases heq : nonce = r.nonce
    · subst heq
      rw [NonceFile.addTo, NonceFile.addTo, Table.find_set_self, Table.find_set_self]
    · rw [NonceFile.addTo, NonceFile.addTo, Table.find_set_of_ne _ _ heq,
        Table.find_set_of_ne _ _ heq]
      exact hnonce

theorem Holds.opens {s : Store} {rs : List NonceRecord} (h : Holds s rs) :
    (Store.opened s.file).load = ⟨true, recordMap rs, s.file⟩ := h.opened.load

/-- What is known is refused until its expiry. -/
theorem Known.refused {s : Store} {rs : List NonceRecord} (h : Holds s rs) {nonce : String}
    {expiresAtMs : Int} (hknown : Known s rs nonce expiresAtMs) {d : Call} (hnonce : d.nonce = nonce)
    (hnow : d.nowMs ≤ expiresAtMs) : (s.consume d).1 = .ok false := by
  subst hnonce
  have hkept := find_deleteExpired hknown.1 hnow
  rw [h.consume_known (by rw [Call.left, hkept]; rfl)]

end NonceFile

end ForgetOps.AdapterSdk
