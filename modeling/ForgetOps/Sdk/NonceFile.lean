import ForgetOps.Library.JsonParse
import ForgetOps.Library.Lines
import ForgetOps.Library.Utf8
import ForgetOps.Sdk.NonceStores

/-
  The file of `FileNonceStore` in bytes (`sdk/typescript/src/signature.ts`), where the process may
  stop at any byte of an append.

  A line is the JSON text of a record and a line break. A store that is opened reads the whole file
  at its first call; a line that is no record makes that call, and every later one, reject. What is
  in the file are whole records as long as every event is `Clean`; `Holds.step_cases` says what such
  an event does to the records and to the map.
-/

namespace ForgetOps.AdapterSdk

open Json

namespace NonceFile

/-! ## Lines -/

/-- `JSON.stringify({ nonce, expiresAtMs })`. -/
def recordText (r : NonceRecord) : List Char :=
  stringify (.object [("nonce", .string (jsString r.nonce)), ("expiresAtMs", .number r.expiresAtMs)])

def line (r : NonceRecord) : List UInt8 := utf8 (recordText r ++ ['\n'])

/-- A line as `load` reads it, where it does not throw. -/
def readRecord (text : List Char) : Option NonceRecord :=
  match parse text with
  | some (.object members) =>
    match property "nonce" members, property "expiresAtMs" members with
    | some (.string us), some (.number expiresAtMs) =>
      (Utf16.text us).map fun cs => ⟨String.ofList cs, expiresAtMs⟩
    | _, _ => none
  | _ => none

/-- `contents.split("\n").filter(Boolean)`. -/
def fileLines (file : List UInt8) : List (List Char) :=
  let (lines, last) := Lines.split '\n' (Utf8.decode file)
  (lines ++ [last]).filter (· ≠ [])

def records (file : List UInt8) : List (Option NonceRecord) := (fileLines file).map readRecord

/-! ## Stores -/

structure Call where
  nonce : String
  expiresAtMs : Int
  nowMs : Int
  deriving DecidableEq, Repr

def Call.record (c : Call) : NonceRecord := ⟨c.nonce, c.expiresAtMs⟩

/-- The store of a process, and the file that outlives it. -/
structure Store where
  loaded : Bool
  nonces : Table String Int
  file : List UInt8

/-- `new FileNonceStore(filePath)`; a file that is not there is read as an empty one. -/
def Store.opened (file : List UInt8) : Store := ⟨false, Table.empty, file⟩

def Store.load (s : Store) : Store :=
  if s.loaded then s
  else
    let (loaded, nonces) := FileNonceStore.loadLines s.nonces (records s.file)
    { s with loaded, nonces }

/-- The bytes that a call appends. -/
def Store.appended (s : Store) (c : Call) : List UInt8 :=
  if s.load.loaded ∧ ((deleteExpired s.load.nonces c.nowMs).find c.nonce).isNone then line c.record
  else []

/-- `consumeExclusive`. -/
def Store.consume (s : Store) (c : Call) : Except Unit Bool × Store :=
  let s' := s.load
  if s'.loaded then
    let left := deleteExpired s'.nonces c.nowMs
    if (left.find c.nonce).isSome then (.ok false, { s' with nonces := left })
    else
      (.ok true, { s' with nonces := left.set c.nonce (some c.expiresAtMs),
                           file := s'.file ++ s.appended c })
  else (.error (), s')

/-- What happens to a store: a call, a call that ends in a crash when so many bytes of its line are
    in the file, or a restart between two calls. -/
inductive Event where
  | consume (c : Call)
  | crash (c : Call) (written : Nat)
  | restart
  deriving DecidableEq, Repr

/-- The bytes that reach the file. -/
def Store.reached (s : Store) : Event → List UInt8
  | .consume c => s.appended c
  | .crash c written => (s.appended c).take written
  | .restart => []

def Store.step (s : Store) : Event → Store
  | .consume c => (s.consume c).2
  | .crash c written => .opened (s.file ++ s.reached (.crash c written))
  | .restart => .opened s.file

/-- The store after these events, from an empty file. -/
def after (events : List Event) : Store := events.foldl Store.step (.opened [])

/-! ## What lines are read as -/

theorem readRecord_recordText (r : NonceRecord) : readRecord (recordText r) = some r := by
  unfold readRecord recordText
  rw [parse_stringify]
  have hnonce : property "nonce" [("nonce", Json.string (jsString r.nonce)),
      ("expiresAtMs", .number r.expiresAtMs)] = some (.string (jsString r.nonce)) := rfl
  have hexpires : property "expiresAtMs" [("nonce", Json.string (jsString r.nonce)),
      ("expiresAtMs", .number r.expiresAtMs)] = some (.number r.expiresAtMs) := rfl
  dsimp only
  rw [hnonce, hexpires]
  dsimp only
  rw [text_jsString, Option.map_some, String.ofList_toList]

theorem newline_notMem_recordText (r : NonceRecord) : '\n' ∉ recordText r :=
  newline_notMem_stringify _

theorem recordText_ne_nil (r : NonceRecord) : recordText r ≠ [] := List.cons_ne_nil _ _

theorem utf8_append (cs ds : List Char) : utf8 (cs ++ ds) = utf8 cs ++ utf8 ds :=
  List.flatMap_append

theorem line_eq (r : NonceRecord) : line r = utf8 (recordText r) ++ [0x0a] := utf8_append _ _

/-- The records of the file, whose last line has no line break where there is a last record. -/
def text (rs : List NonceRecord) (last : Option NonceRecord) : List UInt8 :=
  rs.flatMap line ++ utf8 (last.elim [] recordText)

theorem text_eq (rs : List NonceRecord) (last : Option NonceRecord) :
    text rs last = utf8 (Lines.join '\n' (rs.map recordText) ++ last.elim [] recordText) := by
  unfold text
  rw [utf8_append]
  congr 1
  induction rs with
  | nil => rfl
  | cons r rs ih =>
    rw [List.flatMap_cons, ih, List.map_cons, Lines.join_cons, line, utf8_append, utf8_append,
      List.append_assoc]
    rfl

theorem fileLines_text (rs : List NonceRecord) (last : Option NonceRecord) :
    fileLines (text rs last) = (rs ++ last.toList).map recordText := by
  have hbreaks : ∀ t ∈ rs.map recordText, '\n' ∉ t := by
    intro t ht
    obtain ⟨r, -, rfl⟩ := List.mem_map.mp ht
    exact newline_notMem_recordText r
  have hlast : '\n' ∉ last.elim [] recordText := by
    cases last with
    | none => exact List.not_mem_nil
    | some r => exact newline_notMem_recordText r
  have hfilter : ∀ rs : List NonceRecord,
      (rs.map recordText).filter (fun t => decide (t ≠ [])) = rs.map recordText := by
    intro rs
    rw [List.filter_eq_self]
    intro t ht
    obtain ⟨r, -, rfl⟩ := List.mem_map.mp ht
    exact decide_eq_true (recordText_ne_nil r)
  have hdecode : Utf8.decode (text rs last) =
      Lines.join '\n' (rs.map recordText) ++ last.elim [] recordText := by
    rw [text_eq]
    exact Utf8.decode_encode _
  unfold fileLines
  rw [hdecode, Lines.split_join hbreaks, Lines.split_of_notMem hlast]
  dsimp only
  rw [List.append_nil, List.filter_append, hfilter, List.map_append]
  cases last with
  | none => rfl
  | some r =>
    have hone := hfilter [r]
    rw [List.map_cons, List.map_nil] at hone
    rw [Option.elim_some, hone]
    rfl

theorem records_text (rs : List NonceRecord) (last : Option NonceRecord) :
    records (text rs last) = (rs ++ last.toList).map some := by
  unfold records
  rw [fileLines_text, List.map_map]
  apply List.map_congr_left
  intro r _
  rw [Function.comp_apply, readRecord_recordText]

/-- The map that these records leave. -/
def recordMap (rs : List NonceRecord) : Table String Int :=
  rs.foldl (fun nonces r => nonces.set r.nonce (some r.expiresAtMs)) Table.empty

theorem recordMap_append (rs : List NonceRecord) (r : NonceRecord) :
    recordMap (rs ++ [r]) = (recordMap rs).set r.nonce (some r.expiresAtMs) := by
  unfold recordMap
  rw [List.foldl_append]
  rfl

theorem loadLines_some (nonces : Table String Int) (rs : List NonceRecord) :
    FileNonceStore.loadLines nonces (rs.map some) =
      (true, rs.foldl (fun nonces r => nonces.set r.nonce (some r.expiresAtMs)) nonces) := by
  induction rs generalizing nonces with
  | nil => rfl
  | cons r rs ih => exact ih _

/-! ## One step -/

/-- The file ends in a line break, if it has anything. -/
def Terminated (file : List UInt8) : Prop := file = [] ∨ file.getLast? = some 0x0a

instance (file : List UInt8) : Decidable (Terminated file) := inferInstanceAs (Decidable (_ ∨ _))

def Event.call : Event → Option Call
  | .consume c => some c
  | .crash c _ => some c
  | .restart => none

/-- Nothing of a line reaches the file, or a whole record does, to its line break or without it,
    and the file ended in a line break before. -/
def Clean (s : Store) (e : Event) : Prop :=
  s.reached e = [] ∨
    Terminated s.file ∧ ∀ c, e.call = some c → (line c.record).length ≤ (s.reached e).length + 1

instance (s : Store) (e : Event) : Decidable (Clean s e) := by
  unfold Clean
  cases e.call with
  | none => exact decidable_of_iff (s.reached e = [] ∨ Terminated s.file) (by simp)
  | some c =>
    exact decidable_of_iff (s.reached e = [] ∨ Terminated s.file ∧
      (line c.record).length ≤ (s.reached e).length + 1) (by simp)

/-- The file holds these records, and a store that has not read it holds nothing. -/
structure Holds (s : Store) (rs : List NonceRecord) : Prop where
  file : ∃ rs' last, rs = rs' ++ last.toList ∧ s.file = text rs' last
  unloaded : s.loaded = false → s.nonces = Table.empty

theorem Holds.records {s : Store} {rs : List NonceRecord} (h : Holds s rs) :
    records s.file = rs.map some := by
  obtain ⟨rs', last, rfl, hfile⟩ := h.file
  rw [hfile, records_text]

/-- What a call finds. -/
def Store.view (s : Store) (rs : List NonceRecord) : Table String Int :=
  if s.loaded then s.nonces else recordMap rs

theorem Holds.load {s : Store} {rs : List NonceRecord} (h : Holds s rs) :
    s.load = { s with loaded := true, nonces := s.view rs } := by
  unfold Store.load Store.view
  split_ifs with hloaded
  · rw [← hloaded]
  · have hempty := h.unloaded (Bool.eq_false_of_not_eq_true hloaded)
    rw [h.records, hempty, loadLines_some]
    rfl

theorem holds_opened {rs' : List NonceRecord} {last : Option NonceRecord} :
    Holds (.opened (text rs' last)) (rs' ++ last.toList) :=
  ⟨⟨rs', last, rfl, rfl⟩, fun _ => rfl⟩

theorem Holds.opened {s : Store} {rs : List NonceRecord} (h : Holds s rs) :
    Holds (.opened s.file) rs := ⟨h.file, fun _ => rfl⟩

/-- What a call leaves of the map it finds. -/
def Call.left (c : Call) (nonces : Table String Int) : Table String Int :=
  deleteExpired nonces c.nowMs

theorem Holds.appended {s : Store} {rs : List NonceRecord} (h : Holds s rs) (c : Call) :
    s.appended c = if ((c.left (s.view rs)).find c.nonce).isNone then line c.record else [] := by
  unfold Store.appended
  rw [h.load]
  simp [Call.left]

/-- A call that is refused leaves the file as it is. -/
theorem Holds.consume_known {s : Store} {rs : List NonceRecord} (h : Holds s rs) {c : Call}
    (hknown : ((c.left (s.view rs)).find c.nonce).isSome = true) :
    s.consume c = (.ok false, ⟨true, c.left (s.view rs), s.file⟩) := by
  unfold Store.consume
  rw [h.load]
  dsimp only
  rw [if_pos rfl]
  exact if_pos hknown

theorem Holds.consume_new {s : Store} {rs : List NonceRecord} (h : Holds s rs) {c : Call}
    (hnew : (c.left (s.view rs)).find c.nonce = none) :
    s.consume c = (.ok true, ⟨true, (c.left (s.view rs)).set c.nonce (some c.expiresAtMs),
      s.file ++ line c.record⟩) := by
  have happended := h.appended c
  rw [hnew] at happended
  unfold Store.consume
  rw [h.load, happended]
  dsimp only
  rw [if_pos rfl]
  refine (if_neg ?_).trans rfl
  rw [Call.left] at hnew
  rw [hnew]
  exact Bool.false_ne_true

/-! ## What reaches the file -/

theorem last_of_terminated {rs : List NonceRecord} {last : Option NonceRecord}
    (h : Terminated (text rs last)) : last = none := by
  cases last with
  | none => rfl
  | some r =>
    have hne : utf8 (recordText r) ≠ [] := encode_object_ne_nil _
    have hbreak : (0x0a : UInt8) ∉ utf8 (recordText r) := newline_notMem_encode _
    rcases h with h | h
    · exact absurd (List.append_eq_nil_iff.mp h).2 hne
    · unfold text at h
      rw [Option.elim_some, List.getLast?_append_of_ne_nil _ hne] at h
      exact absurd (List.mem_of_getLast? h) hbreak

theorem text_append_line (rs : List NonceRecord) (r : NonceRecord) :
    text rs none ++ line r = text (rs ++ [r]) none := by
  unfold text
  rw [List.flatMap_append, List.flatMap_singleton]
  show rs.flatMap line ++ [] ++ line r = rs.flatMap line ++ line r ++ []
  rw [List.append_nil, List.append_nil]

theorem text_append_record (rs : List NonceRecord) (r : NonceRecord) :
    text rs none ++ utf8 (recordText r) = text rs (some r) := by
  show rs.flatMap line ++ [] ++ utf8 (recordText r) = rs.flatMap line ++ utf8 (recordText r)
  rw [List.append_nil]

/-- All of a line but one byte is all of it or its record. -/
theorem take_line {r : NonceRecord} {written : Nat}
    (h : (line r).length ≤ ((line r).take written).length + 1) :
    (line r).take written = line r ∨ (line r).take written = utf8 (recordText r) := by
  have hlength : (line r).length = (utf8 (recordText r)).length + 1 := by
    rw [line_eq, List.length_append]
    rfl
  rw [List.length_take] at h
  rcases Nat.lt_or_ge written (line r).length with hlt | hge
  · refine .inr ?_
    have hwritten : written = (utf8 (recordText r)).length := by omega
    rw [line_eq, hwritten, List.take_left]
  · exact .inl (List.take_of_length_le hge)

/-- A file that ends in a line break holds its records in whole lines. -/
theorem Holds.terminated {s : Store} {rs : List NonceRecord} (h : Holds s rs)
    (hend : Terminated s.file) : s.file = text rs none := by
  obtain ⟨rs', last, rfl, hfile⟩ := h.file
  rw [hfile] at hend
  obtain rfl := last_of_terminated hend
  rw [hfile, Option.toList_none, List.append_nil]

/-- What a clean event adds to the file: nothing, or the record of a call that found its nonce
    unknown. -/
theorem Holds.reached {s : Store} {rs : List NonceRecord} (h : Holds s rs) {e : Event}
    (hclean : Clean s e) :
    (s.reached e = [] ∧ ∀ c, e = .consume c → ((c.left (s.view rs)).find c.nonce).isSome = true) ∨
    ∃ c rs' last, e.call = some c ∧ (c.left (s.view rs)).find c.nonce = none ∧
      rs ++ [c.record] = rs' ++ last.toList ∧ s.file ++ s.reached e = text rs' last := by
  cases e with
  | restart => exact .inl ⟨rfl, nofun⟩
  | consume c =>
    have happended := h.appended c
    cases hfind : (c.left (s.view rs)).find c.nonce with
    | some x =>
      rw [hfind] at happended
      refine .inl ⟨happended, ?_⟩
      rintro c' ⟨⟩
      rw [hfind]
      rfl
    | none =>
      rw [hfind] at happended
      have happended : s.reached (.consume c) = line c.record := happended
      rcases hclean with hnone | ⟨hend, -⟩
      · rw [happended, line_eq] at hnone
        exact absurd (List.append_eq_nil_iff.mp hnone).2 (List.cons_ne_nil _ _)
      · refine .inr ⟨c, rs ++ [c.record], none, rfl, hfind, (List.append_nil _).symm, ?_⟩
        rw [happended, h.terminated hend, text_append_line]
  | crash c written =>
    have happended := h.appended c
    cases hfind : (c.left (s.view rs)).find c.nonce with
    | some x =>
      rw [hfind] at happended
      refine .inl ⟨?_, nofun⟩
      show (s.appended c).take written = []
      rw [happended]
      exact List.take_nil
    | none =>
      rw [hfind] at happended
      have hreached : s.reached (.crash c written) = (line c.record).take written :=
        congrArg (List.take written) happended
      rcases hclean with hnone | ⟨hend, hlength⟩
      · exact .inl ⟨hnone, nofun⟩
      · have hlength := hlength c rfl
        rw [hreached] at hlength
        rcases take_line hlength with hline | hrecord
        · refine .inr ⟨c, rs ++ [c.record], none, rfl, hfind, (List.append_nil _).symm, ?_⟩
          rw [hreached, hline, h.terminated hend, text_append_line]
        · refine .inr ⟨c, rs, some c.record, rfl, hfind, rfl, ?_⟩
          rw [hreached, hrecord, h.terminated hend, text_append_record]

/-- A map after a record, if there is one. -/
def addTo (nonces : Table String Int) : Option NonceRecord → Table String Int
  | none => nonces
  | some r => nonces.set r.nonce (some r.expiresAtMs)

/-- What a clean event does: it adds at most the record of a call that found its nonce unknown, and
    it leaves a store that was opened again, or the store of a call that went on with what that call
    found. -/
theorem Holds.step_cases {s : Store} {rs : List NonceRecord} (h : Holds s rs) {e : Event}
    (hclean : Clean s e) :
    ∃ added : Option NonceRecord, Holds (s.step e) (rs ++ added.toList) ∧
      (∀ r, added = some r → ∃ c, e.call = some c ∧ r = c.record ∧
        (c.left (s.view rs)).find c.nonce = none) ∧
      ((s.step e).loaded = false ∨ ∃ c, e = .consume c ∧ (s.step e).loaded = true ∧
        (s.step e).nonces = addTo (c.left (s.view rs)) added) := by
  rcases h.reached hclean with ⟨hnone, hknown⟩ | ⟨c, rs', last, hcall, hnew, hrs, hfile⟩
  · refine ⟨none, ?_, nofun, ?_⟩
    · rw [Option.toList_none, List.append_nil]
      cases e with
      | restart => exact h.opened
      | crash c written =>
        have hopened := h.opened
        show Holds (.opened (s.file ++ s.reached (.crash c written))) rs
        rw [hnone, List.append_nil]
        exact hopened
      | consume c =>
        unfold Store.step
        dsimp only
        rw [h.consume_known (hknown c rfl)]
        exact ⟨h.file, nofun⟩
    · cases e with
      | restart => exact .inl rfl
      | crash c written => exact .inl rfl
      | consume c =>
        refine .inr ⟨c, rfl, ?_⟩
        unfold Store.step
        dsimp only
        rw [h.consume_known (hknown c rfl)]
        exact ⟨rfl, rfl⟩
  · refine ⟨some c.record, ?_, ?_, ?_⟩
    · have hholds := @holds_opened rs' last
      rw [Option.toList_some, hrs]
      cases e with
      | restart => cases hcall
      | crash c' written =>
        show Holds (.opened (s.file ++ s.reached (.crash c' written))) _
        rw [hfile]
        exact hholds
      | consume c' =>
        cases hcall
        have happended := h.appended c
        rw [hnew] at happended
        have happended : s.reached (.consume c) = line c.record := happended
        unfold Store.step
        dsimp only
        rw [h.consume_new hnew, ← happended, hfile]
        exact ⟨⟨rs', last, rfl, rfl⟩, nofun⟩
    · rintro r ⟨⟩
      exact ⟨c, hcall, rfl, hnew⟩
    · cases e with
      | restart => exact .inl rfl
      | crash c' written => exact .inl rfl
      | consume c' =>
        cases hcall
        refine .inr ⟨c, rfl, ?_⟩
        unfold Store.step
        dsimp only
        rw [h.consume_new hnew]
        exact ⟨rfl, rfl⟩

end NonceFile

end ForgetOps.AdapterSdk
