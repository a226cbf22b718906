import ForgetOps.Agent.ExportReader
import ForgetOps.Library.Binary64
import ForgetOps.Sdk.Responses

/-
  `exportData` of the TypeScript adapter (`sdk/typescript/src/create-adapter.ts`).

  The callback of a resource calls the writer any number of times and may catch what a call throws.
  A run returns or throws together with the stream so far. Paths and content types are strings of
  characters, and `totalBytes` is exact: where a sum is rounded it is over every limit.
-/

namespace ForgetOps.AdapterSdk

open AdapterHttp (Write newline)
open Guards Json

/-- Two limits, each a positive safe integer. -/
structure ExportLimits where
  maxFrameBytes : Nat
  maxExportBytes : Nat
  positive : 0 < maxFrameBytes ∧ 0 < maxExportBytes
  safe : maxFrameBytes < 2 ^ 53 ∧ maxExportBytes < 2 ^ 53

/-- `Math.ceil(maxFrameBytes * 1.4) + 1024`, where `1.4` is a fraction over `2 ^ 52`. -/
def ExportLimits.maxEncodedBytes (l : ExportLimits) : Nat :=
  Binary64.add ((Binary64.round (l.maxFrameBytes * 6305039478318694) + (2 ^ 52 - 1)) / 2 ^ 52) 1024

/-- The stream so far. -/
structure WriterState where
  totalBytes : Nat := 0
  chunks : List (List UInt8) := []
  /-- The calls of the writer that have returned. -/
  writes : List Write := []
  deriving DecidableEq, Repr

/-- A call that may throw, after what it did to the stream. -/
abbrev Writing (α : Type) := Except (String × WriterState) α

/-! ## Frames -/

def dataFrame (write : Write) : Json JsString :=
  .object [("type", text "data"), ("path", text write.path),
    ("contentType", text write.contentType),
    ("data", text (String.ofList (Base64Url.encode write.bytes)))]

def completeFrame (exportedCount : Nat) : Json JsString :=
  .object [("type", text "complete"), ("exportedCount", .number (Binary64.decimal exportedCount))]

def errorFrame : Json JsString :=
  .object [("type", text "error"), ("code", text "ADAPTER_EXPORT_FAILED")]

/-- The chunk of a frame. -/
def line (frame : Json JsString) : List UInt8 := encode frame ++ [newline]

def validateExportPath (path : String) : Bool :=
  path ≠ "" ∧ utf16Length path ≤ 512 ∧ path.toList.head? ≠ some '/' ∧ '\\' ∉ path.toList ∧
    ∀ segment ∈ path.toList.splitOn '/', segment ≠ [] ∧ segment ≠ ['.'] ∧ segment ≠ ['.', '.']

/-! ## The writer -/

def writeFrame (l : ExportLimits) (s : WriterState) (frame : Json JsString) (rawBytes : Nat) :
    Writing WriterState := do
  let s := { s with totalBytes := s.totalBytes + rawBytes }
  refuse (s.totalBytes > l.maxExportBytes) ("ADAPTER_EXPORT_TOO_LARGE", s)
  refuse ((line frame).length > l.maxEncodedBytes) ("ADAPTER_EXPORT_FRAME_TOO_LARGE", s)
  return { s with chunks := s.chunks ++ [line frame] }

/-- `writer.bytes(path, frameContentType, bytes)`. -/
def writeBytes (l : ExportLimits) (s : WriterState) (write : Write) : Writing WriterState := do
  refuse (validateExportPath write.path = false) ("ADAPTER_EXPORT_PATH_INVALID", s)
  refuse (write.contentType = "" ∨ utf16Length write.contentType > 128 ∨
    write.bytes.length > l.maxFrameBytes) ("ADAPTER_EXPORT_FRAME_INVALID", s)
  let s ← writeFrame l s (dataFrame write) write.bytes.length
  return { s with writes := s.writes ++ [write] }

/-- A call of the writer; the text of a value is missing where `JSON.stringify` gives none. -/
inductive WriterCall where
  | bytes (path contentType : String) (content : List UInt8)
  | json (path : String) (valueText : Option (List Char))
  deriving DecidableEq, Repr

def WriterCall.write : WriterCall → Write
  | bytes path contentType content => ⟨path, contentType, content⟩
  | json path valueText => ⟨path, "application/json", utf8 (valueText.getD [])⟩

/-! ## The export -/

/-- A callback that catches what the call throws. -/
def catching (caught : Bool) : Writing WriterState → Writing WriterState
  | .error (e, s) => if caught then .ok s else .error (e, s)
  | .ok s => .ok s

/-- The calls of one callback, each with whether what it throws is caught. -/
def runCalls (l : ExportLimits) : WriterState → List (WriterCall × Bool) → Writing WriterState
  | s, [] => return s
  | s, (call, caught) :: calls => do
    let s ← catching caught (writeBytes l s call.write)
    runCalls l s calls

/-- What the callback of a resource does; without a count it throws at its end, or its count is no
    safe integer or negative. -/
structure ResourceExport where
  calls : List (WriterCall × Bool)
  exportedCount : Option Count
  deriving DecidableEq, Repr

/-- The loop over the selected resources. -/
def exportResources (l : ExportLimits) :
    WriterState → Nat → List ResourceExport → Writing (WriterState × Nat)
  | s, exportedCount, [] => return (s, exportedCount)
  | s, exportedCount, resource :: resources => do
    let s ← runCalls l s resource.calls
    let count ← okOr resource.exportedCount ("ADAPTER_EXPORT_COUNT_INVALID", s)
    exportResources l s (Binary64.add exportedCount count.val) resources

/-- What the consumer of the stream gets, and the count where the stream ends with one. -/
structure ExportStream where
  chunks : List (List UInt8)
  writes : List Write
  completed : Option Nat
  deriving DecidableEq, Repr

/-- The resources that a request selects, no more than its schema takes. -/
abbrev Selected := { resources : List ResourceExport // resources.length ≤ 128 }

/-- All resources, and then the frame that completes the stream. -/
def exportAll (l : ExportLimits) (resources : Selected) : Writing (WriterState × Nat) := do
  let (s, exportedCount) ← exportResources l {} 0 resources.val
  let s ← writeFrame l s (completeFrame exportedCount) 0
  return (s, exportedCount)

def exportData (l : ExportLimits) (resources : Selected) : ExportStream :=
  match exportAll l resources with
  | .ok (s, exportedCount) => ⟨s.chunks, s.writes, some exportedCount⟩
  | .error (_, s) =>
    match writeFrame l s errorFrame 0 with
    | .ok s => ⟨s.chunks, s.writes, none⟩
    | .error (_, s) => ⟨s.chunks, s.writes, none⟩

/-- The sum of the counts, as it is computed. -/
def Selected.total (resources : Selected) : Nat :=
  (resources.val.filterMap (·.exportedCount)).foldl (fun n count => Binary64.add n count.val) 0

/-! ## What is sent -/

/-- What the adapter asks of a call. -/
structure Fits (l : ExportLimits) (write : Write) : Prop where
  path : validateExportPath write.path = true
  frame : write.bytes.length ≤ l.maxFrameBytes
  encoded : (line (dataFrame write)).length ≤ l.maxEncodedBytes

/-- The stream has the frames of the calls that returned, one a chunk. -/
structure Sent (l : ExportLimits) (s : WriterState) : Prop where
  chunks : s.chunks = s.writes.map fun write => line (dataFrame write)
  fits : ∀ write ∈ s.writes, Fits l write
  total : (s.writes.map (·.bytes.length)).sum ≤ s.totalBytes

variable {l : ExportLimits} {s s' : WriterState}

theorem writeFrame_ok {frame : Json JsString} {rawBytes : Nat} :
    writeFrame l s frame rawBytes = .ok s' ↔
      s.totalBytes + rawBytes ≤ l.maxExportBytes ∧ (line frame).length ≤ l.maxEncodedBytes ∧
        s' = { s with totalBytes := s.totalBytes + rawBytes, chunks := s.chunks ++ [line frame] } := by
  unfold writeFrame
  rw [refuse_bind_ok, refuse_bind_ok, pure_ok, not_lt, not_lt]
  exact and_congr_right fun _ => and_congr_right fun _ => eq_comm

/-- A frame that is not written leaves the stream as it is. -/
theorem writeFrame_error {frame : Json JsString} {rawBytes : Nat} {e : String}
    (h : writeFrame l s frame rawBytes = .error (e, s')) :
    s' = { s with totalBytes := s.totalBytes + rawBytes } := by
  unfold writeFrame at h
  rcases refuse_bind_error.mp h with ⟨-, heq⟩ | ⟨-, h⟩
  · exact (Prod.mk.inj heq).2.symm
  rcases refuse_bind_error.mp h with ⟨-, heq⟩ | ⟨-, h⟩
  · exact (Prod.mk.inj heq).2.symm
  · cases h

theorem sent_start : Sent l {} := ⟨rfl, nofun, Nat.le_refl 0⟩

theorem writeBytes_sent {write : Write} (hsent : Sent l s) (h : writeBytes l s write = .ok s') :
    Sent l s' := by
  unfold writeBytes at h
  obtain ⟨hpath, h⟩ := refuse_bind_ok.mp h
  obtain ⟨hframe, h⟩ := refuse_bind_ok.mp h
  obtain ⟨s₁, hwrite, h⟩ := bind_ok.mp h
  obtain ⟨-, hencoded, rfl⟩ := writeFrame_ok.mp hwrite
  obtain rfl := pure_ok.mp h
  rw [not_or, not_or, not_lt, not_lt] at hframe
  rw [Bool.not_eq_false] at hpath
  have hfits : Fits l write := ⟨hpath, hframe.2.2, hencoded⟩
  refine ⟨?_, ?_, ?_⟩
  · show s.chunks ++ [line (dataFrame write)] = (s.writes ++ [write]).map _
    rw [hsent.chunks, List.map_append, List.map_singleton]
  · intro other hother
    rcases List.mem_append.mp hother with hbefore | hnew
    · exact hsent.fits other hbefore
    · rwa [List.mem_singleton.mp hnew]
  · show ((s.writes ++ [write]).map _).sum ≤ s.totalBytes + write.bytes.length
    rw [List.map_append, List.sum_append, List.map_singleton, List.sum_singleton]
    have htotal := hsent.total
    omega

theorem writeBytes_error_sent {write : Write} {e : String} (hsent : Sent l s)
    (h : writeBytes l s write = .error (e, s')) : Sent l s' := by
  unfold writeBytes at h
  rcases refuse_bind_error.mp h with ⟨-, heq⟩ | ⟨-, h⟩
  · rwa [← (Prod.mk.inj heq).2]
  rcases refuse_bind_error.mp h with ⟨-, heq⟩ | ⟨-, h⟩
  · rwa [← (Prod.mk.inj heq).2]
  rcases bind_error.mp h with hwrite | ⟨s₁, -, h⟩
  · rw [writeFrame_error hwrite]
    have htotal := hsent.total
    exact ⟨hsent.chunks, hsent.fits, Nat.le_add_right_of_le htotal⟩
  · cases h

theorem catching_sent {caught : Bool} {write : Write} (hsent : Sent l s)
    (h : catching caught (writeBytes l s write) = .ok s') : Sent l s' := by
  cases hcall : writeBytes l s write with
  | ok s₁ =>
    rw [hcall] at h
    obtain rfl := Except.ok.inj h
    exact writeBytes_sent hsent hcall
  | error thrown =>
    obtain ⟨e, s₁⟩ := thrown
    rw [hcall] at h
    unfold catching at h
    split_ifs at h
    obtain rfl := Except.ok.inj h
    exact writeBytes_error_sent hsent hcall

theorem runCalls_sent {calls : List (WriterCall × Bool)} (hsent : Sent l s)
    (h : runCalls l s calls = .ok s') : Sent l s' := by
  induction calls generalizing s with
  | nil =>
    obtain rfl := pure_ok.mp h
    exact hsent
  | cons call calls ih =>
    obtain ⟨s₁, hcall, hrest⟩ := bind_ok.mp h
    exact ih (catching_sent hsent hcall) hrest

theorem exportResources_sent {resources : List ResourceExport} {n n' : Nat} (hsent : Sent l s)
    (h : exportResources l s n resources = .ok (s', n')) :
    Sent l s' ∧ n' = (resources.filterMap (·.exportedCount)).foldl
      (fun n count => Binary64.add n count.val) n := by
  induction resources generalizing s n with
  | nil =>
    obtain ⟨rfl, rfl⟩ := Prod.mk.inj (pure_ok.mp h)
    exact ⟨hsent, rfl⟩
  | cons resource resources ih =>
    obtain ⟨s₁, hcalls, h⟩ := bind_ok.mp h
    obtain ⟨count, hcount, h⟩ := bind_ok.mp h
    rw [List.filterMap_cons_some (okOr_ok.mp hcount)]
    exact ih (runCalls_sent hsent hcalls) h

/-- What there is to know of a stream that ends with a count. -/
structure Completed (l : ExportLimits) (resources : Selected) (stream : ExportStream) (n : Nat) :
    Prop where
  chunks : stream.chunks =
    (stream.writes.map dataFrame ++ [completeFrame n]).map line
  fits : ∀ write ∈ stream.writes, Fits l write
  total : (stream.writes.map (·.bytes.length)).sum ≤ l.maxExportBytes
  last : (line (completeFrame n)).length ≤ l.maxEncodedBytes
  count : n = resources.total

theorem exportAll_completed {resources : Selected} {n : Nat}
    (h : exportAll l resources = .ok (s, n)) :
    Completed l resources ⟨s.chunks, s.writes, some n⟩ n := by
  obtain ⟨⟨s₁, n₁⟩, hresources, h⟩ := bind_ok.mp h
  obtain ⟨s₂, hlast, h⟩ := bind_ok.mp h
  obtain ⟨rfl, rfl⟩ := Prod.mk.inj (pure_ok.mp h)
  obtain ⟨hsent, hcount⟩ := exportResources_sent sent_start hresources
  obtain ⟨htotal, hencoded, rfl⟩ := writeFrame_ok.mp hlast
  refine ⟨?_, hsent.fits, hsent.total.trans htotal, hencoded, hcount⟩
  show s₁.chunks ++ [line (completeFrame n₁)] = _
  rw [hsent.chunks, List.map_append, List.map_map, List.map_singleton]
  rfl

theorem exportData_completed {resources : Selected} {n : Nat}
    (h : (exportData l resources).completed = some n) :
    Completed l resources (exportData l resources) n := by
  unfold exportData at *
  cases hall : exportAll l resources with
  | ok finished =>
    obtain ⟨s, m⟩ := finished
    rw [hall] at h
    obtain rfl : m = n := Option.some.inj h
    exact exportAll_completed hall
  | error thrown =>
    obtain ⟨e, s⟩ := thrown
    rw [hall] at h
    dsimp only at h
    split at h <;> cases h

/-! ## Bounds -/

theorem foldl_add_le {counts : List Count} {k n : Nat} (hn : n ≤ k * 2 ^ 53)
    (hk : k + counts.length < 2 ^ 53) :
    counts.foldl (fun n count => Binary64.add n count.val) n ≤ (k + counts.length) * 2 ^ 53 := by
  induction counts generalizing k n with
  | nil => exact hn
  | cons count counts ih =>
    rw [List.length_cons] at hk
    have hcount := count.property
    have hsum : Binary64.add n count.val ≤ (k + 1) * 2 ^ 53 :=
      Binary64.add_le (by omega) (Binary64.representable_mul (by omega) 53)
    have hrest := ih hsum (by omega)
    rw [List.foldl_cons, List.length_cons, Nat.add_comm counts.length, ← Nat.add_assoc]
    exact hrest

/-- No sum of as many counts is near `2 ^ 64`. -/
theorem total_le (resources : Selected) : resources.total ≤ 2 ^ 60 := by
  have hlength : (resources.val.filterMap (·.exportedCount)).length ≤ 128 :=
    (List.length_filterMap_le _ _).trans resources.property
  have hfold : resources.total ≤
      (0 + (resources.val.filterMap (·.exportedCount)).length) * 2 ^ 53 :=
    foldl_add_le (Nat.zero_le _) (by omega)
  omega

/-- The limit on an encoded frame is no more than the reader's. -/
theorem maxEncodedBytes_le (l : ExportLimits) : l.maxEncodedBytes ≤ l.maxFrameBytes * 2 + 1024 := by
  have hsafe := l.safe.1
  have hceil : ∀ k, Binary64.round (l.maxFrameBytes * 6305039478318694) ≤ k * 2 ^ 52 →
      (Binary64.round (l.maxFrameBytes * 6305039478318694) + (2 ^ 52 - 1)) / 2 ^ 52 ≤ k := by
    intro k hk
    omega
  unfold ExportLimits.maxEncodedBytes
  rcases Nat.lt_or_ge (l.maxFrameBytes + 512) (2 ^ 53) with hsmall | hlarge
  · have hrepresentable : Binary64.Representable (l.maxFrameBytes * 2 ^ 53) :=
      Binary64.representable_mul hsafe 53
    have hround : Binary64.round (l.maxFrameBytes * 6305039478318694) ≤ l.maxFrameBytes * 2 ^ 53 :=
      Binary64.round_le (by omega) hrepresentable
    have hpow : l.maxFrameBytes * 2 ^ 53 = l.maxFrameBytes * 2 * 2 ^ 52 := by ring
    have hle := hceil (l.maxFrameBytes * 2) (by rwa [← hpow])
    have htarget : l.maxFrameBytes * 2 + 1024 = (l.maxFrameBytes + 512) * 2 ^ 1 := by omega
    rw [htarget]
    exact Binary64.add_le (by omega) (Binary64.representable_mul hsmall 1)
  · -- near the largest safe integer, twice the limit and 1024 need not be in the format
    have hrepresentable : Binary64.Representable (6305039478318694 * 2 ^ 53) :=
      Binary64.representable_mul (by decide) 53
    have hround : Binary64.round (l.maxFrameBytes * 6305039478318694) ≤ 6305039478318694 * 2 ^ 53 :=
      Binary64.round_le (by omega) hrepresentable
    have hle := hceil (6305039478318694 * 2) (by omega)
    have hadd := Binary64.add_le (b := 1024) (m := 6305039478319206 * 2 ^ 1)
      (Nat.add_le_add_right hle 1024) (Binary64.representable_mul (by decide) 1)
    omega

end ForgetOps.AdapterSdk
