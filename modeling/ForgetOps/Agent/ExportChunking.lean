import ForgetOps.Agent.ExportReader

/-
  How the body of an export is split into chunks, and what the reader makes of it.

  The limit on one encoded frame is compared with the carried bytes and the whole next chunk. Where
  no split can reach it, `readExportFrames_of_fits` reads the body as if it were one text, and
  `read_ok_iff` says which bodies are accepted. `chunkIndependent_iff` adds the bodies that every
  split refuses alike.
-/

namespace ForgetOps.AdapterHttp

open Connector (ConnectorError saturatingAdd)
open Guards

def frameTooLarge : ConnectorError := .invalidResponse "ADAPTER_EXPORT_FRAME_TOO_LARGE"

/-- Data frames within the limits, all written, from one state of the reader to another. -/
inductive Delivered (r : ExportReader) : Progress → List (List UInt8) → Progress → Prop
  | nil (s : Progress) : Delivered r s [] s
  | cons {s s' : Progress} {line bytes : List UInt8} {lines : List (List UInt8)}
      {path contentType data : String} (hne : line ≠ [])
      (hframe : r.fromSlice line = some (.data path contentType data))
      (hpath : safeExportPath path = true) (hdecode : Base64Url.decode data.toList = some bytes)
      (hencode : Base64Url.encode bytes = data.toList) (hsize : bytes.length ≤ r.maxFrameBytes)
      (htotal : saturatingAdd s.rawTotal bytes.length ≤ r.maxExportBytes)
      (hsink : r.sink s.writes ⟨path, contentType, bytes⟩ = .ok ())
      (hrest : Delivered r
        { s with rawTotal := s.rawTotal + bytes.length,
                 writes := s.writes ++ [⟨path, contentType, bytes⟩] } lines s') :
      Delivered r s (line :: lines) s'

namespace ExportReader

variable {r : ExportReader} {s s' : Progress} {line bytes buffer : List UInt8}

/-- More bytes than the limit on one encoded frame. -/
def TooLong (r : ExportReader) (n : Nat) : Prop := min n (2 ^ 64 - 1) > r.maxEncodedFrameBytes

theorem exceeds_iff {carried chunk : Nat} : r.Exceeds carried chunk ↔ r.TooLong (carried + chunk) :=
  Iff.rfl

theorem TooLong.mono {n k : Nat} (h : r.TooLong n) (hle : n ≤ k) : r.TooLong k := by
  unfold TooLong at *
  omega

theorem not_tooLong_zero : ¬ r.TooLong 0 := by
  unfold TooLong
  omega

/-- The body is data frames and then one `complete` frame, each within the limit. -/
def WellFormedStream (r : ExportReader) (bytes : List UInt8) (exportedCount : Nat) : Prop :=
  ∃ frames last s, bytes = Lines.join newline (frames ++ [last]) ∧
    (∀ line ∈ frames ++ [last], newline ∉ line ∧ ¬ r.TooLong (line.length + 1)) ∧
    Delivered r {} frames s ∧ last ≠ [] ∧ r.fromSlice last = some (.complete exportedCount)

/-- The reader's answer and writes do not depend on how the body is split, and it returns a count
    exactly for the well-formed bodies. -/
structure ChunkIndependent (r : ExportReader) (bytes : List UInt8) : Prop where
  same : ∀ chunks chunks' : List (List UInt8), chunks.flatten = bytes → chunks'.flatten = bytes →
    r.readExportFrames (chunks.map some) = r.readExportFrames (chunks'.map some)
  returns_iff : ∀ chunks : List (List UInt8), chunks.flatten = bytes → ∀ exportedCount,
    (∃ writes, r.readExportFrames (chunks.map some) = .ok (⟨exportedCount⟩, writes)) ↔
      r.WellFormedStream bytes exportedCount

/-- The first frame is over the limit: its line, or all there is if no line ends. -/
def OverLong (r : ExportReader) (bytes : List UInt8) : Prop :=
  (newline ∉ bytes ∧ r.TooLong bytes.length) ∨
    ∃ line rest, newline ∉ line ∧ bytes = line ++ newline :: rest ∧ r.TooLong (line.length + 1)

/-- A frame over the limit comes first, or right after a `complete` frame. -/
def LeadsOverLong (r : ExportReader) (bytes : List UInt8) : Prop :=
  r.OverLong bytes ∨
    ∃ line tail exportedCount, newline ∉ line ∧ line ≠ [] ∧ bytes = line ++ newline :: tail ∧
      r.fromSlice line = some (.complete exportedCount) ∧ r.OverLong tail

/-! ## One frame -/

section Frame

theorem handleLine_ok :
    r.handleLine s line = .ok s' ↔ s.completion = none ∧ line ≠ [] ∧
      ((∃ path contentType data bytes, r.fromSlice line = some (.data path contentType data) ∧
          safeExportPath path = true ∧ Base64Url.decode data.toList = some bytes ∧
          Base64Url.encode bytes = data.toList ∧ bytes.length ≤ r.maxFrameBytes ∧
          saturatingAdd s.rawTotal bytes.length ≤ r.maxExportBytes ∧
          r.sink s.writes ⟨path, contentType, bytes⟩ = .ok () ∧
          s' = { s with rawTotal := s.rawTotal + bytes.length,
                        writes := s.writes ++ [⟨path, contentType, bytes⟩] }) ∨
        ∃ exportedCount, r.fromSlice line = some (.complete exportedCount) ∧
          s' = { s with completion := some exportedCount }) := by
  have hopen : ∀ o : Option Nat, ¬ o.isSome = true ↔ o = none := by
    intro o
    cases o <;> simp
  unfold handleLine
  rw [refuse_bind_ok, bind_ok]
  simp only [okOr_ok]
  constructor
  · rintro ⟨hne, frame, hframe, h⟩
    cases frame with
    | data path contentType data =>
      obtain ⟨hchecked, h⟩ := refuse_bind_ok.mp h
      obtain ⟨bytes, hdecode, h⟩ := bind_ok.mp h
      obtain ⟨hlimits, h⟩ := refuse_bind_ok.mp h
      obtain ⟨u, hsink, h⟩ := bind_ok.mp h
      rw [not_or, hopen, Bool.not_eq_false] at hchecked
      rw [not_or, not_or, not_lt, not_not, not_lt] at hlimits
      exact ⟨hchecked.1, hne, .inl ⟨path, contentType, data, bytes, hframe, hchecked.2,
        okOr_ok.mp hdecode, hlimits.2.1, hlimits.1, hlimits.2.2, mapError_ok.mp hsink,
        (pure_ok.mp h).symm⟩⟩
    | complete exportedCount =>
      obtain ⟨hchecked, h⟩ := refuse_bind_ok.mp h
      exact ⟨(hopen _).mp hchecked, hne, .inr ⟨exportedCount, hframe, (pure_ok.mp h).symm⟩⟩
    | error code => cases h
  · rintro ⟨hnone, hne, ⟨path, contentType, data, bytes, hframe, hpath, hdecode, hencode, hsize,
      htotal, hsink, hs⟩ | ⟨exportedCount, hframe, hs⟩⟩
    · refine ⟨hne, _, hframe, refuse_bind_ok.mpr ⟨?_, bind_ok.mpr ⟨bytes, okOr_ok.mpr hdecode,
        refuse_bind_ok.mpr ⟨?_, bind_ok.mpr ⟨(), mapError_ok.mpr hsink, pure_ok.mpr hs.symm⟩⟩⟩⟩⟩
      · rw [not_or, hopen, Bool.not_eq_false]
        exact ⟨hnone, hpath⟩
      · rw [not_or, not_or, not_lt, not_not, not_lt]
        exact ⟨hsize, hencode, htotal⟩
    · exact ⟨hne, _, hframe, refuse_bind_ok.mpr ⟨(hopen _).mpr hnone, pure_ok.mpr hs.symm⟩⟩

/-- A frame never counts as too large for the chunk, and throws with the writes it has seen. -/
theorem handleLine_error {e : ConnectorError} {writes : List Write}
    (h : r.handleLine s line = .error (e, writes)) :
    s.writes <+: writes ∧ (e = frameTooLarge → writes ≠ []) := by
  have hcode : ∀ code : String, code ≠ "ADAPTER_EXPORT_FRAME_TOO_LARGE" →
      invalidResponse code s = (e, writes) →
      s.writes <+: writes ∧ (e = frameTooLarge → writes ≠ []) := by
    intro code hne heq
    obtain ⟨rfl, rfl⟩ := Prod.mk.inj heq
    refine ⟨List.prefix_rfl, fun hlarge => absurd ?_ hne⟩
    exact congrArg ConnectorError.code hlarge
  unfold handleLine at h
  rcases refuse_bind_error.mp h with ⟨-, heq⟩ | ⟨-, h⟩
  · exact hcode _ (by decide) heq
  rcases bind_error.mp h with herror | ⟨frame, -, h⟩
  · exact hcode _ (by decide) (okOr_error.mp herror).2
  cases frame with
  | data path contentType data =>
    rcases refuse_bind_error.mp h with ⟨-, heq⟩ | ⟨-, h⟩
    · exact hcode _ (by decide) heq
    rcases bind_error.mp h with herror | ⟨bytes, -, h⟩
    · exact hcode _ (by decide) (okOr_error.mp herror).2
    rcases refuse_bind_error.mp h with ⟨-, heq⟩ | ⟨-, h⟩
    · exact hcode _ (by decide) heq
    rcases bind_error.mp h with herror | ⟨u, -, h⟩
    · obtain ⟨d, -, heq⟩ := mapError_error.mp herror
      obtain ⟨-, rfl⟩ := Prod.mk.inj heq
      exact ⟨List.prefix_append _ _, fun _ => by simp⟩
    · cases h
  | complete exportedCount =>
    rcases refuse_bind_error.mp h with ⟨-, heq⟩ | ⟨-, h⟩
    · exact hcode _ (by decide) heq
    · cases h
  | error code =>
    obtain ⟨rfl, rfl⟩ := Prod.mk.inj (Except.error.inj h)
    exact ⟨List.prefix_rfl, fun hlarge => by cases hlarge⟩

theorem handleLine_writes (h : r.handleLine s line = .ok s') : s.writes <+: s'.writes := by
  obtain ⟨-, -, ⟨_, _, _, _, -, -, -, -, -, -, -, rfl⟩ | ⟨_, -, rfl⟩⟩ := handleLine_ok.mp h
  · exact List.prefix_append _ _
  · exact List.prefix_rfl

end Frame

/-! ## All lines of a text -/

section Lines

variable {lines : List (List UInt8)}

theorem delivered_completion (h : Delivered r s lines s') : s'.completion = s.completion := by
  induction h with
  | nil s => rfl
  | cons _ _ _ _ _ _ _ _ _ ih => exact ih

/-- Lines that are all read are data frames, and maybe one `complete` frame after them. -/
theorem foldlM_handleLine (hopen : s.completion = none)
    (h : lines.foldlM r.handleLine s = .ok s') :
    (Delivered r s lines s') ∨
      ∃ frames last s₁ exportedCount, lines = frames ++ [last] ∧ Delivered r s frames s₁ ∧
        last ≠ [] ∧ r.fromSlice last = some (.complete exportedCount) ∧
        s' = { s₁ with completion := some exportedCount } := by
  induction lines generalizing s with
  | nil =>
    obtain rfl : s = s' := Except.ok.inj h
    exact .inl (.nil s)
  | cons line lines ih =>
    rw [List.foldlM_cons] at h
    obtain ⟨s₁, hline, hrest⟩ := bind_ok.mp h
    obtain ⟨-, hne, ⟨path, contentType, data, bytes, hframe, hpath, hdecode, hencode, hsize,
      htotal, hsink, rfl⟩ | ⟨exportedCount, hframe, rfl⟩⟩ := handleLine_ok.mp hline
    · have hcons : ∀ {ls : List (List UInt8)} {t : Progress}, Delivered r _ ls t →
          Delivered r s (line :: ls) t :=
        fun hd => .cons hne hframe hpath hdecode hencode hsize htotal hsink hd
      rcases ih (by exact hopen) hrest with hd | ⟨frames, last, s₂, n, rfl, hd, hlast⟩
      · exact .inl (hcons hd)
      · exact .inr ⟨line :: frames, last, s₂, n, rfl, hcons hd, hlast⟩
    · cases lines with
      | nil =>
        obtain rfl := Except.ok.inj hrest
        exact .inr ⟨[], line, s, exportedCount, rfl, .nil s, hne, hframe, rfl⟩
      | cons line' lines =>
        rw [List.foldlM_cons] at hrest
        obtain ⟨s₂, hline', -⟩ := bind_ok.mp hrest
        exact absurd (handleLine_ok.mp hline').1 (by simp)

theorem foldlM_of_delivered (h : Delivered r s lines s') (hopen : s.completion = none) :
    lines.foldlM r.handleLine s = .ok s' := by
  induction h with
  | nil s => rfl
  | cons hne hframe hpath hdecode hencode hsize htotal hsink _ ih =>
    rw [List.foldlM_cons, handleLine_ok.mpr ⟨hopen, hne, .inl ⟨_, _, _, _, hframe, hpath, hdecode,
      hencode, hsize, htotal, hsink, rfl⟩⟩]
    exact ih hopen

/-- The whole body, read as one text. -/
def readWhole (r : ExportReader) (bytes : List UInt8) : Reading (ExportResult × List Write) := do
  let s ← (Lines.split newline bytes).1.foldlM r.handleLine {}
  finish s (Lines.split newline bytes).2

theorem finish_ok {n : Nat} {writes : List Write} :
    finish s buffer = .ok (⟨n⟩, writes) ↔
      buffer = [] ∧ s.completion = some n ∧ s.writes = writes := by
  unfold finish
  rw [refuse_bind_ok, not_not, bind_ok]
  simp

theorem readWhole_ok_iff (hfits : ¬ r.TooLong bytes.length) {n : Nat} :
    (∃ writes, r.readWhole bytes = .ok (⟨n⟩, writes)) ↔ r.WellFormedStream bytes n := by
  constructor
  · rintro ⟨writes, h⟩
    obtain ⟨s, hlines, hfinish⟩ := bind_ok.mp h
    obtain ⟨hrest, hcompletion, -⟩ := finish_ok.mp hfinish
    have hjoin := Lines.join_split newline bytes
    have hfree := (Lines.notMem_split newline bytes).1
    rw [hrest, List.append_nil] at hjoin
    rcases foldlM_handleLine rfl hlines with hd | ⟨frames, last, s₁, m, heq, hd, hne, hlast, rfl⟩
    · rw [delivered_completion hd] at hcompletion
      cases hcompletion
    · obtain rfl : m = n := Option.some.inj hcompletion
      rw [heq] at hjoin hfree
      refine ⟨frames, last, s₁, hjoin.symm, fun line hline => ⟨hfree line hline, fun hlong => ?_⟩,
        hd, hne, hlast⟩
      refine hfits (hlong.mono ?_)
      rw [← hjoin, Lines.join, List.length_flatMap]
      have hle := List.single_le_sum (fun x _ => Nat.zero_le x) _
        (List.mem_map_of_mem (f := fun l : List UInt8 => (l ++ [newline]).length) hline)
      simpa using hle
  · rintro ⟨frames, last, s, rfl, hlines, hd, hne, hlast⟩
    have hfree : ∀ line ∈ frames ++ [last], newline ∉ line := fun line hline => (hlines line hline).1
    have hsplit := Lines.split_join hfree []
    rw [List.append_nil] at hsplit
    have hopen : s.completion = none := delivered_completion hd
    refine ⟨s.writes, ?_⟩
    unfold readWhole
    rw [hsplit]
    refine bind_ok.mpr ⟨{ s with completion := some n }, ?_, finish_ok.mpr ⟨rfl, rfl, rfl⟩⟩
    show ((frames ++ [last]) ++ []).foldlM r.handleLine {} = _
    rw [List.append_nil, List.foldlM_append, foldlM_of_delivered hd rfl]
    show [last].foldlM r.handleLine s = _
    rw [List.foldlM_cons, handleLine_ok.mpr ⟨hopen, hne, .inr ⟨n, hlast, rfl⟩⟩]
    rfl

end Lines

/-! ## Chunks -/

section Chunks

variable {chunks : List (List UInt8)}

/-- Where no carried bytes with the rest of the body reach the limit, the body is read as one. -/
theorem readChunks_of_fits (hfree : newline ∉ buffer)
    (hfits : ¬ r.TooLong (buffer.length + chunks.flatten.length)) :
    r.readChunks s buffer (chunks.map some) = (do
      let s ← (Lines.split newline (buffer ++ chunks.flatten)).1.foldlM r.handleLine s
      return (s, (Lines.split newline (buffer ++ chunks.flatten)).2)) := by
  induction chunks generalizing s buffer with
  | nil =>
    rw [List.flatten_nil, List.append_nil, Lines.split_of_notMem hfree]
    rfl
  | cons chunk chunks ih =>
    rw [List.flatten_cons, List.length_append] at hfits
    have hchunk : ¬ r.Exceeds buffer.length chunk.length := by
      intro hlong
      exact hfits ((exceeds_iff.mp hlong).mono (by omega))
    have hrest := Lines.notMem_split newline (buffer ++ chunk)
    have hlength : (Lines.split newline (buffer ++ chunk)).2.length ≤ buffer.length + chunk.length := by
      have hjoin := congrArg List.length (Lines.join_split newline (buffer ++ chunk))
      rw [List.length_append, List.length_append] at hjoin
      omega
    have hsplit := Lines.split_append newline (buffer ++ chunk) chunks.flatten
    rw [List.append_assoc, ← List.flatten_cons] at hsplit
    rw [hsplit, List.foldlM_append, List.map_cons, readChunks, refuse, if_neg hchunk]
    show (do
      let s ← (Lines.split newline (buffer ++ chunk)).1.foldlM r.handleLine s
      r.readChunks s (Lines.split newline (buffer ++ chunk)).2 (chunks.map some)) = _
    rw [bind_assoc]
    refine bind_congr fun s' => ih hrest.2 fun hlong => hfits (hlong.mono (by omega))

theorem readExportFrames_of_fits (hfits : ¬ r.TooLong chunks.flatten.length) :
    r.readExportFrames (chunks.map some) = r.readWhole chunks.flatten := by
  unfold readExportFrames readWhole
  rw [readChunks_of_fits List.not_mem_nil (by simpa using hfits), List.nil_append, bind_assoc]
  rfl

/-- The first frame of a text that is over the limit does not end within it. -/
theorem OverLong.notMem {xs ys : List UInt8} (h : r.OverLong (xs ++ ys))
    (hfits : ¬ r.TooLong xs.length) : newline ∉ xs := by
  intro hmem
  rcases Lines.notMem_or_line newline xs with hfree | ⟨line, rest, hline, rfl⟩
  · exact hfree hmem
  rcases h with ⟨hfree, -⟩ | ⟨line', rest', hline', heq, hlong⟩
  · exact hfree (List.mem_append_left _ hmem)
  · have hsame := congrArg (fun t => (Lines.split newline t).1.head?) heq
    simp only [List.append_assoc, List.cons_append, Lines.split_line hline,
      Lines.split_line hline', List.head?_cons, Option.some.injEq] at hsame
    rw [← hsame] at hlong
    refine hfits (hlong.mono ?_)
    rw [List.length_append, List.length_cons]
    omega

theorem readChunks_cons_of_notMem {chunk : List UInt8}
    (hfits : ¬ r.Exceeds buffer.length chunk.length) (hfree : newline ∉ buffer ++ chunk) :
    r.readChunks s buffer ((chunk :: chunks).map some) =
      r.readChunks s (buffer ++ chunk) (chunks.map some) := by
  rw [List.map_cons, readChunks, refuse, if_neg hfits, Lines.split_of_notMem hfree]
  rfl

theorem readChunks_cons_of_exceeds {chunk : List UInt8}
    (hlong : r.Exceeds buffer.length chunk.length) :
    r.readChunks s buffer ((chunk :: chunks).map some) = .error (frameTooLarge, s.writes) := by
  rw [List.map_cons, readChunks, refuse, if_pos hlong]
  rfl

/-- A chunk that ends a line and holds nothing else. -/
theorem readChunks_cons_line {rest : List UInt8}
    (hfits : ¬ r.TooLong (buffer.length + rest.length + 1)) (hfree : newline ∉ buffer ++ rest) :
    r.readChunks s buffer (((rest ++ [newline]) :: chunks).map some) =
      r.handleLine s (buffer ++ rest) >>= fun s' => r.readChunks s' [] (chunks.map some) := by
  have hchunk : ¬ r.Exceeds buffer.length (rest ++ [newline]).length := by
    rw [exceeds_iff, List.length_append, List.length_singleton, ← Nat.add_assoc]
    exact hfits
  rw [List.map_cons, readChunks, refuse, if_neg hchunk, ← List.append_assoc,
    Lines.split_line hfree []]
  show ([buffer ++ rest].foldlM r.handleLine s >>= fun s' =>
    r.readChunks s' [] (chunks.map some)) = _
  rw [List.foldlM_cons, bind_assoc]
  rfl

/-- Lines that arrive in one chunk each. -/
theorem readChunks_of_lines {lines : List (List UInt8)}
    (h : ∀ line ∈ lines, newline ∉ line ∧ ¬ r.TooLong (line.length + 1)) :
    r.readChunks s [] ((lines.map (· ++ [newline])).map some) = (do
      let s' ← lines.foldlM r.handleLine s
      return (s', [])) := by
  induction lines generalizing s with
  | nil => rfl
  | cons line lines ih =>
    obtain ⟨hfree, hfits⟩ := h line List.mem_cons_self
    have hrest := fun l hl => h l (List.mem_cons_of_mem line hl)
    rw [List.map_cons, readChunks_cons_line (by simpa using hfits) (by simpa using hfree),
      List.foldlM_cons, bind_assoc, List.nil_append]
    exact bind_congr fun s' => ih hrest

/-- Every split of a frame over the limit is refused when it reaches the limit. -/
theorem readChunks_of_overLong (hfits : ¬ r.TooLong buffer.length)
    (h : r.OverLong (buffer ++ chunks.flatten)) :
    r.readChunks s buffer (chunks.map some) = .error (frameTooLarge, s.writes) := by
  induction chunks generalizing buffer with
  | nil =>
    have hfree := h.notMem hfits
    rw [List.flatten_nil, List.append_nil] at h
    rcases h with ⟨-, hlong⟩ | ⟨line, rest, -, rfl, -⟩
    · exact absurd hlong hfits
    · exact absurd (List.mem_append_right _ List.mem_cons_self) hfree
  | cons chunk chunks ih =>
    by_cases hlong : r.Exceeds buffer.length chunk.length
    · exact readChunks_cons_of_exceeds hlong
    · have hfits' : ¬ r.TooLong (buffer ++ chunk).length := by
        rw [List.length_append]
        exact hlong
      rw [List.flatten_cons, ← List.append_assoc] at h
      rw [readChunks_cons_of_notMem hlong (h.notMem hfits')]
      exact ih hfits' h

theorem handleLine_complete (hopen : s.completion = none) (hne : line ≠ []) {n : Nat}
    (hframe : r.fromSlice line = some (.complete n)) :
    r.handleLine s line = .ok { s with completion := some n } :=
  handleLine_ok.mpr ⟨hopen, hne, .inr ⟨n, hframe, rfl⟩⟩

/-- So is every split of a `complete` frame with such a frame after it. -/
theorem readChunks_of_complete {tail : List UInt8} {n : Nat} (hbuffer : newline ∉ buffer)
    (hopen : s.completion = none) (hline : newline ∉ line) (hne : line ≠ [])
    (hframe : r.fromSlice line = some (.complete n)) (hlong : r.OverLong tail)
    (h : buffer ++ chunks.flatten = line ++ newline :: tail) :
    r.readChunks s buffer (chunks.map some) = .error (frameTooLarge, s.writes) := by
  induction chunks generalizing buffer with
  | nil =>
    rw [List.flatten_nil, List.append_nil] at h
    rw [h] at hbuffer
    exact absurd (List.mem_append_right _ List.mem_cons_self) hbuffer
  | cons chunk chunks ih =>
    by_cases hexceeds : r.Exceeds buffer.length chunk.length
    · exact readChunks_cons_of_exceeds hexceeds
    rw [List.flatten_cons, ← List.append_assoc] at h
    rcases Lines.notMem_or_line newline (buffer ++ chunk) with hfree | ⟨first, rest, hfirst, heq⟩
    · rw [readChunks_cons_of_notMem hexceeds hfree]
      exact ih hfree h
    · rw [heq, List.append_assoc, List.cons_append] at h
      have hsplit := congrArg (Lines.split newline) h
      rw [Lines.split_line hfirst, Lines.split_line hline, Prod.mk.injEq, List.cons.injEq] at hsplit
      obtain rfl : first = line := hsplit.1.1
      obtain rfl : rest ++ chunks.flatten = tail := by simpa using h
      have hfits : ¬ r.TooLong rest.length := by
        intro hrest
        have hlength := congrArg List.length heq
        rw [List.length_append, List.length_append, List.length_cons] at hlength
        exact hexceeds (exceeds_iff.mpr (hrest.mono (by omega)))
      rw [List.map_cons, readChunks, refuse, if_neg hexceeds, heq, Lines.split_line hfirst,
        Lines.split_of_notMem (hlong.notMem hfits)]
      show (do
        let s ← [first].foldlM r.handleLine s
        r.readChunks s rest (chunks.map some)) = _
      rw [List.foldlM_cons, handleLine_complete hopen hne hframe]
      exact readChunks_of_overLong hfits hlong

theorem readExportFrames_of_leadsOverLong (h : r.LeadsOverLong chunks.flatten) :
    r.readExportFrames (chunks.map some) = .error (frameTooLarge, []) := by
  have hread : r.readChunks {} [] (chunks.map some) = .error (frameTooLarge, []) := by
    rcases h with hlong | ⟨line, tail, n, hline, hne, heq, hframe, hlong⟩
    · exact readChunks_of_overLong not_tooLong_zero hlong
    · exact readChunks_of_complete List.not_mem_nil rfl hline hne hframe hlong heq
  unfold readExportFrames
  rw [hread]
  rfl

end Chunks

/-! ## The writes of a run -/

section Writes

theorem finish_error {x : ConnectorError × List Write} (h : finish s buffer = .error x) :
    x.1 ≠ frameTooLarge ∧ x.2 = s.writes := by
  unfold finish at h
  rcases refuse_bind_error.mp h with ⟨-, rfl⟩ | ⟨-, h⟩
  · refine ⟨?_, rfl⟩
    show ConnectorError.invalidResponse "ADAPTER_EXPORT_FRAME_INCOMPLETE" ≠ frameTooLarge
    decide
  rcases bind_error.mp h with herror | ⟨n, -, h⟩
  · rw [← (okOr_error.mp herror).2]
    refine ⟨?_, rfl⟩
    show ConnectorError.invalidResponse "ADAPTER_EXPORT_COMPLETION_MISSING" ≠ frameTooLarge
    decide
  · cases h

theorem foldlM_writes {lines : List (List UInt8)} :
    (∀ {s'}, lines.foldlM r.handleLine s = .ok s' → s.writes <+: s'.writes) ∧
      ∀ {x}, lines.foldlM r.handleLine s = .error x → s.writes <+: x.2 := by
  induction lines generalizing s with
  | nil => exact ⟨fun h => by rw [Except.ok.inj h], nofun⟩
  | cons line lines ih =>
    rw [List.foldlM_cons]
    constructor
    · intro s' h
      obtain ⟨s₁, hline, hrest⟩ := bind_ok.mp h
      exact (handleLine_writes hline).trans (ih.1 hrest)
    · intro x h
      rcases bind_error.mp h with hline | ⟨s₁, hline, hrest⟩
      · exact (handleLine_error hline).1
      · exact (handleLine_writes hline).trans (ih.2 hrest)

/-- What is thrown comes with at least the writes that were performed before. -/
theorem readRest_writes {chunks : List (Option (List UInt8))} {x : ConnectorError × List Write}
    (h : (r.readChunks s buffer chunks >>= fun p => finish p.1 p.2) = .error x) :
    s.writes <+: x.2 := by
  induction chunks generalizing s buffer with
  | nil =>
    rw [(finish_error h).2]
  | cons chunk chunks ih =>
    cases chunk with
    | none =>
      obtain rfl := Except.error.inj h
      exact List.prefix_rfl
    | some chunk =>
      rw [readChunks, bind_assoc] at h
      rcases refuse_bind_error.mp h with ⟨-, rfl⟩ | ⟨-, h⟩
      · exact List.prefix_rfl
      rw [bind_assoc] at h
      rcases bind_error.mp h with hlines | ⟨s₁, hlines, h⟩
      · exact foldlM_writes.2 hlines
      · exact (foldlM_writes.1 hlines).trans (ih h)

/-- Bytes without a newline are part of the first line. -/
theorem length_le_line {rest rest' : List UInt8} (hbuffer : newline ∉ buffer)
    (h : buffer ++ rest = line ++ newline :: rest') : buffer.length ≤ line.length := by
  rcases List.append_eq_append_iff.mp h with ⟨more, rfl, -⟩ | ⟨more, rfl, hmore⟩
  · rw [List.length_append]
    omega
  · cases more with
    | nil => simp
    | cons x more =>
      obtain ⟨rfl, -⟩ := List.cons.inj hmore
      exact absurd (List.mem_append_right _ List.mem_cons_self) hbuffer

/-- Read byte by byte, a body is refused before the first write only where a frame over the limit
    leads it. -/
theorem leadsOverLong_of_bytes {bytes : List UInt8} (hbuffer : newline ∉ buffer)
    (hwrites : s.writes = [])
    (h : (r.readChunks s buffer ((bytes.map fun b => [b]).map some) >>=
      fun p => finish p.1 p.2) = .error (frameTooLarge, [])) :
    (s.completion = none → r.LeadsOverLong (buffer ++ bytes)) ∧
      (s.completion ≠ none → r.OverLong (buffer ++ bytes)) := by
  induction bytes generalizing s buffer with
  | nil => exact absurd rfl (finish_error h).1
  | cons b bytes ih =>
    have hassoc : buffer ++ b :: bytes = (buffer ++ [b]) ++ bytes := by simp
    by_cases hexceeds : r.Exceeds buffer.length 1
    · have hlong : r.OverLong (buffer ++ b :: bytes) := by
        rcases Lines.notMem_or_line newline (buffer ++ b :: bytes) with hfree | ⟨line, rest, hline, heq⟩
        · refine .inl ⟨hfree, (exceeds_iff.mp hexceeds).mono ?_⟩
          rw [List.length_append, List.length_cons]
          omega
        · have hle := length_le_line hbuffer heq
          exact .inr ⟨line, rest, hline, heq, (exceeds_iff.mp hexceeds).mono (by omega)⟩
      exact ⟨fun _ => .inl hlong, fun _ => hlong⟩
    rw [List.map_cons] at h
    by_cases hb : b = newline
    · subst hb
      have hstep : r.readChunks s buffer ((([] ++ [newline]) :: bytes.map fun b => [b]).map some) =
          r.handleLine s (buffer ++ []) >>= fun s' =>
            r.readChunks s' [] ((bytes.map fun b => [b]).map some) :=
        readChunks_cons_line hexceeds (by simpa using hbuffer)
      rw [List.nil_append] at hstep
      rw [hstep, List.append_nil, bind_assoc] at h
      rcases bind_error.mp h with hline | ⟨s₁, hline, hrest⟩
      · exact absurd rfl ((handleLine_error hline).2 rfl)
      obtain ⟨hopen, hne, ⟨path, contentType, data, decoded, -, -, -, -, -, -, -, rfl⟩ |
        ⟨n, hframe, rfl⟩⟩ := handleLine_ok.mp hline
      · have hshorter := readRest_writes hrest
        simp at hshorter
      · have hlong := (ih List.not_mem_nil (by exact hwrites) hrest).2 nofun
        exact ⟨fun _ => .inr ⟨buffer, bytes, n, hbuffer, hne, rfl, hframe, hlong⟩,
          fun hclosed => absurd hopen hclosed⟩
    · have hfree : newline ∉ buffer ++ [b] := by
        rw [List.mem_append, List.mem_singleton, not_or]
        exact ⟨hbuffer, Ne.symm hb⟩
      rw [readChunks_cons_of_notMem hexceeds hfree] at h
      rw [hassoc]
      exact ih hfree hwrites h

end Writes

/-- Well-formed bodies have no frame over the limit. -/
theorem WellFormedStream.not_leadsOverLong {n : Nat} (h : r.WellFormedStream bytes n) :
    ¬ r.LeadsOverLong bytes := by
  obtain ⟨frames, last, -, rfl, hlines, -, -, -⟩ := h
  have hno : ∀ lines : List (List UInt8),
      (∀ line ∈ lines, newline ∉ line ∧ ¬ r.TooLong (line.length + 1)) →
      ¬ r.OverLong (Lines.join newline lines) := by
    intro lines hlines hlong
    cases lines with
    | nil =>
      rcases hlong with ⟨-, hlong⟩ | ⟨line, rest, -, heq, -⟩
      · exact not_tooLong_zero hlong
      · simp at heq
    | cons line lines =>
      obtain ⟨hline, hfits⟩ := hlines line List.mem_cons_self
      rw [Lines.join_cons] at hlong
      rcases hlong with ⟨hfree, -⟩ | ⟨line', rest, hline', heq, hlong⟩
      · exact hfree (List.mem_append_right _ List.mem_cons_self)
      · have hsplit := congrArg (Lines.split newline) heq
        rw [Lines.split_line hline, Lines.split_line hline', Prod.mk.injEq, List.cons.injEq]
          at hsplit
        rw [hsplit.1.1] at hfits
        exact hfits hlong
  rintro (hlong | ⟨line, tail, m, hline, -, heq, -, hlong⟩)
  · exact hno _ hlines hlong
  · cases hframes : frames ++ [last] with
    | nil => simp at hframes
    | cons first rest =>
      rw [hframes] at hlines heq
      rw [Lines.join_cons] at heq
      have hsplit := congrArg (Lines.split newline) heq
      rw [Lines.split_line (hlines first List.mem_cons_self).1, Lines.split_line hline,
        Prod.mk.injEq, List.cons.injEq] at hsplit
      rw [hsplit.1.1] at heq
      have htail : Lines.join newline rest = tail := by simpa using heq
      rw [← htail] at hlong
      exact hno _ (fun l hl => hlines l (List.mem_cons_of_mem _ hl)) hlong

/-- The split does not matter exactly for the bodies that fit into one chunk, and for those that
    every split refuses at their start. -/
theorem chunkIndependent_iff (r : ExportReader) (bytes : List UInt8) :
    r.ChunkIndependent bytes ↔ ¬ r.TooLong bytes.length ∨ r.LeadsOverLong bytes := by
  constructor
  · intro h
    by_contra hno
    rw [not_or, not_not] at hno
    obtain ⟨hlong, hleads⟩ := hno
    have hone : r.readExportFrames ([bytes].map some) = .error (frameTooLarge, []) := by
      unfold readExportFrames
      rw [readChunks_cons_of_exceeds (exceeds_iff.mpr (by simpa using hlong))]
      rfl
    have hflatten : (bytes.map fun b => [b]).flatten = bytes := by
      rw [← List.flatMap_def]
      exact List.flatMap_singleton' bytes
    have hbytes := h.same [bytes] (bytes.map fun b => [b]) (by simp) hflatten
    rw [hone] at hbytes
    exact hleads ((leadsOverLong_of_bytes (s := {}) List.not_mem_nil rfl hbytes.symm).1 rfl)
  · rintro (hfits | hleads)
    · have hread : ∀ chunks : List (List UInt8), chunks.flatten = bytes →
          r.readExportFrames (chunks.map some) = r.readWhole bytes := by
        rintro chunks rfl
        exact readExportFrames_of_fits hfits
      refine ⟨fun chunks chunks' h h' => (hread _ h).trans (hread _ h').symm, ?_⟩
      intro chunks h n
      rw [hread chunks h]
      exact readWhole_ok_iff hfits
    · have hread : ∀ chunks : List (List UInt8), chunks.flatten = bytes →
          r.readExportFrames (chunks.map some) = .error (frameTooLarge, []) := by
        rintro chunks rfl
        exact readExportFrames_of_leadsOverLong hleads
      refine ⟨fun chunks chunks' h h' => (hread _ h).trans (hread _ h').symm, ?_⟩
      intro chunks h n
      rw [hread chunks h]
      constructor
      · rintro ⟨writes, hok⟩
        cases hok
      · intro hwell
        exact absurd hleads hwell.not_leadsOverLong

end ExportReader

/-! ## A body in two splits -/

/-- The bytes of a text without other characters than ASCII. -/
def ascii (text : String) : List UInt8 := text.toList.map fun c => UInt8.ofNat c.toNat

/-- A data frame of no bytes, with a content type of 600 characters. -/
def longFrame : List UInt8 :=
  ascii "\x7b\"type\":\"data\",\"path\":\"a\",\"contentType\":\"" ++ List.replicate 600 0x78 ++
    ascii "\",\"data\":\"\"\x7d"

def lastFrame : List UInt8 := ascii "\x7b\"type\":\"complete\",\"exportedCount\":2\x7d"

def longType : String := String.ofList (List.replicate 600 'x')

/-- What the two frames deserialize to. -/
def smallFromSlice (line : List UInt8) : Option ExportFrame :=
  if line = longFrame then some (.data "a" longType "")
  else if line = lastFrame then some (.complete 2)
  else none

/-- A reader with frames of at most one byte, so of at most 1026 encoded bytes. -/
def smallReader : ExportReader where
  fromSlice := smallFromSlice
  sink _ _ := .ok ()
  maxFrameBytes := 1
  maxExportBytes := 1

theorem smallReader_fromSlice : smallReader.fromSlice = smallFromSlice := rfl

/-- Two long frames and the last one, 1346 bytes with their newlines. -/
def twoFrames : List (List UInt8) := [longFrame, longFrame, lastFrame]

def longWrite : Write := ⟨"a", longType, []⟩

theorem longFrame_length : longFrame.length = 653 := by
  have hfirst : (ascii "\x7b\"type\":\"data\",\"path\":\"a\",\"contentType\":\"").length = 41 := rfl
  have hlast : (ascii "\",\"data\":\"\"\x7d").length = 12 := rfl
  rw [longFrame, List.length_append, List.length_append, List.length_replicate, hfirst, hlast]

theorem newline_notMem_longFrame : newline ∉ longFrame := by
  have hfirst : newline ∉ ascii "\x7b\"type\":\"data\",\"path\":\"a\",\"contentType\":\"" := by decide
  have hlast : newline ∉ ascii "\",\"data\":\"\"\x7d" := by decide
  have hmiddle : newline ∉ List.replicate 600 0x78 := by
    intro hmem
    exact absurd (List.eq_of_mem_replicate hmem) (by decide)
  simp only [longFrame, List.mem_append, not_or]
  exact ⟨⟨hfirst, hmiddle⟩, hlast⟩

theorem twoFrames_fit :
    ∀ line ∈ twoFrames, newline ∉ line ∧ ¬ smallReader.TooLong (line.length + 1) := by
  have hlong : newline ∉ longFrame ∧ ¬ smallReader.TooLong (longFrame.length + 1) := by
    rw [longFrame_length]
    exact ⟨newline_notMem_longFrame, by unfold ExportReader.TooLong; decide⟩
  have hlast : newline ∉ lastFrame ∧ ¬ smallReader.TooLong (lastFrame.length + 1) :=
    ⟨by decide, by unfold ExportReader.TooLong; decide⟩
  simp [twoFrames, hlong, hlast]

theorem longFrame_ne : longFrame ≠ [] := by
  intro h
  have hlength := longFrame_length
  rw [h] at hlength
  cases hlength

theorem twoFrames_delivered :
    Delivered smallReader {} [longFrame, longFrame] { writes := [longWrite, longWrite] } := by
  have hframe : smallReader.fromSlice longFrame = some (.data "a" longType "") := by
    rw [smallReader_fromSlice, smallFromSlice, if_pos rfl]
  have hpath : safeExportPath "a" = true := by decide
  exact .cons longFrame_ne hframe hpath rfl rfl (by decide) (by decide) rfl
    (.cons longFrame_ne hframe hpath rfl rfl (by decide) (by decide) rfl (.nil _))

/-- Frame by frame the body is read, and in one chunk it is refused. -/
theorem chunkIndependent_fails_on_twoFrames :
    smallReader.readExportFrames ((twoFrames.map (· ++ [newline])).map some) =
        .ok (⟨2⟩, [longWrite, longWrite]) ∧
      smallReader.readExportFrames ([Lines.join newline twoFrames].map some) =
        .error (frameTooLarge, []) ∧
      ¬ smallReader.ChunkIndependent (Lines.join newline twoFrames) := by
  have hlast : smallReader.handleLine { writes := [longWrite, longWrite] } lastFrame =
      .ok { completion := some 2, writes := [longWrite, longWrite] } := by
    have hne : lastFrame ≠ longFrame := by
      intro h
      have hlength := congrArg List.length h
      rw [longFrame_length] at hlength
      cases hlength
    have hframe : smallReader.fromSlice lastFrame = some (.complete 2) := by
      rw [smallReader_fromSlice, smallFromSlice, if_neg hne, if_pos rfl]
    exact ExportReader.handleLine_complete rfl (by decide) hframe
  have hlines : twoFrames.foldlM smallReader.handleLine {} =
      .ok { completion := some 2, writes := [longWrite, longWrite] } := by
    show ([longFrame, longFrame] ++ [lastFrame]).foldlM smallReader.handleLine {} = _
    rw [List.foldlM_append, ExportReader.foldlM_of_delivered twoFrames_delivered rfl]
    show [lastFrame].foldlM smallReader.handleLine { writes := [longWrite, longWrite] } = _
    rw [List.foldlM_cons, hlast]
    rfl
  have hread : smallReader.readExportFrames ((twoFrames.map (· ++ [newline])).map some) =
      .ok (⟨2⟩, [longWrite, longWrite]) := by
    unfold ExportReader.readExportFrames
    rw [ExportReader.readChunks_of_lines twoFrames_fit, hlines]
    rfl
  have hone : smallReader.readExportFrames ([Lines.join newline twoFrames].map some) =
      .error (frameTooLarge, []) := by
    unfold ExportReader.readExportFrames
    rw [ExportReader.readChunks_cons_of_exceeds]
    · rfl
    · have hlength : (Lines.join newline twoFrames).length = 1346 := by
        have hlastLength : lastFrame.length = 37 := rfl
        simp [twoFrames, longFrame_length, hlastLength]
      rw [ExportReader.exceeds_iff, List.length_nil, hlength]
      unfold ExportReader.TooLong
      decide
  refine ⟨hread, hone, fun h => ?_⟩
  have hsame := h.same (twoFrames.map (· ++ [newline])) [Lines.join newline twoFrames]
    (by simp [Lines.join, List.flatMap_def]) (by simp)
  rw [hread, hone] at hsame
  cases hsame

end ForgetOps.AdapterHttp
