import ForgetOps.Agent.ExportChunking
import ForgetOps.Sdk.ExportWriter

/-
  Which completed exports of the adapter the connector reads as they were written.

  The writer counts a path in the units of UTF-16, the reader in bytes; and a sum of counts is
  printed with as few digits as it takes to read the same floating-point number. Everything else
  that the writer accepts is within the reader's bounds: `export_read_iff`.
-/

namespace ForgetOps.AdapterHttp

open Connector (ConnectorError saturatingAdd)
open AdapterSdk (ExportLimits Selected exportData dataFrame completeFrame)
open Guards Json

/-! ## Reading frames -/

/-- A frame, read by the name of its variant. -/
def asExportFrame : Json JsString → Option ExportFrame :=
  asObject fun members => do
    let variant ← required asText "type" members
    if variant = "data" then
      let path ← required asText "path" members
      let contentType ← required asText "contentType" members
      let data ← required asText "data" members
      return .data path contentType data
    else if variant = "complete" then
      let exportedCount ← required (asUnsigned 64) "exportedCount" members
      return .complete exportedCount
    else if variant = "error" then
      let code ← required asText "code" members
      return .error code
    else none

/-- The connector with the same limits, its JSON parser and its sink being arguments. -/
def adapterReader (l : ExportLimits) (parse : List UInt8 → Option (Json JsString))
    (sink : List Write → Write → Except ConnectorError Unit) : ExportReader where
  fromSlice := fun bytes => (parse bytes).bind asExportFrame
  sink := sink
  maxFrameBytes := l.maxFrameBytes
  maxExportBytes := l.maxExportBytes

theorem asExportFrame_dataFrame (write : Write) :
    asExportFrame (dataFrame write) = some (.data write.path write.contentType
      (String.ofList (Base64Url.encode write.bytes))) := by
  unfold asExportFrame dataFrame asObject
  dsimp only
  rw [required_of_named (v := AdapterSdk.text "data") (by simp),
    required_of_named (v := AdapterSdk.text write.path) (by simp),
    required_of_named (v := AdapterSdk.text write.contentType) (by simp),
    required_of_named (v := AdapterSdk.text (String.ofList (Base64Url.encode write.bytes)))
      (by simp)]
  simp only [asText_text, Option.bind_eq_bind, Option.bind_some, if_true, Option.pure_def]

theorem asExportFrame_complete (v : Json JsString) :
    asExportFrame (.object [("type", AdapterSdk.text "complete"), ("exportedCount", v)]) =
      (asUnsigned 64 v).bind fun exportedCount => some (.complete exportedCount) := by
  unfold asExportFrame asObject
  dsimp only
  rw [required_of_named (v := AdapterSdk.text "complete") (by simp), asText_text]
  simp only [Option.bind_eq_bind, Option.bind_some, String.reduceEq, if_true, if_false]
  rw [required_of_named (v := v) (by simp)]
  rfl

/-- The count is read with the digits that were printed. -/
theorem asExportFrame_completeFrame {n m : Nat} :
    asExportFrame (completeFrame n) = some (.complete m) ↔
      Binary64.decimal n < 2 ^ 64 ∧ Binary64.decimal n = m := by
  unfold completeFrame
  rw [asExportFrame_complete, Option.bind_eq_some_iff]
  simp only [asUnsigned_iff, Option.some.injEq, ExportFrame.complete.injEq]
  constructor
  · rintro ⟨k, ⟨hlt, rfl⟩, hk⟩
    exact ⟨hlt, hk⟩
  · rintro ⟨hlt, hm⟩
    exact ⟨_, ⟨hlt, rfl⟩, hm⟩

/-! ## Paths -/

/-- What the writer takes as a path, the reader takes where it is short enough in bytes. -/
theorem safeExportPath_iff {path : String} (h : AdapterSdk.validateExportPath path = true) :
    safeExportPath path = true ↔ path.utf8ByteSize ≤ 512 := by
  unfold AdapterSdk.validateExportPath at h
  unfold safeExportPath
  rw [decide_eq_true_eq] at h ⊢
  obtain ⟨hne, -, hrest⟩ := h
  exact ⟨fun hsafe => hsafe.2.1, fun hsize => ⟨hne, hsize, hrest⟩⟩

/-! ## Streams -/

section Stream

variable {l : ExportLimits} {parse : List UInt8 → Option (Json JsString)}
  {sink : List Write → Write → Except ConnectorError Unit} {writes : List Write} {s : Progress}

/-- The lines of calls whose paths are short enough are delivered. -/
theorem delivered_writes (hparse : ∀ write ∈ writes,
      parse (encode (dataFrame write)) = some (dataFrame write))
    (hsink : ∀ before write, sink before write = .ok ())
    (hfits : ∀ write ∈ writes, AdapterSdk.Fits l write)
    (hpaths : ∀ write ∈ writes, write.path.utf8ByteSize ≤ 512)
    (htotal : s.rawTotal + (writes.map (·.bytes.length)).sum ≤ l.maxExportBytes) :
    ∃ rawTotal, Delivered (adapterReader l parse sink) s
      (writes.map fun write => encode (dataFrame write))
      { s with rawTotal := rawTotal, writes := s.writes ++ writes } := by
  induction writes generalizing s with
  | nil =>
    refine ⟨s.rawTotal, ?_⟩
    rw [List.append_nil]
    exact .nil s
  | cons write writes ih =>
    rw [List.forall_mem_cons] at hparse hfits hpaths
    rw [List.map_cons, List.sum_cons] at htotal
    obtain ⟨rawTotal, hrest⟩ := ih (s := { s with
      rawTotal := s.rawTotal + write.bytes.length, writes := s.writes ++ [write] })
      hparse.2 hfits.2 hpaths.2 (by dsimp only; omega)
    refine ⟨rawTotal, ?_⟩
    rw [List.append_assoc, List.singleton_append] at hrest
    have hframe : (adapterReader l parse sink).fromSlice (encode (dataFrame write)) =
        some (.data write.path write.contentType (String.ofList (Base64Url.encode write.bytes))) := by
      show (parse (encode (dataFrame write))).bind asExportFrame = _
      rw [hparse.1, Option.bind_some, asExportFrame_dataFrame]
    have hdecode : Base64Url.decode (String.ofList (Base64Url.encode write.bytes)).toList =
        some write.bytes := by
      rw [String.toList_ofList, Base64Url.decode_encode]
    have hencode : Base64Url.encode write.bytes =
        (String.ofList (Base64Url.encode write.bytes)).toList := String.toList_ofList.symm
    have hraw : saturatingAdd s.rawTotal write.bytes.length ≤ l.maxExportBytes := by
      unfold saturatingAdd
      omega
    exact .cons (encode_object_ne_nil _) hframe ((safeExportPath_iff hfits.1.path).mpr hpaths.1)
      hdecode hencode hfits.1.frame hraw (hsink _ _) hrest

/-- No delivered line has a path that the reader refuses. -/
theorem Delivered.safe {r : ExportReader} {s s' : Progress} {lines : List (List UInt8)}
    (h : Delivered r s lines s') : ∀ line ∈ lines, ∃ path contentType data,
      r.fromSlice line = some (.data path contentType data) ∧ safeExportPath path = true := by
  induction h with
  | nil s => exact nofun
  | cons _ hframe hpath _ _ _ _ _ _ ih =>
    exact List.forall_mem_cons.mpr ⟨⟨_, _, _, hframe, hpath⟩, ih⟩

/-- A frame that the writer sends is within the reader's limit. -/
theorem not_tooLong {frame : Json JsString}
    (h : (AdapterSdk.line frame).length ≤ l.maxEncodedBytes) :
    ¬ (adapterReader l parse sink).TooLong ((encode frame).length + 1) := by
  have hlimit := AdapterSdk.maxEncodedBytes_le l
  have hsafe := l.safe.1
  have hlength : (AdapterSdk.line frame).length = (encode frame).length + 1 :=
    List.length_append
  unfold ExportReader.TooLong ExportReader.maxEncodedFrameBytes saturatingAdd
  show ¬ min ((encode frame).length + 1) (2 ^ 64 - 1) >
    min (min (l.maxFrameBytes * 2) (2 ^ 64 - 1) + 1024) (2 ^ 64 - 1)
  omega

/-- Frames that arrive in one chunk each are handled one after the other. -/
theorem readExportFrames_lines {frames : List (Json JsString)}
    (h : ∀ frame ∈ frames, (AdapterSdk.line frame).length ≤ l.maxEncodedBytes) :
    (adapterReader l parse sink).readExportFrames ((frames.map AdapterSdk.line).map some) =
      (frames.map encode).foldlM (adapterReader l parse sink).handleLine {} >>= fun s =>
        ExportReader.finish s [] := by
  have hlines : frames.map AdapterSdk.line = (frames.map encode).map (· ++ [newline]) := by
    rw [List.map_map]
    rfl
  unfold ExportReader.readExportFrames
  rw [hlines, ExportReader.readChunks_of_lines, bind_assoc]
  · rfl
  · intro bytes hbytes
    obtain ⟨frame, hframe, rfl⟩ := List.mem_map.mp hbytes
    exact ⟨newline_notMem_encode frame, not_tooLong (h frame hframe)⟩

section Frames

variable {n : Nat}
  (hparse : ∀ frame ∈ writes.map dataFrame ++ [completeFrame n], parse (encode frame) = some frame)
  (hfits : ∀ write ∈ writes, AdapterSdk.Fits l write)
  (hlast : (AdapterSdk.line (completeFrame n)).length ≤ l.maxEncodedBytes)
include hfits hlast

theorem line_le {frame : Json JsString}
    (hframe : frame ∈ writes.map dataFrame ++ [completeFrame n]) :
    (AdapterSdk.line frame).length ≤ l.maxEncodedBytes := by
  rcases List.mem_append.mp hframe with hdata | hcomplete
  · obtain ⟨write, hwrite, rfl⟩ := List.mem_map.mp hdata
    exact (hfits write hwrite).encoded
  · rwa [List.mem_singleton.mp hcomplete]

include hparse

theorem paths_of_read (h : (adapterReader l parse sink).readExportFrames
    (((writes.map dataFrame ++ [completeFrame n]).map AdapterSdk.line).map some) =
      .ok (⟨n⟩, writes)) :
    (∀ write ∈ writes, write.path.utf8ByteSize ≤ 512) ∧ Binary64.decimal n = n := by
  rw [readExportFrames_lines fun _ => line_le hfits hlast] at h
  obtain ⟨s, hlines, hfinish⟩ := bind_ok.mp h
  obtain ⟨-, hcompletion, -⟩ := ExportReader.finish_ok.mp hfinish
  rcases ExportReader.foldlM_handleLine rfl hlines with
    hd | ⟨frames, last, s₁, m, heq, hd, -, hread, rfl⟩
  · rw [ExportReader.delivered_completion hd] at hcompletion
    cases hcompletion
  obtain rfl : m = n := Option.some.inj hcompletion
  rw [List.map_append, List.map_singleton] at heq
  obtain ⟨rfl, hsame⟩ := List.append_inj' heq rfl
  obtain rfl := (List.cons.inj hsame).1
  constructor
  · intro write hwrite
    have hdata : dataFrame write ∈ writes.map dataFrame := List.mem_map_of_mem hwrite
    obtain ⟨path, contentType, data, hframe, hsafe⟩ := hd.safe _ (List.mem_map_of_mem hdata)
    change (parse _).bind asExportFrame = _ at hframe
    rw [hparse _ (List.mem_append_left _ hdata), Option.bind_some, asExportFrame_dataFrame] at hframe
    obtain ⟨rfl, -, -⟩ := ExportFrame.data.inj (Option.some.inj hframe)
    exact (safeExportPath_iff (hfits write hwrite).path).mp hsafe
  · change (parse _).bind asExportFrame = _ at hread
    rw [hparse _ (List.mem_append_right _ List.mem_cons_self), Option.bind_some] at hread
    exact (asExportFrame_completeFrame.mp hread).2

theorem read_of_paths (hsink : ∀ before write, sink before write = .ok ())
    (htotal : (writes.map (·.bytes.length)).sum ≤ l.maxExportBytes) (hn : n < 2 ^ 64)
    (hpaths : ∀ write ∈ writes, write.path.utf8ByteSize ≤ 512) (hcount : Binary64.decimal n = n) :
    (adapterReader l parse sink).readExportFrames
      (((writes.map dataFrame ++ [completeFrame n]).map AdapterSdk.line).map some) =
        .ok (⟨n⟩, writes) := by
  rw [readExportFrames_lines fun _ => line_le hfits hlast]
  obtain ⟨rawTotal, hd⟩ := delivered_writes (s := {})
    (fun write hwrite => hparse _ (List.mem_append_left _ (List.mem_map_of_mem hwrite))) hsink hfits
    hpaths (by dsimp only; omega)
  have hframe : (adapterReader l parse sink).fromSlice (encode (completeFrame n)) =
      some (.complete n) := by
    show (parse (encode (completeFrame n))).bind asExportFrame = _
    rw [hparse _ (List.mem_append_right _ List.mem_cons_self), Option.bind_some]
    exact asExportFrame_completeFrame.mpr ⟨by rwa [hcount], hcount⟩
  rw [List.map_append, List.map_map, List.foldlM_append]
  refine bind_ok.mpr ⟨{ rawTotal := rawTotal, completion := some n, writes := writes }, ?_,
    ExportReader.finish_ok.mpr ⟨rfl, rfl, rfl⟩⟩
  refine bind_ok.mpr ⟨_, ExportReader.foldlM_of_delivered hd rfl, ?_⟩
  show [encode (completeFrame n)].foldlM _ _ = _
  rw [List.foldlM_cons]
  exact bind_ok.mpr
    ⟨_, ExportReader.handleLine_complete rfl (encode_object_ne_nil _) hframe, rfl⟩

end Frames

end Stream

/-! ## Exports -/

/-- Where the parser reads back the frames of a completed export and the sink takes all writes, the
    connector reads the export as it was written exactly if all its paths are at most 512 bytes and
    its count is printed with its own digits. -/
theorem export_read_iff (l : ExportLimits) (resources : Selected)
    (parse : List UInt8 → Option (Json JsString))
    (sink : List Write → Write → Except ConnectorError Unit) (n : Nat)
    (hcompleted : (exportData l resources).completed = some n)
    (hparse : ∀ frame ∈ (exportData l resources).writes.map dataFrame ++ [completeFrame n],
      parse (encode frame) = some frame)
    (hsink : ∀ before write, sink before write = .ok ()) :
    (adapterReader l parse sink).readExportFrames ((exportData l resources).chunks.map some) =
        .ok (⟨n⟩, (exportData l resources).writes) ↔
      (∀ write ∈ (exportData l resources).writes, write.path.utf8ByteSize ≤ 512) ∧
        Binary64.decimal resources.total = resources.total := by
  have hstream := AdapterSdk.exportData_completed hcompleted
  have hn : n < 2 ^ 64 := by
    have htotal := AdapterSdk.total_le resources
    rw [hstream.count]
    omega
  rw [hstream.chunks, ← hstream.count]
  constructor
  · intro h
    exact paths_of_read hparse hstream.fits hstream.last h
  · intro ⟨hpaths, hcount⟩
    exact read_of_paths hparse hstream.fits hstream.last hsink hstream.total hn hpaths hcount

/-- The default limits of both sides. -/
def defaultLimits : ExportLimits := ⟨256 * 1024, 100 * 1024 * 1024, by decide, by decide⟩

def greeting (path : List Char) : Write := ⟨String.ofList path, "text/plain", [104, 105]⟩

/-- One resource that writes one file. -/
def oneFile (path : List Char) : Selected :=
  ⟨[⟨[(.bytes (String.ofList path) "text/plain" [104, 105], false)], some ⟨1, by decide⟩⟩],
    Nat.le_add_left 1 127⟩

/-- A parser that knows the frames of one file. -/
def parseGreeting (path : List Char) (bytes : List UInt8) : Option (Json JsString) :=
  if bytes = encode (dataFrame (greeting path)) then some (dataFrame (greeting path))
  else if bytes = encode (completeFrame 1) then some (completeFrame 1)
  else none

theorem dataFrame_greeting (path : List Char) :
    dataFrame (greeting path) = .object [("type", AdapterSdk.text "data"),
      ("path", .string (Utf16.encode path)), ("contentType", AdapterSdk.text "text/plain"),
      ("data", AdapterSdk.text "aGk")] := by
  unfold dataFrame greeting AdapterSdk.text jsString
  rw [String.toList_ofList, String.toList_ofList]
  rfl

theorem completeFrame_one :
    (encode (completeFrame 1)).length = 37 ∧ 2048 ≤ defaultLimits.maxEncodedBytes := by
  decide +kernel

theorem oneFile_completed {path : List Char}
    (hpath : AdapterSdk.validateExportPath (String.ofList path) = true)
    (hlength : (encode (dataFrame (greeting path))).length < 2048) :
    (exportData defaultLimits (oneFile path)).completed = some 1 ∧
      (exportData defaultLimits (oneFile path)).writes = [greeting path] := by
  have hencoded : ∀ frame : Json JsString, (encode frame).length < 2048 →
      (AdapterSdk.line frame).length ≤ defaultLimits.maxEncodedBytes := by
    intro frame hframe
    have hlimit := completeFrame_one.2
    have hline : (AdapterSdk.line frame).length = (encode frame).length + 1 := List.length_append
    omega
  have hwrite : AdapterSdk.writeBytes defaultLimits {} (greeting path) =
      .ok ⟨2, [AdapterSdk.line (dataFrame (greeting path))], [greeting path]⟩ := by
    unfold AdapterSdk.writeBytes
    refine refuse_bind_ok.mpr ⟨by rw [Bool.not_eq_false]; exact hpath, refuse_bind_ok.mpr ⟨?_, ?_⟩⟩
    · show ¬ ("text/plain" = "" ∨ AdapterSdk.utf16Length "text/plain" > 128 ∨ 2 > 256 * 1024)
      decide
    · have htotal : 0 + 2 ≤ 100 * 1024 * 1024 := by decide
      exact bind_ok.mpr ⟨_, AdapterSdk.writeFrame_ok.mpr ⟨htotal, hencoded _ hlength, rfl⟩, rfl⟩
  have hall : AdapterSdk.exportAll defaultLimits (oneFile path) =
      .ok (⟨2, [AdapterSdk.line (dataFrame (greeting path)), AdapterSdk.line (completeFrame 1)],
        [greeting path]⟩, 1) := by
    have hcall : AdapterSdk.runCalls defaultLimits {}
        [(.bytes (String.ofList path) "text/plain" [104, 105], false)] =
          .ok ⟨2, [AdapterSdk.line (dataFrame (greeting path))], [greeting path]⟩ := by
      unfold AdapterSdk.runCalls
      exact bind_ok.mpr ⟨_, congrArg (AdapterSdk.catching false) hwrite, rfl⟩
    have hlast : (encode (completeFrame 1)).length < 2048 := by
      rw [completeFrame_one.1]
      decide
    have htotal : 2 + 0 ≤ 100 * 1024 * 1024 := by decide
    refine bind_ok.mpr ⟨_, bind_ok.mpr ⟨_, hcall, rfl⟩, bind_ok.mpr ⟨_, ?_, rfl⟩⟩
    exact AdapterSdk.writeFrame_ok.mpr ⟨htotal, hencoded _ hlast, rfl⟩
  unfold exportData
  rw [hall]
  exact ⟨rfl, rfl⟩

theorem parseGreeting_frames {path : List Char}
    (hlength : 37 < (encode (dataFrame (greeting path))).length) :
    ∀ frame ∈ [greeting path].map dataFrame ++ [completeFrame 1],
      parseGreeting path (encode frame) = some frame := by
  have hne : encode (completeFrame 1) ≠ encode (dataFrame (greeting path)) := by
    intro heq
    rw [← heq, completeFrame_one.1] at hlength
    exact absurd hlength (by decide)
  intro frame hframe
  unfold parseGreeting
  rcases List.mem_cons.mp hframe with rfl | hlast
  · exact if_pos rfl
  · rw [List.mem_singleton.mp hlast, if_neg hne, if_pos rfl]

def shortPath : List Char := "profile.txt".toList

/-- Short enough in units, and too long in bytes. -/
def longPath : List Char := List.replicate 171 '€'

theorem validateExportPath_paths : ∀ path ∈ [shortPath, longPath],
    AdapterSdk.validateExportPath (String.ofList path) = true := by
  intro path hpath
  unfold AdapterSdk.validateExportPath AdapterSdk.utf16Length
  rw [String.toList_ofList]
  revert path
  decide +kernel

theorem length_paths : ∀ path ∈ [shortPath, longPath],
    37 < (encode (dataFrame (greeting path))).length ∧
      (encode (dataFrame (greeting path))).length < 2048 := by
  intro path hpath
  rw [dataFrame_greeting]
  revert path
  decide +kernel

theorem export_read_on_short_path :
    (adapterReader defaultLimits (parseGreeting shortPath) fun _ _ => .ok ()).readExportFrames
        ((exportData defaultLimits (oneFile shortPath)).chunks.map some) =
      .ok (⟨1⟩, (exportData defaultLimits (oneFile shortPath)).writes) := by
  have hmem : shortPath ∈ [shortPath, longPath] := List.mem_cons_self
  obtain ⟨hlong, hshort⟩ := length_paths _ hmem
  obtain ⟨hcompleted, hwrites⟩ := oneFile_completed (validateExportPath_paths _ hmem) hshort
  refine (export_read_iff _ _ _ _ 1 hcompleted ?_ fun _ _ => rfl).mpr ⟨?_, ?_⟩
  · rw [hwrites]
    exact parseGreeting_frames hlong
  · rw [hwrites]
    exact List.forall_mem_singleton.mpr (by decide)
  · exact Binary64.decimal_of_lt (by decide)

/-- A path of 171 characters is short enough for the writer, and its 513 bytes too long for the
    reader. -/
theorem export_unread_on_long_path :
    (exportData defaultLimits (oneFile longPath)).completed = some 1 ∧
      (adapterReader defaultLimits (parseGreeting longPath) fun _ _ => .ok ()).readExportFrames
          ((exportData defaultLimits (oneFile longPath)).chunks.map some) ≠
        .ok (⟨1⟩, (exportData defaultLimits (oneFile longPath)).writes) := by
  have hmem : longPath ∈ [shortPath, longPath] := List.mem_cons_of_mem _ List.mem_cons_self
  obtain ⟨hlong, hshort⟩ := length_paths _ hmem
  obtain ⟨hcompleted, hwrites⟩ := oneFile_completed (validateExportPath_paths _ hmem) hshort
  have hstream := AdapterSdk.exportData_completed hcompleted
  refine ⟨hcompleted, fun hread => ?_⟩
  have hfits := hstream.fits
  rw [hstream.chunks, hwrites] at hread
  rw [hwrites] at hfits
  have hpaths := (paths_of_read (parseGreeting_frames hlong) hfits hstream.last hread).1
  exact absurd (hpaths _ List.mem_cons_self) (by decide +kernel)

end ForgetOps.AdapterHttp
