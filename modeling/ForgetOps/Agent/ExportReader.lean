import ForgetOps.Agent.DestructiveErase
import ForgetOps.Library.Base64Url
import ForgetOps.Library.Guards
import ForgetOps.Library.Lines

/-
  `read_export_frames` of the HTTP adapter (`agent/crates/adapter-http/src/lib.rs`).

  The reader gets the body of the response chunk by chunk. The deserializer of a frame is an
  argument, and so is the sink, whose answers may depend on what was written to it before. A run
  returns or throws together with the writes it performed.
-/

namespace ForgetOps.AdapterHttp

open Connector (ConnectorError saturatingAdd)
open Guards

inductive ExportFrame where
  | data (path contentType data : String)
  | complete (exportedCount : Nat)
  | error (code : String)
  deriving DecidableEq, Repr

structure ExportResult where
  exportedCount : Nat
  deriving DecidableEq, Repr

/-- One call of the sink. -/
structure Write where
  path : String
  contentType : String
  bytes : List UInt8
  deriving DecidableEq, Repr

def newline : UInt8 := 0x0a

/-- What surrounds one read. -/
structure ExportReader where
  /-- `serde_json::from_slice::<ExportFrame>`. -/
  fromSlice : List UInt8 → Option ExportFrame
  /-- The sink's answer, after the writes before. -/
  sink : List Write → Write → Except ConnectorError Unit
  maxFrameBytes : Nat
  maxExportBytes : Nat

/-- `max_frame_bytes.saturating_mul(2).saturating_add(1024)`. -/
def ExportReader.maxEncodedFrameBytes (r : ExportReader) : Nat :=
  saturatingAdd (min (r.maxFrameBytes * 2) (2 ^ 64 - 1)) 1024

/-- Between two frames: the bytes so far, the count of a `complete` frame, and the writes. -/
structure Progress where
  rawTotal : Nat := 0
  completion : Option Nat := none
  writes : List Write := []
  deriving DecidableEq, Repr

/-- A call that may throw, after some writes. -/
abbrev Reading (α : Type) := Except (ConnectorError × List Write) α

def invalidResponse (code : String) (s : Progress) : ConnectorError × List Write :=
  (.invalidResponse code, s.writes)

def safeExportPath (path : String) : Bool :=
  path ≠ "" ∧ path.utf8ByteSize ≤ 512 ∧ path.toList.head? ≠ some '/' ∧ '\\' ∉ path.toList ∧
    ∀ segment ∈ path.toList.splitOn '/', segment ≠ [] ∧ segment ≠ ['.'] ∧ segment ≠ ['.', '.']

namespace ExportReader

/-- The frame of one line, without its newline. -/
def handleLine (r : ExportReader) (s : Progress) (line : List UInt8) : Reading Progress := do
  refuse (line = []) (invalidResponse "ADAPTER_EXPORT_FRAME_INVALID" s)
  let frame ← okOr (r.fromSlice line) (invalidResponse "ADAPTER_EXPORT_FRAME_INVALID" s)
  match frame with
  | .data path contentType data =>
    refuse (s.completion.isSome = true ∨ safeExportPath path = false)
      (invalidResponse "ADAPTER_EXPORT_FRAME_INVALID" s)
    let decoded ← okOr (Base64Url.decode data.toList)
      (invalidResponse "ADAPTER_EXPORT_FRAME_INVALID" s)
    refuse (decoded.length > r.maxFrameBytes ∨ Base64Url.encode decoded ≠ data.toList ∨
      saturatingAdd s.rawTotal decoded.length > r.maxExportBytes)
      (invalidResponse "ADAPTER_EXPORT_TOO_LARGE" s)
    let write : Write := ⟨path, contentType, decoded⟩
    let writes := s.writes ++ [write]
    (r.sink s.writes write).mapError fun e => (e, writes)
    return { s with rawTotal := s.rawTotal + decoded.length, writes }
  | .complete exportedCount =>
    refuse (s.completion.isSome = true) (invalidResponse "ADAPTER_EXPORT_FRAME_INVALID" s)
    return { s with completion := some exportedCount }
  | .error _ => throw (⟨.remote, "ADAPTER_EXPORT_FAILED"⟩, s.writes)

/-- The chunk and the carried bytes are more than the limit. -/
def Exceeds (r : ExportReader) (carried chunk : Nat) : Prop :=
  saturatingAdd carried chunk > r.maxEncodedFrameBytes

instance (r : ExportReader) (carried chunk : Nat) : Decidable (r.Exceeds carried chunk) :=
  inferInstanceAs (Decidable (_ > _))

/-- The loop over the chunks; `none` is a chunk that fails to arrive. -/
def readChunks (r : ExportReader) :
    Progress → List UInt8 → List (Option (List UInt8)) → Reading (Progress × List UInt8)
  | s, buffer, [] => return (s, buffer)
  | s, _, none :: _ => throw (invalidResponse "ADAPTER_EXPORT_STREAM_FAILED" s)
  | s, buffer, some chunk :: chunks => do
    refuse (r.Exceeds buffer.length chunk.length)
      (invalidResponse "ADAPTER_EXPORT_FRAME_TOO_LARGE" s)
    let cut := Lines.split newline (buffer ++ chunk)
    let s ← cut.1.foldlM r.handleLine s
    r.readChunks s cut.2 chunks

/-- What is returned when the stream has ended. -/
def finish (s : Progress) (buffer : List UInt8) : Reading (ExportResult × List Write) := do
  refuse (buffer ≠ []) (invalidResponse "ADAPTER_EXPORT_FRAME_INCOMPLETE" s)
  let exportedCount ← okOr s.completion
    (invalidResponse "ADAPTER_EXPORT_COMPLETION_MISSING" s)
  return (⟨exportedCount⟩, s.writes)

def readExportFrames (r : ExportReader) (chunks : List (Option (List UInt8))) :
    Reading (ExportResult × List Write) := do
  let (s, buffer) ← r.readChunks {} [] chunks
  finish s buffer

end ExportReader

end ForgetOps.AdapterHttp
