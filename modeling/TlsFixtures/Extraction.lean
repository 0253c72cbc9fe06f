import TlsFixtures.Record
import TlsFixtures.Source

/-! Records of frames and captures. The payload of a record is one of a field's raw values, written in hex with
separators: colons and ASCII blanks, which may stand anywhere, also between the two digits of a byte. A frame
without the fingerprint of a variant is passed over; one whose payload cannot be recovered fails, which is reported
and costs the capture that frame only. A stream that breaks costs the whole capture. -/
namespace TlsFixtures

namespace Payload

def isSeparator (c : Char) : Bool := c = ':' || Text.isAsciiBlank c

def digits (s : String) : List UInt8 :=
  Text.Utf8.encode (s.toList.filter fun c => !isSeparator c)

/-- The bytes written in `s`, at least one; `field` is named in the error. -/
def decode (s field : String) : Except Error (List UInt8) :=
  match Text.Hex.decode (digits s) with
  | .error fault => .error (.hex field fault)
  | .ok [] => .error (.emptyPayload field)
  | .ok payload => .ok payload

def hasMarker (expected : Handshake.MessageType) (raw : String) : Bool :=
  expected.marker.toList.isPrefixOf raw.toList

/-- Reassembled segments expose several overlapping candidates. A single value is taken as it is; from a
list, the first entry that begins with the marker of the expected type. -/
def select (value : FieldValue) (expected : Handshake.MessageType) : Except Error String :=
  match value with
  | .one raw => .ok raw
  | .many raws =>
    match raws.find? (hasMarker expected) with
    | some raw => .ok raw
    | none => .error (.noCandidate expected)

end Payload

namespace Extraction

def certificateField : String := "tls.handshake.certificate"
def handshakeField : String := "tls.handshake"
def ja4Field : String := "tls.handshake.ja4"
def ja4sField : String := "ja4.ja4s"
def ja4xField : String := "ja4.ja4x"
def tlsLayer : String := "tls"

end Extraction

def Variant.query : Variant → FrameQuery
  | .ja4 => ⟨"tls.handshake.type == 1", true⟩
  | .ja4s => ⟨"tls.handshake.type == 2", true⟩
  | .ja4x => ⟨"tls.handshake", false⟩

namespace Extraction

/-- What is odd about a hello payload, if anything. The payload is kept all the same. -/
def oddity? (frame : UInt64) (expected : Handshake.MessageType) (payload : List UInt8) : Option Event :=
  match Handshake.inspect payload with
  | .error part => some (.shortHeader frame (.truncated part))
  | .ok header =>
    if header.messageType ≠ expected.code then
      some (.unexpectedType frame header.messageType expected.code)
    else if !header.isComplete then some (.shortBody frame header.length header.captured)
    else none

def helloPayload (frame : Frame) (expected : Handshake.MessageType) : Except Error (List UInt8) :=
  match frame.rawField handshakeField with
  | none => .error (.missingField handshakeField)
  | some value => do Payload.decode (← Payload.select value expected) handshakeField

/-- The hello message of a frame with its fingerprint, where it has one. -/
def hello (frame : Frame) (file : String) (expected : Handshake.MessageType) (fingerprintField : String) :
    Logged (Except Error (List HelloRecord)) :=
  if !frame.hasLayer tlsLayer then pure (.ok [])
  else
    match frame.field fingerprintField with
    | none => ⟨.ok [], [.noFingerprint frame.number fingerprintField]⟩
    | some fingerprint =>
      match helloPayload frame expected with
      | .error e => pure (.error e)
      | .ok payload =>
        ⟨.ok [⟨file, frame.number, payload, tcpTag, fingerprint.first⟩],
          (oddity? frame.number expected payload).toList⟩

def certificate (frame : Frame) (file : String) (pair : String × String) :
    Except Error CertificateRecord := do
  let payload ← Payload.decode pair.1 certificateField
  return ⟨file, frame.number, payload, pair.2⟩

/-- Certificates and fingerprints paired by position: all of them, or none at the first that fails. -/
def chain (frame : Frame) (file : String) (certificates fingerprints : List String) :
    Except Error (List CertificateRecord) :=
  if certificates.length ≠ fingerprints.length then
    .error (.countMismatch certificates.length fingerprints.length)
  else (certificates.zip fingerprints).mapM (certificate frame file)

def certificates (frame : Frame) (file : String) : Logged (Except Error (List CertificateRecord)) :=
  if !frame.hasLayer tlsLayer then pure (.ok [])
  else
    match frame.field certificateField, frame.field ja4xField with
    | some certificates, some fingerprints =>
      pure (chain frame file certificates.candidates fingerprints.candidates)
    | _, _ => ⟨.ok [], [.noCertificateFingerprint frame.number]⟩

/-- Records that a frame carries for a variant; `file` is the name recorded as their source. -/
def ofFrame : (v : Variant) → Frame → String → Logged (Except Error (List v.Record))
  | .ja4, frame, file => hello frame file .clientHello ja4Field
  | .ja4s, frame, file => hello frame file .serverHello ja4sField
  | .ja4x, frame, file => certificates frame file

end Extraction

/-- What makes records of one kind out of the frames of a capture. -/
structure Extractor (α : Type) where
  /-- The fixtures that the records are for, as the log names them. -/
  variant : Variant
  query : FrameQuery
  /-- The records that a frame carries, given the name recorded as their source. -/
  ofFrame : Frame → String → Logged (Except Error (List α))

def Variant.extractor (v : Variant) : Extractor v.Record := ⟨v, v.query, Extraction.ofFrame v⟩

@[simp] theorem Variant.variant_extractor (v : Variant) : v.extractor.variant = v := rfl
@[simp] theorem Variant.query_extractor (v : Variant) : v.extractor.query = v.query := rfl
@[simp] theorem Variant.ofFrame_extractor (v : Variant) : v.extractor.ofFrame = Extraction.ofFrame v := rfl

namespace Extraction

variable {α : Type}

/-- Records of a stream in its order, and the number of frames that failed. -/
structure Harvest (α : Type) where
  records : List α
  failedFrames : Nat

def Harvest.empty : Harvest α := ⟨[], 0⟩

def Harvest.precededBy (h : Harvest α) : Except Error (List α) → Harvest α
  | .ok found => ⟨found ++ h.records, h.failedFrames⟩
  | .error _ => ⟨h.records, h.failedFrames + 1⟩

def visit (e : Extractor α) (file : String) (frame : Frame) : Logged (Except Error (List α)) := do
  let outcome ← e.ofFrame frame file
  match outcome with
  | .ok _ => pure ()
  | .error fault => Logged.note (.frameSkipped e.variant file frame.number fault)
  return outcome

@[simp] theorem value_visit (e : Extractor α) (file : String) (frame : Frame) :
    (visit e file frame).value = (e.ofFrame frame file).value := by
  simp only [visit, Logged.value_bind]
  split <;> rfl

/-- The whole stream, up to its first error. -/
def harvest (e : Extractor α) (file : String) : Frames → Logged (Except Error (Harvest α))
  | [] => pure (.ok .empty)
  | .error fault :: _ => pure (.error fault)
  | .ok frame :: rest => do
    let outcome ← visit e file frame
    let later ← harvest e file rest
    return later.map (·.precededBy outcome)

end Extraction

def Extractor.ofCapture {α : Type} (e : Extractor α) (source : Source) (fs : FileSystem) (path : String) :
    Logged (Except Error (List α)) := do
  match ← source.frames fs path e.query with
  | .error fault => return .error fault
  | .ok frames =>
    let file := Path.fileName path
    match ← Extraction.harvest e file frames with
    | .error fault => return .error fault
    | .ok h =>
      Logged.note (.captureProcessed e.variant file h.records.length h.failedFrames)
      return .ok h.records

def Extraction.ofCapture (source : Source) (fs : FileSystem) (v : Variant) (path : String) :
    Logged (Except Error (List v.Record)) :=
  v.extractor.ofCapture source fs path

end TlsFixtures
