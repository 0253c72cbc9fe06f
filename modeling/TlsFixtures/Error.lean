import TlsFixtures.Handshake
import TlsFixtures.Text.Quoted
import TlsFixtures.Text.Hex

/-! What can go wrong, by cause. The wording of each cause is in its `message` and nowhere else. -/
namespace TlsFixtures

inductive AccessError where
  | notFound
  | permissionDenied
  | notDirectory
  | isDirectory
  | nameTooLong
  | notExecutable
  | zeroInPath
  | zeroInArgument
  | invalidUtf8
  /-- A capture that a source in memory does not hold. -/
  | noSuchCapture
  deriving DecidableEq, Repr

def AccessError.message : AccessError → String
  | notFound => "No such file or directory (os error 2)"
  | permissionDenied => "Permission denied (os error 13)"
  | notDirectory => "Not a directory (os error 20)"
  | isDirectory => "Is a directory (os error 21)"
  | nameTooLong => "File name too long (os error 36)"
  | notExecutable => "Exec format error (os error 8)"
  | zeroInPath => "file name contained an unexpected NUL byte"
  | zeroInArgument => "nul byte found in provided data"
  | invalidUtf8 => "stream did not contain valid UTF-8"
  | noSuchCapture => "entity not found"

inductive DissectionFault where
  /-- A line that is no document. What the parser of its text says about it is left out. -/
  | invalidDocument
  /-- A document whose layers give no usable frame number. -/
  | noFrameNumber
  | reported (reason : String)
  /-- A failure without words. -/
  | exitStatus (status : Nat)
  deriving DecidableEq, Repr

/-- The wording; behind that of an invalid document a colon and the words of the parser would follow. -/
def DissectionFault.message : DissectionFault → String
  | invalidDocument => "invalid EK document"
  | noFrameNumber => "EK document without frame.number"
  | reported reason => reason
  | exitStatus status => "tshark exited with exit status: " ++ status.repr

namespace Text

def Hex.Fault.message : Hex.Fault → String
  | .oddLength => "Odd number of digits"
  | .badDigit byte offset =>
    "Invalid character " ++ Quoted.character (Char.ofNat byte.toNat) ++ " at position " ++ offset.repr

end Text

inductive Error where
  | access (path : String) (cause : AccessError)
  | start (program : String) (cause : AccessError)
  | dissection (path : String) (fault : DissectionFault)
  | hex (field : String) (fault : Text.Hex.Fault)
  | emptyPayload (field : String)
  /-- A frame with a fingerprint lacks the field it was computed from. -/
  | missingField (field : String)
  /-- No listed candidate begins with the marker of the expected type. -/
  | noCandidate (expected : Handshake.MessageType)
  | countMismatch (certificates fingerprints : Nat)
  | truncated (part : Handshake.HeaderPart)
  /-- Every input failed for one output, so nothing was written. -/
  | noUsableInput (inputs : Nat)
  deriving DecidableEq, Repr

def Error.message : Error → String
  | access path cause => path ++ ": " ++ cause.message
  | start program cause => "failed to start " ++ program ++ ": " ++ cause.message
  | dissection path fault => path ++ ": " ++ fault.message
  | hex field fault => "invalid hex in " ++ field ++ ": " ++ fault.message
  | emptyPayload field => "empty payload in " ++ field
  | missingField field => "missing field " ++ field
  | noCandidate expected => "no raw handshake candidate starts with " ++ expected.marker
  | countMismatch certificates fingerprints =>
    certificates.repr ++ " certificate(s) but " ++ fingerprints.repr ++ " fingerprint(s)"
  | truncated part => "truncated " ++ part.name
  | noUsableInput inputs => "all " ++ inputs.repr ++ " input(s) failed"

end TlsFixtures
