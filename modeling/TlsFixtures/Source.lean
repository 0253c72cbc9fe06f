import TlsFixtures.Ek.Stream
import TlsFixtures.Event

/-! Where captures are read from. A source answers a path and a query with the stream of frames, of which an error is
the last that is looked at; it may depend on the file system and may report events. An archive holds captures in
memory. The dissector is started once for each capture and display filter, its output is read as EK documents, and
its exit status is asked for at the end. Output that never ends has no stream of its own here. -/
namespace TlsFixtures

/-- A stream of frames that may break. -/
abbrev Frames := List (Except Error Frame)

structure Source where
  frames : FileSystem → String → FrameQuery → Logged (Except Error Frames)

/-- Captures held in memory under their exact paths, and display filters that are refused. -/
structure Archive where
  captures : List (String × List (Except String Frame))
  refusedFilters : List String

namespace Archive

/-- The stream of a capture; an entry without a frame breaks it off for the reason given. -/
def frames (archive : Archive) (path : String) (query : FrameQuery) : Except Error Frames :=
  match archive.captures.lookup path with
  | none => .error (.access path .noSuchCapture)
  | some entries =>
    if archive.refusedFilters.contains query.filter then
      .error (.dissection path (.reported ("invalid display filter " ++ query.filter)))
    else .ok (entries.map (Except.mapError fun reason => .dissection path (.reported reason)))

def source (archive : Archive) : Source where
  frames _ path query := pure (archive.frames path query)

end Archive

structure Dissector where
  program : String
  searchPath : List String
  deriving DecidableEq, Repr

namespace Dissector

def defaultProgram : String := "tshark"

/-- Names are not resolved, the capture is read under the filter, and the output is one document a line. -/
def arguments (path : String) (query : FrameQuery) : List String :=
  ["-n", "-r", path, "-Y", query.filter, "-T", "ek"] ++ if query.wireBytes then ["-x"] else []

/-- The stream of a started dissector. The capture has to be readable before the program is started. -/
def start (d : Dissector) (fs : FileSystem) (path : String) (query : FrameQuery) :
    Logged (Except Error EkStream) :=
  match fs.locate path with
  | .error cause => pure (.error (.access path cause))
  | .ok _ =>
    match fs.startProgram d.searchPath d.program (arguments path query) with
    | .error cause => pure (.error (.start d.program cause))
    | .ok () => do
      Logged.note (.dissectorStarted path query.filter query.wireBytes)
      let dissection := fs.dissection path query.filter
      if dissection.isGarbled then Logged.note .diagnosticsUnreadable
      return .ok (.ofDissection path dissection)

/-- The dissector with all its output read, for output that comes to an end or to an error. No run over other output
returns: the frames of one copy, which stand for it here, mean nothing. -/
def source (d : Dissector) : Source where
  frames fs path query := do
    let stream ← d.start fs path query
    return stream.map fun s => s.items.map (·.map EkFrame.frame)

end Dissector

end TlsFixtures
