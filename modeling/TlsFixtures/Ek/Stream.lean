import TlsFixtures.Ek.Document
import TlsFixtures.FileSystem

/-! The frames that a running dissector prints. Each line of its output gives a frame, nothing, or an error;
the first error ends the stream. Where the output ends without one, the exit status decides whether a last
error follows. An output that is written over and over never ends by itself. -/
namespace TlsFixtures

structure EkStream where
  path : String
  ahead : List (List UInt8)
  /-- Lines that follow these, over and over. -/
  cycle : List (List UInt8)
  /-- What the end of the output reports. -/
  failure : Option DissectionFault
  /-- Whether the dissector is still attended to. -/
  running : Bool
  deriving DecidableEq, Repr

namespace EkStream

abbrev Item := Except Error EkFrame

/-- What one line gives; nothing for a blank line or a document without layers. -/
def lineItem? (path : String) (line : List UInt8) : Option Item :=
  match Text.Utf8.decode? line with
  | none => some (.error (.access path .invalidUtf8))
  | some text =>
    match Ek.frameOfLine? text.toList with
    | .ok none => none
    | .ok (some frame) => some (.ok frame)
    | .error fault => some (.error (.dissection path fault))

/-- The stream of a dissection of `path`. In an endless output the end of each copy runs on into the next,
so the repeated lines begin where the last line feed of a copy stands; without any line feed no line is
ever complete, and the stream is taken to have ended. -/
def ofDissection (path : String) (d : Dissection) : EkStream :=
  if d.endless then
    let (whole, part) := Text.splitLast d.output
    ⟨path, Text.lines whole, if whole.isEmpty then [] else Text.lines (part ++ whole), none, true⟩
  else ⟨path, Text.lines d.output, [], d.failure?, true⟩

/-- The first item that some line gives, and the lines after it. -/
def firstItem? (path : String) : List (List UInt8) → Option (Item × List (List UInt8))
  | [] => none
  | line :: rest =>
    match lineItem? path line with
    | some item => some (item, rest)
    | none => firstItem? path rest

def stop (s : EkStream) : EkStream := { s with running := false }

def proceed (s : EkStream) : Item × List (List UInt8) → Item × EkStream
  | (.ok frame, rest) => (.ok frame, { s with ahead := rest })
  | (.error error, _) => (.error error, s.stop)

/-- The next item, if there is one. An error and the end are final. -/
def next (s : EkStream) : Option Item × EkStream :=
  if !s.running then (none, s)
  else
    match firstItem? s.path s.ahead <|> firstItem? s.path s.cycle with
    | some found => let (item, s) := s.proceed found; (some item, s)
    | none => (s.failure.map fun fault => .error (.dissection s.path fault), s.stop)

/-- At most `count` items, and the stream after them. -/
def take (s : EkStream) : Nat → List Item × EkStream
  | 0 => ([], s)
  | count + 1 =>
    match s.next with
    | (none, s) => ([], s)
    | (some item, s) => let (items, s) := s.take count; (item :: items, s)

/-- An upper bound on the items of a stream that ends. -/
def bound (s : EkStream) : Nat := s.ahead.length + s.cycle.length + 2

/-- Everything up to and with the first error. -/
def throughError {α ε : Type} : List (Except ε α) → List (Except ε α)
  | [] => []
  | .ok a :: rest => .ok a :: throughError rest
  | .error e :: _ => [.error e]

/-- All items of a stream that ends, or up to its error. An endless stream without an error has no such list: what is
given for it are the items of the lines before it repeats, which nothing here tells from those of a clean end. -/
def items (s : EkStream) : List Item :=
  if !s.running then []
  else
    throughError ((s.ahead ++ s.cycle).filterMap (lineItem? s.path) ++
      s.failure.toList.map fun fault => .error (.dissection s.path fault))

end EkStream
end TlsFixtures
