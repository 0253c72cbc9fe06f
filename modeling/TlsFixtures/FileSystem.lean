import TlsFixtures.Error
import TlsFixtures.Text.Basic

/-! A file system as a value: which locations hold a directory or a file, and the working directory that
relative paths begin at. A path is names between slashes; repeated slashes count as one, and a slash at the end asks
for a directory. Names are looked up one after another, each in a directory that is there; a write replaces the
contents of one file and touches nothing else. A capture is a file by what a dissector does with it, as far as a
reader of its output can tell. -/
namespace TlsFixtures

structure Path where
  absolute : Bool
  names : List String
  wantsDirectory : Bool
  deriving DecidableEq, Repr

namespace Path

/-- What stands between slashes, empty parts included. -/
def parts : List Char → List (List Char)
  | [] => [[]]
  | c :: rest =>
    if c = '/' then [] :: parts rest
    else
      match parts rest with
      | [] => [[c]]
      | part :: more => (c :: part) :: more

def namesOf (s : List Char) : List String := ((parts s).filter (· ≠ [])).map String.ofList

/-- Bytes that a whole path and one name may have. -/
def lengthLimit : Nat := 4095
def nameLimit : Nat := 255

def ofText (s : String) : Except AccessError Path :=
  let chars := s.toList
  if chars.contains '\x00' then .error .zeroInPath
  else if chars.isEmpty then .error .notFound
  else if lengthLimit < s.utf8ByteSize then .error .nameTooLong
  else .ok ⟨chars.head? = some '/', namesOf chars, chars.getLast? = some '/'⟩

/-- The last name that is not a single point; a path without one, or that ends at a parent, is its own
file name. -/
def fileName (s : String) : String :=
  match ((namesOf s.toList).filter (· ≠ ".")).getLast? with
  | none => s
  | some name => if name = ".." then s else name

end Path

/-- The two streams that are written and the status after them. -/
structure Dissection where
  output : List UInt8
  diagnostics : List UInt8
  exitStatus : Nat
  /-- The output is written again and again, without end; the status is then never reached. -/
  endless : Bool
  deriving DecidableEq, Repr

/-- Why a dissection failed although its whole output was read: the diagnostics if they are text and not
blank, or else the exit status. -/
def Dissection.failure? (d : Dissection) : Option DissectionFault :=
  if d.exitStatus = 0 then none
  else
    match Text.trim ((Text.Utf8.decode? d.diagnostics).getD "").toList with
    | [] => some (.exitStatus d.exitStatus)
    | text => some (.reported (String.ofList text))

def Dissection.isGarbled (d : Dissection) : Bool := (Text.Utf8.decode? d.diagnostics).isNone

/-- A dissector that has nothing to read fails without a word. -/
def Dissection.silentFailure : Dissection := ⟨[], [], 1, false⟩

/-- A capture by its dissections: one for each display filter that is listed, and one for all others. -/
structure Capture where
  dissection : Dissection
  byFilter : List (String × Dissection)
  deriving DecidableEq, Repr

def Capture.under (c : Capture) (filter : String) : Dissection :=
  (c.byFilter.lookup filter).getD c.dissection

/-- Names from the root, the last one first. -/
abbrev Location := List String

inductive Contents where
  | text (s : String)
  | capture (c : Capture)
  | dissector
  deriving DecidableEq, Repr

structure File where
  contents : Contents
  executable : Bool
  deriving DecidableEq, Repr

inductive Node where
  | directory
  | file (f : File)
  deriving DecidableEq, Repr

structure FileSystem where
  node? : Location → Option Node
  workingDirectory : Location

namespace FileSystem

/-- Only the working directory and those above it. -/
def bare (workingDirectory : Location) : FileSystem where
  node? location := if location.isSuffixOf workingDirectory then some .directory else none
  workingDirectory := workingDirectory

def put (fs : FileSystem) (location : Location) (node : Node) : FileSystem :=
  { fs with node? := fun other => if other = location then some node else fs.node? other }

@[simp] theorem node?_put (fs : FileSystem) (location other : Location) (node : Node) :
    (fs.put location node).node? other = if other = location then some node else fs.node? other := rfl

@[simp] theorem workingDirectory_put (fs : FileSystem) (location : Location) (node : Node) :
    (fs.put location node).workingDirectory = fs.workingDirectory := rfl

def enter (fs : FileSystem) (location : Location) (name : String) : Except AccessError Location :=
  match fs.node? location with
  | none => .error .notFound
  | some (.file _) => .error .notDirectory
  | some .directory =>
    if name = "." then .ok location
    else if name = ".." then .ok location.tail
    else if Path.nameLimit < name.utf8ByteSize then .error .nameTooLong
    else if (fs.node? (name :: location)).isSome then .ok (name :: location)
    else .error .notFound

def walk (fs : FileSystem) (location : Location) : List String → Except AccessError Location
  | [] => .ok location
  | name :: rest =>
    match fs.enter location name with
    | .error e => .error e
    | .ok inner => fs.walk inner rest

def start (fs : FileSystem) (path : Path) : Location :=
  if path.absolute then [] else fs.workingDirectory

def locate (fs : FileSystem) (s : String) : Except AccessError Location :=
  match Path.ofText s with
  | .error e => .error e
  | .ok path => fs.walk (fs.start path) (path.names ++ if path.wantsDirectory then ["."] else [])

def nodeAt? (fs : FileSystem) (s : String) : Option Node :=
  match fs.locate s with
  | .error _ => none
  | .ok location => fs.node? location

def text? (fs : FileSystem) (s : String) : Option String :=
  match fs.nodeAt? s with
  | some (.file ⟨.text text, _⟩) => some text
  | _ => none

/-- Where a file named by `path` is written: in an existing directory, and not over a directory. -/
def target (fs : FileSystem) (path : Path) : Except AccessError Location :=
  match path.names.getLast? with
  | none => .error .isDirectory
  | some name =>
    if name = "." ∨ name = ".." then
      match fs.walk (fs.start path) path.names with
      | .error e => .error e
      | .ok _ => .error .isDirectory
    else
      match fs.walk (fs.start path) path.names.dropLast with
      | .error e => .error e
      | .ok parent =>
        match fs.node? parent with
        | none => .error .notFound
        | some (.file _) => .error .notDirectory
        | some .directory =>
          if path.wantsDirectory then .error .isDirectory
          else if Path.nameLimit < name.utf8ByteSize then .error .nameTooLong
          else if fs.node? (name :: parent) = some .directory then .error .isDirectory
          else .ok (name :: parent)

/-- New text for a file; it stays executable if it was. -/
def rewritten (old : Option Node) (text : String) : Node :=
  match old with
  | some (.file f) => .file { f with contents := .text text }
  | _ => .file ⟨.text text, false⟩

/-- The file system after `text` has replaced what `s` held. Once the file is opened nothing can go wrong: a
medium that fails or is full when the old contents are gone already is not described. -/
def write (fs : FileSystem) (s text : String) : Except AccessError FileSystem :=
  match Path.ofText s with
  | .error e => .error e
  | .ok path =>
    match fs.target path with
    | .error e => .error e
    | .ok location => .ok (fs.put location (rewritten (fs.node? location) text))

def execute (fs : FileSystem) (s : String) : Except AccessError Unit :=
  match fs.locate s with
  | .error e => .error e
  | .ok location =>
    match fs.node? location with
    | some (.file ⟨.dissector, true⟩) => .ok ()
    | some (.file ⟨_, true⟩) => .error .notExecutable
    | _ => .error .permissionDenied

/-- Tries `name` in each directory. A directory without it is passed over, one where it cannot be run is
remembered. -/
def search (fs : FileSystem) (name : String) (denied : Bool) : List String → Except AccessError Unit
  | [] => .error (if denied then .permissionDenied else .notFound)
  | directory :: rest =>
    match fs.execute (directory ++ "/" ++ name) with
    | .error .notFound => fs.search name denied rest
    | .error .notDirectory => fs.search name denied rest
    | .error .permissionDenied => fs.search name true rest
    | result => result

/-- Starts a program: one named with a slash where it is, any other by the search path. -/
def startProgram (fs : FileSystem) (searchPath : List String) (program : String)
    (arguments : List String) : Except AccessError Unit :=
  if (program :: arguments).any (·.toList.contains '\x00') then .error .zeroInArgument
  else if program.isEmpty then .error .notFound
  else if program.toList.contains '/' then fs.execute program
  else if Path.nameLimit < program.utf8ByteSize then .error .nameTooLong
  else fs.search program false searchPath

def dissection (fs : FileSystem) (s filter : String) : Dissection :=
  match fs.nodeAt? s with
  | some (.file ⟨.capture c, _⟩) => c.under filter
  | _ => .silentFailure

/-- Follows names and makes a directory of each that is not there yet. -/
def makeWay (fs : FileSystem) (location : Location) : List String → FileSystem × Location
  | [] => (fs, location)
  | name :: rest =>
    if name = "." then fs.makeWay location rest
    else if name = ".." then fs.makeWay location.tail rest
    else
      let inner := name :: location
      (if (fs.node? inner).isSome then fs else fs.put inner .directory).makeWay inner rest

def origin (fs : FileSystem) (s : String) : Location :=
  if s.toList.head? = some '/' then [] else fs.workingDirectory

def addDirectory (fs : FileSystem) (s : String) : FileSystem :=
  (fs.makeWay (fs.origin s) (Path.namesOf s.toList)).1

def addFile (fs : FileSystem) (s : String) (file : File) : FileSystem :=
  let names := Path.namesOf s.toList
  let (fs, parent) := fs.makeWay (fs.origin s) names.dropLast
  match names.getLast? with
  | some name => fs.put (name :: parent) (.file file)
  | none => fs

end FileSystem

end TlsFixtures
