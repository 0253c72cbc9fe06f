import TlsFixtures.CommandLine.Verdict

/-! The program. It carries its own dissector, `tshark`, for which a capture file holds the EK documents of
its dissection. The files that the arguments name are read into a file system value first and those that
the run wrote are stored at the end, so that all that lies between is a function of the arguments, the
environment and the files. -/
namespace TlsFixtures.Program

/-- Where the program's own dissector is found by name. -/
def dissectorDirectory : String := "/dissector"

def recorded (output : ByteArray) : File := ⟨.capture ⟨⟨output.toList, [], 0, false⟩, []⟩, false⟩

/-- What is at a path, which a file system holds from then on. -/
def load (fs : FileSystem) (path : String) : IO FileSystem := do
  try
    return fs.addFile path (recorded (← IO.FS.readBinFile path))
  catch
    | .inappropriateType .. => return fs.addDirectory path
    | _ => return fs

/-- The path up to each of its names. -/
def stations (path : String) : List String :=
  let names := Path.namesOf path.toList
  let root := if path.toList.head? = some '/' then "/" else ""
  (List.range names.length).map fun count => root ++ "/".intercalate (names.take (count + 1))

def loadAll (paths : List String) : IO FileSystem := do
  let mut fs := (FileSystem.bare ["."]).addFile (dissectorDirectory ++ "/" ++ Dissector.defaultProgram)
    ⟨.dissector, true⟩
  for path in paths do
    for station in stations path do
      fs ← load fs station
  return fs

/-- Stores what a run wrote: before it, every file was a capture. -/
def store (fs : FileSystem) (paths : List String) : IO Unit := do
  for path in paths do
    match fs.text? path with
    | some text => IO.FS.writeFile path text
    | none => pure ()

def assignments (names : List String) : IO (List (String × String)) := do
  let mut found := []
  for name in names do
    match ← IO.getEnv name with
    | some value => found := found ++ [(name, value)]
    | none => pure ()
  return found

def logLine (event : Event) : String :=
  event.level.name ++ " " ++ event.target ++ ": " ++ event.message ++
    String.join (event.fields.map fun (name, value) => " " ++ name ++ "=" ++ value)

/-- Paths that a run reads or writes. -/
def pathsOf : CommandLine.Intent → List String
  | .generate a settings => a.inputs ++ a.outputs.map (·.2) ++ [settings.program]
  | _ => []

def outputsOf : CommandLine.Intent → List String
  | .generate a _ => a.outputs.map (·.2)
  | _ => []

def report (verdict : CommandLine.Verdict) : IO UInt32 := do
  for event in verdict.log do
    IO.eprintln (logLine event)
  IO.print verdict.output
  IO.eprint verdict.complaints
  return verdict.exitStatus.toUInt32

def run (arguments : List String) : IO UInt32 := do
  let assigned ← assignments
    [CommandLine.programVariable, CommandLine.oraclePathVariable, CommandLine.logVariable]
  let env : CommandLine.Environment := ⟨assigned, [dissectorDirectory]⟩
  match CommandLine.interpret arguments env with
  | .error e => report (.refusal e)
  | .ok intent =>
    let fs ← loadAll (pathsOf intent)
    let (verdict, fs) := CommandLine.perform env fs intent
    store fs (outputsOf intent)
    report verdict

end TlsFixtures.Program

def main (arguments : List String) : IO UInt32 := TlsFixtures.Program.run arguments
