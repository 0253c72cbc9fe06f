import TlsFixtures.Extraction
import TlsFixtures.FixtureFile
import TlsFixtures.Plan

/-! Runs of a plan. Each output reads every input anew and is written once all are read. An input that fails
is reported and left out, unless all of them fail: then nothing is written. An output that fails does not
keep later ones from being made. -/
namespace TlsFixtures

structure Summary where
  records : Nat
  failedInputs : Nat
  deriving DecidableEq, Repr

structure Report where
  variant : Variant
  path : String
  outcome : Except Error Summary

namespace Run

/-- Records of all inputs that could be read, in input order, and the number of those that could not. -/
structure Gathered (v : Variant) where
  records : List v.Record
  failedInputs : Nat

def Gathered.precededBy {v : Variant} (g : Gathered v) : Except Error (List v.Record) → Gathered v
  | .ok found => ⟨found ++ g.records, g.failedInputs⟩
  | .error _ => ⟨g.records, g.failedInputs + 1⟩

def readInput (source : Source) (fs : FileSystem) (v : Variant) (input : String) :
    Logged (Except Error (List v.Record)) := do
  let outcome ← Extraction.ofCapture source fs v input
  match outcome with
  | .ok _ => pure ()
  | .error e => Logged.note (.captureFailed v input e)
  return outcome

def gather (source : Source) (fs : FileSystem) (v : Variant) : List String → Logged (Gathered v)
  | [] => pure ⟨[], 0⟩
  | input :: rest => do
    let outcome ← readInput source fs v input
    let later ← gather source fs v rest
    return later.precededBy outcome

/-- Writes what was gathered from `inputs` inputs; the file system is as before where that fails. -/
def writeOutput (fs : FileSystem) (v : Variant) (path oraclePath : String) (inputs : Nat)
    (g : Gathered v) : Except Error Summary × FileSystem :=
  if g.failedInputs = inputs then (.error (.noUsableInput inputs), fs)
  else
    match fs.write path (FixtureFile.render v g.records oraclePath) with
    | .error cause => (.error (.access path cause), fs)
    | .ok fs => (.ok ⟨g.records.length, g.failedInputs⟩, fs)

def outcomeEvent (v : Variant) (path : String) : Except Error Summary → Event
  | .ok summary => .fileWritten v path summary.records summary.failedInputs
  | .error e => .outputFailed v path e

def generate (source : Source) (oraclePath : String) (inputs : List String) (fs : FileSystem)
    (output : Variant × String) : Logged (Report × FileSystem) := do
  let (v, path) := output
  let gathered ← gather source fs v inputs
  let (outcome, fs) := writeOutput fs v path oraclePath inputs.length gathered
  Logged.note (outcomeEvent v path outcome)
  return (⟨v, path, outcome⟩, fs)

def outputs (source : Source) (oraclePath : String) (inputs : List String) (fs : FileSystem) :
    List (Variant × String) → Logged (List Report × FileSystem)
  | [] => pure ([], fs)
  | output :: rest => do
    let (report, fs) ← generate source oraclePath inputs fs output
    let (reports, fs) ← outputs source oraclePath inputs fs rest
    return (report :: reports, fs)

end Run

/-- The reports of all outputs of a plan, in its order, and the file system after the run. -/
def Plan.run (plan : Plan) (source : Source) (oraclePath : String) (fs : FileSystem) :
    Logged (List Report × FileSystem) :=
  Run.outputs source oraclePath plan.inputs fs plan.outputs

end TlsFixtures
