import TlsFixtures.CommandLine.Arguments
import TlsFixtures.CommandLine.LogFilter
import TlsFixtures.Run

/-! What an invocation prints, logs and exits with. Refused arguments and incomplete requests touch no file. -/
namespace TlsFixtures.CommandLine

/-- Variables that are set, and the directories programs are looked for in. -/
structure Environment where
  assignments : List (String × String)
  searchPath : List String
  deriving DecidableEq, Repr

structure Settings where
  program : String
  oraclePath : String
  progress : Bool
  deriving DecidableEq, Repr

def Settings.default : Settings := ⟨Dissector.defaultProgram, "super", true⟩

def programVariable : String := "JA4_FIXTURES_TSHARK"
def oraclePathVariable : String := "JA4_FIXTURES_ORACLE_PATH"
def logVariable : String := "RUST_LOG"

def versionText : String := "ja4-fixtures 0.1.0\n"
def usageText : String := "Usage: ja4-fixtures [OPTIONS] [PCAP]...\n"

/-- An argument counts before a variable, and a variable before the default. -/
def settings (a : Arguments) (env : Environment) : Except ArgumentError Settings :=
  let program := a.program.getD ((env.assignments.lookup programVariable).getD Settings.default.program)
  if program.isEmpty then .error (.emptyPath "--tshark")
  else
    .ok ⟨program,
      a.oraclePath.getD ((env.assignments.lookup oraclePathVariable).getD Settings.default.oraclePath),
      !a.noProgress⟩

/-- The filter named in the environment, or else the one that the verbosity stands for. -/
def logFilter (a : Arguments) (env : Environment) : LogFilter :=
  ((env.assignments.lookup logVariable).bind LogFilter.ofText?).getD (LogFilter.ofVerbosity a.verbosity)

structure Verdict where
  exitStatus : UInt8
  output : String
  /-- Standard error without the log. -/
  complaints : String
  /-- Events that pass the log filter. -/
  log : List Event
  deriving DecidableEq, Repr

/-- A request that misses an output or an input. -/
def Verdict.misuse (e : UsageError) : Verdict := ⟨e.exitStatus, "", "error: " ++ e.message ++ "\n", []⟩

def Verdict.refusal (e : ArgumentError) : Verdict := ⟨2, "", "error: " ++ e.message ++ "\n", []⟩

def successLine? (report : Report) : Option String :=
  match report.outcome with
  | .ok summary =>
    some (report.variant.label ++ " test file generated: " ++ report.path ++ " (" ++
      summary.records.repr ++ " records)\n")
  | .error _ => none

def failureLine? (report : Report) : Option String :=
  match report.outcome with
  | .ok _ => none
  | .error e =>
    some (report.variant.label ++ " test file failed: " ++ report.path ++ ": " ++ e.message ++ "\n")

def countLine (plan : Plan) : String := plan.inputs.length.repr ++ " PCAP files provided\n"

/-- Status 3 tells that some output failed. -/
def status (reports : List Report) : UInt8 :=
  if reports.any fun report => (failureLine? report).isSome then 3 else 0

def verdict (plan : Plan) (filter : LogFilter) (reports : List Report) (log : List Event) : Verdict where
  exitStatus := status reports
  output := countLine plan ++ String.join (reports.filterMap successLine?)
  complaints := String.join (reports.filterMap failureLine?)
  log := log.filter filter.passes

/-- What an invocation asks for, with its settings settled. -/
inductive Intent where
  | generate (a : Arguments) (settings : Settings)
  | version
  | help
  deriving DecidableEq, Repr

def interpret (arguments : List String) (env : Environment) : Except ArgumentError Intent :=
  match read .empty arguments with
  | .error e => .error e
  | .ok .version => .ok .version
  | .ok .help => .ok .help
  | .ok (.generate a) => (settings a env).map (Intent.generate a)

def perform (env : Environment) (fs : FileSystem) : Intent → Verdict × FileSystem
  | .version => (⟨0, versionText, "", []⟩, fs)
  | .help => (⟨0, usageText, "", []⟩, fs)
  | .generate a settings =>
    match Plan.ofRequests a.outputs a.inputs with
    | .error e => (.misuse e, fs)
    | .ok plan =>
      let source := Dissector.source ⟨settings.program, env.searchPath⟩
      let run := plan.run source settings.oraclePath fs
      (verdict plan (logFilter a env) run.value.1 run.log, run.value.2)

/-- The whole program: its verdict, and the file system it leaves. -/
def execute (arguments : List String) (env : Environment) (fs : FileSystem) : Verdict × FileSystem :=
  match interpret arguments env with
  | .error e => (.refusal e, fs)
  | .ok intent => perform env fs intent

end TlsFixtures.CommandLine
