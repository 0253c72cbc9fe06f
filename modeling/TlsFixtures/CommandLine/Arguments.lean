import TlsFixtures.Plan

/-! Arguments of the command line. Options may stand anywhere before a double dash; a value is the next
argument or follows an equals sign, and only an attached value may begin with a dash. Every option but the
verbosity counts once. Arguments are looked at in order, so whichever of an error or a request for the version
comes first decides. -/
namespace TlsFixtures.CommandLine

inductive ArgumentError where
  | unknownOption (argument : String)
  | missingValue (option : String)
  | unneededValue (option : String)
  | repeated (option : String)
  | emptyPath (option : String)
  deriving DecidableEq, Repr

def ArgumentError.message : ArgumentError → String
  | unknownOption argument => "unexpected argument '" ++ argument ++ "' found"
  | missingValue option => "a value is required for '" ++ option ++ "' but none was supplied"
  | unneededValue option => "unexpected value for '" ++ option ++ "' found; no more were expected"
  | repeated option => "the argument '" ++ option ++ "' cannot be used multiple times"
  | emptyPath option => "a value is required for '" ++ option ++ "' but none was supplied"

structure Arguments where
  ja4 : Option String
  ja4s : Option String
  ja4x : Option String
  program : Option String
  oraclePath : Option String
  noProgress : Bool
  verbosity : Nat
  inputs : List String
  deriving DecidableEq, Repr

namespace Arguments

def empty : Arguments := ⟨none, none, none, none, none, false, 0, []⟩

def outputs (a : Arguments) : List (Variant × String) :=
  [(Variant.ja4, a.ja4), (.ja4s, a.ja4s), (.ja4x, a.ja4x)].filterMap fun (v, path) =>
    path.map (v, ·)

end Arguments

inductive Request where
  | generate (a : Arguments)
  | version
  | help
  deriving DecidableEq, Repr

inductive ValueOption where
  | output (v : Variant)
  | program
  | oraclePath
  deriving DecidableEq, Repr

inductive Flag where
  | noProgress
  | verbose
  | version
  | help
  deriving DecidableEq, Repr

def valueOption? : String → Option ValueOption
  | "ja4" => some (.output .ja4)
  | "ja4s" => some (.output .ja4s)
  | "ja4x" => some (.output .ja4x)
  | "tshark" => some .program
  | "oracle-path" => some .oraclePath
  | _ => none

def longFlag? : String → Option Flag
  | "no-progress" => some .noProgress
  | "verbose" => some .verbose
  | "version" => some .version
  | "help" => some .help
  | _ => none

def shortFlag? : Char → Option Flag
  | 'v' => some .verbose
  | 'V' => some .version
  | 'h' => some .help
  | _ => none

/-- A value where none was; a path is not empty. -/
def setOnce (option value : String) (isPath : Bool) : Option String → Except ArgumentError (Option String)
  | some _ => .error (.repeated option)
  | none => if isPath && value.isEmpty then .error (.emptyPath option) else .ok (some value)

namespace Arguments

def withValue (a : Arguments) (name value : String) : ValueOption → Except ArgumentError Arguments
  | .output .ja4 => return { a with ja4 := ← setOnce name value true a.ja4 }
  | .output .ja4s => return { a with ja4s := ← setOnce name value true a.ja4s }
  | .output .ja4x => return { a with ja4x := ← setOnce name value true a.ja4x }
  | .program => return { a with program := ← setOnce name value true a.program }
  | .oraclePath => return { a with oraclePath := ← setOnce name value false a.oraclePath }

def withInput (a : Arguments) (path : String) : Except ArgumentError Arguments :=
  if path.isEmpty then .error (.emptyPath "[PCAP]...") else .ok { a with inputs := a.inputs ++ [path] }

/-- A flag either changes the arguments or settles what is asked for. -/
def withFlag (a : Arguments) (name : String) : Flag → Except ArgumentError (Arguments ⊕ Request)
  | .noProgress => if a.noProgress then .error (.repeated name) else .ok (.inl { a with noProgress := true })
  | .verbose => .ok (.inl { a with verbosity := a.verbosity + 1 })
  | .version => .ok (.inr .version)
  | .help => .ok (.inr .help)

/-- Flags written in one argument behind a single dash. -/
def withShortFlags (a : Arguments) (argument : String) :
    List Char → Except ArgumentError (Arguments ⊕ Request)
  | [] => .ok (.inl a)
  | c :: rest =>
    match shortFlag? c with
    | none => .error (.unknownOption argument)
    | some flag =>
      match a.withFlag argument flag with
      | .ok (.inl a) => a.withShortFlags argument rest
      | result => result

end Arguments

/-- Whether an argument can be the value of the option before it. -/
def isPlain (argument : String) : Bool :=
  match argument.toList with
  | ['-'] => true
  | '-' :: _ => false
  | _ => true

def readInputs (a : Arguments) : List String → Except ArgumentError Request
  | [] => .ok (.generate a)
  | path :: rest =>
    match a.withInput path with
    | .error e => .error e
    | .ok a => readInputs a rest

/-- The name of a long option, and the value attached to it behind an equals sign. -/
def splitAttached (option : List Char) : String × Option String :=
  (String.ofList (option.takeWhile (· ≠ '=')),
    match option.dropWhile (· ≠ '=') with
    | _ :: value => some (String.ofList value)
    | [] => none)

def read (a : Arguments) : List String → Except ArgumentError Request
  | [] => .ok (.generate a)
  | argument :: rest =>
    match argument.toList with
    | ['-', '-'] => readInputs a rest
    | '-' :: '-' :: option =>
      let (name, attached) := splitAttached option
      match valueOption? name, longFlag? name, attached, rest with
      | some o, _, some value, rest =>
        match a.withValue argument value o with
        | .error e => .error e
        | .ok a => read a rest
      | some o, _, none, value :: rest =>
        if isPlain value then
          match a.withValue argument value o with
          | .error e => .error e
          | .ok a => read a rest
        else .error (.missingValue argument)
      | some _, _, none, [] => .error (.missingValue argument)
      | none, some _, some _, _ => .error (.unneededValue argument)
      | none, some flag, none, rest =>
        match a.withFlag argument flag with
        | .error e => .error e
        | .ok (.inl a) => read a rest
        | .ok (.inr request) => .ok request
      | none, none, _, _ => .error (.unknownOption argument)
    | '-' :: flag :: flags =>
      match a.withShortFlags argument (flag :: flags) with
      | .error e => .error e
      | .ok (.inl a) => read a rest
      | .ok (.inr request) => .ok request
    | _ =>
      match a.withInput argument with
      | .error e => .error e
      | .ok a => read a rest

end TlsFixtures.CommandLine
