import TlsFixtures.Error
import TlsFixtures.Variant

/-! What a run reports while it goes on. Each event has a level, a fixed message, named fields in text form,
and the part of the program it comes from, by which a log can be filtered. A logged value has with it the events that
were reported on the way to it, earliest first. -/
namespace TlsFixtures

inductive Level where
  | trace
  | debug
  | info
  | warn
  | error
  deriving DecidableEq, Repr

namespace Level

def name : Level → String
  | trace => "TRACE"
  | debug => "DEBUG"
  | info => "INFO"
  | warn => "WARN"
  | error => "ERROR"

def severity : Level → Nat
  | trace => 0
  | debug => 1
  | info => 2
  | warn => 3
  | error => 4

end Level

inductive Event where
  | dissectorStarted (capture filter : String) (wireBytes : Bool)
  | diagnosticsUnreadable
  | noFingerprint (frame : UInt64) (field : String)
  | noCertificateFingerprint (frame : UInt64)
  | unexpectedType (frame : UInt64) (found expected : UInt8)
  | shortBody (frame : UInt64) (declared captured : Nat)
  | shortHeader (frame : UInt64) (error : Error)
  | frameSkipped (variant : Variant) (capture : String) (frame : UInt64) (error : Error)
  | captureProcessed (variant : Variant) (capture : String) (records failedFrames : Nat)
  | captureFailed (variant : Variant) (capture : String) (error : Error)
  | fileWritten (variant : Variant) (output : String) (records failedInputs : Nat)
  | outputFailed (variant : Variant) (output : String) (error : Error)
  deriving DecidableEq, Repr

namespace Event

def level : Event → Level
  | dissectorStarted .. => .debug
  | diagnosticsUnreadable => .debug
  | noFingerprint .. => .trace
  | noCertificateFingerprint .. => .trace
  | unexpectedType .. => .warn
  | shortBody .. => .warn
  | shortHeader .. => .warn
  | frameSkipped .. => .warn
  | captureProcessed .. => .debug
  | captureFailed .. => .error
  | fileWritten .. => .info
  | outputFailed .. => .error

def message : Event → String
  | dissectorStarted .. => "started tshark"
  | diagnosticsUnreadable => "tshark diagnostics could not be read"
  | noFingerprint .. => "no fingerprint"
  | noCertificateFingerprint .. => "no certificate fingerprint"
  | unexpectedType .. => "raw handshake has an unexpected type"
  | shortBody .. => "raw handshake is shorter than its declared length"
  | shortHeader .. => "raw handshake too short to inspect"
  | frameSkipped .. => "skipping frame"
  | captureProcessed .. => "capture processed"
  | captureFailed .. => "capture failed"
  | fileWritten .. => "fixture file written"
  | outputFailed .. => "output failed"

def boolText (b : Bool) : String := if b then "true" else "false"

def fields : Event → List (String × String)
  | dissectorStarted capture filter wireBytes =>
    [("capture", capture), ("filter", filter), ("raw", boolText wireBytes)]
  | diagnosticsUnreadable => [("error", AccessError.invalidUtf8.message)]
  | noFingerprint frame field => [("frame", frame.toNat.repr), ("field", field)]
  | noCertificateFingerprint frame => [("frame", frame.toNat.repr)]
  | unexpectedType frame found expected =>
    [("frame", frame.toNat.repr), ("found", found.toNat.repr), ("expected", expected.toNat.repr)]
  | shortBody frame declared captured =>
    [("frame", frame.toNat.repr), ("declared", declared.repr), ("captured", captured.repr)]
  | shortHeader frame error => [("frame", frame.toNat.repr), ("error", error.message)]
  | frameSkipped variant capture frame error =>
    [("fingerprint", variant.label), ("capture", capture), ("frame", frame.toNat.repr),
      ("error", error.message)]
  | captureProcessed variant capture records failedFrames =>
    [("fingerprint", variant.label), ("capture", capture), ("records", records.repr),
      ("failed_frames", failedFrames.repr)]
  | captureFailed variant capture error =>
    [("fingerprint", variant.label), ("capture", capture), ("error", error.message)]
  | fileWritten variant output records failedInputs =>
    [("fingerprint", variant.label), ("output", output), ("records", records.repr),
      ("failed_inputs", failedInputs.repr)]
  | outputFailed variant output error =>
    [("fingerprint", variant.label), ("output", output), ("error", error.message)]

/-- Whether the event is reported beside the run, so that its place among the others means nothing. -/
def isConcurrent : Event → Bool
  | diagnosticsUnreadable => true
  | _ => false

/-- The events whose places in a log do mean something. -/
def inOrder (log : List Event) : List Event := log.filter fun event => !event.isConcurrent

/-- The target that log filters know the event's part of the program by. -/
def target : Event → String
  | dissectorStarted .. => "ja4_fixtures::capture"
  | diagnosticsUnreadable => "ja4_fixtures::capture"
  | captureFailed .. => "ja4_fixtures::driver"
  | fileWritten .. => "ja4_fixtures::driver"
  | outputFailed .. => "ja4_fixtures::driver"
  | _ => "ja4_fixtures::extract"

end Event

structure Logged (α : Type) where
  value : α
  log : List Event
  deriving DecidableEq, Repr

namespace Logged

def silent (a : α) : Logged α := ⟨a, []⟩

def andThen (x : Logged α) (f : α → Logged β) : Logged β :=
  ⟨(f x.value).value, x.log ++ (f x.value).log⟩

def note (event : Event) : Logged Unit := ⟨(), [event]⟩

instance : Monad Logged where
  pure := silent
  bind := andThen

@[simp] theorem value_pure (a : α) : (pure a : Logged α).value = a := rfl
@[simp] theorem log_pure (a : α) : (pure a : Logged α).log = [] := rfl

@[simp] theorem value_bind (x : Logged α) (f : α → Logged β) :
    (x >>= f).value = (f x.value).value := rfl

@[simp] theorem log_bind (x : Logged α) (f : α → Logged β) :
    (x >>= f).log = x.log ++ (f x.value).log := rfl

@[simp] theorem value_map (f : α → β) (x : Logged α) : (f <$> x).value = f x.value := rfl

@[simp] theorem log_map (f : α → β) (x : Logged α) : (f <$> x).log = x.log := by
  show x.log ++ [] = x.log
  simp

@[simp] theorem log_note (event : Event) : (note event).log = [event] := rfl

end Logged

end TlsFixtures
