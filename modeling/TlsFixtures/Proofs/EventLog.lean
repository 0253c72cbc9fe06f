import TlsFixtures.Proofs.Harvesting

/-! The log of a run as a record of what failed, by the levels, messages and fields that its lines show. Each
output has its part of the log, in which every input has one passage: what its source reports, the frames that
are skipped, and at last how the capture ended. The part closes with the outcome of the output, whose counters
are those of the passages. -/
namespace TlsFixtures

/-- What a log shows of an event. -/
structure LogLine where
  level : Level
  message : String
  fields : List (String × String)
  deriving DecidableEq, Repr

namespace LogLine

def tells (level : Level) (message : String) (line : LogLine) : Bool :=
  line.level = level && line.message = message

/-- Whether the line tells how a capture or an output ended. -/
def isClosing (line : LogLine) : Bool :=
  line.tells .debug "capture processed" || line.tells .error "capture failed" ||
    line.tells .info "fixture file written" || line.tells .error "output failed"

def frameSkipped (v : Variant) (file : String) (frame : UInt64) (fault : Error) : LogLine where
  level := .warn
  message := "skipping frame"
  fields := [("fingerprint", v.label), ("capture", file), ("frame", frame.toNat.repr), ("error", fault.message)]

def captureProcessed (v : Variant) (file : String) (records failedFrames : Nat) : LogLine where
  level := .debug
  message := "capture processed"
  fields := [("fingerprint", v.label), ("capture", file), ("records", records.repr),
    ("failed_frames", failedFrames.repr)]

def captureFailed (v : Variant) (input : String) (fault : Error) : LogLine where
  level := .error
  message := "capture failed"
  fields := [("fingerprint", v.label), ("capture", input), ("error", fault.message)]

def fileWritten (v : Variant) (path : String) (records failedInputs : Nat) : LogLine where
  level := .info
  message := "fixture file written"
  fields := [("fingerprint", v.label), ("output", path), ("records", records.repr),
    ("failed_inputs", failedInputs.repr)]

def outputFailed (v : Variant) (path : String) (fault : Error) : LogLine where
  level := .error
  message := "output failed"
  fields := [("fingerprint", v.label), ("output", path), ("error", fault.message)]

/-- The sum of the numbers that lines give under a name; some may give none. -/
inductive Total (name : String) : List LogLine → Nat → Prop where
  | nil : Total name [] 0
  | unnamed : line.fields.lookup name = none → Total name lines sum → Total name (line :: lines) sum
  | named : line.fields.lookup name = some number.repr → Total name lines sum →
      Total name (line :: lines) (number + sum)

end LogLine

namespace Event

def line (event : Event) : LogLine := ⟨event.level, event.message, event.fields⟩

/-- The lines of a log whose places in it mean something. -/
def lines (log : List Event) : List LogLine := (inOrder log).map line

/-- Whether the event is about a frame that is not skipped. -/
def isRemark : Event → Bool
  | noFingerprint .. => true
  | noCertificateFingerprint .. => true
  | unexpectedType .. => true
  | shortBody .. => true
  | shortHeader .. => true
  | _ => false

end Event

namespace Run

open Extraction

/-- The lines about one input. -/
structure Passage where
  opening : List LogLine
  reading : List LogLine
  closing : LogLine

def Passage.lines (p : Passage) : List LogLine := p.opening ++ p.reading ++ [p.closing]

/-- The report on a frame that is skipped. -/
def skip? (v : Variant) (file : String) (frame : Frame) : Option LogLine :=
  match (ofFrame v frame file).value with
  | .ok _ => none
  | .error fault => some (.frameSkipped v file frame.number fault)

/-- Lines while frames are read: each frame that fails is reported, in the order of the stream, and no end of
a capture or an output is. -/
structure Reads (v : Variant) (file : String) (frames : List Frame) (reading : List LogLine) : Prop where
  skipped : reading.filter (LogLine.tells .warn "skipping frame") = frames.filterMap (skip? v file)
  unclosed : ∀ line ∈ reading, line.isClosing = false

def opening (source : Source) (fs : FileSystem) (v : Variant) (input : String) : List LogLine :=
  Event.lines (source.frames fs input v.query).log

/-- What an input adds to the log, beside what it adds to the records. -/
inductive Passes (source : Source) (fs : FileSystem) (v : Variant) (input : String) :
    Passage → Except Error (List v.Record) → Prop where
  | unopened : (source.frames fs input v.query).value = .error fault →
      Passes source fs v input ⟨opening source fs v input, [], .captureFailed v input fault⟩ (.error fault)
  | broken {frames : List Frame} :
      (source.frames fs input v.query).value = .ok (frames.map .ok ++ .error fault :: rest) →
      Reads v (Path.fileName input) frames reading →
      Passes source fs v input ⟨opening source fs v input, reading, .captureFailed v input fault⟩ (.error fault)
  | processed {frames : List Frame} :
      (source.frames fs input v.query).value = .ok (frames.map .ok) →
      Reads v (Path.fileName input) frames reading →
      Passes source fs v input
        ⟨opening source fs v input, reading, .captureProcessed v (Path.fileName input) records.length
          (reading.countP (LogLine.tells .warn "skipping frame"))⟩ (.ok records)

/-- One passage for each input, in their order. -/
inductive Passed (source : Source) (fs : FileSystem) (v : Variant) : List String → List Passage → Prop where
  | nil : Passed source fs v [] []
  | cons : Passes source fs v input p (ofCapture source fs v input).value → Passed source fs v inputs passages →
      Passed source fs v (input :: inputs) (p :: passages)

def failedPassages (passages : List Passage) : Nat :=
  passages.countP fun p => p.closing.tells .error "capture failed"

/-- The part of the log that is about one output. -/
inductive OutputLog (source : Source) (fs : FileSystem) (inputs : List String) (v : Variant) (path : String) :
    Except Error Summary → List LogLine → Prop where
  | written : Passed source fs v inputs passages →
      LogLine.Total "records" (passages.map Passage.closing) records → failedPassages passages = failedInputs →
      OutputLog source fs inputs v path (.ok ⟨records, failedInputs⟩)
        (passages.flatMap Passage.lines ++ [.fileWritten v path records failedInputs])
  | unusable : Passed source fs v inputs passages → failedPassages passages = inputs.length →
      OutputLog source fs inputs v path (.error (.noUsableInput inputs.length))
        (passages.flatMap Passage.lines ++ [.outputFailed v path (.noUsableInput inputs.length)])
  | unwritable : Passed source fs v inputs passages → failedPassages passages < inputs.length →
      OutputLog source fs inputs v path (.error (.access path cause))
        (passages.flatMap Passage.lines ++ [.outputFailed v path (.access path cause)])

/-- The log of outputs in their order, beside their reports and what they leave. -/
inductive RunLog (source : Source) (oraclePath : String) (inputs : List String) :
    FileSystem → List (Variant × String) → List Report → FileSystem → List LogLine → Prop where
  | nil : RunLog source oraclePath inputs fs [] [] fs []
  | cons : Delivers source oraclePath inputs fs v path outcome next →
      OutputLog source fs inputs v path outcome part →
      RunLog source oraclePath inputs next requested reports fs' log →
      RunLog source oraclePath inputs fs ((v, path) :: requested) (⟨v, path, outcome⟩ :: reports) fs' (part ++ log)

end Run

namespace Event

theorem lines_append (first second : List Event) : lines (first ++ second) = lines first ++ lines second := by
  simp only [lines, inOrder, List.filter_append, List.map_append]

theorem mem_lines {log : List Event} {line : LogLine} (member : line ∈ lines log) :
    ∃ event ∈ log, event.line = line := by
  obtain ⟨event, ordered, shown⟩ := List.mem_map.mp member
  exact ⟨event, (List.mem_filter.mp ordered).1, shown⟩

theorem tells_skipping_remark {event : Event} (remark : event.isRemark = true) :
    event.line.tells .warn "skipping frame" = false := by
  cases event <;> simp [isRemark] at remark <;> simp [line, LogLine.tells, level, message]

theorem isClosing_remark {event : Event} (remark : event.isRemark = true) : event.line.isClosing = false := by
  cases event <;> simp [isRemark] at remark <;> simp [line, LogLine.isClosing, LogLine.tells, level, message]

end Event

namespace Extraction

theorem oddity?_remark {number : UInt64} {expected : Handshake.MessageType} {payload : List UInt8} {event : Event}
    (odd : event ∈ oddity? number expected payload) : event.isRemark = true := by
  unfold oddity? at odd
  split at odd
  next =>
    obtain rfl := Option.some.inj odd
    rfl
  next =>
    split at odd
    · obtain rfl := Option.some.inj odd
      rfl
    · split at odd
      · obtain rfl := Option.some.inj odd
        rfl
      · exact nomatch odd

theorem hello_remarks {frame : Frame} {file fingerprintField : String} {expected : Handshake.MessageType} :
    ∀ event ∈ (hello frame file expected fingerprintField).log, event.isRemark = true := by
  intro event member
  unfold hello at member
  split at member
  · simp at member
  · split at member
    · obtain rfl := List.mem_singleton.mp member
      rfl
    · split at member
      · simp at member
      · exact oddity?_remark (Option.mem_toList.mp member)

theorem certificates_remarks {frame : Frame} {file : String} :
    ∀ event ∈ (certificates frame file).log, event.isRemark = true := by
  intro event member
  unfold certificates at member
  split at member
  · simp at member
  · split at member
    · simp at member
    · obtain rfl := List.mem_singleton.mp member
      rfl

theorem ofFrame_remarks (v : Variant) (frame : Frame) (file : String) :
    ∀ event ∈ (ofFrame v frame file).log, event.isRemark = true := by
  cases v with
  | ja4 => exact hello_remarks
  | ja4s => exact hello_remarks
  | ja4x => exact certificates_remarks

theorem lines_visit (v : Variant) (file : String) (frame : Frame) :
    Event.lines (visit v.extractor file frame).log =
      Event.lines (ofFrame v frame file).log ++ (Run.skip? v file frame).toList := by
  simp only [visit, Logged.log_bind, Variant.ofFrame_extractor, Variant.variant_extractor, Run.skip?,
    Event.lines_append]
  cases (ofFrame v frame file).value <;> rfl

/-- The lines about frames at the head of a stream come first. -/
theorem lines_harvest_append (v : Variant) (file : String) (frames : List Frame) (rest : Frames) :
    Event.lines (harvest v.extractor file (frames.map .ok ++ rest)).log =
      frames.flatMap (fun frame => Event.lines (visit v.extractor file frame).log) ++
        Event.lines (harvest v.extractor file rest).log := by
  induction frames with
  | nil => rfl
  | cons frame frames ih =>
    simp only [List.map_cons, List.cons_append, harvest, Logged.log_bind, Logged.log_pure, ih,
      List.flatMap_cons, List.append_nil, List.append_assoc, Event.lines_append]

end Extraction

namespace Run

open Extraction

variable {source : Source} {fs fs' : FileSystem} {v : Variant} {input file path oraclePath : String}
  {inputs : List String} {frames : List Frame} {reading : List LogLine} {passages : List Passage}
  {outcome : Except Error Summary}

theorem skip?_line {frame : Frame} {line : LogLine} (skipped : line ∈ skip? v file frame) :
    line.tells .warn "skipping frame" = true ∧ line.isClosing = false := by
  unfold skip? at skipped
  split at skipped
  · exact nomatch skipped
  · obtain rfl := Option.some.inj skipped
    exact ⟨rfl, rfl⟩

theorem Reads.append (first : Reads v file frames reading) {others : List Frame} {later : List LogLine}
    (second : Reads v file others later) : Reads v file (frames ++ others) (reading ++ later) := by
  constructor
  · rw [List.filter_append, List.filterMap_append, first.skipped, second.skipped]
  · intro line member
    rcases List.mem_append.mp member with member | member
    · exact first.unclosed line member
    · exact second.unclosed line member

theorem reads_visit (v : Variant) (file : String) (frame : Frame) :
    Reads v file [frame] (Event.lines (visit v.extractor file frame).log) := by
  have remarks := ofFrame_remarks v frame file
  rw [lines_visit]
  constructor
  · have none : (Event.lines (ofFrame v frame file).log).filter (LogLine.tells .warn "skipping frame") = [] := by
      apply List.filter_eq_nil_iff.mpr
      intro line member
      obtain ⟨event, remark, rfl⟩ := Event.mem_lines member
      simp [Event.tells_skipping_remark (remarks event remark)]
    rw [List.filter_append, none]
    cases skipped : skip? v file frame with
    | none => simp [skipped]
    | some line =>
      have said := (skip?_line (Option.mem_def.mpr skipped)).1
      simp [skipped, said]
  · intro line member
    rcases List.mem_append.mp member with remark | skipped
    · obtain ⟨event, inside, rfl⟩ := Event.mem_lines remark
      exact Event.isClosing_remark (remarks event inside)
    · exact (skip?_line (Option.mem_toList.mp skipped)).2

theorem reads_flatMap (v : Variant) (file : String) (frames : List Frame) :
    Reads v file frames (frames.flatMap fun frame => Event.lines (visit v.extractor file frame).log) := by
  induction frames with
  | nil => exact ⟨rfl, by simp⟩
  | cons frame frames ih => exact (reads_visit v file frame).append ih

theorem length_skips (v : Variant) (file : String) (frames : List Frame) :
    (frames.filterMap (skip? v file)).length = failures (frames.map fun frame => (ofFrame v frame file).value) := by
  induction frames with
  | nil => rfl
  | cons frame frames ih =>
    cases result : (ofFrame v frame file).value <;> simp [skip?, result, ih]

theorem Reads.count (reads : Reads v file frames reading) :
    reading.countP (LogLine.tells .warn "skipping frame") =
      failures (frames.map fun frame => (ofFrame v frame file).value) := by
  rw [List.countP_eq_length_filter, reads.skipped, length_skips]

theorem log_readInput (source : Source) (fs : FileSystem) (v : Variant) (input : String) :
    (readInput source fs v input).log = (ofCapture source fs v input).log ++
      match (ofCapture source fs v input).value with
      | .ok _ => []
      | .error fault => [.captureFailed v input fault] := by
  simp only [readInput, Logged.log_bind]
  cases (ofCapture source fs v input).value <;> simp

theorem log_ofCapture (source : Source) (fs : FileSystem) (v : Variant) (input : String) :
    (ofCapture source fs v input).log = (source.frames fs input v.query).log ++
      match (source.frames fs input v.query).value with
      | .error _ => []
      | .ok stream =>
        let read := harvest v.extractor (Path.fileName input) stream
        read.log ++
          match read.value with
          | .error _ => []
          | .ok h => [.captureProcessed v (Path.fileName input) h.records.length h.failedFrames] := by
  simp only [ofCapture, Extractor.ofCapture, Logged.log_bind, Variant.query_extractor]
  cases (source.frames fs input v.query).value with
  | error fault => rfl
  | ok stream =>
    simp only [Logged.log_bind, Variant.variant_extractor]
    cases (harvest v.extractor (Path.fileName input) stream).value <;> simp

theorem readInput_passes (source : Source) (fs : FileSystem) (v : Variant) (input : String) :
    ∃ p, Passes source fs v input p (ofCapture source fs v input).value ∧
      Event.lines (readInput source fs v input).log = p.lines := by
  have result : (ofCapture source fs v input).value =
      (source.frames fs input v.query).value.bind (yield v.extractor (Path.fileName input)) :=
    value_ofCapture v.extractor source fs input
  rw [log_readInput, log_ofCapture, result]
  cases opened : (source.frames fs input v.query).value with
  | error fault =>
    refine ⟨_, .unopened opened, ?_⟩
    simp only [Except.bind, Passage.lines, opening, List.append_nil, Event.lines_append]
    rfl
  | ok stream =>
    rcases frames_or_broken stream with ⟨frames, rfl⟩ | ⟨frames, fault, rest, rfl⟩
    · have reads := reads_flatMap v (Path.fileName input) frames
      have read := value_harvest_frames v.extractor (Path.fileName input) frames
      have shown := lines_harvest_append v (Path.fileName input) frames []
      rw [List.append_nil] at shown
      simp only [Except.bind, yield_frames, read]
      refine ⟨_, .processed opened reads, ?_⟩
      simp only [Passage.lines, opening, reads.count, Event.lines_append, shown, List.append_assoc,
        Variant.ofFrame_extractor]
      rfl
    · have reads := reads_flatMap v (Path.fileName input) frames
      have shown := lines_harvest_append v (Path.fileName input) frames (.error fault :: rest)
      simp only [Except.bind, yield_broken, value_harvest_broken]
      refine ⟨_, .broken opened reads, ?_⟩
      simp only [Passage.lines, opening, Event.lines_append, shown, List.append_assoc]
      rfl

theorem gather_passed (source : Source) (fs : FileSystem) (v : Variant) (inputs : List String) :
    ∃ passages, Passed source fs v inputs passages ∧
      Event.lines (gather source fs v inputs).log = passages.flatMap Passage.lines := by
  induction inputs with
  | nil => exact ⟨[], .nil, rfl⟩
  | cons input rest ih =>
    obtain ⟨p, passes, first⟩ := readInput_passes source fs v input
    obtain ⟨passages, passed, later⟩ := ih
    refine ⟨p :: passages, .cons passes passed, ?_⟩
    simp only [gather, Logged.log_bind, Logged.log_pure, List.append_nil, Event.lines_append, first, later,
      List.flatMap_cons]

theorem Passes.failed {p : Passage} {reading : Except Error (List v.Record)}
    (passes : Passes source fs v input p reading) :
    p.closing.tells .error "capture failed" = !reading.isOk := by
  cases passes with
  | unopened => rfl
  | broken => rfl
  | processed => rfl

theorem Passed.failed (passed : Passed source fs v inputs passages) :
    failedPassages passages = failures (readings source fs v inputs) := by
  induction passed with
  | nil => rfl
  | @cons input p inputs passages passes _ ih =>
    have first := passes.failed
    simp only [failedPassages, failures, readings, List.map_cons, List.countP_cons, first] at ih ⊢
    rw [ih]

theorem Passed.recorded (passed : Passed source fs v inputs passages) :
    LogLine.Total "records" (passages.map Passage.closing) (successes (readings source fs v inputs)).length := by
  induction passed with
  | nil => exact .nil
  | @cons input p inputs passages passes _ ih =>
    cases reading : (ofCapture source fs v input).value with
    | error fault =>
      rw [reading] at passes
      have same : successes (readings source fs v (input :: inputs)) = successes (readings source fs v inputs) := by
        simp [readings, reading]
      rw [same]
      refine .unnamed ?_ ih
      cases passes with
      | unopened => rfl
      | broken => rfl
    | ok records =>
      rw [reading] at passes
      have split : (successes (readings source fs v (input :: inputs))).length =
          records.length + (successes (readings source fs v inputs)).length := by
        simp [readings, reading]
      rw [split]
      refine .named ?_ ih
      cases passes with
      | processed => rfl

theorem Delivers.outputLog (delivers : Delivers source oraclePath inputs fs v path outcome fs')
    (passed : Passed source fs v inputs passages) :
    OutputLog source fs inputs v path outcome
      (passages.flatMap Passage.lines ++ [(outcomeEvent v path outcome).line]) := by
  cases delivers with
  | unusable all =>
    exact .unusable passed (passed.failed.trans ((failures_eq_length_iff source fs v inputs).mpr all))
  | unwritable usable _ =>
    have some := mt (failures_eq_length_iff source fs v inputs).mp ((usable_iff _).mp usable)
    have bound : failures (readings source fs v inputs) ≤ (readings source fs v inputs).length :=
      List.countP_le_length
    rw [readings, List.length_map] at bound
    exact .unwritable passed (passed.failed ▸ Nat.lt_of_le_of_ne bound some)
  | written => exact .written passed passed.recorded passed.failed

theorem log_generate (source : Source) (oraclePath : String) (inputs : List String) (fs : FileSystem)
    (v : Variant) (path : String) :
    (generate source oraclePath inputs fs (v, path)).log = (gather source fs v inputs).log ++
      [outcomeEvent v path (generate source oraclePath inputs fs (v, path)).value.1.outcome] := by
  simp only [generate, Logged.log_bind, Logged.log_note, Logged.log_pure, List.append_nil]
  rfl

theorem lines_outcomeEvent (v : Variant) (path : String) (outcome : Except Error Summary) :
    Event.lines [outcomeEvent v path outcome] = [(outcomeEvent v path outcome).line] := by
  cases outcome <;> rfl

theorem outputs_logged (source : Source) (oraclePath : String) (inputs : List String) (fs : FileSystem)
    (requested : List (Variant × String)) :
    let run := outputs source oraclePath inputs fs requested
    RunLog source oraclePath inputs fs requested run.value.1 run.value.2 (Event.lines run.log) := by
  induction requested generalizing fs with
  | nil => exact .nil
  | cons output rest ih =>
    obtain ⟨v, path⟩ := output
    obtain ⟨passages, passed, gathered⟩ := gather_passed source fs v inputs
    have delivers := writeOutput_delivers source oraclePath inputs fs v path
    have part := delivers.outputLog passed
    simp only [outputs, Logged.value_bind, Logged.value_pure, Logged.log_bind, Logged.log_pure, log_generate,
      value_generate, Event.lines_append, List.append_nil, gathered, lines_outcomeEvent]
    exact .cons delivers part (ih _)

end Run

/-- The line about the start of the dissector on a capture. -/
def Dissector.startLine (path : String) (query : FrameQuery) : LogLine where
  level := .debug
  message := "started tshark"
  fields := [("capture", path), ("filter", query.filter), ("raw", Event.boolText query.wireBytes)]

theorem Dissector.opening_subset (d : Dissector) (fs : FileSystem) (path : String) (query : FrameQuery) :
    Event.lines (d.source.frames fs path query).log ⊆ [startLine path query] := by
  have started : (d.source.frames fs path query).log = (d.start fs path query).log := by
    simp only [Dissector.source, Logged.log_bind, Logged.log_pure, List.append_nil]
  rw [started, Dissector.start]
  split
  · exact List.nil_subset _
  · split
    · exact List.nil_subset _
    · simp only [Logged.log_bind, Logged.log_note, Event.lines_append]
      apply List.append_subset.mpr
      constructor
      · exact List.Subset.refl _
      · split
        · exact List.nil_subset _
        · exact List.nil_subset _

namespace Run

/-- No failure is silent, and the counts of the log are those of the reports. Before a capture is read the
dissector reports no more than its start. -/
theorem log_balances :
    (∀ (d : Dissector) (fs : FileSystem) (path : String) (query : FrameQuery),
      Event.lines (d.source.frames fs path query).log ⊆ [Dissector.startLine path query]) ∧
    ∀ (plan : Plan) (source : Source) (oraclePath : String) (fs : FileSystem),
      let run := plan.run source oraclePath fs
      RunLog source oraclePath plan.inputs fs plan.outputs run.value.1 run.value.2 (Event.lines run.log) :=
  ⟨Dissector.opening_subset, fun plan source oraclePath fs =>
    outputs_logged source oraclePath plan.inputs fs plan.outputs⟩

end Run

end TlsFixtures
