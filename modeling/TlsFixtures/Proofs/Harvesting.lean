import TlsFixtures.Proofs.Generation

/-! What a capture yields. Its stream is read whole or not at all: a first error is the result, whatever frames
came before it. A frame that fails costs the capture nothing but what it would have carried, so frames that
fail and frames without records may come and go. -/
namespace TlsFixtures.Extraction

open Run (successes failures)

/-- Extraction from the frame fails, or finds nothing. -/
def Idle (e : Extractor α) (file : String) (frame : Frame) : Prop :=
  (∃ fault, (e.ofFrame frame file).value = .error fault) ∨ (e.ofFrame frame file).value = .ok []

/-- Streams that idle frames, put in or left out, make of one another. -/
inductive AlikeButIdle (e : Extractor α) (file : String) : Frames → Frames → Prop where
  | nil : AlikeButIdle e file [] []
  | both : AlikeButIdle e file stream other → AlikeButIdle e file (item :: stream) (item :: other)
  | left : Idle e file frame → AlikeButIdle e file stream other → AlikeButIdle e file (.ok frame :: stream) other
  | right : Idle e file frame → AlikeButIdle e file stream other → AlikeButIdle e file stream (.ok frame :: other)

/-- What becomes of a capture that was opened with a stream, or not at all. -/
inductive EndsAs (e : Extractor α) (file : String) : Except Error Frames → Except Error (List α) → Prop where
  | unopened : EndsAs e file (.error fault) (.error fault)
  | broken {frames : List Frame} : EndsAs e file (.ok (frames.map .ok ++ .error fault :: rest)) (.error fault)
  | whole {frames : List Frame} : EndsAs e file (.ok (frames.map .ok))
      (.ok (successes (frames.map fun frame => (e.ofFrame frame file).value)))

/-- The records of a stream. -/
def yield (e : Extractor α) (file : String) (stream : Frames) : Except Error (List α) :=
  (harvest e file stream).value.map (·.records)

variable {α : Type} {e : Extractor α} {file : String} {frame : Frame} {stream other : Frames}

theorem value_ofCapture (e : Extractor α) (source : Source) (fs : FileSystem) (path : String) :
    (e.ofCapture source fs path).value =
      (source.frames fs path e.query).value.bind (yield e (Path.fileName path)) := by
  simp only [Extractor.ofCapture, Logged.value_bind]
  cases (source.frames fs path e.query).value with
  | error fault => rfl
  | ok stream =>
    simp only [Logged.value_bind, Except.bind, yield]
    cases (harvest e (Path.fileName path) stream).value <;> rfl

theorem value_ofCapture_opened {source : Source} {fs : FileSystem} {path : String}
    (opened : (source.frames fs path e.query).value = .ok stream) :
    (e.ofCapture source fs path).value = yield e (Path.fileName path) stream := by
  rw [value_ofCapture, opened]
  rfl

theorem yield_nil : yield e file [] = .ok [] := rfl

theorem yield_ok (e : Extractor α) (file : String) (frame : Frame) (rest : Frames) :
    yield e file (.ok frame :: rest) =
      (yield e file rest).map (successes [(e.ofFrame frame file).value] ++ ·) := by
  simp only [yield, harvest, Logged.value_bind, Logged.value_pure, value_visit]
  cases (harvest e file rest).value with
  | error fault => rfl
  | ok later => cases (e.ofFrame frame file).value <;> simp [Except.map, Harvest.precededBy]

theorem yield_idle (idle : Idle e file frame) (rest : Frames) :
    yield e file (.ok frame :: rest) = yield e file rest := by
  have nothing : successes [(e.ofFrame frame file).value] = [] := by
    rcases idle with ⟨fault, failed⟩ | empty
    · rw [failed]
      rfl
    · rw [empty]
      rfl
  rw [yield_ok, nothing]
  cases yield e file rest <;> rfl

theorem yield_append (front back : Frames) :
    yield e file (front ++ back) = do return (← yield e file front) ++ (← yield e file back) := by
  induction front with
  | nil =>
    rw [List.nil_append, yield_nil]
    cases yield e file back <;> rfl
  | cons item front ih =>
    cases item with
    | error fault => rfl
    | ok frame =>
      rw [List.cons_append, yield_ok, yield_ok, ih]
      cases yield e file front with
      | error fault => rfl
      | ok found => cases yield e file back <;> simp [Except.map, bind, Except.bind, pure, Except.pure]

theorem value_harvest_frames (e : Extractor α) (file : String) (frames : List Frame) :
    let results := frames.map fun frame => (e.ofFrame frame file).value
    (harvest e file (frames.map .ok)).value = .ok ⟨successes results, failures results⟩ := by
  induction frames with
  | nil => rfl
  | cons frame frames ih =>
    simp only [List.map_cons, harvest, Logged.value_bind, Logged.value_pure, value_visit, ih]
    cases (e.ofFrame frame file).value <;> simp [Except.map, Harvest.precededBy]

theorem yield_frames (e : Extractor α) (file : String) (frames : List Frame) :
    yield e file (frames.map .ok) = .ok (successes (frames.map fun frame => (e.ofFrame frame file).value)) := by
  rw [yield, value_harvest_frames]
  rfl

theorem value_harvest_broken (e : Extractor α) (file : String) (frames : List Frame) (fault : Error)
    (rest : Frames) : (harvest e file (frames.map .ok ++ .error fault :: rest)).value = .error fault := by
  induction frames with
  | nil => rfl
  | cons frame frames ih =>
    simp only [List.map_cons, List.cons_append, harvest, Logged.value_bind, Logged.value_pure, ih]
    rfl

theorem yield_broken (frames : List Frame) (fault : Error) (rest : Frames) :
    yield e file (frames.map .ok ++ .error fault :: rest) = .error fault := by
  rw [yield, value_harvest_broken]
  rfl

theorem AlikeButIdle.yield_eq (alike : AlikeButIdle e file stream other) :
    yield e file stream = yield e file other := by
  induction alike with
  | nil => rfl
  | @both _ _ item _ ih =>
    cases item with
    | error fault => rfl
    | ok frame => rw [yield_ok, yield_ok, ih]
  | left idle _ ih => rw [yield_idle idle, ih]
  | right idle _ ih => rw [yield_idle idle, ih]

/-- A stream holds frames only, or a first error after some frames. -/
theorem frames_or_broken (stream : Frames) : (∃ frames : List Frame, stream = frames.map .ok) ∨
    ∃ (frames : List Frame) (fault : Error) (rest : Frames), stream = frames.map .ok ++ .error fault :: rest := by
  induction stream with
  | nil => exact .inl ⟨[], rfl⟩
  | cons item stream ih =>
    cases item with
    | error fault => exact .inr ⟨[], fault, stream, rfl⟩
    | ok frame =>
      rcases ih with ⟨frames, rfl⟩ | ⟨frames, fault, rest, rfl⟩
      · exact .inl ⟨frame :: frames, rfl⟩
      · exact .inr ⟨frame :: frames, fault, rest, rfl⟩

theorem endsAs_iff {opened : Except Error Frames} {outcome : Except Error (List α)} :
    EndsAs e file opened outcome ↔ opened.bind (yield e file) = outcome := by
  constructor
  · intro ends
    cases ends with
    | unopened => rfl
    | broken => exact yield_broken _ _ _
    | whole => exact yield_frames _ _ _
  · rintro rfl
    cases opened with
    | error fault => exact .unopened
    | ok stream =>
      rcases frames_or_broken stream with ⟨frames, rfl⟩ | ⟨frames, fault, rest, rfl⟩
      · simpa only [Except.bind, yield_frames] using EndsAs.whole
      · simpa only [Except.bind, yield_broken] using EndsAs.broken

/-- A capture is returned whole or not at all, and frames fail one by one: the first error of a stream is the
outcome, and otherwise the records of the frames that do not fail follow one another. So captures that follow
one another yield what each of them yields, and idle frames make no difference. -/
theorem capture_all_or_nothing (e : Extractor α) (fs : FileSystem) (path : String) :
    let opened := fun source : Source => (source.frames fs path e.query).value
    let result := fun source : Source => (e.ofCapture source fs path).value
    (∀ source outcome, result source = outcome ↔ EndsAs e (Path.fileName path) (opened source) outcome) ∧
    (∀ source first second front back, opened first = .ok front → opened second = .ok back →
      opened source = .ok (front ++ back) →
        result source = do return (← result first) ++ (← result second)) ∧
    (∀ source other stream stream', opened source = .ok stream → opened other = .ok stream' →
      AlikeButIdle e (Path.fileName path) stream stream' → result source = result other) := by
  intro opened result
  have reads : ∀ source stream, opened source = .ok stream →
      result source = yield e (Path.fileName path) stream := by
    intro source stream known
    simp only [result, value_ofCapture]
    rw [show (source.frames fs path e.query).value = .ok stream from known]
    rfl
  refine ⟨?_, ?_, ?_⟩
  · intro source outcome
    simp only [result, value_ofCapture]
    exact endsAs_iff.symm
  · intro source first second front back knownFront knownBack known
    rw [reads source _ known, reads first _ knownFront, reads second _ knownBack]
    exact yield_append front back
  · intro source other stream stream' known known' alike
    rw [reads source _ known, reads other _ known']
    exact alike.yield_eq

def chainFrame (number : UInt64) (certificate fingerprint : String) : Frame :=
  FieldTable.frame ⟨number, [tlsLayer], [(certificateField, .one certificate), (ja4xField, .one fingerprint)], []⟩

def inMemory (entries : List (Except String Frame)) : Source := Archive.source ⟨[("a.pcap", entries)], []⟩

/-- A capture in two parts, of which the first ends with a certificate of half a byte too many. -/
theorem twoParts_all_or_nothing :
    let first := chainFrame 4 "30:0A" "x1"
    let odd := chainFrame 5 "30:0" "x2"
    let last := chainFrame 7 "30 0B" "x3"
    let opened := fun source : Source => (source.frames (.bare []) "a.pcap" Variant.ja4x.query).value
    let result := fun source : Source => (Variant.ja4x.extractor.ofCapture source (.bare []) "a.pcap").value
    let whole := inMemory [.ok first, .ok odd, .ok last]
    opened whole = .ok ([.ok first, .ok odd] ++ [.ok last]) ∧
    result whole = .ok [⟨"a.pcap", 4, [0x30, 0x0a], "x1"⟩, ⟨"a.pcap", 7, [0x30, 0x0b], "x3"⟩] ∧
    (result whole = do
      return (← result (inMemory [.ok first, .ok odd])) ++ (← result (inMemory [.ok last]))) ∧
    AlikeButIdle Variant.ja4x.extractor "a.pcap" [.ok first, .ok odd, .ok last] [.ok first, .ok last] ∧
    result whole = result (inMemory [.ok first, .ok last]) := by
  intro first odd last opened result whole
  obtain ⟨_, follow, alike⟩ := capture_all_or_nothing Variant.ja4x.extractor (.bare []) "a.pcap"
  have skipped : Idle Variant.ja4x.extractor "a.pcap" odd := .inl ⟨.hex certificateField .oddLength, rfl⟩
  have unread : AlikeButIdle Variant.ja4x.extractor "a.pcap" [.ok first, .ok odd, .ok last]
      [.ok first, .ok last] := .both (.left skipped (.both .nil))
  refine ⟨rfl, rfl, ?_, unread, ?_⟩
  · exact follow whole (inMemory [.ok first, .ok odd]) (inMemory [.ok last]) _ _ rfl rfl rfl
  · exact alike whole (inMemory [.ok first, .ok last]) _ _ rfl rfl unread

end TlsFixtures.Extraction
