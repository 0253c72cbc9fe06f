import TlsFixtures.Source

/-! The frames of a finished dissection, call by call. Lines that are sound give their frames in order; the
first line that is not, or else a bad exit status, gives one error; and whatever ended a stream, no later
call returns anything. -/
namespace TlsFixtures

namespace Text

/-- Bytes cut at their line feeds. What stands behind the last one is a line too, unless it is empty. -/
inductive Split : List UInt8 → List (List UInt8) → Prop where
  | nil : Split [] []
  | unended : line ≠ [] → lineFeed ∉ line → Split line [line]
  | ended : lineFeed ∉ line → Split bytes more → Split (line ++ lineFeed :: bytes) (line :: more)

theorem split_lines (bytes : List UInt8) : Split bytes (lines bytes) := by
  induction bytes with
  | nil => exact .nil
  | cons b rest ih =>
    by_cases feed : b = lineFeed
    · subst b
      exact .ended List.not_mem_nil ih
    have apart : ∀ {line : List UInt8}, lineFeed ∉ line → lineFeed ∉ b :: line := by
      intro line inside
      simp [Ne.symm feed, inside]
    simp only [lines, feed, ↓reduceIte]
    generalize lines rest = split at ih
    cases ih with
    | nil => exact .unended (by simp) (apart (by simp))
    | unended _ inside => exact .unended (by simp) (apart inside)
    | ended inside more => exact .ended (apart inside) more

end Text

namespace EkStream

/-- The stream after some calls of `next`. -/
def after (s : EkStream) : Nat → EkStream
  | 0 => s
  | count + 1 => s.next.2.after count

/-- What a call of `next` returns; calls are counted from 0. -/
def answer (s : EkStream) (call : Nat) : Option Item := (s.after call).next.1

/-- The line is a text that is not blank, and `layers` is what it comes to as a document: nothing where it is
none, and no members where it has no layers. -/
def Documents (line : List UInt8) (layers : Option (Option (List (String × Json)))) : Prop :=
  ∃ text, Text.Utf8.decode? line = some text ∧ Text.trim text.toList ≠ [] ∧
    (Json.Tree.ofText? (Text.trim text.toList)).bind Ek.documentLayers? = layers

/-- What a line of output is worth: nothing, a frame, or an error that names the capture. -/
inductive Gives (path : String) (line : List UInt8) : Option Item → Prop where
  | notText : Text.Utf8.decode? line = none → Gives path line (some (.error (.access path .invalidUtf8)))
  | blank : Text.Utf8.decode? line = some text → Text.trim text.toList = [] → Gives path line none
  | noDocument : Documents line none → Gives path line (some (.error (.dissection path .invalidDocument)))
  | noLayers : Documents line (some none) → Gives path line none
  | noNumber : Documents line (some (some layers)) → EkFrame.ofLayers? layers = none →
      Gives path line (some (.error (.dissection path .noFrameNumber)))
  | frame : Documents line (some (some layers)) → EkFrame.ofLayers? layers = some frame →
      Gives path line (some (.ok frame))

/-- Lines without an error, and the frames among what they give. -/
inductive Yields (path : String) : List (List UInt8) → List EkFrame → Prop where
  | nil : Yields path [] []
  | silent : Gives path line none → Yields path lines frames → Yields path (line :: lines) frames
  | frame : Gives path line (some (.ok frame)) → Yields path lines frames →
      Yields path (line :: lines) (frame :: frames)

/-- The reason given for a bad exit status: the diagnostics without blanks at their ends or, where nothing is
left of them, the status itself. -/
def complaint (d : Dissection) : String :=
  match Text.trim ((Text.Utf8.decode? d.diagnostics).getD "").toList with
  | [] => "tshark exited with exit status: " ++ d.exitStatus.repr
  | words => String.ofList words

/-- What a dissection comes to: frames, and the error behind them if there is one. -/
inductive Transcript (path : String) (d : Dissection) : List EkFrame → Option Error → Prop where
  /-- Neither what follows a bad line nor how the dissector ends is looked at. -/
  | spoilt : Text.Split d.output (lines ++ line :: rest) → Yields path lines frames →
      Gives path line (some (.error error)) → Transcript path d frames (some error)
  | clean : Text.Split d.output lines → Yields path lines frames → d.exitStatus = 0 →
      Transcript path d frames none
  | failed : Text.Split d.output lines → Yields path lines frames → d.exitStatus ≠ 0 →
      fault.message = complaint d → Transcript path d frames (some (.dissection path fault))

variable {path : String} {line : List UInt8} {lines rest : List (List UInt8)} {frames : List EkFrame}
  {item : Option Item} {s : EkStream}

theorem lineItem?_of_documents {layers : Option (Option (List (String × Json)))}
    (documents : Documents line layers) : lineItem? path line =
      match layers with
      | none => some (.error (.dissection path .invalidDocument))
      | some none => none
      | some (some layers) =>
        match EkFrame.ofLayers? layers with
        | some frame => some (.ok frame)
        | none => some (.error (.dissection path .noFrameNumber)) := by
  obtain ⟨text, decoded, nonblank, found⟩ := documents
  obtain ⟨c, more, words⟩ := List.exists_cons_of_ne_nil nonblank
  rw [words] at found
  simp only [lineItem?, decoded, Ek.frameOfLine?, words, found]
  cases layers with
  | none => rfl
  | some layers =>
    cases layers with
    | none => rfl
    | some layers => cases numbered : EkFrame.ofLayers? layers <;> simp only [numbered]

theorem gives_lineItem? (path : String) (line : List UInt8) : Gives path line (lineItem? path line) := by
  cases decoded : Text.Utf8.decode? line with
  | none => simpa [lineItem?, decoded] using .notText decoded
  | some text =>
    by_cases blank : Text.trim text.toList = []
    · simpa [lineItem?, decoded, Ek.frameOfLine?, blank] using .blank decoded blank
    cases found : (Json.Tree.ofText? (Text.trim text.toList)).bind Ek.documentLayers? with
    | none =>
      have documents : Documents line none := ⟨text, decoded, blank, found⟩
      simpa only [lineItem?_of_documents documents] using .noDocument documents
    | some layers =>
      have documents : Documents line (some layers) := ⟨text, decoded, blank, found⟩
      rw [lineItem?_of_documents documents]
      cases layers with
      | none => exact .noLayers documents
      | some layers =>
        cases numbered : EkFrame.ofLayers? layers with
        | none => simpa only [numbered] using .noNumber documents numbered
        | some frame => simpa only [numbered] using .frame documents numbered

theorem Gives.lineItem?_eq (gives : Gives path line item) : lineItem? path line = item := by
  cases gives with
  | notText undecoded => simp [lineItem?, undecoded]
  | blank decoded blank => simp [lineItem?, decoded, Ek.frameOfLine?, blank]
  | noDocument documents => rw [lineItem?_of_documents documents]
  | noLayers documents => rw [lineItem?_of_documents documents]
  | noNumber documents unnumbered => simp only [lineItem?_of_documents documents, unnumbered]
  | frame documents numbered => simp only [lineItem?_of_documents documents, numbered]

theorem firstItem?_spec (path : String) (lines : List (List UInt8)) :
    match firstItem? path lines with
    | none => lines.filterMap (lineItem? path) = []
    | some (item, rest) => lines.filterMap (lineItem? path) = item :: rest.filterMap (lineItem? path) := by
  induction lines with
  | nil => rfl
  | cons line rest ih =>
    cases given : lineItem? path line with
    | none => simpa [firstItem?, given] using ih
    | some item => simp [firstItem?, given]

/-- On a stream without a cycle, `next` is one step through the list of its items. -/
theorem next_items (finite : s.cycle = []) :
    s.next.1 = s.items.head? ∧ s.next.2.items = s.items.tail ∧ s.next.2.cycle = [] := by
  have stopped : s.stop.items = [] := by simp [items, stop]
  have spec := firstItem?_spec s.path s.ahead
  by_cases running : s.running
  · have whole : s.items = throughError (s.ahead.filterMap (lineItem? s.path) ++
        s.failure.toList.map fun fault => .error (.dissection s.path fault)) := by
      simp [items, running, finite]
    cases first : firstItem? s.path s.ahead with
    | none =>
      rw [first] at spec
      have final : s.next = (s.failure.map fun fault => .error (.dissection s.path fault), s.stop) := by
        simp [next, running, first, finite, firstItem?]
      rw [final, stopped, whole, spec]
      cases s.failure <;> simp [throughError, stop, finite]
    | some found =>
      obtain ⟨item, rest⟩ := found
      rw [first] at spec
      cases item with
      | ok frame =>
        have step : s.next = (some (.ok frame), { s with ahead := rest }) := by
          simp [next, running, first, proceed]
        rw [step, whole, spec]
        simp [throughError, items, running, finite]
      | error e =>
        have step : s.next = (some (.error e), s.stop) := by simp [next, running, first, proceed]
        rw [step, stopped, whole, spec]
        simp [throughError, stop, finite]
  · have still : s.next = (none, s) := by simp [next, running]
    have none : s.items = [] := by simp [items, running]
    simp [still, none, finite]

/-- The calls of a stream without a cycle return its items one by one, and nothing after them. -/
theorem answer_eq_items (finite : s.cycle = []) (call : Nat) : s.answer call = s.items[call]? := by
  induction call generalizing s with
  | zero => rw [← List.head?_eq_getElem?]; exact (next_items finite).1
  | succ call ih =>
    obtain ⟨_, later, still⟩ := next_items finite
    calc s.answer (call + 1) = s.next.2.answer call := rfl
      _ = s.next.2.items[call]? := ih still
      _ = s.items[call + 1]? := by rw [later, List.getElem?_tail]

/-- Lines give frames up to a first bad one, if there is a bad one. -/
theorem yields_or_spoilt (path : String) (lines : List (List UInt8)) :
    (∃ frames, Yields path lines frames) ∨ ∃ sound bad rest frames error, lines = sound ++ bad :: rest ∧
      Yields path sound frames ∧ Gives path bad (some (.error error)) := by
  induction lines with
  | nil => exact .inl ⟨[], .nil⟩
  | cons line rest ih =>
    have gives := gives_lineItem? path line
    cases given : lineItem? path line with
    | none =>
      rw [given] at gives
      rcases ih with ⟨frames, yields⟩ | ⟨sound, bad, tail, frames, error, rfl, yields, spoils⟩
      · exact .inl ⟨frames, .silent gives yields⟩
      · exact .inr ⟨line :: sound, bad, tail, frames, error, rfl, .silent gives yields, spoils⟩
    | some item =>
      rw [given] at gives
      cases item with
      | error e => exact .inr ⟨[], line, rest, [], e, rfl, .nil, gives⟩
      | ok frame =>
        rcases ih with ⟨frames, yields⟩ | ⟨sound, bad, tail, frames, error, rfl, yields, spoils⟩
        · exact .inl ⟨frame :: frames, .frame gives yields⟩
        · exact .inr ⟨line :: sound, bad, tail, frame :: frames, error, rfl, .frame gives yields, spoils⟩

theorem Yields.throughError_eq (yields : Yields path lines frames) (more : List Item) :
    throughError (lines.filterMap (lineItem? path) ++ more) = frames.map .ok ++ throughError more := by
  induction yields with
  | nil => rfl
  | silent gives _ ih => simpa [gives.lineItem?_eq] using ih
  | frame gives _ ih => simpa [gives.lineItem?_eq, throughError] using ih

theorem failure?_of_success {d : Dissection} (success : d.exitStatus = 0) : d.failure? = none := by
  simp [Dissection.failure?, success]

theorem failure?_of_failure {d : Dissection} (failure : d.exitStatus ≠ 0) :
    ∃ fault, d.failure? = some fault ∧ fault.message = complaint d := by
  unfold Dissection.failure? complaint
  rw [if_neg failure]
  cases words : Text.trim ((Text.Utf8.decode? d.diagnostics).getD "").toList with
  | nil => exact ⟨.exitStatus d.exitStatus, rfl, rfl⟩
  | cons c more => exact ⟨.reported (String.ofList (c :: more)), rfl, rfl⟩

theorem items_ofDissection (path : String) {d : Dissection} (finite : d.endless = false) :
    (ofDissection path d).items = throughError ((Text.lines d.output).filterMap (lineItem? path) ++
      d.failure?.toList.map fun fault => .error (.dissection path fault)) := by
  simp [ofDissection, finite, items]

theorem items_transcript (path : String) {d : Dissection} (finite : d.endless = false) :
    ∃ frames last, Transcript path d frames last ∧
      (ofDissection path d).items = frames.map .ok ++ last.toList.map .error := by
  have split := Text.split_lines d.output
  rw [items_ofDissection path finite]
  rcases yields_or_spoilt path (Text.lines d.output) with
    ⟨frames, yields⟩ | ⟨sound, line, rest, frames, error, whole, yields, spoils⟩
  · rw [yields.throughError_eq]
    by_cases success : d.exitStatus = 0
    · exact ⟨frames, none, .clean split yields success, by simp [failure?_of_success success, throughError]⟩
    · obtain ⟨fault, failure, message⟩ := failure?_of_failure success
      exact ⟨frames, some (.dissection path fault), .failed split yields success message,
        by simp [failure, throughError]⟩
  · rw [whole] at split
    refine ⟨frames, some error, .spoilt split yields spoils, ?_⟩
    rw [whole, List.filterMap_append, List.append_assoc, yields.throughError_eq]
    simp [spoils.lineItem?_eq, throughError]

/-- A dissector that can be started on a capture that can be read, and that ends, is streamed as its
transcript: call by call the frames, then the error if there is one, and nothing at any later call. -/
theorem start_answers {dissector : Dissector} {fs : FileSystem} {query : FrameQuery} {location : Location}
    (readable : fs.locate path = .ok location)
    (startable : fs.startProgram dissector.searchPath dissector.program
      (Dissector.arguments path query) = .ok ())
    (finite : (fs.dissection path query.filter).endless = false) :
    ∃ stream, (dissector.start fs path query).value = .ok stream ∧
      ∃ frames last, Transcript path (fs.dissection path query.filter) frames last ∧
        ∀ call, stream.answer call = (frames.map Except.ok ++ last.toList.map Except.error)[call]? := by
  obtain ⟨frames, last, transcript, items⟩ := items_transcript path finite
  refine ⟨ofDissection path (fs.dissection path query.filter), ?_, frames, last, transcript, fun call => ?_⟩
  · simp only [Dissector.start, readable, startable, Logged.value_bind]
    split <;> rfl
  · rw [← items]
    exact answer_eq_items (by simp [ofDissection, finite]) call

/-- The error of an item, if it is one. -/
def error? : Item → Option Error
  | .ok _ => none
  | .error error => some error

/-- A capture whose third line is not text, and whose dissector fails as well. -/
def brokenCapture : FileSystem :=
  let documents := "\x7b\"index\":\x7b\x7d\x7d\n\x7b\"layers\":\x7b\"frame\":\x7b\"frame_frame_number\":7\x7d\x7d\x7d\n"
  let output := Text.Utf8.encode documents.toList ++ [0xff, Text.lineFeed]
  let diagnostics := Text.Utf8.encode " boom\n".toList
  ((FileSystem.bare []).put ["tshark"] (.file ⟨.dissector, true⟩)).put ["a.pcap"]
    (.file ⟨.capture ⟨⟨output, diagnostics, 2, false⟩, []⟩, false⟩)

/-- One frame is read, and the line that is no text ends the stream before the dissector's own failure is seen. -/
theorem start_answers_brokenCapture :
    brokenCapture.locate "a.pcap" = .ok ["a.pcap"] ∧
      brokenCapture.startProgram [] "/tshark" (Dissector.arguments "a.pcap" ⟨"tls", false⟩) = .ok () ∧
      (brokenCapture.dissection "a.pcap" "tls").endless = false ∧
      ∃ stream, (Dissector.start ⟨"/tshark", []⟩ brokenCapture "a.pcap" ⟨"tls", false⟩).value = .ok stream ∧
        ∃ frame : EkFrame, frame.number = 7 ∧
          Transcript "a.pcap" (brokenCapture.dissection "a.pcap" "tls") [frame]
            (some (.access "a.pcap" .invalidUtf8)) ∧
          ∀ call, stream.answer call = [.ok frame, .error (.access "a.pcap" .invalidUtf8)][call]? := by
  have readable : brokenCapture.locate "a.pcap" = .ok ["a.pcap"] := rfl
  have startable : brokenCapture.startProgram [] "/tshark"
      (Dissector.arguments "a.pcap" ⟨"tls", false⟩) = .ok () := rfl
  have finite : (brokenCapture.dissection "a.pcap" "tls").endless = false := rfl
  obtain ⟨stream, started, frames, last, transcript, answers⟩ :=
    @start_answers _ ⟨"/tshark", []⟩ _ _ _ readable startable finite
  obtain rfl : ofDissection "a.pcap" (brokenCapture.dissection "a.pcap" "tls") = stream :=
    Except.ok.inj started
  have first : ((ofDissection "a.pcap" (brokenCapture.dissection "a.pcap" "tls")).answer 0).bind
      (fun item => item.toOption.map EkFrame.number) = some 7 := by
    decide +kernel
  have second : ((ofDissection "a.pcap" (brokenCapture.dissection "a.pcap" "tls")).answer 1).bind
      error? = some (.access "a.pcap" .invalidUtf8) := by
    decide +kernel
  rw [answers] at first second
  cases frames with
  | nil => cases last <;> exact nomatch first
  | cons frame more =>
    cases more with
    | cons _ _ => exact nomatch second
    | nil =>
      cases last with
      | none => exact nomatch second
      | some error =>
        obtain rfl := Option.some.inj second
        exact ⟨readable, startable, finite, _, started, frame, Option.some.inj first, transcript, answers⟩

end EkStream

end TlsFixtures
