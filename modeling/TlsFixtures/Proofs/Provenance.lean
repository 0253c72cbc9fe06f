import TlsFixtures.Proofs.Decoding

/-! Where records come from. Every record of a capture is traced back to a frame of its stream and to values
of that frame's fields, and the records of all frames follow one another in the order of the stream. -/
namespace TlsFixtures

/-- A frame whose fields have a value wherever they are present. -/
structure Frame.Valued (frame : Frame) : Prop where
  field : ∀ name value, frame.field name = some value → value.candidates ≠ []
  rawField : ∀ name value, frame.rawField name = some value → value.candidates ≠ []

def Source.Valued (source : Source) : Prop :=
  ∀ fs path query frames, (source.frames fs path query).value = .ok frames →
    ∀ frame, .ok frame ∈ frames → frame.Valued

theorem FieldValue.candidates_ne_nil {occurrences : List String} {value : FieldValue}
    (found : ofOccurrences? occurrences = some value) : value.candidates ≠ [] := by
  rw [candidates_eq found]
  rintro rfl
  exact nomatch found

theorem FieldValue.head?_candidates {value : FieldValue} (valued : value.candidates ≠ []) :
    value.candidates.head? = some value.first := by
  cases value with
  | one only => rfl
  | many values =>
    cases values with
    | nil => exact absurd rfl valued
    | cons first rest => rfl

theorem EkFrame.frame_valued (f : EkFrame) : f.frame.Valued :=
  ⟨fun _ _ found => FieldValue.candidates_ne_nil found, fun _ _ found => FieldValue.candidates_ne_nil found⟩

theorem Dissector.source_valued (d : Dissector) : d.source.Valued := by
  intro fs path query frames started frame member
  simp only [Dissector.source, Logged.value_bind, Logged.value_pure] at started
  cases stream : (d.start fs path query).value with
  | error e => simp [stream, Except.map] at started
  | ok s =>
    simp only [stream, Except.map, Except.ok.injEq] at started
    subst started
    obtain ⟨item, _, same⟩ := List.mem_map.mp member
    cases item with
    | error e => simp at same
    | ok f =>
      obtain rfl := Except.ok.inj same
      exact f.frame_valued

theorem FieldTable.frame_valued {table : FieldTable}
    (valued : ∀ entry ∈ table.fields ++ table.rawFields, entry.2.candidates ≠ []) : table.frame.Valued := by
  constructor
  · intro name value found
    exact valued _ (List.mem_append_left _ (mem_of_lookup found))
  · intro name value found
    exact valued _ (List.mem_append_right _ (mem_of_lookup found))

theorem Archive.source_valued {archive : Archive}
    (valued : ∀ capture ∈ archive.captures, ∀ frame, .ok frame ∈ capture.2 → frame.Valued) :
    archive.source.Valued := by
  intro fs path query frames opened frame member
  simp only [Archive.source, Logged.value_pure, Archive.frames] at opened
  split at opened
  next => exact nomatch opened
  next entries found =>
    split at opened
    next => exact nomatch opened
    next =>
      obtain rfl := Except.ok.inj opened
      obtain ⟨entry, inside, mapped⟩ := List.mem_map.mp member
      cases entry with
      | error reason => exact nomatch mapped
      | ok f =>
        obtain rfl := Except.ok.inj mapped
        exact valued _ (mem_of_lookup found) f inside

namespace Extraction

/-- The record is the hello message of a frame with the fingerprint that the frame gives it. -/
structure HelloOf (frame : Frame) (file fingerprintField : String) (r : HelloRecord) : Prop where
  layer : frame.hasLayer tlsLayer = true
  index : frame.number = r.frameIndex
  file : r.sourceFile = file
  payload : ∃ raw, frame.rawField handshakeField = some raw ∧
    ∃ candidate ∈ raw.candidates, Payload.Spells candidate r.payload
  fingerprint : ∃ value, frame.field fingerprintField = some value ∧
    value.candidates.head? = some r.fingerprint

/-- The record is the certificate at a position of a frame's list, with the fingerprint at that position. -/
structure CertificateOf (frame : Frame) (file : String) (position : Nat) (r : CertificateRecord) : Prop where
  layer : frame.hasLayer tlsLayer = true
  index : frame.number = r.frameIndex
  file : r.sourceFile = file
  payload : ∃ value candidate, frame.field certificateField = some value ∧
    value.candidates[position]? = some candidate ∧ Payload.Spells candidate r.payload
  fingerprint : ∃ value, frame.field ja4xField = some value ∧
    value.candidates[position]? = some r.fingerprint

/-- Records that one frame may contribute, in the order in which it has them. -/
def Batch : (v : Variant) → Frame → String → List v.Record → Prop
  | .ja4, frame, file, found => found.length ≤ 1 ∧ ∀ r ∈ found, HelloOf frame file ja4Field r
  | .ja4s, frame, file, found => found.length ≤ 1 ∧ ∀ r ∈ found, HelloOf frame file ja4sField r
  | .ja4x, frame, file, found => ∀ position r, found[position]? = some r → CertificateOf frame file position r

/-- The batches of all frames of a stream, one after another. -/
inductive Batches (v : Variant) (file : String) : List Frame → List v.Record → Prop where
  | nil : Batches v file [] []
  | cons : Batch v frame file found → Batches v file frames records →
      Batches v file (frame :: frames) (found ++ records)

variable {frame : Frame} {file fingerprintField : String} {expected : Handshake.MessageType}

theorem batch_nil (v : Variant) (frame : Frame) (file : String) : Batch v frame file [] := by
  cases v <;> simp [Batch]

theorem mem_candidates_of_select {value : FieldValue} {raw : String}
    (selected : Payload.select value expected = .ok raw) : raw ∈ value.candidates := by
  cases value with
  | one only =>
    obtain rfl := Except.ok.inj selected
    exact List.mem_singleton_self _
  | many raws =>
    simp only [Payload.select] at selected
    split at selected
    next found =>
      obtain rfl := Except.ok.inj selected
      exact List.mem_of_find?_eq_some found
    next => exact nomatch selected

theorem helloPayload_spelled {payload : List UInt8} (recovered : helloPayload frame expected = .ok payload) :
    ∃ raw, frame.rawField handshakeField = some raw ∧
      ∃ candidate ∈ raw.candidates, Payload.Spells candidate payload := by
  unfold helloPayload at recovered
  split at recovered
  next => exact nomatch recovered
  next raw present =>
    cases selected : Payload.select raw expected with
    | error e => simp [selected, bind, Except.bind] at recovered
    | ok candidate =>
      have decoded : Payload.decode candidate handshakeField = .ok payload := by
        simpa [selected, bind, Except.bind] using recovered
      exact ⟨raw, present, candidate, mem_candidates_of_select selected, Payload.decode_eq_ok_iff.mp decoded⟩

theorem hello_batch {found : List HelloRecord} (valued : frame.Valued)
    (extracted : (hello frame file expected fingerprintField).value = .ok found) :
    found.length ≤ 1 ∧ ∀ r ∈ found, HelloOf frame file fingerprintField r := by
  unfold hello at extracted
  split at extracted
  next =>
    obtain rfl := Except.ok.inj extracted
    simp
  next layer =>
    split at extracted
    next =>
      obtain rfl := Except.ok.inj extracted
      simp
    next value present =>
      split at extracted
      next => exact nomatch extracted
      next payload recovered =>
        obtain rfl := Except.ok.inj extracted
        refine ⟨Nat.le_refl 1, fun r member => ?_⟩
        obtain rfl := List.mem_singleton.mp member
        exact ⟨by simpa using layer, rfl, rfl, helloPayload_spelled recovered,
          value, present, FieldValue.head?_candidates (valued.field _ _ present)⟩

/-- If every element of a list succeeds, each result is that of the element at its position. -/
theorem getElem?_of_mapM {f : α → Except Error β} {l : List α} {results : List β}
    (succeeded : l.mapM f = .ok results) {position : Nat} {r : β} (there : results[position]? = some r) :
    ∃ x, l[position]? = some x ∧ f x = .ok r := by
  induction l generalizing results position with
  | nil =>
    obtain rfl := Except.ok.inj succeeded
    simp at there
  | cons x l ih =>
    rw [List.mapM_cons] at succeeded
    cases first : f x with
    | error e => simp [first, bind, Except.bind] at succeeded
    | ok r' =>
      cases later : l.mapM f with
      | error e => simp [first, later, bind, Except.bind] at succeeded
      | ok rest =>
        have joined : r' :: rest = results := by
          simpa [first, later, bind, Except.bind, pure, Except.pure] using succeeded
        subst joined
        cases position with
        | zero =>
          obtain rfl : r' = r := by simpa using there
          exact ⟨x, rfl, first⟩
        | succ position => exact ih later there

theorem certificate_spelled {pair : String × String} {r : CertificateRecord}
    (extracted : certificate frame file pair = .ok r) :
    Payload.Spells pair.1 r.payload ∧ r = ⟨file, frame.number, r.payload, pair.2⟩ := by
  unfold certificate at extracted
  cases decoded : Payload.decode pair.1 certificateField with
  | error e => simp [decoded, bind, Except.bind] at extracted
  | ok payload =>
    obtain rfl : ⟨file, frame.number, payload, pair.2⟩ = r := by
      simpa [decoded, bind, Except.bind, pure, Except.pure] using extracted
    exact ⟨Payload.decode_eq_ok_iff.mp decoded, rfl⟩

theorem certificates_batch {found : List CertificateRecord}
    (extracted : (certificates frame file).value = .ok found) {position : Nat} {r : CertificateRecord}
    (there : found[position]? = some r) : CertificateOf frame file position r := by
  unfold certificates at extracted
  split at extracted
  next =>
    obtain rfl := Except.ok.inj extracted
    simp at there
  next layer =>
    split at extracted
    next value value' present present' =>
      simp only [Logged.value_pure, chain] at extracted
      split at extracted
      next => exact nomatch extracted
      next =>
        obtain ⟨pair, paired, single⟩ := getElem?_of_mapM extracted there
        obtain ⟨candidate, fingerprint⟩ := List.getElem?_zip_eq_some.mp paired
        obtain ⟨spells, same⟩ := certificate_spelled single
        rw [same]
        exact ⟨by simpa using layer, rfl, rfl, ⟨value, pair.1, present, candidate, spells⟩,
          value', present', fingerprint⟩
    next =>
      obtain rfl := Except.ok.inj extracted
      simp at there

theorem ofFrame_batch {v : Variant} {found : List v.Record} (valued : frame.Valued)
    (extracted : (ofFrame v frame file).value = .ok found) : Batch v frame file found := by
  cases v with
  | ja4 => exact hello_batch valued extracted
  | ja4s => exact hello_batch valued extracted
  | ja4x => exact fun _ _ there => certificates_batch extracted there

/-- A stream that is read to its end holds frames only, and what is harvested are their batches. -/
theorem harvest_batches {v : Variant} {stream : Frames} {h : Harvest v.Record}
    (valued : ∀ frame, .ok frame ∈ stream → frame.Valued)
    (read : (harvest v.extractor file stream).value = .ok h) :
    ∃ frames, stream = frames.map .ok ∧ Batches v file frames h.records := by
  induction stream generalizing h with
  | nil =>
    obtain rfl := Except.ok.inj read
    exact ⟨[], rfl, .nil⟩
  | cons item rest ih =>
    cases item with
    | error e => exact nomatch read
    | ok frame =>
      simp only [harvest, Logged.value_bind, Logged.value_pure, value_visit, Variant.ofFrame_extractor] at read
      cases later : (harvest v.extractor file rest).value with
      | error e => simp [later, Except.map] at read
      | ok h' =>
        obtain ⟨frames, rfl, batches⟩ := ih (fun f member => valued f (.tail _ member)) later
        have joined : h'.precededBy (ofFrame v frame file).value = h := by
          simpa [later, Except.map] using read
        subst joined
        refine ⟨frame :: frames, rfl, ?_⟩
        cases extracted : (ofFrame v frame file).value with
        | ok found => exact .cons (ofFrame_batch (valued frame (.head _)) extracted) batches
        -- A frame that fails is passed over.
        | error e => exact .cons (batch_nil v frame file) batches

/-- What a source of frames with valued fields yields, the dissector among them, is made of what they hold: no
byte of a payload is lost or added, whatever length its header declares, and each has the fingerprint that
stands with it. -/
theorem records_traced : (∀ d : Dissector, d.source.Valued) ∧ ∀ source : Source, source.Valued →
    ∀ (fs : FileSystem) (v : Variant) (path : String) (records : List v.Record),
      (ofCapture source fs v path).value = .ok records →
        ∃ frames, (source.frames fs path v.query).value = .ok (frames.map .ok) ∧
          Batches v (Path.fileName path) frames records := by
  refine ⟨Dissector.source_valued, fun source valued fs v path records extracted => ?_⟩
  simp only [ofCapture, Extractor.ofCapture, Logged.value_bind] at extracted
  split at extracted
  next => exact nomatch extracted
  next stream opened =>
    simp only [Logged.value_bind] at extracted
    split at extracted
    next => exact nomatch extracted
    next h read =>
      obtain rfl := Except.ok.inj extracted
      obtain ⟨frames, rfl, batches⟩ := harvest_batches (valued fs path v.query stream opened) read
      exact ⟨frames, opened, batches⟩

/-- A chain of two certificates, after one with half a byte too many. -/
def twoChains : Archive where
  captures := [("d/a.pcap", [
    .ok (FieldTable.frame ⟨4, ["tls"], [(certificateField, .one "300"), (ja4xField, .one "x0")], []⟩),
    .ok (FieldTable.frame ⟨7, ["tls"], [(certificateField, .many ["30:0A", "3 0 0B"]),
      (ja4xField, .many ["x1", "x2"])], []⟩)])]
  refusedFilters := []

theorem twoChains_valued : twoChains.source.Valued := by
  refine Archive.source_valued fun capture member frame inside => ?_
  obtain rfl := List.mem_singleton.mp member
  simp only [List.mem_cons, Except.ok.injEq, List.not_mem_nil, or_false] at inside
  rcases inside with rfl | rfl
  · exact FieldTable.frame_valued (by decide)
  · exact FieldTable.frame_valued (by decide)

theorem twoChains_traced :
    let records : List CertificateRecord :=
      [⟨"a.pcap", 7, [0x30, 0x0a], "x1"⟩, ⟨"a.pcap", 7, [0x30, 0x0b], "x2"⟩]
    twoChains.source.Valued ∧ (ofCapture twoChains.source (.bare []) .ja4x "d/a.pcap").value = .ok records ∧
      ∃ frames, (twoChains.source.frames (.bare []) "d/a.pcap" Variant.ja4x.query).value = .ok (frames.map .ok) ∧
        Batches .ja4x "a.pcap" frames records := by
  intro records
  have extracted : (ofCapture twoChains.source (.bare []) .ja4x "d/a.pcap").value = .ok records := rfl
  exact ⟨twoChains_valued, extracted, records_traced.2 _ twoChains_valued _ .ja4x _ _ extracted⟩

end Extraction

end TlsFixtures
