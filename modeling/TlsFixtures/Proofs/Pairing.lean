import TlsFixtures.Proofs.Diagnosis
import TlsFixtures.Proofs.Harvesting

/-! Certificates of a frame and the fingerprints that stand with them. There are as many of the one as of the
other, and all certificates decode, or else the frame fails as a whole and a capture holds nothing of it. -/
namespace TlsFixtures.Extraction

/-- A frame with certificates and with fingerprints. -/
structure Bears (frame : Frame) (certs prints : FieldValue) : Prop where
  layer : frame.hasLayer tlsLayer = true
  certs : frame.field certificateField = some certs
  prints : frame.field ja4xField = some prints

/-- Records that hold the certificates, decoded, and the fingerprints of two lists, position by position. -/
inductive Certified (frame : Frame) (file : String) : List String → List String → List CertificateRecord → Prop where
  | nil : Certified frame file [] [] []
  | cons : Payload.decode cert certificateField = .ok payload → Certified frame file certs prints records →
      Certified frame file (cert :: certs) (fingerprint :: prints)
        (⟨file, frame.number, payload, fingerprint⟩ :: records)

def Undecodable (cert : String) : Prop := ∃ fault, Payload.decode cert certificateField = .error fault

/-- What becomes of the certificates and the fingerprints of a frame. -/
inductive Paired (frame : Frame) (file : String) (certs prints : List String) :
    Except Error (List CertificateRecord) → Prop where
  | uneven : certs.length ≠ prints.length →
      Paired frame file certs prints (.error (.countMismatch certs.length prints.length))
  | complete : Certified frame file certs prints records → Paired frame file certs prints (.ok records)
  | spoilt : certs.length = prints.length → First Undecodable certs position cert →
      Payload.decode cert certificateField = .error fault → Paired frame file certs prints (.error fault)

variable {frame : Frame} {file : String} {certs prints : List String} {records : List CertificateRecord}
  {outcome : Except Error (List CertificateRecord)} {certificates fingerprints : FieldValue}

theorem Certified.length_eq (certified : Certified frame file certs prints records) :
    certs.length = prints.length := by
  induction certified with
  | nil => rfl
  | cons _ _ ih => rw [List.length_cons, List.length_cons, ih]

theorem Certified.mapM_eq (certified : Certified frame file certs prints records) :
    (certs.zip prints).mapM (certificate frame file) = .ok records := by
  induction certified with
  | nil => rfl
  | cons decoded _ ih =>
    rw [List.zip_cons_cons, List.mapM_cons, ih]
    simp [certificate, decoded, bind, Except.bind, pure, Except.pure]

/-- If no certificate fails, the records are those of all certificates. -/
theorem certified_of_decodable (frame : Frame) (file : String) (even : certs.length = prints.length)
    (decodable : ∀ cert ∈ certs, ¬Undecodable cert) : ∃ records, Certified frame file certs prints records := by
  induction certs generalizing prints with
  | nil =>
    obtain rfl := List.length_eq_zero_iff.mp even.symm
    exact ⟨[], .nil⟩
  | cons cert certs ih =>
    cases prints with
    | nil => simp at even
    | cons fingerprint prints =>
      obtain ⟨first, later⟩ := List.forall_mem_cons.mp decodable
      obtain ⟨records, certified⟩ := ih (Nat.succ.inj even) later
      cases decoded : Payload.decode cert certificateField with
      | error fault => exact absurd ⟨fault, decoded⟩ first
      | ok payload => exact ⟨_, .cons decoded certified⟩

/-- The first certificate that does not decode is the failure of all of them. -/
theorem mapM_undecodable {position : Nat} {cert : String} {fault : Error} (even : certs.length = prints.length)
    (first : First Undecodable certs position cert)
    (undecoded : Payload.decode cert certificateField = .error fault) :
    (certs.zip prints).mapM (certificate frame file) = .error fault := by
  -- The lists are equally long, so the pair of the first failing certificate is not cut off.
  induction first generalizing prints with
  | here =>
    cases prints with
    | nil => simp at even
    | cons =>
      rw [List.zip_cons_cons, List.mapM_cons]
      simp [certificate, undecoded, bind, Except.bind]
  | @later cert' _ _ _ decodable _ ih =>
    cases prints with
    | nil => simp at even
    | cons fingerprint prints =>
      rw [List.zip_cons_cons, List.mapM_cons, ih (Nat.succ.inj even) undecoded]
      cases decoded : Payload.decode cert' certificateField with
      | error fault => exact absurd ⟨fault, decoded⟩ decodable
      | ok payload => simp [certificate, decoded, bind, Except.bind, pure, Except.pure]

theorem Paired.chain_eq (paired : Paired frame file certs prints outcome) :
    chain frame file certs prints = outcome := by
  cases paired with
  | uneven unequal => rw [chain, if_pos unequal]
  | complete certified => rw [chain, if_neg (· certified.length_eq), certified.mapM_eq]
  | spoilt even first undecoded =>
    rw [chain, if_neg (· even), mapM_undecodable even first undecoded]

theorem paired_exists (frame : Frame) (file : String) (certs prints : List String) :
    ∃ outcome, Paired frame file certs prints outcome := by
  by_cases even : certs.length = prints.length
  · rcases first_or_none Undecodable certs with ⟨position, cert, first⟩ | decodable
    · obtain ⟨fault, undecoded⟩ := first.holds
      exact ⟨_, .spoilt even first undecoded⟩
    · obtain ⟨records, certified⟩ := certified_of_decodable frame file even decodable
      exact ⟨_, .complete certified⟩
  · exact ⟨_, .uneven even⟩

theorem chain_eq_iff_paired : chain frame file certs prints = outcome ↔ Paired frame file certs prints outcome :=
  eq_iff_of_outcome (fun _ paired => paired.chain_eq) (paired_exists frame file certs prints)

theorem Bears.value_eq (bears : Bears frame certificates fingerprints) (file : String) :
    (ofFrame .ja4x frame file).value = chain frame file certificates.candidates fingerprints.candidates := by
  simp only [ofFrame, Extraction.certificates, bears.layer, bears.certs, bears.prints]
  rfl

/-- A frame in the midst of a stream adds its records to those of the frames around it, or nothing. -/
theorem yield_between (e : Extractor α) (file : String) (front : Frames) (frame : Frame) (back : Frames) :
    yield e file (front ++ .ok frame :: back) = do
      return (← yield e file front) ++ Run.successes [(e.ofFrame frame file).value] ++ (← yield e file back) := by
  rw [yield_append, yield_ok]
  cases yield e file front with
  | error fault => rfl
  | ok before => cases yield e file back <;> simp [Except.map, bind, Except.bind, pure, Except.pure]

/-- A frame with certificates gives a record for each of them, with the fingerprint at its position, or none at
all; and a capture holds those records between the ones of the frames around it, or nothing of the frame. -/
theorem certificates_complete_or_none (bears : Bears frame certificates fingerprints) :
    let paired := fun file => Paired frame file certificates.candidates fingerprints.candidates
    (∀ file outcome, (ofFrame .ja4x frame file).value = outcome ↔ paired file outcome) ∧
    ∀ (fs : FileSystem) (path : String) (source first second : Source) (front back : Frames),
      let opened := fun source : Source => (source.frames fs path Variant.ja4x.query).value
      let result := fun source : Source => (ofCapture source fs .ja4x path).value
      opened source = .ok (front ++ .ok frame :: back) → opened first = .ok front → opened second = .ok back →
        (∀ records, paired (Path.fileName path) (.ok records) →
          result source = do return (← result first) ++ records ++ (← result second)) ∧
        ∀ fault, paired (Path.fileName path) (.error fault) →
          result source = do return (← result first) ++ (← result second) := by
  intro paired
  have settled : ∀ file outcome, (ofFrame .ja4x frame file).value = outcome ↔ paired file outcome := by
    intro file outcome
    rw [bears.value_eq]
    exact chain_eq_iff_paired
  refine ⟨settled, ?_⟩
  intro fs path source first second front back opened result known knownFront knownBack
  have reads : ∀ {source stream}, opened source = .ok stream →
      result source = yield Variant.ja4x.extractor (Path.fileName path) stream :=
    fun known => value_ofCapture_opened known
  rw [reads known, reads knownFront, reads knownBack, yield_between, Variant.ofFrame_extractor]
  constructor
  · intro records complete
    rw [(settled _ _).mpr complete, Run.successes_ok, Run.successes_nil, List.append_nil]
  · intro fault failed
    rw [(settled _ _).mpr failed, Run.successes_error, Run.successes_nil]
    simp only [List.append_nil]

def chainsFrame (number : UInt64) (certs prints : List String) : Frame :=
  FieldTable.frame ⟨number, [tlsLayer], [(certificateField, .many certs), (ja4xField, .many prints)], []⟩

/-- A frame that is complete, and one with a certificate of half a byte too many behind one that decodes. -/
theorem certificates_complete_or_none_spoilt :
    let whole := chainsFrame 4 ["30:0A", "3 00B"] ["x1", "x2"]
    let spoilt := chainsFrame 7 ["300C", "30:0", "zz"] ["x3", "x4", "x5"]
    let source := inMemory [.ok whole, .ok spoilt]
    let opened := fun source : Source => (source.frames (.bare []) "a.pcap" Variant.ja4x.query).value
    let result := fun source : Source => (ofCapture source (.bare []) .ja4x "a.pcap").value
    let records : List CertificateRecord :=
      [⟨"a.pcap", 4, [0x30, 0x0a], "x1"⟩, ⟨"a.pcap", 4, [0x30, 0x0b], "x2"⟩]
    Bears whole (.many ["30:0A", "3 00B"]) (.many ["x1", "x2"]) ∧
    Bears spoilt (.many ["300C", "30:0", "zz"]) (.many ["x3", "x4", "x5"]) ∧
    opened source = .ok [.ok whole, .ok spoilt] ∧
    Paired whole "a.pcap" ["30:0A", "3 00B"] ["x1", "x2"] (.ok records) ∧
    Paired spoilt "a.pcap" ["300C", "30:0", "zz"] ["x3", "x4", "x5"] (.error (.hex certificateField .oddLength)) ∧
    result source = .ok records ∧
    (result source = do
      return (← result (inMemory [])) ++ records ++ (← result (inMemory [.ok spoilt]))) ∧
    result source = do return (← result (inMemory [.ok whole])) ++ (← result (inMemory [])) := by
  intro whole spoilt source opened result records
  have bears : Bears whole (.many ["30:0A", "3 00B"]) (.many ["x1", "x2"]) := ⟨rfl, rfl, rfl⟩
  have spoiltBears : Bears spoilt (.many ["300C", "30:0", "zz"]) (.many ["x3", "x4", "x5"]) := ⟨rfl, rfl, rfl⟩
  obtain ⟨settled, between⟩ := certificates_complete_or_none bears
  obtain ⟨spoiltSettled, spoiltBetween⟩ := certificates_complete_or_none spoiltBears
  have complete : Paired whole "a.pcap" ["30:0A", "3 00B"] ["x1", "x2"] (.ok records) :=
    (settled "a.pcap" (.ok records)).mp rfl
  have failed : Paired spoilt "a.pcap" ["300C", "30:0", "zz"] ["x3", "x4", "x5"]
      (.error (.hex certificateField .oddLength)) := (spoiltSettled "a.pcap" _).mp rfl
  refine ⟨bears, spoiltBears, rfl, complete, failed, rfl, ?_, ?_⟩
  · exact (between (.bare []) "a.pcap" source (inMemory []) (inMemory [.ok spoilt]) [] _ rfl rfl rfl).1 _ complete
  · exact (spoiltBetween (.bare []) "a.pcap" source (inMemory [.ok whole]) (inMemory []) [.ok whole] _
      rfl rfl rfl).2 _ failed

end TlsFixtures.Extraction
