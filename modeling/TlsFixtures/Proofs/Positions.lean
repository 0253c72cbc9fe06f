import TlsFixtures.Proofs.Skipping

/-! From which positions of two arrays the certificates and the fingerprints of a frame are taken. Entries without a
value are left out of each array by itself before they are paired, so that a record has its two parts from one
position only if the same positions of both arrays have values. Otherwise, if records are made at all, one of them
has the fingerprint of another certificate. -/
namespace TlsFixtures

namespace Ek

/-- The values under a key in the order of layers and PDUs, each as it stands. -/
def under (layers : List (String × Json)) (key : String) : List Json :=
  layers.flatMap fun layer => (pdus layer.2).filterMap fun pdu => pdu.members?.bind (Json.find? · key)

/-- The texts in the entries of an array, each with the position of its entry. -/
def valued (items : List Json) : List (Nat × String) :=
  items.zipIdx.flatMap fun entry => (occurrences entry.1).map (entry.2, ·)

/-- The positions of an array that have values. -/
def positions (items : List Json) : List Nat := (valued items).map Prod.fst

/-- The entry at a position has the text: it is a scalar with it, or has one in arrays inside of it. -/
def Holds (items : List Json) (position : Nat) (s : String) : Prop :=
  ∃ item path, items[position]? = some item ∧ item.At path s

variable {layers : List (String × Json)} {items : List Json} {position : Nat} {s : String}

theorem find?_under (layers : List (String × Json)) (key : String) :
    find? layers key = FieldValue.ofOccurrences? ((under layers key).flatMap occurrences) := by
  have pdu : pduOccurrences key = fun pdu => (pdu.members?.bind (Json.find? · key)).toList.flatMap occurrences := by
    funext pdu
    rw [pduOccurrences]
    cases pdu.members?.bind (Json.find? · key) with
    | none => rfl
    | some value => exact (List.flatMap_singleton _ _).symm
  simp only [find?, under, layerOccurrences, pdu, List.filterMap_eq_flatMap_toList, List.flatMap_assoc]

theorem texts_valued (items : List Json) : (valued items).map Prod.snd = occurrences (.array items) := by
  have entry : ∀ entry : Json × Nat, ((occurrences entry.1).map (entry.2, ·)).map Prod.snd = occurrences entry.1 :=
    fun entry => (List.map_map).trans (List.map_id _)
  simp only [occurrences_array, valued, List.map_flatMap, entry]
  rw [← List.flatMap_map, List.zipIdx_map_fst]

theorem holds_iff : (position, s) ∈ valued items ↔ Holds items position s := by
  simp [valued, Holds, List.mem_zipIdx_iff_getElem?, (Json.enumerates_occurrences _).mem_iff]

end Ek

namespace Extraction

/-- A record that is made of the entries at a position of each array. -/
structure Drawn (frame : Frame) (file : String) (certs prints : List Json) (i j : Nat) (r : CertificateRecord) :
    Prop where
  payload : ∃ text, Ek.Holds certs i text ∧ Payload.decode text certificateField = .ok r.payload
  fingerprint : Ek.Holds prints j r.fingerprint
  index : r.frameIndex = frame.number
  file : r.sourceFile = file

/-- Records that belong to two lists of positions, one by one. -/
inductive Matched (drawn : Nat → Nat → CertificateRecord → Prop) :
    List Nat → List Nat → List CertificateRecord → Prop where
  | nil : Matched drawn [] [] []
  | cons : drawn i j r → Matched drawn front back records → Matched drawn (i :: front) (j :: back) (r :: records)

variable {f : EkFrame} {frame : Frame} {file : String} {certs prints : List Json} {records : List CertificateRecord}
  {drawn : Nat → Nat → CertificateRecord → Prop} {front back : List Nat} {r : CertificateRecord}

theorem Matched.aligned (matched : Matched drawn front back records) (same : front = back) :
    ∀ r ∈ records, ∃ i, drawn i i r := by
  induction matched with
  | nil => exact nofun
  | cons first _ ih =>
    obtain ⟨rfl, rest⟩ := List.cons.inj same
    exact List.forall_mem_cons.mpr ⟨⟨_, first⟩, ih rest⟩

theorem Matched.shifted (matched : Matched drawn front back records) (apart : front ≠ back) :
    ∃ r ∈ records, ∃ i j, i ≠ j ∧ drawn i j r := by
  induction matched with
  | nil => exact absurd rfl apart
  | @cons i j r front back records first _ ih =>
    by_cases same : i = j
    · subst same
      obtain ⟨r, member, shifted⟩ := ih (mt (congrArg _) apart)
      exact ⟨r, .tail _ member, shifted⟩
    · exact ⟨r, .head _, i, j, same, first⟩

/-- Records are made of the entries that have values, by their rank among these. -/
theorem Certified.matched {cs ps : List (Nat × String)}
    (certified : Certified frame file (cs.map Prod.snd) (ps.map Prod.snd) records)
    (holds : ∀ entry ∈ cs, Ek.Holds certs entry.1 entry.2) (holds' : ∀ entry ∈ ps, Ek.Holds prints entry.1 entry.2) :
    Matched (Drawn frame file certs prints) (cs.map Prod.fst) (ps.map Prod.fst) records := by
  induction cs generalizing ps records with
  | nil =>
    cases ps with
    | nil =>
      cases certified
      exact .nil
    | cons => cases certified
  | cons c cs ih =>
    cases ps with
    | nil => cases certified
    | cons p ps =>
      obtain ⟨first, later⟩ := List.forall_mem_cons.mp holds
      obtain ⟨first', later'⟩ := List.forall_mem_cons.mp holds'
      cases certified with
      | cons decoded certified => exact .cons ⟨⟨c.2, first, decoded⟩, first', rfl, rfl⟩ (ih certified later later')

/-- A frame with one array of certificates and one of fingerprints. -/
structure Arrays (f : EkFrame) (certs prints : List Json) : Prop where
  certs : Ek.under f.layers "tls_tls_handshake_certificate" = [.array certs]
  prints : Ek.under f.layers "ja4_ja4_ja4x" = [.array prints]

/-- A TLS frame with a value in each of the arrays. -/
structure Filled (f : EkFrame) (certs prints : List Json) : Prop where
  layer : tlsLayer ∈ f.layers.map Prod.fst
  certs : Ek.positions certs ≠ []
  prints : Ek.positions prints ≠ []

theorem find?_of_array {key : String} {items : List Json} (array : Ek.under f.layers key = [.array items]) :
    Ek.find? f.layers key = FieldValue.ofOccurrences? ((Ek.valued items).map Prod.snd) := by
  rw [Ek.find?_under, array, List.flatMap_singleton, Ek.texts_valued]

theorem candidates_of_array {name key : String} {items : List Json} {value : FieldValue} (named : Ek.key name = key)
    (array : Ek.under f.layers key = [.array items]) (found : f.frame.field name = some value) :
    value.candidates = (Ek.valued items).map Prod.snd := by
  have found : Ek.find? f.layers (Ek.key name) = some value := found
  rw [named, find?_of_array array] at found
  exact FieldValue.candidates_eq found

theorem carries_array_iff {key : String} {items : List Json} (array : Ek.under f.layers key = [.array items]) :
    Ek.Carries f.layers key ↔ Ek.positions items ≠ [] := by
  have absent := (Ek.find?_eq_none_iff f.layers key).symm
  rw [find?_of_array array, FieldValue.ofOccurrences?_eq_none_iff, List.map_eq_nil_iff] at absent
  rw [← Classical.not_not (a := Ek.Carries _ _), absent, Ek.positions, ne_eq, List.map_eq_nil_iff]

theorem Arrays.relevant_iff (arrays : Arrays f certs prints) :
    Relevant f (neededFields .ja4x) ↔ Filled f certs prints := by
  have certificates := carries_array_iff arrays.certs
  have fingerprints := carries_array_iff arrays.prints
  rw [relevant_iff_keys, neededKeys, List.forall_mem_cons, List.forall_mem_singleton, certificates, fingerprints]
  exact ⟨fun ⟨layer, certs, prints⟩ => ⟨layer, certs, prints⟩, fun ⟨layer, certs, prints⟩ => ⟨layer, certs, prints⟩⟩

theorem Arrays.chain_eq (arrays : Arrays f certs prints) (filled : Filled f certs prints) (file : String) :
    (ofFrame .ja4x f.frame file).value =
      chain f.frame file ((Ek.valued certs).map Prod.snd) ((Ek.valued prints).map Prod.snd) := by
  obtain ⟨certificates, fingerprints, bears⟩ := relevant_certificates_iff.mp (arrays.relevant_iff.mpr filled)
  rw [bears.value_eq, candidates_of_array (by decide) arrays.certs bears.certs,
    candidates_of_array (by decide) arrays.prints bears.prints]

/-- Certificates and fingerprints are paired by their rank among the entries that have values. So each record has its
two parts from one position if the same positions of both arrays have values, and otherwise some record has them from
two; the frame fails if one array has more values than the other, but not for any entry without one. It is passed
over if an array has no value at all. -/
theorem certificates_by_rank (arrays : Arrays f certs prints) (file : String) :
    let outcome := (ofFrame .ja4x f.frame file).value
    let drawn := Drawn f.frame file certs prints
    let front := Ek.positions certs
    let back := Ek.positions prints
    (¬Filled f certs prints → outcome = .ok []) ∧
    (Filled f certs prints →
      (front.length ≠ back.length → outcome = .error (.countMismatch front.length back.length)) ∧
      ∀ records, outcome = .ok records → Matched drawn front back records ∧
        (front = back → ∀ r ∈ records, ∃ i, drawn i i r) ∧
        (front ≠ back → ∃ r ∈ records, ∃ i j, i ≠ j ∧ drawn i j r)) := by
  intro outcome drawn front back
  constructor
  · intro unfilled
    exact certificates_irrelevant (mt arrays.relevant_iff.mp unfilled)
  · intro filled
    constructor
    · intro uneven
      simp only [front, back, Ek.positions, List.length_map] at uneven
      simp only [outcome, arrays.chain_eq filled, chain, List.length_map, if_pos uneven, front, back, Ek.positions]
    · intro records extracted
      have matched : Matched drawn front back records := by
        cases chain_eq_iff_paired.mp ((arrays.chain_eq filled file).symm.trans extracted) with
        | complete certified =>
          exact certified.matched (fun _ => Ek.holds_iff.mp) (fun _ => Ek.holds_iff.mp)
      exact ⟨matched, matched.aligned, matched.shifted⟩

def arraysLayers (certs prints : List Json) : List (String × Json) := [
  ("frame", .object [("frame_frame_number", .string "7")]),
  ("ja4", .object [("ja4_ja4_ja4x", .array prints)]),
  ("tls", .object [("tls_tls_handshake_certificate", .array certs)])]

/-- Three certificates of which the second has no value. -/
def gapped : List Json := [.string "30:01", .null, .string "30:03"]

/-- With a gap at the same position there, the fingerprints are those of the certificates. -/
theorem certificates_by_rank_aligned :
    let prints := [.string "x1", .null, .string "x3"]
    let f : EkFrame := ⟨7, arraysLayers gapped prints⟩
    let records : List CertificateRecord := [⟨"a.pcap", 7, [0x30, 0x01], "x1"⟩, ⟨"a.pcap", 7, [0x30, 0x03], "x3"⟩]
    Arrays f gapped prints ∧ EkFrame.ofLayers? f.layers = some f ∧ Filled f gapped prints ∧
    Ek.positions gapped = [0, 2] ∧ Ek.positions prints = [0, 2] ∧ (ofFrame .ja4x f.frame "a.pcap").value = .ok records ∧
    Matched (Drawn f.frame "a.pcap" gapped prints) [0, 2] [0, 2] records ∧
    ∀ r ∈ records, ∃ i, Drawn f.frame "a.pcap" gapped prints i i r := by
  intro prints f records
  have arrays : Arrays f gapped prints := ⟨rfl, rfl⟩
  have extracted : (ofFrame .ja4x f.frame "a.pcap").value = .ok records := rfl
  have filled : Filled f gapped prints := ⟨by decide, by decide, by decide⟩
  obtain ⟨matched, aligned, _⟩ := ((certificates_by_rank arrays "a.pcap").2 filled).2 records extracted
  exact ⟨arrays, rfl, filled, rfl, rfl, extracted, matched, aligned rfl⟩

/-- The third certificate gets the second fingerprint if there are two: the frame does not fail, and at no position do
the parts of that record stand together. -/
theorem certificates_can_be_shifted :
    let prints := [.string "x1", .string "x2"]
    let f : EkFrame := ⟨7, arraysLayers gapped prints⟩
    let r : CertificateRecord := ⟨"a.pcap", 7, [0x30, 0x03], "x2"⟩
    Arrays f gapped prints ∧ EkFrame.ofLayers? f.layers = some f ∧
    (ofFrame .ja4x f.frame "a.pcap").value = .ok [⟨"a.pcap", 7, [0x30, 0x01], "x1"⟩, r] ∧
    Drawn f.frame "a.pcap" gapped prints 2 1 r ∧ ¬∃ i, Drawn f.frame "a.pcap" gapped prints i i r := by
  intro prints f r
  have third : Ek.Holds gapped 2 "30:03" := ⟨_, [], rfl, .here .string⟩
  refine ⟨⟨rfl, rfl⟩, rfl, rfl, ⟨⟨"30:03", third, rfl⟩, ⟨_, [], rfl, .here .string⟩, rfl, rfl⟩, ?_⟩
  rintro ⟨i, drawn⟩
  have print : (i, "x2") ∈ [(0, "x1"), (1, "x2")] := Ek.holds_iff.mpr drawn.fingerprint
  obtain ⟨text, holds, _⟩ := drawn.payload
  have cert : (i, text) ∈ [(0, "30:01"), (2, "30:03")] := Ek.holds_iff.mpr holds
  simp only [List.mem_cons, Prod.mk.injEq, List.not_mem_nil, or_false] at print cert
  rcases print with ⟨_, other⟩ | ⟨rfl, _⟩
  · exact absurd other (by decide)
  · rcases cert with ⟨second, _⟩ | ⟨second, _⟩ <;> exact nomatch second

end Extraction
end TlsFixtures
