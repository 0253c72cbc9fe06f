import TlsFixtures.Extraction
import TlsFixtures.Proofs.Diagnosis

/-! Which of several candidates a hello message is read from. The marker is looked for in the text of an entry,
before anything is decoded; it is nevertheless the first byte of what is decoded afterwards. -/
namespace TlsFixtures

open Handshake (MessageType)

theorem find?_of_first {test : α → Bool} {p : α → Prop} {l : List α} {position : Nat} {a : α}
    (tests : ∀ a, test a = true ↔ p a) (first : First p l position a) : l.find? test = some a := by
  induction first with
  | here holds => exact List.find?_cons_of_pos ((tests _).mpr holds)
  | later other _ ih => rw [List.find?_cons_of_neg (mt (tests _).mp other), ih]

namespace Payload

/-- The text begins with the marker of the type. -/
def Marked (expected : MessageType) (raw : String) : Prop := ∃ rest : String, raw = expected.marker ++ rest

/-- The text decodes to a message of the type. -/
def OfType (expected : MessageType) (field raw : String) : Prop :=
  ∃ payload, decode raw field = .ok payload ∧ payload.head? = some expected.code

/-- Hex digits in pairs, at least one pair and nothing else. -/
structure PlainHex (raw : String) : Prop where
  nonempty : raw ≠ ""
  even : raw.length % 2 = 0
  digits : ∀ c ∈ raw.toList, c ∈ Text.Hex.alphabet

instance (raw : String) : Decidable (PlainHex raw) :=
  decidable_of_iff (raw ≠ "" ∧ raw.length % 2 = 0 ∧ raw.toList.all Text.Hex.alphabet.contains = true)
    ⟨fun ⟨nonempty, even, digits⟩ => ⟨nonempty, even, by simpa using digits⟩,
      fun ⟨nonempty, even, digits⟩ => ⟨nonempty, even, by simpa using digits⟩⟩

/-- Lists of candidates with the same first marked entry, if any: unmarked entries may differ anywhere, and all
entries after a marked one. -/
inductive AlikeButUnmarked (expected : MessageType) : List String → List String → Prop where
  | nil : AlikeButUnmarked expected [] []
  | both : AlikeButUnmarked expected raws others → AlikeButUnmarked expected (raw :: raws) (raw :: others)
  | left : ¬Marked expected raw → AlikeButUnmarked expected raws others →
      AlikeButUnmarked expected (raw :: raws) others
  | right : ¬Marked expected raw → AlikeButUnmarked expected raws others →
      AlikeButUnmarked expected raws (raw :: others)
  | settled : Marked expected raw → AlikeButUnmarked expected (raw :: raws) (raw :: others)

/-- The candidate that a value stands for: its only one, whatever it begins with, or the first marked of a list. -/
inductive Selected (expected : MessageType) : FieldValue → String → Prop where
  | only : Selected expected (.one raw) raw
  | marked : First (Marked expected) raws position raw → Selected expected (.many raws) raw

variable {expected : MessageType} {raw field : String} {raws others : List String} {payload : List UInt8}

theorem hasMarker_iff : hasMarker expected raw = true ↔ Marked expected raw := by
  rw [hasMarker, List.isPrefixOf_iff_prefix]
  constructor
  · rintro ⟨rest, same⟩
    refine ⟨String.ofList rest, String.toList_inj.mp ?_⟩
    rw [String.toList_append, String.toList_ofList, same]
  · rintro ⟨rest, rfl⟩
    exact ⟨rest.toList, String.toList_append.symm⟩

instance (expected : MessageType) (raw : String) : Decidable (Marked expected raw) :=
  decidable_of_iff _ hasMarker_iff

theorem select_marked {position : Nat} (first : First (Marked expected) raws position raw) :
    select (.many raws) expected = .ok raw := by
  rw [select, find?_of_first (fun _ => hasMarker_iff) first]

theorem select_unmarked (none : ∀ raw ∈ raws, ¬Marked expected raw) :
    select (.many raws) expected = .error (.noCandidate expected) := by
  have unfound : raws.find? (hasMarker expected) = Option.none :=
    List.find?_eq_none.mpr fun raw member marked => none raw member (hasMarker_iff.mp marked)
  rw [select, unfound]

theorem select_eq_ok_iff {value : FieldValue} : select value expected = .ok raw ↔ Selected expected value raw := by
  constructor
  · intro selected
    cases value with
    | one only =>
      obtain rfl := Except.ok.inj selected
      exact .only
    | many raws =>
      rcases first_or_none (Marked expected) raws with ⟨position, other, first⟩ | none
      · obtain rfl := Except.ok.inj ((select_marked first).symm.trans selected)
        exact .marked first
      · exact nomatch (select_unmarked none).symm.trans selected
  · intro selected
    cases selected with
    | only => rfl
    | marked first => exact select_marked first

theorem AlikeButUnmarked.select_eq (alike : AlikeButUnmarked expected raws others) :
    select (.many raws) expected = select (.many others) expected := by
  have same : raws.find? (hasMarker expected) = others.find? (hasMarker expected) := by
    induction alike with
    | nil => rfl
    | both _ ih => rw [List.find?_cons, List.find?_cons, ih]
    | left unmarked _ ih => rw [List.find?_cons_of_neg (mt hasMarker_iff.mp unmarked), ih]
    | right unmarked _ ih => rw [List.find?_cons_of_neg (mt hasMarker_iff.mp unmarked), ih]
    | settled marked =>
      rw [List.find?_cons_of_pos (hasMarker_iff.mpr marked), List.find?_cons_of_pos (hasMarker_iff.mpr marked)]
  rw [select, select, same]

theorem decode_ne_noCandidate (s field : String) (expected : MessageType) :
    decode s field ≠ .error (.noCandidate expected) := by
  intro same
  have diagnosis := decode_eq_iff_diagnosis.mp same
  generalize utf8 (unseparated s) = bytes at diagnosis
  exact nomatch diagnosis

/-- The two digits of a byte are the marker of a type exactly for the byte that is the type's code. -/
theorem digits_eq_marker_iff {b : UInt8} :
    [Nat.digitChar (b.toNat / 16), Nat.digitChar (b.toNat % 16)] = expected.marker.toList ↔ b = expected.code :=
  Text.Hex.forall_below (P := fun b => [Nat.digitChar (b.toNat / 16), Nat.digitChar (b.toNat % 16)] =
    expected.marker.toList ↔ b = expected.code) (by cases expected <;> decide +kernel) b.toNat_lt

theorem stripped_marker (expected : MessageType) (rest : List Char) :
    stripped (expected.marker.toList ++ rest) = expected.marker.toList ++ stripped rest := by
  cases expected <;> rfl

theorem Marked.head?_eq (marked : Marked expected raw) (decoded : decode raw field = .ok payload) :
    payload.head? = some expected.code := by
  obtain ⟨rest, rfl⟩ := marked
  obtain ⟨present, same⟩ := decode_ok_iff_stripped.mp decoded
  rw [String.toList_append, stripped_marker] at same
  cases payload with
  | nil => exact absurd rfl present
  | cons b payload =>
    -- No separator stands inside the marker, so its digits are those of the first byte.
    have digits : [Nat.digitChar (b.toNat / 16), Nat.digitChar (b.toNat % 16)] = expected.marker.toList := by
      cases expected <;> exact (List.append_inj_left same rfl).symm
    rw [List.head?_cons, digits_eq_marker_iff.mp digits]

theorem isHexDigit_of_alphabet {c : Char} (member : c ∈ Text.Hex.alphabet) : IsHexDigit c.toLower := by
  have all : Text.Hex.alphabet.all (fun c => decide (∃ n : Fin 16, c.toLower = Nat.digitChar n.val)) = true := by
    decide
  have digit : ∃ n : Fin 16, c.toLower = Nat.digitChar n.val :=
    of_decide_eq_true (List.all_eq_true.mp all c member)
  exact digit

theorem PlainHex.filter_eq (plain : PlainHex raw) : raw.toList.filter (· ∉ separators) = raw.toList := by
  apply List.filter_eq_self.mpr
  intro c member
  have digit := isHexDigit_of_alphabet (plain.digits c member)
  have apart : c ∉ separators := by
    rcases digit.eq_or_capital with small | capital
    · rw [small]
      exact digit.plain.1
    · rw [capital]
      exact digit.plain.2.1
  simpa using apart

theorem PlainHex.decodes (plain : PlainHex raw) (field : String) : ∃ payload, decode raw field = .ok payload := by
  have ascii : ∀ c ∈ raw.toList, c.toNat < 128 := fun c member =>
    Text.Utf8.toLower_ascii_iff.mp (isHexDigit_of_alphabet (plain.digits c member)).ascii
  have bytes : utf8 (unseparated raw) = raw.toList.map Text.Utf8.toByte := by
    rw [utf8_unseparated, plain.filter_eq, Text.Utf8.encode_ascii ascii]
  have present : utf8 (unseparated raw) ≠ [] := by
    rw [bytes, ne_eq, List.map_eq_nil_iff]
    exact fun empty => plain.nonempty (String.toList_inj.mp empty)
  have even : (utf8 (unseparated raw)).length % 2 = 0 := by
    rw [bytes, List.length_map, String.length_toList, plain.even]
  have hex : ∀ b ∈ utf8 (unseparated raw), Text.Hex.IsHexByte b := by
    rw [bytes]
    refine List.forall_mem_map.mpr fun c member => List.mem_map.mpr ⟨c, plain.digits c member, ?_⟩
    rw [Text.Utf8.toByte, UInt8.toNat_ofNat']
    have := ascii c member
    omega
  obtain ⟨payload, diagnosis⟩ := Diagnosis.of_hex present even hex field
  exact ⟨payload, diagnosis.decode_eq⟩

/-- Only a decimal digit has a decimal digit for its small letter. -/
theorem toLower_decimal {c : Char} (decimal : c.toLower ∈ ['0', '1', '2']) : c.toLower = c := by
  have ascii : c.toNat < 128 := by
    rw [← Text.Utf8.toLower_ascii_iff]
    simp only [List.mem_cons, List.not_mem_nil, or_false] at decimal
    rcases decimal with digit | digit | digit <;> rw [digit] <;> decide
  exact Text.Utf8.forall_ascii (P := fun c => c.toLower ∈ ['0', '1', '2'] → c.toLower = c) (by decide)
    ascii decimal

theorem marker_decimal (expected : MessageType) {d : Char} (member : d ∈ expected.marker.toList) :
    d ∈ ['0', '1', '2'] := by
  have all : expected.marker.toList.all (['0', '1', '2'].contains ·) = true := by cases expected <;> rfl
  simpa using List.all_eq_true.mp all d member

theorem eq_marker_of_map_toLower {l : List Char} (lower : l.map Char.toLower = expected.marker.toList) :
    l = expected.marker.toList := by
  have kept : l.map Char.toLower = l.map id := by
    refine List.map_congr_left fun c member => toLower_decimal (marker_decimal expected ?_)
    rw [← lower]
    exact List.mem_map_of_mem member
  rw [← lower, kept, List.map_id]

/-- A text of digits alone is marked if it decodes to a message of the type. -/
theorem PlainHex.marked_iff (plain : PlainHex raw) (field : String) :
    Marked expected raw ↔ OfType expected field raw := by
  constructor
  · intro marked
    obtain ⟨payload, decoded⟩ := plain.decodes field
    exact ⟨payload, decoded, marked.head?_eq decoded⟩
  · rintro ⟨payload, decoded, first⟩
    obtain ⟨later, rfl⟩ := List.head?_eq_some_iff.mp first
    have same : raw.toList.map Char.toLower = expected.marker.toList ++ hexDigits later := by
      rw [← plain.filter_eq, ← stripped, (decode_ok_iff_stripped.mp decoded).2, ← digits_eq_marker_iff.mpr rfl]
      rfl
    obtain ⟨front, back, split, lower, _⟩ := List.map_eq_append_iff.mp same
    refine ⟨String.ofList back, String.toList_inj.mp ?_⟩
    rw [String.toList_append, String.toList_ofList, split, eq_marker_of_map_toLower lower]

end Payload

namespace Extraction

open Payload (Marked OfType PlainHex AlikeButUnmarked Selected)

/-- The records of the variant that is about hello messages of a type. -/
def helloRecords : MessageType → Frame → String → Logged (Except Error (List HelloRecord))
  | .clientHello => ofFrame .ja4
  | .serverHello => ofFrame .ja4s

def helloField : MessageType → String
  | .clientHello => ja4Field
  | .serverHello => ja4sField

def recordOf (frame : Frame) (file : String) (fingerprint : FieldValue) (payload : List UInt8) : HelloRecord :=
  ⟨file, frame.number, payload, tcpTag, fingerprint.first⟩

/-- A frame with a fingerprint and a list of candidates for the message that it was made of. -/
structure Lists (frame : Frame) (expected : MessageType) (fingerprint : FieldValue) (raws : List String) : Prop where
  layer : frame.hasLayer tlsLayer = true
  fingerprint : frame.field (helloField expected) = some fingerprint
  candidates : frame.rawField handshakeField = some (.many raws)

/-- The record that the fields of a frame dictate, however its payload is framed. -/
structure Dictated (expected : MessageType) (frame : Frame) (file : String) (r : HelloRecord) : Prop where
  layer : frame.hasLayer tlsLayer = true
  payload : ∃ value raw, frame.rawField handshakeField = some value ∧ Selected expected value raw ∧
    Payload.decode raw handshakeField = .ok r.payload
  fingerprint : ∃ value, frame.field (helloField expected) = some value ∧ r.fingerprint = value.first
  index : r.frameIndex = frame.number
  file : r.sourceFile = file
  transport : r.protocolTag = tcpTag

variable {frame other : Frame} {file : String} {expected : MessageType} {fingerprint : FieldValue}
  {raws others : List String} {payload : List UInt8} {records : List HelloRecord} {r : HelloRecord}

theorem helloRecords_eq (expected : MessageType) (frame : Frame) (file : String) :
    helloRecords expected frame file = hello frame file expected (helloField expected) := by
  cases expected <;> rfl

theorem helloPayload_eq_ok_iff : helloPayload frame expected = .ok payload ↔
    ∃ value raw, frame.rawField handshakeField = some value ∧ Selected expected value raw ∧
      Payload.decode raw handshakeField = .ok payload := by
  unfold helloPayload
  cases frame.rawField handshakeField with
  | none => simp
  | some value =>
    simp only [← Payload.select_eq_ok_iff, Option.some.injEq, exists_and_left, exists_eq_left']
    cases Payload.select value expected <;> simp [bind, Except.bind]

/-- Frames from which records come have one record each. -/
theorem helloRecords_dictated (extracted : (helloRecords expected frame file).value = .ok records)
    (member : r ∈ records) : records = [r] ∧ Dictated expected frame file r := by
  rw [helloRecords_eq] at extracted
  unfold hello at extracted
  split at extracted
  next =>
    obtain rfl := Except.ok.inj extracted
    exact nomatch member
  next layer =>
    split at extracted
    next =>
      obtain rfl := Except.ok.inj extracted
      exact nomatch member
    next value present =>
      split at extracted
      next => exact nomatch extracted
      next payload recovered =>
        obtain rfl := Except.ok.inj extracted
        obtain rfl := List.mem_singleton.mp member
        exact ⟨rfl, by simpa using layer, helloPayload_eq_ok_iff.mp recovered, ⟨value, present, rfl⟩, rfl, rfl, rfl⟩

theorem value_helloRecords (layer : frame.hasLayer tlsLayer = true)
    (present : frame.field (helloField expected) = some fingerprint) (file : String) :
    (helloRecords expected frame file).value =
      (helloPayload frame expected).map fun payload => [recordOf frame file fingerprint payload] := by
  rw [helloRecords_eq]
  simp only [hello, layer, present]
  cases helloPayload frame expected <;> rfl

theorem Lists.helloPayload_eq (lists : Lists frame expected fingerprint raws) :
    helloPayload frame expected =
      (Payload.select (.many raws) expected).bind (Payload.decode · handshakeField) := by
  rw [helloPayload, lists.candidates]
  rfl

theorem Lists.value_marked (lists : Lists frame expected fingerprint raws) {position : Nat} {raw : String}
    (first : First (Marked expected) raws position raw) (file : String) :
    (helloRecords expected frame file).value =
      (Payload.decode raw handshakeField).map fun payload => [recordOf frame file fingerprint payload] := by
  rw [value_helloRecords lists.layer lists.fingerprint, lists.helloPayload_eq, Payload.select_marked first]
  rfl

theorem Lists.value_unmarked (lists : Lists frame expected fingerprint raws)
    (none : ∀ raw ∈ raws, ¬Marked expected raw) (file : String) :
    (helloRecords expected frame file).value = .error (.noCandidate expected) := by
  rw [value_helloRecords lists.layer lists.fingerprint, lists.helloPayload_eq, Payload.select_unmarked none]
  rfl

theorem Lists.value_noCandidate_iff (lists : Lists frame expected fingerprint raws) (file : String) :
    (helloRecords expected frame file).value = .error (.noCandidate expected) ↔
      ∀ raw ∈ raws, ¬Marked expected raw := by
  refine ⟨fun failed => ?_, fun none => lists.value_unmarked none file⟩
  rcases first_or_none (Marked expected) raws with ⟨position, raw, first⟩ | none
  · rw [lists.value_marked first] at failed
    cases decoded : Payload.decode raw handshakeField with
    | error fault =>
      rw [decoded] at failed
      obtain rfl := Except.error.inj failed
      exact absurd decoded (Payload.decode_ne_noCandidate raw handshakeField expected)
    | ok payload => simp [decoded, Except.map] at failed
  · exact none

/-- Every record from a list is a message of the type that was looked for. -/
theorem Lists.head?_eq (lists : Lists frame expected fingerprint raws)
    (extracted : (helloRecords expected frame file).value = .ok records) (member : r ∈ records) :
    r.payload.head? = some expected.code := by
  obtain ⟨value, raw, there, selected, decoded⟩ := (helloRecords_dictated extracted member).2.payload
  obtain rfl : .many raws = value := Option.some.inj (lists.candidates.symm.trans there)
  cases selected with
  | marked first => exact first.holds.head?_eq decoded

theorem Lists.helloRecords_alike (lists : Lists frame expected fingerprint raws)
    (otherLists : Lists other expected fingerprint others) (number : other.number = frame.number)
    (alike : AlikeButUnmarked expected raws others) (file : String) :
    helloRecords expected other file = helloRecords expected frame file := by
  have payload : helloPayload other expected = helloPayload frame expected := by
    rw [lists.helloPayload_eq, otherLists.helloPayload_eq, alike.select_eq]
  simp only [helloRecords_eq, hello, lists.layer, otherLists.layer, lists.fingerprint, otherLists.fingerprint,
    number, payload]

/-- From a list of candidates the first marked one is taken, whether or not it decodes, and there is none to take
exactly if none is marked; what is taken is a message of the type. Among texts of digits alone that is the first
that decodes to a message of the type. Other entries make no difference. -/
theorem candidates_settled (lists : Lists frame expected fingerprint raws) (file : String) :
    let outcome := (helloRecords expected frame file).value
    let decoded := fun raw => Payload.decode raw handshakeField
    let typed := OfType expected handshakeField
    let record := recordOf frame file fingerprint
    (outcome = .error (.noCandidate expected) ↔ ∀ raw ∈ raws, ¬Marked expected raw) ∧
    (∀ position raw, First (Marked expected) raws position raw →
      outcome = (decoded raw).map fun payload => [record payload]) ∧
    (∀ records, outcome = .ok records → ∀ r ∈ records, r.payload.head? = some expected.code) ∧
    ((∀ raw ∈ raws, PlainHex raw) →
      (outcome = .error (.noCandidate expected) ↔ ∀ raw ∈ raws, ¬typed raw) ∧
      ∀ position raw, First typed raws position raw →
        ∃ payload, decoded raw = .ok payload ∧ outcome = .ok [record payload]) ∧
    ∀ other others, Lists other expected fingerprint others → other.number = frame.number →
      AlikeButUnmarked expected raws others →
        helloRecords expected other file = helloRecords expected frame file := by
  intro outcome decoded typed record
  refine ⟨lists.value_noCandidate_iff file, fun _ _ first => lists.value_marked first file,
    fun _ extracted _ => lists.head?_eq extracted, fun plain => ?_,
    fun _ _ otherLists number alike => lists.helloRecords_alike otherLists number alike file⟩
  have same : ∀ raw ∈ raws, Marked expected raw ↔ typed raw :=
    fun raw member => (plain raw member).marked_iff handshakeField
  constructor
  · rw [lists.value_noCandidate_iff file]
    exact forall₂_congr fun raw member => not_congr (same raw member)
  · intro position raw first
    obtain ⟨payload, known, _⟩ := first.holds
    have marked := first.congr fun raw member => (same raw member).symm
    refine ⟨payload, known, ?_⟩
    simp only [outcome, lists.value_marked marked, known, Except.map, record]

def serverFrame (raws : List String) : Frame :=
  FieldTable.frame ⟨9, [tlsLayer], [(ja4sField, .one "s1")], [(handshakeField, .many raws)]⟩

/-- A first frame with another message before the one that is taken; a second with a letter of two bytes before it,
and a marked entry behind it that would not decode. -/
theorem candidates_settled_server :
    let raws := ["0b00", "0203", "02ff"]
    let others := ["é", "0203", "02z"]
    let frame := serverFrame raws
    let other := serverFrame others
    let r : HelloRecord := ⟨"a.pcap", 9, [0x02, 0x03], "t", "s1"⟩
    Lists frame .serverHello (.one "s1") raws ∧ Lists other .serverHello (.one "s1") others ∧
    First (Marked .serverHello) raws 1 "0203" ∧ First (OfType .serverHello handshakeField) raws 1 "0203" ∧
    (∀ raw ∈ raws, PlainHex raw) ∧ AlikeButUnmarked .serverHello raws others ∧
    (helloRecords .serverHello frame "a.pcap").value = .ok [r] ∧ r.payload.head? = some 2 ∧
    (∃ payload, Payload.decode "0203" handshakeField = .ok payload ∧
      (helloRecords .serverHello frame "a.pcap").value = .ok [{ r with payload }]) ∧
    helloRecords .serverHello other "a.pcap" = helloRecords .serverHello frame "a.pcap" := by
  intro raws others frame other r
  have lists : Lists frame .serverHello (.one "s1") raws := ⟨rfl, rfl, rfl⟩
  have otherLists : Lists other .serverHello (.one "s1") others := ⟨rfl, rfl, rfl⟩
  have first : First (Marked .serverHello) raws 1 "0203" := .later (by decide) (.here (by decide))
  have plain : ∀ raw ∈ raws, PlainHex raw := by decide
  have typed : First (OfType .serverHello handshakeField) raws 1 "0203" :=
    first.congr fun raw member => (plain raw member).marked_iff handshakeField
  have alike : AlikeButUnmarked .serverHello raws others :=
    .left (by decide) (.right (by decide) (.settled (by decide)))
  obtain ⟨_, taken, heads, digitsAlone, unread⟩ := candidates_settled lists "a.pcap"
  have extracted : (helloRecords .serverHello frame "a.pcap").value = .ok [r] := taken 1 "0203" first
  exact ⟨lists, otherLists, first, typed, plain, alike, extracted, heads [r] extracted r (.head _),
    (digitsAlone plain).2 1 "0203" typed, unread other others otherLists rfl alike⟩

end Extraction

end TlsFixtures
