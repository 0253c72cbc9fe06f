import TlsFixtures.Proofs.Candidates

/-! What the log says of the framing of hello messages. A payload whose header is cut off, names another type, or
declares more than was captured is kept as it is, with one warning; and there is no warning on a payload that is
framed as a message of its type. -/
namespace TlsFixtures

open Handshake (MessageType)

namespace Handshake

/-- The number that bytes write, the first of them the highest. -/
def bigEndian (bytes : List UInt8) : Nat := bytes.foldl (fun n b => 256 * n + b.toNat) 0

/-- The length that a message declares for its body, in the three bytes after its type. -/
def declaredLength (payload : List UInt8) : Nat := bigEndian ((payload.drop 1).take 3)

/-- A header of the type, and at least as many bytes after it as it declares. -/
structure WellFramed (expected : MessageType) (payload : List UInt8) : Prop where
  header : 4 ≤ payload.length
  messageType : payload[0]? = some expected.code
  body : declaredLength payload ≤ payload.length - 4

theorem declaredLength_eq (messageType high middle low : UInt8) (body : List UInt8) :
    declaredLength (messageType :: high :: middle :: low :: body) = length24 high middle low := by
  simp [declaredLength, bigEndian, length24]
  omega

end Handshake

namespace Event

/-- The warnings in a log, each with its fields. -/
def warnings (log : List Event) : List (String × List (String × String)) :=
  (log.filter fun event => event.level = .warn).map fun event => (event.message, event.fields)

end Event

namespace Extraction

open Handshake (WellFramed declaredLength)

/-- What is warned of in a payload, the first of its defects only. -/
inductive Remarks (number : UInt64) (expected : MessageType) (payload : List UInt8) :
    List (String × List (String × String)) → Prop where
  | none : WellFramed expected payload → Remarks number expected payload []
  | shortHeader : payload.length < 4 →
      Remarks number expected payload [("raw handshake too short to inspect",
        [("frame", number.toNat.repr), ("error", "truncated handshake length")])]
  | unexpectedType : 4 ≤ payload.length → payload[0]? = some found → found ≠ expected.code →
      Remarks number expected payload [("raw handshake has an unexpected type",
        [("frame", number.toNat.repr), ("found", found.toNat.repr), ("expected", expected.code.toNat.repr)])]
  | shortBody : 4 ≤ payload.length → payload[0]? = some expected.code →
      payload.length - 4 < declaredLength payload →
      Remarks number expected payload [("raw handshake is shorter than its declared length",
        [("frame", number.toNat.repr), ("declared", (declaredLength payload).repr),
          ("captured", (payload.length - 4).repr)])]

variable {frame : Frame} {file : String} {number : UInt64} {expected : MessageType} {payload : List UInt8}
  {r : HelloRecord}

/-- What is odd about a header that is cut off behind its type. -/
theorem oddity?_short {rest : List UInt8} (short : rest.length < 3) (number : UInt64) (expected : MessageType)
    (messageType : UInt8) : oddity? number expected (messageType :: rest) =
      some (.shortHeader number (.truncated .length)) := by
  simp [oddity?, Handshake.inspect_short short]

/-- What is odd about a whole header. -/
theorem oddity?_header (number : UInt64) (expected : MessageType) (messageType high middle low : UInt8)
    (body : List UInt8) : oddity? number expected (messageType :: high :: middle :: low :: body) =
      if messageType ≠ expected.code then some (.unexpectedType number messageType expected.code)
      else if body.length < Handshake.length24 high middle low then
        some (.shortBody number (Handshake.length24 high middle low) body.length)
      else none := by
  simp [oddity?, Handshake.Header.isComplete]

theorem oddity?_remarks (present : payload ≠ []) (number : UInt64) (expected : MessageType) :
    Remarks number expected payload (Event.warnings (oddity? number expected payload).toList) := by
  match payload with
  | [] => exact absurd rfl present
  | [messageType] | [messageType, _] | [messageType, _, _] =>
    rw [oddity?_short (by simp)]
    exact .shortHeader (by simp)
  | messageType :: high :: middle :: low :: body =>
    have declared := Handshake.declaredLength_eq messageType high middle low body
    have whole : 4 ≤ (messageType :: high :: middle :: low :: body).length := by simp
    have captured : (messageType :: high :: middle :: low :: body).length - 4 = body.length := by simp
    rw [oddity?_header]
    split
    next other => exact .unexpectedType whole rfl other
    next same =>
      have same : messageType = expected.code := Classical.not_not.mp same
      subst same
      split
      next short =>
        have remarks := @Remarks.shortBody number _ _ whole rfl (by rw [declared, captured]; exact short)
        rwa [declared, captured] at remarks
      next enough =>
        exact .none ⟨whole, rfl, by rw [declared, captured]; exact Nat.le_of_not_lt enough⟩

theorem Remarks.eq_nil_iff {warnings : List (String × List (String × String))}
    (remarks : Remarks number expected payload warnings) : warnings = [] ↔ WellFramed expected payload := by
  cases remarks with
  | none framed => exact iff_of_true rfl framed
  | shortHeader short =>
    exact iff_of_false (List.cons_ne_nil _ _) fun framed => Nat.not_lt_of_le framed.header short
  | unexpectedType _ there other =>
    refine iff_of_false (List.cons_ne_nil _ _) fun framed => other ?_
    exact Option.some.inj (there.symm.trans framed.messageType)
  | shortBody _ _ short =>
    exact iff_of_false (List.cons_ne_nil _ _) fun framed => Nat.not_lt_of_le framed.body short

theorem Dictated.helloRecords_eq (dictated : Dictated expected frame file r) :
    helloRecords expected frame file = ⟨.ok [r], (oddity? frame.number expected r.payload).toList⟩ := by
  obtain ⟨sourceFile, index, payload, tag, text⟩ := r
  obtain ⟨layer, recovered, ⟨value, present, rfl⟩, rfl, rfl, rfl⟩ := dictated
  rw [Extraction.helloRecords_eq]
  simp only [hello, layer, present, helloPayload_eq_ok_iff.mpr recovered]
  rfl

theorem Dictated.payload_ne_nil (dictated : Dictated expected frame file r) : r.payload ≠ [] := by
  obtain ⟨_, _, _, _, decoded⟩ := dictated.payload
  exact (Payload.decode_ok_iff_stripped.mp decoded).1

theorem Dictated.remarks (dictated : Dictated expected frame file r) :
    Remarks frame.number expected r.payload (Event.warnings (helloRecords expected frame file).log) := by
  rw [dictated.helloRecords_eq]
  exact oddity?_remarks dictated.payload_ne_nil frame.number expected

/-- A frame gives the one record that its fields dictate, whatever the framing of the payload; and on each record
there is no warning if the payload is well framed, and otherwise one, which names its first defect. -/
theorem hello_kept_and_remarked (expected : MessageType) (frame : Frame) (file : String) :
    let extracted := helloRecords expected frame file
    (∀ r, extracted.value = .ok [r] ↔ Dictated expected frame file r) ∧
    ∀ records r, extracted.value = .ok records → r ∈ records → records = [r] ∧
      (Event.warnings extracted.log = [] ↔ WellFramed expected r.payload) ∧
      Remarks frame.number expected r.payload (Event.warnings extracted.log) := by
  intro extracted
  constructor
  · intro r
    exact ⟨fun found => (helloRecords_dictated found (.head _)).2,
      fun dictated => congrArg Logged.value dictated.helloRecords_eq⟩
  · intro records r found member
    obtain ⟨single, dictated⟩ := helloRecords_dictated found member
    exact ⟨single, dictated.remarks.eq_nil_iff, dictated.remarks⟩

/-- A message of another type that is also cut short: the type is warned of, and the bytes are kept. -/
theorem hello_kept_and_remarked_cut :
    let frame := FieldTable.frame
      ⟨9, [tlsLayer], [(ja4sField, .one "s1")], [(handshakeField, .one "0b:00:00:05:03")]⟩
    let r : HelloRecord := ⟨"a.pcap", 9, [0x0b, 0x00, 0x00, 0x05, 0x03], "t", "s1"⟩
    let extracted := helloRecords .serverHello frame "a.pcap"
    extracted.value = .ok [r] ∧ r ∈ [r] ∧ Dictated .serverHello frame "a.pcap" r ∧
    Event.warnings extracted.log = [("raw handshake has an unexpected type",
      [("frame", "9"), ("found", "11"), ("expected", "2")])] ∧
    ¬WellFramed .serverHello r.payload ∧
    Remarks 9 .serverHello r.payload (Event.warnings extracted.log) := by
  intro frame r extracted
  obtain ⟨dictated, remarked⟩ := hello_kept_and_remarked .serverHello frame "a.pcap"
  have found : extracted.value = .ok [r] := rfl
  obtain ⟨_, framed, remarks⟩ := remarked [r] r found (.head _)
  have warned : Event.warnings extracted.log = [("raw handshake has an unexpected type",
      [("frame", "9"), ("found", "11"), ("expected", "2")])] := by decide +kernel
  have wrong : ¬WellFramed .serverHello r.payload := fun good => nomatch warned.symm.trans (framed.mpr good)
  exact ⟨found, .head _, (dictated r).mp found, warned, wrong, remarks⟩

end Extraction

end TlsFixtures
