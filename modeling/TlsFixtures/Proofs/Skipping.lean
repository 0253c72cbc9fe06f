import TlsFixtures.Proofs.Framing
import TlsFixtures.Proofs.Pairing
import TlsFixtures.Proofs.Places
import TlsFixtures.Proofs.Provenance

/-! Which frames of a dissected capture are passed over, and which fail. A frame is passed over exactly if it is no
TLS frame or lacks a field that the records of the variant are about, whatever else there is in it. Any other frame
has a record, or an error that names the first thing in the way of one. -/
namespace TlsFixtures

namespace EkFrame

theorem hasLayer_iff {f : EkFrame} {name : String} :
    f.frame.hasLayer name = true ↔ name ∈ f.layers.map Prod.fst := Json.isSome_find?_iff

theorem exists_field_iff {f : EkFrame} {name : String} :
    (∃ value, f.frame.field name = some value) ↔ Ek.Carries f.layers (Ek.key name) := by
  rw [← Option.ne_none_iff_exists', frame, ne_eq, Ek.find?_eq_none_iff, Classical.not_not]

end EkFrame

namespace Extraction

open Handshake (MessageType)
open Payload (Marked Selected)

/-- The fields that the records of a variant are about: without one of them there is no record, and no error. -/
def neededFields : Variant → List String
  | .ja4 => [ja4Field]
  | .ja4s => [ja4sField]
  | .ja4x => [certificateField, ja4xField]

/-- A TLS frame with a scalar under the key of each field, be it an empty text. -/
structure Relevant (f : EkFrame) (fields : List String) : Prop where
  layer : tlsLayer ∈ f.layers.map Prod.fst
  fields : ∀ name ∈ fields, Ek.Carries f.layers (Ek.key name)

/-- The keys that these fields have. -/
def neededKeys : Variant → List String
  | .ja4 => ["tls_tls_handshake_ja4"]
  | .ja4s => ["ja4_ja4_ja4s"]
  | .ja4x => ["tls_tls_handshake_certificate", "ja4_ja4_ja4x"]

/-- What becomes of a frame in the search for hello messages of a type. -/
inductive Settled (expected : MessageType) (f : EkFrame) (file : String) :
    Except Error (List HelloRecord) → Prop where
  | skipped : ¬Relevant f [helloField expected] → Settled expected f file (.ok [])
  | missing : Relevant f [helloField expected] → ¬Ek.Carries f.layers (Ek.rawKey handshakeField) →
      Settled expected f file (.error (.missingField handshakeField))
  | unmarked : Relevant f [helloField expected] → f.frame.rawField handshakeField = some (.many raws) →
      2 ≤ raws.length → (∀ raw ∈ raws, ¬Marked expected raw) →
      Settled expected f file (.error (.noCandidate expected))
  | undecodable : Relevant f [helloField expected] → f.frame.rawField handshakeField = some value →
      Selected expected value raw → Payload.decode raw handshakeField = .error fault →
      Settled expected f file (.error fault)
  | recovered : Dictated expected f.frame file r → Settled expected f file (.ok [r])

variable {f : EkFrame} {file : String} {expected : MessageType} {outcome : Except Error (List HelloRecord)}

theorem key_neededFields (v : Variant) : (neededFields v).map Ek.key = neededKeys v := by
  cases v <;> decide

theorem rawKey_handshakeField : Ek.rawKey handshakeField = "tls_tls_handshake_raw" := by decide

theorem relevant_iff_keys {v : Variant} : Relevant f (neededFields v) ↔
    tlsLayer ∈ f.layers.map Prod.fst ∧ ∀ key ∈ neededKeys v, Ek.Carries f.layers key := by
  rw [← key_neededFields, List.forall_mem_map]
  exact ⟨fun ⟨layer, fields⟩ => ⟨layer, fields⟩, fun ⟨layer, fields⟩ => ⟨layer, fields⟩⟩

theorem relevant_hello_iff : Relevant f [helloField expected] ↔
    f.frame.hasLayer tlsLayer = true ∧ ∃ value, f.frame.field (helloField expected) = some value := by
  rw [EkFrame.hasLayer_iff, EkFrame.exists_field_iff]
  exact ⟨fun ⟨layer, fields⟩ => ⟨layer, fields _ (.head _)⟩,
    fun ⟨layer, field⟩ => ⟨layer, List.forall_mem_singleton.mpr field⟩⟩

theorem relevant_certificates_iff : Relevant f [certificateField, ja4xField] ↔
    ∃ certs prints, Bears f.frame certs prints := by
  constructor
  · rintro ⟨layer, fields⟩
    obtain ⟨certs, certificate⟩ := EkFrame.exists_field_iff.mpr (fields _ (.head _))
    obtain ⟨prints, fingerprint⟩ := EkFrame.exists_field_iff.mpr (fields _ (.tail _ (.head _)))
    exact ⟨certs, prints, EkFrame.hasLayer_iff.mpr layer, certificate, fingerprint⟩
  · rintro ⟨certs, prints, layer, certificate, fingerprint⟩
    refine ⟨EkFrame.hasLayer_iff.mp layer, List.forall_mem_cons.mpr ⟨?_, List.forall_mem_singleton.mpr ?_⟩⟩
    · exact EkFrame.exists_field_iff.mp ⟨certs, certificate⟩
    · exact EkFrame.exists_field_iff.mp ⟨prints, fingerprint⟩

theorem helloRecords_irrelevant (irrelevant : ¬Relevant f [helloField expected]) :
    (helloRecords expected f.frame file).value = .ok [] := by
  rw [helloRecords_eq, hello]
  cases layer : f.frame.hasLayer tlsLayer with
  | false => rfl
  | true =>
    cases field : f.frame.field (helloField expected) with
    | none => rfl
    | some value => exact absurd (relevant_hello_iff.mpr ⟨layer, value, field⟩) irrelevant

theorem certificates_irrelevant (irrelevant : ¬Relevant f [certificateField, ja4xField]) :
    (ofFrame .ja4x f.frame file).value = .ok [] := by
  rw [ofFrame, certificates]
  cases layer : f.frame.hasLayer tlsLayer with
  | false => rfl
  | true =>
    cases certificate : f.frame.field certificateField with
    | none => rfl
    | some certs =>
      cases fingerprint : f.frame.field ja4xField with
      | none => rfl
      | some prints =>
        exact absurd (relevant_certificates_iff.mpr ⟨certs, prints, layer, certificate, fingerprint⟩) irrelevant

/-- A hello message that cannot be recovered is the error of its frame. -/
theorem helloRecords_failed {fault : Error} (relevant : Relevant f [helloField expected])
    (failed : helloPayload f.frame expected = .error fault) :
    (helloRecords expected f.frame file).value = .error fault := by
  obtain ⟨layer, value, field⟩ := relevant_hello_iff.mp relevant
  rw [value_helloRecords layer field, failed, Except.map]

theorem Settled.value_eq (settled : Settled expected f file outcome) :
    (helloRecords expected f.frame file).value = outcome := by
  cases settled with
  | skipped irrelevant => exact helloRecords_irrelevant irrelevant
  | missing relevant absent =>
    have unfound : f.frame.rawField handshakeField = none := (Ek.find?_eq_none_iff _ _).mpr absent
    exact helloRecords_failed relevant (by rw [helloPayload, unfound])
  | unmarked relevant present _ none =>
    refine helloRecords_failed relevant ?_
    rw [helloPayload, present]
    exact congrArg (· >>= _) (Payload.select_unmarked none)
  | undecodable relevant present selected undecoded =>
    refine helloRecords_failed relevant ?_
    rw [helloPayload, present]
    exact (congrArg (· >>= _) (Payload.select_eq_ok_iff.mpr selected)).trans undecoded
  | recovered dictated => rw [dictated.helloRecords_eq]

theorem settled_exists (expected : MessageType) (f : EkFrame) (file : String) :
    ∃ outcome, Settled expected f file outcome := by
  by_cases relevant : Relevant f [helloField expected]
  · cases present : f.frame.rawField handshakeField with
    | none => exact ⟨_, .missing relevant ((Ek.find?_eq_none_iff _ _).mp present)⟩
    | some value =>
      have taken : ∀ raw, Selected expected value raw → ∃ outcome, Settled expected f file outcome := by
        intro raw selected
        cases decoded : Payload.decode raw handshakeField with
        | error fault => exact ⟨_, .undecodable relevant present selected decoded⟩
        | ok payload =>
          obtain ⟨layer, fingerprint, field⟩ := relevant_hello_iff.mp relevant
          exact ⟨.ok [recordOf f.frame file fingerprint payload],
            .recovered ⟨layer, ⟨value, raw, present, selected, decoded⟩, ⟨fingerprint, field, rfl⟩, rfl, rfl, rfl⟩⟩
      -- Only a list can be without a candidate, and one that is found has two entries at least.
      cases value with
      | one raw => exact taken raw .only
      | many raws =>
        rcases first_or_none (Marked expected) raws with ⟨_, raw, first⟩ | none
        · exact taken raw (.marked first)
        · exact ⟨_, .unmarked relevant present (FieldValue.many_length present) none⟩
  · exact ⟨_, .skipped relevant⟩

theorem helloRecords_eq_iff_settled :
    (helloRecords expected f.frame file).value = outcome ↔ Settled expected f file outcome :=
  eq_iff_of_outcome (fun _ settled => settled.value_eq) (settled_exists expected f file)

theorem helloRecords_eq_nil_iff :
    (helloRecords expected f.frame file).value = .ok [] ↔ ¬Relevant f [helloField expected] := by
  refine ⟨fun empty => ?_, helloRecords_irrelevant⟩
  cases helloRecords_eq_iff_settled.mp empty with
  | skipped irrelevant => exact irrelevant

/-- A field that is found has at least one value, so that a chain is never empty. -/
theorem certificates_eq_nil_iff :
    (ofFrame .ja4x f.frame file).value = .ok [] ↔ ¬Relevant f [certificateField, ja4xField] := by
  refine ⟨fun empty relevant => ?_, certificates_irrelevant⟩
  obtain ⟨certs, prints, bears⟩ := relevant_certificates_iff.mp relevant
  have valued : certs.candidates ≠ [] := f.frame_valued.field _ _ bears.certs
  rw [bears.value_eq, chain_eq_iff_paired] at empty
  generalize certs.candidates = texts, prints.candidates = fingerprints at valued empty
  cases empty with
  | complete certified =>
    cases certified with
    | nil => exact valued rfl

theorem value_eq_nil_iff (v : Variant) :
    (ofFrame v f.frame file).value = .ok [] ↔ ¬Relevant f (neededFields v) := by
  cases v with
  | ja4 => exact @helloRecords_eq_nil_iff f file .clientHello
  | ja4s => exact @helloRecords_eq_nil_iff f file .serverHello
  | ja4x => exact certificates_eq_nil_iff

theorem error_or_records {α : Type} {outcome : Except Error (List α)} (filled : outcome ≠ .ok []) :
    (∃ fault, outcome = .error fault) ∨ ∃ r records, outcome = .ok (r :: records) := by
  match outcome with
  | .error fault => exact .inl ⟨fault, rfl⟩
  | .ok [] => exact absurd rfl filled
  | .ok (r :: records) => exact .inr ⟨r, records, rfl⟩

/-- Frames that are no TLS frames, or lack a field that the records are about, are passed over; and no others are:
they have an error or records, for hello messages one record or else the first error of the rules. -/
theorem skipped_or_settled (f : EkFrame) (file : String) :
    (∀ v : Variant,
      ((ofFrame v f.frame file).value = .ok [] ↔ ¬Relevant f (neededFields v)) ∧
      (Relevant f (neededFields v) → (∃ fault, (ofFrame v f.frame file).value = .error fault) ∨
        ∃ r records, (ofFrame v f.frame file).value = .ok (r :: records))) ∧
    ∀ expected outcome, (helloRecords expected f.frame file).value = outcome ↔ Settled expected f file outcome := by
  refine ⟨fun v => ⟨value_eq_nil_iff v, fun relevant => ?_⟩, fun _ _ => helloRecords_eq_iff_settled⟩
  exact error_or_records fun empty => (value_eq_nil_iff v).mp empty relevant

/-- An empty fingerprint is one, and a null as the raw handshake is none. -/
example : (ofFrame .ja4 (EkFrame.frame ⟨1, [("tls", .object [("tls_tls_handshake_ja4", .string ""),
    ("tls_tls_handshake_raw", .null)])]⟩) "a.pcap").value = .error (.missingField "tls.handshake") := rfl

end Extraction

end TlsFixtures
