import TlsFixtures.Proofs.Spelling

/-! Why a text does not decode. Only the bytes that are left without separators count: none at all, an odd number
of them, or else the first that is no hex digit. -/
namespace TlsFixtures

/-- The first element of a list with a property, and its position. -/
inductive First (p : α → Prop) : List α → Nat → α → Prop where
  | here : p a → First p (a :: l) 0 a
  | later : ¬p b → First p l position a → First p (b :: l) (position + 1) a

theorem first_or_none (p : α → Prop) (l : List α) : (∃ position a, First p l position a) ∨ ∀ a ∈ l, ¬p a := by
  induction l with
  | nil => exact .inr fun a member => nomatch member
  | cons b l ih =>
    by_cases first : p b
    · exact .inl ⟨0, b, .here first⟩
    · rcases ih with ⟨position, a, found⟩ | none
      · exact .inl ⟨position + 1, a, .later first found⟩
      · exact .inr (List.forall_mem_cons.mpr ⟨first, none⟩)

theorem First.holds (first : First p l position a) : p a := by
  induction first with
  | here holds => exact holds
  | later _ _ ih => exact ih

theorem First.congr (first : First p l position a) (same : ∀ b ∈ l, p b ↔ q b) : First q l position a := by
  induction first with
  | here holds => exact .here ((same _ (.head _)).mp holds)
  | later other _ ih =>
    exact .later (mt (same _ (.head _)).mpr other) (ih fun b member => same b (.tail _ member))

/-- A value that every outcome of a relation equals is its outcome, if it has one. -/
theorem eq_iff_of_outcome {P : α → Prop} {a b : α} (sound : ∀ b, P b → a = b) (outcome : ∃ b, P b) :
    a = b ↔ P b := by
  constructor
  · rintro rfl
    obtain ⟨b, holds⟩ := outcome
    rwa [sound b holds]
  · exact sound b

namespace Text.Hex

/-- The digits and the letters up to f, small and capital. -/
def alphabet : List Char := "0123456789abcdefABCDEF".toList

def IsHexByte (b : UInt8) : Prop := b.toNat ∈ alphabet.map Char.toNat

theorem digitValue?_eq_none_iff {b : UInt8} : digitValue? b = none ↔ ¬IsHexByte b :=
  forall_below (P := fun b => digitValue? b = none ↔ ¬b.toNat ∈ alphabet.map Char.toNat) (by decide +kernel)
    b.toNat_lt

/-- The first byte that is no digit is reported where it stands. -/
theorem decodePairs_bad {bytes : List UInt8} {position : Nat} {byte : UInt8} (even : bytes.length % 2 = 0)
    (bad : First (fun b => ¬IsHexByte b) bytes position byte) (offset : Nat) :
    decodePairs offset bytes = .error (.badDigit byte (offset + position)) := by
  -- Of the two digits that are read at a time the first bad byte is the one or the other, or it comes later.
  fun_induction decodePairs offset bytes generalizing position with
  | case1 => cases bad
  | case2 => simp at even
  | case3 offset high low rest wrong =>
    cases bad with
    | here => rfl
    | later hex _ => exact absurd (digitValue?_eq_none_iff.mp wrong) hex
  | case4 offset high low rest h wrong value =>
    cases bad with
    | here other => simp [digitValue?_eq_none_iff.mpr other] at value
    | later _ bad =>
      cases bad with
      | here => rfl
      | later hex _ => exact absurd (digitValue?_eq_none_iff.mp wrong) hex
  | case5 offset high low rest h l value' value ih =>
    cases bad with
    | here other => simp [digitValue?_eq_none_iff.mpr other] at value
    | later _ bad =>
      cases bad with
      | here other => simp [digitValue?_eq_none_iff.mpr other] at value'
      | @later _ _ position _ _ bad =>
        have shorter : rest.length % 2 = 0 := by
          simp only [List.length_cons] at even
          omega
        have place : offset + 2 + position = offset + (position + 1 + 1) := by omega
        rw [ih shorter bad, place]
        rfl

theorem decodePairs_hex {bytes : List UInt8} (even : bytes.length % 2 = 0) (hex : ∀ b ∈ bytes, IsHexByte b)
    (offset : Nat) : ∃ payload, decodePairs offset bytes = .ok payload := by
  fun_induction decodePairs offset bytes with
  | case1 => exact ⟨[], rfl⟩
  | case2 => simp at even
  | case3 offset high low rest wrong =>
    exact absurd (hex high (by simp)) (digitValue?_eq_none_iff.mp wrong)
  | case4 offset high low rest h wrong value =>
    exact absurd (hex low (by simp)) (digitValue?_eq_none_iff.mp wrong)
  | case5 offset high low rest h l value' value ih =>
    have shorter : rest.length % 2 = 0 := by
      simp only [List.length_cons] at even
      omega
    obtain ⟨payload, decoded⟩ := ih shorter fun b member => hex b (by simp [member])
    exact ⟨(16 * h + l) :: payload, by rw [decoded]; rfl⟩

end Text.Hex

namespace Payload

open Text.Hex (IsHexByte)

/-- What is left of a text without its separators. -/
def unseparated (s : String) : String := String.ofList (s.toList.filter (· ∉ separators))

def utf8 (s : String) : List UInt8 := s.toUTF8.data.toList

/-- What decoding says of the bytes that are left of a text. -/
inductive Diagnosis (field : String) : List UInt8 → Except Error (List UInt8) → Prop where
  | empty : Diagnosis field [] (.error (.emptyPayload field))
  | odd : bytes.length % 2 = 1 → Diagnosis field bytes (.error (.hex field .oddLength))
  | badDigit : bytes.length % 2 = 0 → First (fun b => ¬IsHexByte b) bytes offset byte →
      Diagnosis field bytes (.error (.hex field (.badDigit byte offset)))
  | hex : bytes ≠ [] → bytes.length % 2 = 0 → (∀ b ∈ bytes, IsHexByte b) →
      bytes.map Text.Hex.lower = Text.Hex.encode payload → Diagnosis field bytes (.ok payload)

theorem utf8_unseparated (s : String) :
    utf8 (unseparated s) = Text.Utf8.encode (s.toList.filter (· ∉ separators)) := by
  simp [utf8, unseparated, Text.Utf8.encode, String.toUTF8, String.ofList, List.utf8Encode]

theorem digits_eq_utf8 (s : String) : digits s = utf8 (unseparated s) := by
  rw [digits, filter_separators, utf8_unseparated]

theorem Diagnosis.of_hex {bytes : List UInt8} (present : bytes ≠ []) (even : bytes.length % 2 = 0)
    (hex : ∀ b ∈ bytes, IsHexByte b) (field : String) : ∃ payload, Diagnosis field bytes (.ok payload) := by
  obtain ⟨payload, decoded⟩ := Text.Hex.decodePairs_hex even hex 0
  exact ⟨payload, .hex present even hex (Text.Hex.decodePairs_eq_ok_iff.mp decoded)⟩

theorem diagnosis_exists (field : String) (bytes : List UInt8) : ∃ outcome, Diagnosis field bytes outcome := by
  rcases Nat.mod_two_eq_zero_or_one bytes.length with even | odd
  · rcases first_or_none (fun b => ¬IsHexByte b) bytes with ⟨offset, byte, bad⟩ | none
    · exact ⟨_, .badDigit even bad⟩
    · by_cases empty : bytes = []
      · subst empty
        exact ⟨_, .empty⟩
      · have hex : ∀ b ∈ bytes, IsHexByte b := fun b member => Classical.not_not.mp (none b member)
        obtain ⟨payload, diagnosis⟩ := Diagnosis.of_hex empty even hex field
        exact ⟨_, diagnosis⟩
  · exact ⟨_, .odd odd⟩

theorem Diagnosis.decode_eq {s field : String} {outcome : Except Error (List UInt8)}
    (diagnosis : Diagnosis field (utf8 (unseparated s)) outcome) : decode s field = outcome := by
  rw [decode, digits_eq_utf8]
  generalize utf8 (unseparated s) = bytes at diagnosis ⊢
  cases diagnosis with
  | empty => rfl
  | odd odd => rw [Text.Hex.decode, if_pos odd]
  | badDigit even bad =>
    rw [Text.Hex.decode, if_neg (by omega), Text.Hex.decodePairs_bad even bad, Nat.zero_add]
  | @hex _ payload present _ _ same =>
    rw [Text.Hex.decode_eq_ok_iff.mpr same]
    cases payload with
    | nil => exact absurd (List.map_eq_nil_iff.mp same) present
    | cons => rfl

theorem decode_eq_iff_diagnosis {s field : String} {outcome : Except Error (List UInt8)} :
    decode s field = outcome ↔ Diagnosis field (utf8 (unseparated s)) outcome :=
  eq_iff_of_outcome (fun _ diagnosis => diagnosis.decode_eq) (diagnosis_exists field _)

theorem unseparated_insert {c : Char} (member : c ∈ separators) (front back : List Char) :
    unseparated (String.ofList (front ++ c :: back)) = unseparated (String.ofList (front ++ back)) := by
  simp [unseparated, member]

theorem toNat_character (byte : UInt8) : (Char.ofNat byte.toNat).toNat = byte.toNat :=
  Text.Hex.forall_below (P := fun byte => (Char.ofNat byte.toNat).toNat = byte.toNat) (by decide +kernel)
    byte.toNat_lt

/-- Each text has its one diagnosis, which is made of the bytes that are left without separators; so separators may
be put in and left out anywhere. A bad digit is shown as the character with the code of its byte. -/
theorem decode_diagnosed (field : String) :
    (∀ s outcome, decode s field = outcome ↔ Diagnosis field (utf8 (unseparated s)) outcome) ∧
    (∀ byte offset, ∃ c : Char, c.toNat = byte.toNat ∧ (Error.hex field (.badDigit byte offset)).message =
      "invalid hex in " ++ field ++ ": " ++
        ("Invalid character " ++ Text.Quoted.character c ++ " at position " ++ offset.repr)) ∧
    (∀ s s', unseparated s = unseparated s' → decode s field = decode s' field) ∧
    ∀ front back, ∀ c ∈ separators,
      decode (String.ofList (front ++ c :: back)) field = decode (String.ofList (front ++ back)) field := by
  have only : ∀ s s', unseparated s = unseparated s' → decode s field = decode s' field := by
    intro s s' same
    rw [decode, decode, digits_eq_utf8, digits_eq_utf8, same]
  refine ⟨fun s outcome => decode_eq_iff_diagnosis, fun byte offset => ?_, only, ?_⟩
  · exact ⟨Char.ofNat byte.toNat, toNat_character byte, rfl⟩
  · intro front back c member
    exact only _ _ (unseparated_insert member front back)

/-- A letter of two bytes behind a digit: its first byte is shown, at its place among the bytes that are left. -/
theorem decode_diagnosed_accent :
    let field := "tls.handshake"
    unseparated "1: é g" = unseparated "1é\x0cg" ∧ ' ' ∈ separators ∧
    Diagnosis field [0x31, 0xc3, 0xa9, 0x67] (.error (.hex field (.badDigit 0xc3 1))) ∧
    decode "1: é g" field = decode "1é\x0cg" field ∧
    decode (String.ofList ("1:".toList ++ ' ' :: "é g".toList)) field =
      decode (String.ofList ("1:".toList ++ "é g".toList)) field := by
  intro field
  obtain ⟨diagnosed, _, only, inserted⟩ := decode_diagnosed field
  have same : unseparated "1: é g" = unseparated "1é\x0cg" := rfl
  have blank : ' ' ∈ separators := by decide
  refine ⟨same, blank, ?_, only _ _ same, inserted _ _ ' ' blank⟩
  exact (diagnosed "1: é g" _).mp rfl

end Payload

end TlsFixtures
