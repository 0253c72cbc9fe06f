import TlsFixtures.Extraction

/-! Which texts decode to a payload: those that, without separators and in small letters, are its hex text. -/
namespace TlsFixtures

namespace Text.Hex

/-- ASCII letters made small. -/
def lower (b : UInt8) : UInt8 := if 65 ≤ b ∧ b ≤ 90 then b + 32 else b

/-- What holds of all bytes up to a bound is settled by going through them. -/
theorem forall_below {P : UInt8 → Prop} {bound : Nat} (all : ∀ n : Fin bound, P (UInt8.ofNat n.val))
    {b : UInt8} (small : b.toNat < bound) : P b := by
  simpa only [UInt8.ofNat_toNat] using all ⟨b.toNat, small⟩

theorem toNat_lt_of_lt {b bound : UInt8} (small : b < bound) : b.toNat < bound.toNat :=
  UInt8.lt_iff_toNat_lt.mp small

theorem digitValue?_lt {b v : UInt8} (value : digitValue? b = some v) : v < 16 :=
  forall_below (P := fun b => ∀ v ∈ digitValue? b, v < 16) (by decide +kernel) b.toNat_lt v value

theorem digitValue?_eq_some_iff {b v : UInt8} (small : v < 16) :
    digitValue? b = some v ↔ lower b = digit v := by
  have all : ∀ n : Fin 16, digitValue? b = some (UInt8.ofNat n.val) ↔ lower b = digit (UInt8.ofNat n.val) :=
    forall_below (P := fun b => ∀ n : Fin 16, digitValue? b = some (UInt8.ofNat n.val) ↔
      lower b = digit (UInt8.ofNat n.val)) (by decide +kernel) b.toNat_lt
  exact forall_below (P := fun v => digitValue? b = some v ↔ lower b = digit v) all (toNat_lt_of_lt small)

theorem high_of_join {h l : UInt8} (high : h < 16) (low : l < 16) : (16 * h + l) / 16 = h := by
  apply UInt8.toNat_inj.mp
  simp [UInt8.lt_iff_toNat_lt] at high low ⊢
  omega

theorem low_of_join {h l : UInt8} (low : l < 16) : (16 * h + l) % 16 = l := by
  apply UInt8.toNat_inj.mp
  simp [UInt8.lt_iff_toNat_lt] at low ⊢
  omega

theorem encode_cons (b : UInt8) (payload : List UInt8) :
    encode (b :: payload) = digit (b / 16) :: digit (b % 16) :: encode payload := rfl

/-- What decodes is the encoding of what it decodes to, but for the size of letters. -/
theorem decodePairs_eq_ok_iff {bytes payload : List UInt8} {offset : Nat} :
    decodePairs offset bytes = .ok payload ↔ bytes.map lower = encode payload := by
  fun_induction decodePairs offset bytes generalizing payload with
  | case1 =>
    cases payload with
    | nil => simp [encode]
    | cons b more => simp [encode_cons]
  | case2 =>
    cases payload with
    | nil => simp [encode]
    | cons b more => simp [encode_cons]
  | case3 offset high low rest bad =>
    cases payload with
    | nil => simp [encode]
    | cons b more =>
      have other : lower high ≠ digit (b / 16) := fun same => by
        simp [(digitValue?_eq_some_iff (high_lt b)).mpr same] at bad
      simp [encode_cons, other]
  | case4 offset high low rest h bad value =>
    cases payload with
    | nil => simp [encode]
    | cons b more =>
      have other : lower low ≠ digit (b % 16) := fun same => by
        simp [(digitValue?_eq_some_iff (low_lt b)).mpr same] at bad
      simp [encode_cons, other]
  | case5 offset high low rest h l value' value ih =>
    have hb := digitValue?_lt value
    have lb := digitValue?_lt value'
    cases payload with
    | nil => cases decodePairs (offset + 2) rest <;> simp [encode, Except.map]
    | cons b more =>
      have first : lower high = digit (b / 16) ↔ h = b / 16 := by
        rw [← digitValue?_eq_some_iff (high_lt b), value, Option.some.injEq]
      have second : lower low = digit (b % 16) ↔ l = b % 16 := by
        rw [← digitValue?_eq_some_iff (low_lt b), value', Option.some.injEq]
      have joined : 16 * h + l = b ↔ h = b / 16 ∧ l = b % 16 := by
        constructor
        · rintro rfl
          exact ⟨(high_of_join hb lb).symm, (low_of_join lb).symm⟩
        · rintro ⟨rfl, rfl⟩
          exact digits_join b
      simp only [encode_cons, List.map_cons, List.cons.injEq, first, second, ← ih, ← and_assoc, ← joined]
      cases decodePairs (offset + 2) rest <;> simp [Except.map]

theorem decode_eq_ok_iff {digits payload : List UInt8} :
    decode digits = .ok payload ↔ digits.map lower = encode payload := by
  unfold decode
  split
  next odd =>
    have unequal : digits.map lower ≠ encode payload := by
      intro same
      have lengths := congrArg List.length same
      rw [List.length_map, length_encode] at lengths
      omega
    simp [unequal]
  next => exact decodePairs_eq_ok_iff

theorem lower_lt_iff (b : UInt8) : lower b < 128 ↔ b < 128 :=
  forall_below (P := fun b => lower b < 128 ↔ b < 128) (by decide +kernel) b.toNat_lt

theorem digit_lt {n : UInt8} (small : n < 16) : digit n < 128 :=
  forall_below (P := fun n => digit n < 128) (by decide) (toNat_lt_of_lt small)

theorem encode_lt {payload : List UInt8} {d : UInt8} (member : d ∈ encode payload) : d < 128 := by
  obtain ⟨b, _, inside⟩ := List.mem_flatMap.mp member
  simp only [encodeByte, List.mem_cons, List.not_mem_nil, or_false] at inside
  rcases inside with rfl | rfl
  · exact digit_lt (high_lt b)
  · exact digit_lt (low_lt b)

theorem toList_text (payload : List UInt8) :
    (text payload).toList = (encode payload).map fun d => Char.ofNat d.toNat := by
  simp [text, encode, byteText, String.toList_join, List.map_flatMap, List.flatMap_map]

end Text.Hex

namespace Text.Utf8

def toByte (c : Char) : UInt8 := UInt8.ofNat c.toNat

def ofByte (b : UInt8) : Char := Char.ofNat b.toNat

theorem utf8EncodeChar_ascii {c : Char} (ascii : c.toNat < 128) : String.utf8EncodeChar c = [toByte c] := by
  have small : c.toNat ≤ 127 := by omega
  simp only [String.utf8EncodeChar, Char.toNat_val, small, ↓reduceIte, toByte]

/-- Only the encoding of an ASCII character has a low byte. -/
theorem ascii_of_mem_utf8EncodeChar {c : Char} {b : UInt8} (member : b ∈ String.utf8EncodeChar c) (small : b < 128) :
    c.toNat < 128 := by
  rcases Nat.lt_or_ge c.toNat 128 with ascii | large
  · exact ascii
  have large : ¬c.toNat ≤ 127 := by omega
  rw [UInt8.lt_iff_toNat_lt] at small
  simp only [String.utf8EncodeChar, Char.toNat_val, large, ↓reduceIte] at member
  split at member
  · simp only [List.mem_cons, List.not_mem_nil, or_false] at member
    rcases member with rfl | rfl <;> simp at small <;> omega
  split at member
  · simp only [List.mem_cons, List.not_mem_nil, or_false] at member
    rcases member with rfl | rfl | rfl <;> simp at small <;> omega
  · simp only [List.mem_cons, List.not_mem_nil, or_false] at member
    rcases member with rfl | rfl | rfl | rfl <;> simp at small <;> omega

theorem exists_mem_utf8EncodeChar (c : Char) : ∃ b, b ∈ String.utf8EncodeChar c := by
  apply List.exists_mem_of_length_pos
  rw [String.length_utf8EncodeChar]
  exact c.utf8Size_pos

theorem encode_ascii {s : List Char} (ascii : ∀ c ∈ s, c.toNat < 128) : encode s = s.map toByte := by
  induction s with
  | nil => rfl
  | cons c s ih =>
    have rest := ih fun d member => ascii d (List.mem_cons_of_mem _ member)
    rw [encode] at rest
    rw [encode, List.flatMap_cons, utf8EncodeChar_ascii (ascii c List.mem_cons_self), rest]
    rfl

theorem toByte_ofByte (b : UInt8) : toByte (ofByte b) = b :=
  Hex.forall_below (P := fun b => toByte (ofByte b) = b) (by decide +kernel) b.toNat_lt

theorem ofByte_ascii {b : UInt8} (small : b < 128) : (ofByte b).toNat < 128 :=
  Hex.forall_below (P := fun b => (ofByte b).toNat < 128) (by decide) (Hex.toNat_lt_of_lt small)

theorem ofByte_toByte {c : Char} (ascii : c.toNat < 128) : ofByte (toByte c) = c := by
  have fits : c.toNat % 256 = c.toNat := Nat.mod_eq_of_lt (by omega)
  simp [toByte, ofByte, fits]

theorem mem_encode_ascii {s : List Char} {c : Char} (ascii : c.toNat < 128) : toByte c ∈ encode s ↔ c ∈ s := by
  constructor
  · intro member
    obtain ⟨d, inside, encoded⟩ := List.mem_flatMap.mp member
    have low : toByte c < 128 := by simp [toByte, UInt8.lt_iff_toNat_lt]; omega
    have ascii' := ascii_of_mem_utf8EncodeChar encoded low
    rw [utf8EncodeChar_ascii ascii', List.mem_singleton] at encoded
    rwa [← ofByte_toByte ascii, encoded, ofByte_toByte ascii']
  · intro inside
    exact List.mem_flatMap.mpr ⟨c, inside, by simp [utf8EncodeChar_ascii ascii]⟩

/-- What holds of all ASCII characters is settled by going through them. -/
theorem forall_ascii {P : Char → Prop} (all : ∀ n : Fin 128, P (Char.ofNat n.val)) {c : Char}
    (ascii : c.toNat < 128) : P c := by
  simpa only [Char.ofNat_toNat] using all ⟨c.toNat, ascii⟩

theorem lower_toByte {c : Char} (ascii : c.toNat < 128) : Hex.lower (toByte c) = toByte c.toLower :=
  forall_ascii (P := fun c => Hex.lower (toByte c) = toByte c.toLower) (by decide) ascii

theorem toLower_ascii_iff {c : Char} : c.toLower.toNat < 128 ↔ c.toNat < 128 := by
  unfold Char.toLower
  split
  next letter =>
    have last : c.val.toNat ≤ 90 := UInt32.le_iff_toNat_le.mp letter.2
    have first : 65 ≤ c.val.toNat := UInt32.le_iff_toNat_le.mp letter.1
    rw [Char.toNat_val] at last first
    have small : (c.val + ('a'.val - 'A'.val)).toNat < 128 := by
      rw [UInt32.toNat_add, Char.toNat_val, show ('a'.val - 'A'.val).toNat = 32 from rfl]
      omega
    exact iff_of_true small (by omega)
  next => rfl

/-- Bytes of a text are lower-case hex digits, but for the size of letters, if its characters are. -/
theorem lower_encode_iff {s : List Char} {payload : List UInt8} :
    (encode s).map Hex.lower = Hex.encode payload ↔ s.map Char.toLower = (Hex.text payload).toList := by
  have bytes : ∀ {s : List Char}, (∀ c ∈ s, c.toNat < 128) →
      (encode s).map Hex.lower = (s.map Char.toLower).map toByte := by
    intro s ascii
    rw [encode_ascii ascii, List.map_map, List.map_map]
    exact List.map_congr_left fun c member => lower_toByte (ascii c member)
  rw [Hex.toList_text]
  constructor
  · intro same
    have ascii : ∀ c ∈ s, c.toNat < 128 := by
      intro c member
      obtain ⟨b, inside⟩ := exists_mem_utf8EncodeChar c
      refine ascii_of_mem_utf8EncodeChar inside ?_
      have encoded : Hex.lower b ∈ (encode s).map Hex.lower :=
        List.mem_map_of_mem (List.mem_flatMap.mpr ⟨c, member, inside⟩)
      rw [same] at encoded
      exact (Hex.lower_lt_iff b).mp (Hex.encode_lt encoded)
    rw [bytes ascii] at same
    rw [← same, List.map_map, List.map_map]
    refine List.map_congr_left fun c member => ?_
    exact (ofByte_toByte (toLower_ascii_iff.mpr (ascii c member))).symm
  · intro same
    have ascii : ∀ c ∈ s, c.toNat < 128 := by
      intro c member
      have lowered : c.toLower ∈ s.map Char.toLower := List.mem_map_of_mem member
      rw [same] at lowered
      obtain ⟨d, inside, value⟩ := List.mem_map.mp lowered
      rw [← toLower_ascii_iff, ← value]
      exact ofByte_ascii (Hex.encode_lt inside)
    rw [bytes ascii, same, List.map_map]
    exact (List.map_congr_left fun d _ => toByte_ofByte d).trans (List.map_id _)

end Text.Utf8

namespace Payload

/-- The candidate spells the payload in hex, if separators are left out and letters made small. -/
structure Spells (candidate : String) (payload : List UInt8) : Prop where
  nonempty : payload ≠ []
  digits : (candidate.toList.filter fun c => !isSeparator c).map Char.toLower = (Text.Hex.text payload).toList

theorem decode_eq_ok_iff {s field : String} {payload : List UInt8} :
    decode s field = .ok payload ↔ Spells s payload := by
  have spelled : Text.Hex.decode (digits s) = .ok payload ↔
      (s.toList.filter fun c => !isSeparator c).map Char.toLower = (Text.Hex.text payload).toList := by
    rw [Text.Hex.decode_eq_ok_iff, digits, Text.Utf8.lower_encode_iff]
  have shape : decode s field = .ok payload ↔ payload ≠ [] ∧ Text.Hex.decode (digits s) = .ok payload := by
    unfold decode
    cases Text.Hex.decode (digits s) with
    | error fault => simp
    | ok decoded => cases decoded <;> cases payload <;> simp
  rw [shape, spelled]
  exact ⟨fun ⟨nonempty, same⟩ => ⟨nonempty, same⟩, fun ⟨nonempty, same⟩ => ⟨nonempty, same⟩⟩

end Payload

end TlsFixtures
