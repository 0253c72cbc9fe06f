import TlsFixtures.Proofs.Decoding

/-! The spellings of a payload. A text decodes to some bytes if it is made of their hex digits, small or capital
each, with separators anywhere among them; no other text decodes to anything. -/
namespace TlsFixtures.Payload

/-- A colon and the ASCII blanks, of which the vertical tab is none. -/
def separators : List Char := [':', ' ', '\t', '\n', '\x0c', '\r']

/-- The digits of bytes, two for each and in small letters. -/
def hexDigits (payload : List UInt8) : List Char :=
  payload.flatMap fun b => [Nat.digitChar (b.toNat / 16), Nat.digitChar (b.toNat % 16)]

/-- A text that is made of some digits in their order. -/
inductive Spelling : List Char → List Char → Prop where
  | nil : Spelling [] []
  | separator {text ds : List Char} {c : Char} : c ∈ separators → Spelling text ds → Spelling (c :: text) ds
  | small {text ds : List Char} {d : Char} : Spelling text ds → Spelling (d :: text) (d :: ds)
  | capital {text ds : List Char} {d : Char} : Spelling text ds → Spelling (d.toUpper :: text) (d :: ds)

/-- What is read of a text: no separators, and ASCII letters as small ones. -/
def stripped (text : List Char) : List Char := (text.filter (· ∉ separators)).map Char.toLower

theorem stripped_separator {c : Char} (member : c ∈ separators) (text : List Char) :
    stripped (c :: text) = stripped text := by
  rw [stripped, List.filter_cons_of_neg (by simpa using member), stripped]

theorem stripped_plain {c : Char} (plain : c ∉ separators) (text : List Char) :
    stripped (c :: text) = c.toLower :: stripped text := by
  rw [stripped, List.filter_cons_of_pos (by simpa using plain), List.map_cons, stripped]

def IsHexDigit (d : Char) : Prop := ∃ n : Fin 16, d = Nat.digitChar n.val

theorem isHexDigit_of_mem {payload : List UInt8} {d : Char} (member : d ∈ hexDigits payload) : IsHexDigit d := by
  obtain ⟨b, _, inside⟩ := List.mem_flatMap.mp member
  have small := b.toNat_lt
  simp only [List.mem_cons, List.not_mem_nil, or_false] at inside
  rcases inside with rfl | rfl
  · exact ⟨⟨b.toNat / 16, by omega⟩, rfl⟩
  · exact ⟨⟨b.toNat % 16, by omega⟩, rfl⟩

theorem IsHexDigit.plain {d : Char} (digit : IsHexDigit d) :
    d ∉ separators ∧ d.toUpper ∉ separators ∧ d.toLower = d ∧ d.toUpper.toLower = d := by
  obtain ⟨n, rfl⟩ := digit
  revert n
  decide

theorem IsHexDigit.ascii {d : Char} (digit : IsHexDigit d) : d.toNat < 128 := by
  obtain ⟨n, rfl⟩ := digit
  revert n
  decide

/-- A character with a hex digit for its small letter is that digit or its capital. -/
theorem IsHexDigit.eq_or_capital {c : Char} (digit : IsHexDigit c.toLower) :
    c = c.toLower ∨ c = c.toLower.toUpper := by
  have ascii : c.toNat < 128 := Text.Utf8.toLower_ascii_iff.mp digit.ascii
  exact Text.Utf8.forall_ascii (P := fun c => c = c.toLower ∨ c = c.toLower.toUpper) (by decide) ascii

theorem Spelling.stripped_eq {text ds : List Char} (spelling : Spelling text ds)
    (hex : ∀ d ∈ ds, IsHexDigit d) : stripped text = ds := by
  induction spelling with
  | nil => rfl
  | separator member _ ih => rw [stripped_separator member, ih hex]
  | small _ ih =>
    obtain ⟨first, rest⟩ := List.forall_mem_cons.mp hex
    obtain ⟨plain, _, lower, _⟩ := first.plain
    rw [stripped_plain plain, lower, ih rest]
  | capital _ ih =>
    obtain ⟨first, rest⟩ := List.forall_mem_cons.mp hex
    obtain ⟨_, plain, _, lower⟩ := first.plain
    rw [stripped_plain plain, lower, ih rest]

theorem Spelling.of_stripped {text : List Char} (hex : ∀ d ∈ stripped text, IsHexDigit d) :
    Spelling text (stripped text) := by
  induction text with
  | nil => exact .nil
  | cons c text ih =>
    by_cases member : c ∈ separators
    · rw [stripped_separator member] at hex ⊢
      exact .separator member (ih hex)
    · rw [stripped_plain member] at hex ⊢
      obtain ⟨first, rest⟩ := List.forall_mem_cons.mp hex
      rcases first.eq_or_capital with small | capital
      · have spelling := Spelling.small (d := c.toLower) (ih rest)
        rwa [← small] at spelling ⊢
      · have spelling := Spelling.capital (d := c.toLower) (ih rest)
        rwa [← capital] at spelling

/-- The spellings of bytes are the texts of which their digits are read. -/
theorem spelling_iff {text : List Char} {payload : List UInt8} :
    Spelling text (hexDigits payload) ↔ stripped text = hexDigits payload := by
  constructor
  · exact fun spelling => spelling.stripped_eq fun d => isHexDigit_of_mem
  · intro same
    have hex : ∀ d ∈ stripped text, IsHexDigit d := same ▸ fun d => isHexDigit_of_mem
    exact same ▸ Spelling.of_stripped hex

theorem filter_separators (text : List Char) :
    (text.filter fun c => !isSeparator c) = text.filter (· ∉ separators) := by
  apply List.filter_congr
  intro c _
  simp [isSeparator, Text.isAsciiBlank, separators, Bool.and_assoc]

theorem filter_map_eq_stripped (text : List Char) :
    (text.filter fun c => !isSeparator c).map Char.toLower = stripped text := by
  rw [filter_separators, stripped]

theorem ofNat_digit {n : UInt8} (small : n < 16) :
    Char.ofNat (Text.Hex.digit n).toNat = Nat.digitChar n.toNat :=
  Text.Hex.forall_below (P := fun n => Char.ofNat (Text.Hex.digit n).toNat = Nat.digitChar n.toNat) (by decide)
    (Text.Hex.toNat_lt_of_lt small)

theorem toList_text_eq (payload : List UInt8) : (Text.Hex.text payload).toList = hexDigits payload := by
  rw [Text.Hex.toList_text]
  induction payload with
  | nil => rfl
  | cons b payload ih =>
    have high := ofNat_digit (Text.Hex.high_lt b)
    have low := ofNat_digit (Text.Hex.low_lt b)
    rw [UInt8.toNat_div] at high
    rw [UInt8.toNat_mod] at low
    rw [Text.Hex.encode_cons, List.map_cons, List.map_cons, high, low, ih]
    rfl

theorem decode_ok_iff_stripped {s field : String} {payload : List UInt8} :
    decode s field = .ok payload ↔ payload ≠ [] ∧ stripped s.toList = hexDigits payload := by
  rw [decode_eq_ok_iff]
  constructor
  · intro spells
    rw [← filter_map_eq_stripped, spells.digits, toList_text_eq]
    exact ⟨spells.nonempty, rfl⟩
  · rintro ⟨nonempty, same⟩
    rw [← filter_map_eq_stripped, ← toList_text_eq] at same
    exact ⟨nonempty, same⟩

/-- What decodes to a payload, told twice: by what is read of the text, and by how the text is put together. -/
theorem decode_ok_iff_spelled (s field : String) (payload : List UInt8) :
    (decode s field = .ok payload ↔ payload ≠ [] ∧ stripped s.toList = hexDigits payload) ∧
    (decode s field = .ok payload ↔ payload ≠ [] ∧ Spelling s.toList (hexDigits payload)) := by
  constructor
  · exact decode_ok_iff_stripped
  · rw [decode_ok_iff_stripped, spelling_iff]

-- A separator between the digits of a byte is nothing to read either.
example : decode "3:0 8\x0c2\nAa" "tls.handshake" = .ok [0x30, 0x82, 0xaa] := rfl

end TlsFixtures.Payload
