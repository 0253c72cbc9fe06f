import TlsFixtures.Proofs.Numerals
import TlsFixtures.Proofs.Rendering

/-! What a reader of the generated language makes of a literal, whatever text stands behind it. The literals of the
language are given by the rules of their text, and a text begins with one literal at most. -/
namespace TlsFixtures

namespace Text.Quoted

/-- The letter behind a backslash, and the character that both stand for. -/
def shortEscapes : List (Char × Char) :=
  [('0', '\x00'), ('t', '\t'), ('r', '\r'), ('n', '\n'), ('"', '"'), ('\\', '\\')]

/-- A text that, from inside a literal on, writes `s` up to the closing quote and goes on with `rest`. -/
inductive Inside (rest : List Char) : List Char → List Char → Prop where
  | close : Inside rest ('"' :: rest) []
  | plain : c ≠ '"' → c ≠ '\\' → Inside rest text s → Inside rest (c :: text) (c :: s)
  | short : (letter, c) ∈ shortEscapes → Inside rest text s → Inside rest ('\\' :: letter :: text) (c :: s)
  | numbered : Numeral.Writes 16 digits c.toNat → digits.length ≤ 6 → Inside rest text s →
      Inside rest ('\\' :: 'u' :: '\x7b' :: (digits ++ '\x7d' :: text)) (c :: s)

/-- A text that begins with a literal of `s`, behind which `rest` stands. -/
def Begins (rest text s : List Char) : Prop := ∃ inside, text = '"' :: inside ∧ Inside rest inside s

variable {text s t rest after digits digits' : List Char} {c d letter : Char}

theorem shortEscapes_unique (first : (letter, c) ∈ shortEscapes) (second : (letter, d) ∈ shortEscapes) : c = d := by
  have all : ∀ e ∈ shortEscapes, ∀ f ∈ shortEscapes, e.1 = f.1 → e.2 = f.2 := by decide
  exact all _ first _ second rfl

theorem short_ne_u (short : (letter, c) ∈ shortEscapes) : letter ≠ 'u' := by
  have all : ∀ e ∈ shortEscapes, e.1 ≠ 'u' := by decide
  exact all _ short

theorem brace_not_mem (writes : Numeral.Writes 16 digits n) : '\x7d' ∉ digits := by
  intro member
  obtain ⟨d, digit⟩ := writes.digits _ member
  exact digit.ne (by decide) (by decide) rfl

/-- The first character of a text tells which rule reads it, and the digits of a number end at the brace. -/
theorem Inside.unique (first : Inside rest text s) (second : Inside after text t) : s = t ∧ rest = after := by
  induction first generalizing t with
  | close =>
    cases second with
    | close => exact ⟨rfl, rfl⟩
    | plain quote => exact absurd rfl quote
  | plain quote backslash _ ih =>
    cases second with
    | close => exact absurd rfl quote
    | plain _ _ later =>
      obtain ⟨rfl, same⟩ := ih later
      exact ⟨rfl, same⟩
    | short => exact absurd rfl backslash
    | numbered => exact absurd rfl backslash
  | short escape _ ih =>
    cases second with
    | plain _ backslash => exact absurd rfl backslash
    | short escape' later =>
      obtain ⟨rfl, same⟩ := ih later
      rw [shortEscapes_unique escape escape']
      exact ⟨rfl, same⟩
    | numbered => exact absurd rfl (short_ne_u escape)
  | @numbered digits text s c writes _ _ ih =>
    -- The text behind the opening brace is set apart, as two numbers may end in it at different places.
    generalize same : digits ++ '\x7d' :: text = number at second
    cases second with
    | plain _ backslash => exact absurd rfl backslash
    | short escape => exact absurd rfl (short_ne_u escape)
    | numbered writes' _ later =>
      obtain ⟨rfl, rfl⟩ := first_mark_unique (brace_not_mem writes) (brace_not_mem writes') same
      obtain ⟨rfl, same⟩ := ih later
      rw [Char.toNat_inj.mp (writes.unique writes' (by decide))]
      exact ⟨rfl, same⟩

/-- Every scalar value has six hex digits at most. -/
theorem inside_numbered (c : Char) (later : Inside rest text s) : Inside rest (numbered c ++ text) (c :: s) := by
  have digits : Numeral.Writes 16 (Nat.toDigits 16 c.toNat) c.toNat :=
    Numeral.writes_toDigits (by decide) (by decide) c.toNat
  have bound : c.toNat < 16 ^ 6 := by
    rcases c.valid with low | ⟨_, high⟩ <;> rw [Char.toNat_val] at * <;> omega
  have length : (Nat.toDigits 16 c.toNat).length ≤ 6 :=
    (Nat.length_toDigits_le_iff (by decide) (by decide)).mpr bound
  simpa [numbered] using Inside.numbered digits length later

theorem inside_escape (c : Char) (later : Inside rest text s) : Inside rest (escape '"' c ++ text) (c :: s) := by
  unfold escape
  split
  · subst c; exact .short (by decide) later
  split
  · subst c; exact .short (by decide) later
  split
  · subst c; exact .short (by decide) later
  split
  · subst c; exact .short (by decide) later
  split
  next special => rcases special with rfl | rfl <;> exact .short (by decide) later
  next ordinary =>
    split
    · exact inside_numbered c later
    · exact .plain (fun quote => ordinary (.inl quote)) (fun backslash => ordinary (.inr backslash)) later

theorem inside_body (s rest : List Char) : Inside rest (body '"' s ++ '"' :: rest) s := by
  induction s with
  | nil => exact .close
  | cons c s ih => simpa [body] using inside_escape c ih

/-- A rendered text is a literal of that text and of no other, and it ends where it was put. -/
theorem begins_string_iff (s : String) (rest t after : List Char) :
    Begins after ((string s).toList ++ rest) t ↔ t = s.toList ∧ after = rest := by
  have reads := inside_body s.toList rest
  have shape : (string s).toList ++ rest = '"' :: (body '"' s.toList ++ '"' :: rest) := by simp [string]
  rw [shape]
  constructor
  · rintro ⟨inside, same, other⟩
    obtain rfl := (List.cons.inj same).2
    exact other.unique reads
  · rintro ⟨rfl, rfl⟩
    exact ⟨_, rfl, reads⟩

end Text.Quoted

namespace Literal

open Text

/-- A text that writes bytes, one at least, up to the closing bracket and goes on with `rest`. -/
inductive Items (rest : List Char) : List Char → List UInt8 → Prop where
  | last : Numeral.Writes 16 [high, low] b.toNat → Items rest ('0' :: 'x' :: high :: low :: ']' :: rest) [b]
  | more : Numeral.Writes 16 [high, low] b.toNat → Items rest later payload →
      Items rest ('0' :: 'x' :: high :: low :: ',' :: ' ' :: later) (b :: payload)

/-- A text that begins with a reference to an array of bytes, behind which `rest` stands. -/
inductive BeginsArray (rest : List Char) : List Char → List UInt8 → Prop where
  | empty : BeginsArray rest ('&' :: '[' :: ']' :: rest) []
  | items : Items rest later payload → BeginsArray rest ('&' :: '[' :: later) payload

variable {rest after later : List Char} {payload payload' : List UInt8}

theorem writes_unique {digits : List Char} {b c : UInt8} (first : Numeral.Writes 16 digits b.toNat)
    (second : Numeral.Writes 16 digits c.toNat) : b = c :=
  UInt8.toNat_inj.mp (first.unique second (by decide))

theorem Items.unique (first : Items rest later payload) (second : Items after later payload') :
    payload = payload' ∧ rest = after := by
  induction first generalizing payload' with
  | last writes =>
    cases second with
    | last writes' => exact ⟨by rw [writes_unique writes writes'], rfl⟩
  | more writes _ ih =>
    cases second with
    | more writes' others =>
      obtain ⟨rfl, same⟩ := ih others
      exact ⟨by rw [writes_unique writes writes'], same⟩

theorem BeginsArray.unique (first : BeginsArray rest later payload) (second : BeginsArray after later payload') :
    payload = payload' ∧ rest = after := by
  cases first with
  | empty =>
    cases second with
    | empty => exact ⟨rfl, rfl⟩
    | items items => cases items
  | items items =>
    cases second with
    | empty => cases items
    | items items' => exact items.unique items'

theorem digit_eq_digitChar {n : UInt8} (small : n < 16) :
    Char.ofNat (Hex.digit n).toNat = Nat.digitChar n.toNat :=
  Hex.forall_below (P := fun n => Char.ofNat (Hex.digit n).toNat = Nat.digitChar n.toNat) (by decide)
    (Hex.toNat_lt_of_lt small)

theorem writes_byte (b : UInt8) : Numeral.Writes 16
    [Char.ofNat (Hex.digit (b / 16)).toNat, Char.ofNat (Hex.digit (b % 16)).toNat] b.toNat := by
  have high := Hex.toNat_lt_of_lt (Hex.high_lt b)
  have low := Hex.toNat_lt_of_lt (Hex.low_lt b)
  have worth : 16 * (b / 16).toNat + (b % 16).toNat = b.toNat := by simp; omega
  rw [digit_eq_digitChar (Hex.high_lt b), digit_eq_digitChar (Hex.low_lt b), ← worth]
  exact .more (.digit (Numeral.digit_digitChar high (by decide))) (Numeral.digit_digitChar low (by decide))

theorem items_intercalate (b : UInt8) (payload : List UInt8) (rest : List Char) :
    Items rest ((", ".intercalate ((b :: payload).map byteItem)).toList ++ ']' :: rest) (b :: payload) := by
  induction payload generalizing b with
  | nil => simpa [toList_byteItem] using Items.last (writes_byte b)
  | cons c payload ih => simpa [toList_byteItem] using Items.more (writes_byte b) (ih c)

theorem beginsArray_bytes (payload : List UInt8) (rest : List Char) :
    BeginsArray rest ((render (.bytes payload)).toList ++ rest) payload := by
  cases payload with
  | nil => exact .empty
  | cons b payload => simpa [render, byteArray] using BeginsArray.items (items_intercalate b payload rest)

/-- Each literal, with any text behind it, is read as what was rendered and ends where it was put: a text, which
keeps to its line, the decimal numeral of a word, and an array of bytes. -/
theorem literals_read_back :
    (∀ (s : String) (rest t after : List Char),
      Quoted.Begins after ((render (.text s)).toList ++ rest) t ↔ t = s.toList ∧ after = rest) ∧
    (∀ s : String, '\n' ∉ (render (.text s)).toList ∧ '\r' ∉ (render (.text s)).toList) ∧
    (∀ (n : UInt64) (digits : List Char), Numeral.Decimal digits n.toNat ↔ digits = (render (.word n)).toList) ∧
    ∀ (b : List UInt8) (rest : List Char) (c : List UInt8) (after : List Char),
      BeginsArray after ((render (.bytes b)).toList ++ rest) c ↔ c = b ∧ after = rest := by
  refine ⟨Quoted.begins_string_iff, ?_, ?_, ?_⟩
  · exact fun s => ⟨feed_not_mem_text (.inl rfl) s, feed_not_mem_text (.inr rfl) s⟩
  · intro n digits
    rw [Numeral.decimal_iff, render, Nat.toList_repr]
  · intro b rest c after
    have reads := beginsArray_bytes b rest
    constructor
    · exact fun other => other.unique reads
    · rintro ⟨rfl, rfl⟩
      exact reads

end Literal

end TlsFixtures
