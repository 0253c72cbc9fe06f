/-! Texts as they are read. White space is meant in two senses: the six characters of the ASCII standard less the
vertical tab, which separate hex digits, and the Unicode property, which pads lines and messages. A line of a byte
stream ends before each line feed; bytes after the last one are a line too. Numerals are unsigned and fit a 64-bit
word: ASCII digits, any number of leading zeros, and at most one leading plus sign. -/
namespace TlsFixtures.Text

section Blanks

def isAsciiBlank (c : Char) : Bool :=
  c = ' ' || c = '\t' || c = '\n' || c = '\x0c' || c = '\r'

/-- The code points with the Unicode property White_Space. -/
def blankRanges : List (Nat × Nat) := [
  (0x9, 0xd), (0x20, 0x20), (0x85, 0x85), (0xa0, 0xa0), (0x1680, 0x1680), (0x2000, 0x200a),
  (0x2028, 0x2029), (0x202f, 0x202f), (0x205f, 0x205f), (0x3000, 0x3000)]

def isBlank (c : Char) : Bool := blankRanges.any fun (low, high) => low ≤ c.toNat && c.toNat ≤ high

def trim (s : List Char) : List Char :=
  ((s.dropWhile isBlank).reverse.dropWhile isBlank).reverse

variable {front s back : List Char}

theorem trim_append_left (blank : ∀ c ∈ front, isBlank c = true) : trim (front ++ s) = trim s := by
  rw [trim, List.dropWhile_append_of_pos blank, trim]

theorem trim_blanks (blank : ∀ c ∈ s, isBlank c = true) : trim s = [] := by
  rw [← List.append_nil s, trim_append_left blank]
  rfl

theorem trim_append_right (blank : ∀ c ∈ back, isBlank c = true) : trim (s ++ back) = trim s := by
  rw [trim, trim, List.dropWhile_append]
  split
  next empty =>
    have none : back.dropWhile isBlank = [] := by
      rw [← List.append_nil back, List.dropWhile_append_of_pos blank]
      rfl
    rw [List.isEmpty_iff.mp empty, none]
  next => rw [List.reverse_append, List.dropWhile_append_of_pos (by simpa using blank)]

def Visible (s : List Char) : Prop := ∀ c ∈ s, isBlank c = false

instance (s : List Char) : Decidable (Visible s) := List.decidableBAll _ s

/-- A text that neither begins nor ends with a blank. -/
structure Solid (s : List Char) : Prop where
  first : ∃ c ∈ s.head?, isBlank c = false
  last : ∃ c ∈ s.getLast?, isBlank c = false

theorem dropWhile_of_head? (first : ∃ c ∈ s.head?, isBlank c = false) : s.dropWhile isBlank = s := by
  obtain ⟨c, head, solid⟩ := first
  cases s with
  | nil => rfl
  | cons d s =>
    obtain rfl := Option.some.inj head
    rw [List.dropWhile_cons_of_neg (by simp [solid])]

theorem Solid.trim_eq (solid : Solid s) : trim s = s := by
  rw [trim, dropWhile_of_head? solid.first, dropWhile_of_head? (by simpa using solid.last), List.reverse_reverse]

theorem Solid.around (solid : Solid front) (s : List Char) (solid' : Solid back) : Solid (front ++ (s ++ back)) := by
  obtain ⟨c, first, visible⟩ := solid.first
  obtain ⟨d, last, visible'⟩ := solid'.last
  refine ⟨⟨c, ?_, visible⟩, ⟨d, ?_, visible'⟩⟩
  · simp [Option.mem_def.mp first]
  · simp [Option.mem_def.mp last]

theorem Solid.of_visible (nonempty : s ≠ []) (visible : Visible s) : Solid s where
  first := ⟨s.head nonempty, List.head?_eq_some_head nonempty, visible _ (List.head_mem nonempty)⟩
  last := ⟨s.getLast nonempty, List.getLast?_eq_some_getLast nonempty, visible _ (List.getLast_mem nonempty)⟩

end Blanks

namespace Utf8

def encode (s : List Char) : List UInt8 := s.flatMap String.utf8EncodeChar

def decode? (bytes : List UInt8) : Option String := String.fromUTF8? bytes.toByteArray

theorem decode?_encode (s : List Char) : decode? (encode s) = some (String.ofList s) := by
  have valid : (encode s).toByteArray.IsValidUTF8 := ⟨s, rfl⟩
  rw [decode?, String.fromUTF8?, dif_pos valid]
  rfl

/-- Bytes are decoded to the text that they encode. -/
theorem decode?_eq_some_iff {bytes : List UInt8} {text : String} :
    decode? bytes = some text ↔ bytes = encode text.toList := by
  constructor
  · intro decoded
    obtain ⟨s, same⟩ : bytes.toByteArray.IsValidUTF8 := by
      unfold decode? String.fromUTF8? at decoded
      split at decoded
      next valid => exact valid
      next => contradiction
    have encoded : bytes = encode s := by
      rw [← List.toList_data_toByteArray (l := bytes), same, List.utf8Encode, List.toList_data_toByteArray, encode]
    rw [encoded, decode?_encode] at decoded
    rw [encoded, ← Option.some.inj decoded, String.toList_ofList]
  · rintro rfl
    rw [decode?_encode, String.ofList_toList]

end Utf8

section Lines

def lineFeed : UInt8 := 10

def lines : List UInt8 → List (List UInt8)
  | [] => []
  | b :: rest =>
    if b = lineFeed then [] :: lines rest
    else
      match lines rest with
      | [] => [[b]]
      | line :: more => (b :: line) :: more

/-- The bytes up to and with the last line feed, and those after it. -/
def splitLast (bytes : List UInt8) : List UInt8 × List UInt8 :=
  let reversed := bytes.reverse
  ((reversed.dropWhile (· ≠ lineFeed)).reverse, (reversed.takeWhile (· ≠ lineFeed)).reverse)

variable {line : List UInt8}

theorem lines_ended (inside : lineFeed ∉ line) (rest : List UInt8) :
    lines (line ++ lineFeed :: rest) = line :: lines rest := by
  induction line with
  | nil => rfl
  | cons b line ih =>
    obtain ⟨feed, inside⟩ := not_or.mp (mt List.mem_cons.mpr inside)
    rw [List.cons_append, lines, if_neg (Ne.symm feed), ih inside]

theorem lines_unended (nonempty : line ≠ []) (inside : lineFeed ∉ line) : lines line = [line] := by
  induction line with
  | nil => contradiction
  | cons b line ih =>
    obtain ⟨feed, inside⟩ := not_or.mp (mt List.mem_cons.mpr inside)
    rw [lines, if_neg (Ne.symm feed)]
    cases line with
    | nil => rfl
    | cons c line => rw [ih (by simp) inside]

end Lines

namespace Numeral

def digitValue? (c : Char) : Option Nat :=
  if '0' ≤ c ∧ c ≤ '9' then some (c.toNat - '0'.toNat) else none

/-- The number that `digits` continue after `value`. -/
def extend (value : Nat) : List Char → Option Nat
  | [] => some value
  | c :: rest => (digitValue? c).bind fun d => extend (10 * value + d) rest

def magnitude? : List Char → Option Nat
  | [] => none
  | digits => extend 0 digits

def word? (s : List Char) : Option UInt64 :=
  let digits := match s with
    | '+' :: rest => rest
    | _ => s
  (magnitude? digits).bind fun n => if n < UInt64.size then some (UInt64.ofNat n) else none

end Numeral

end TlsFixtures.Text
