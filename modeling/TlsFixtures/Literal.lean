import TlsFixtures.Text.Hex
import TlsFixtures.Text.Quoted

/-! Literals in generated source: quoted text, decimal words, and references to byte arrays. `readBytes` reads
an array back; main statement: it takes the one at the start of a text, whatever follows. -/
namespace TlsFixtures

inductive Literal where
  | text (s : String)
  | word (n : UInt64)
  | bytes (b : List UInt8)
  deriving DecidableEq, Repr

namespace Literal

def byteItem (b : UInt8) : String := "0x" ++ Text.Hex.byteText b

/-- Two-digit bytes separated by a comma and a blank, in brackets. -/
def byteArray (b : List UInt8) : String := "[" ++ ", ".intercalate (b.map byteItem) ++ "]"

def render : Literal → String
  | text s => Text.Quoted.string s
  | word n => n.toNat.repr
  | bytes b => "&" ++ byteArray b

open Text

/-- The byte of two hex digits. -/
def byte? (high low : Char) : Option UInt8 :=
  (Quoted.hexValue? high).bind fun h => (Quoted.hexValue? low).map fun l => UInt8.ofNat (16 * h + l)

/-- The bytes from a first item on, up to the closing bracket, and what follows it. -/
def readItems : List Char → Option (List UInt8 × List Char)
  | '0' :: 'x' :: high :: low :: ']' :: rest => (byte? high low).map fun b => ([b], rest)
  | '0' :: 'x' :: high :: low :: ',' :: ' ' :: rest =>
    (byte? high low).bind fun b => (readItems rest).map fun (later, rest) => (b :: later, rest)
  | _ => none

/-- The reference to a byte array at the start of a text, and what follows it. -/
def readBytes : List Char → Option (List UInt8 × List Char)
  | '&' :: '[' :: ']' :: rest => some ([], rest)
  | '&' :: '[' :: rest => readItems rest
  | _ => none

theorem toList_byteItem (b : UInt8) : (byteItem b).toList =
    ['0', 'x', Char.ofNat (Hex.digit (b / 16)).toNat, Char.ofNat (Hex.digit (b % 16)).toNat] := by
  simp [byteItem, Hex.byteText, Hex.encodeByte]

theorem hexValue?_digit_fin : ∀ n : Fin 16,
    Quoted.hexValue? (Char.ofNat (Hex.digit (UInt8.ofNat n.val)).toNat) = some n.val := by decide

theorem hexValue?_digit {n : UInt8} (h : n < 16) :
    Quoted.hexValue? (Char.ofNat (Hex.digit n).toNat) = some n.toNat := by
  have := hexValue?_digit_fin ⟨n.toNat, by simpa [UInt8.lt_iff_toNat_lt] using h⟩
  simpa using this

theorem byte?_digits (b : UInt8) : byte? (Char.ofNat (Hex.digit (b / 16)).toNat)
    (Char.ofNat (Hex.digit (b % 16)).toNat) = some b := by
  simp only [byte?, hexValue?_digit (Hex.high_lt b), hexValue?_digit (Hex.low_lt b), Option.bind_some,
    Option.map_some]
  congr 1
  apply UInt8.toNat_inj.mp
  have := b.toNat_lt
  simp
  omega


theorem readItems_items (b : UInt8) (bytes : List UInt8) (rest : List Char) :
    readItems ((", ".intercalate ((b :: bytes).map byteItem)).toList ++ ']' :: rest) =
      some (b :: bytes, rest) := by
  induction bytes generalizing b with
  | nil => simp [readItems, toList_byteItem, byte?_digits]
  | cons c bytes ih =>
    have ih := ih c
    simp [toList_byteItem] at ih
    simp [toList_byteItem, readItems, byte?_digits, ih]

/-- A byte array reads back, whatever follows it. -/
theorem readBytes_bytes (b : List UInt8) (rest : List Char) :
    readBytes ((render (.bytes b)).toList ++ rest) = some (b, rest) := by
  cases b with
  | nil => simp [render, byteArray, readBytes]
  | cons b bytes =>
    have := readItems_items b bytes rest
    simp [toList_byteItem] at this
    simp [render, byteArray, readBytes, toList_byteItem, this]

end Literal
end TlsFixtures
