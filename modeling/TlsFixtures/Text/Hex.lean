/-! Hex text over bytes. `encode` writes two lower-case digits a byte; `decode` takes either case and names
the first fault, the length being looked at before any digit. -/
namespace TlsFixtures.Text.Hex

/-- What keeps a text from being hex digits in pairs. -/
inductive Fault
  | oddLength
  | badDigit (byte : UInt8) (offset : Nat)
  deriving DecidableEq, Repr

def digit (n : UInt8) : UInt8 := if n < 10 then 48 + n else 87 + n

def digitValue? (b : UInt8) : Option UInt8 :=
  if 48 ≤ b ∧ b ≤ 57 then some (b - 48)
  else if 97 ≤ b ∧ b ≤ 102 then some (b - 87)
  else if 65 ≤ b ∧ b ≤ 70 then some (b - 55)
  else none

def encodeByte (b : UInt8) : List UInt8 := [digit (b / 16), digit (b % 16)]

def encode (bytes : List UInt8) : List UInt8 := bytes.flatMap encodeByte

/-- Two digits as the character text that a reader sees. -/
def byteText (b : UInt8) : String :=
  String.ofList ((encodeByte b).map fun d => Char.ofNat d.toNat)

def text (bytes : List UInt8) : String := String.join (bytes.map byteText)

/-- Pairs from `offset` on; a wrong digit is reported where it stands. -/
def decodePairs (offset : Nat) : List UInt8 → Except Fault (List UInt8)
  | [] => .ok []
  | [_] => .error .oddLength
  | high :: low :: rest =>
    match digitValue? high, digitValue? low with
    | none, _ => .error (.badDigit high offset)
    | some _, none => .error (.badDigit low (offset + 1))
    | some h, some l => (decodePairs (offset + 2) rest).map ((16 * h + l) :: ·)

def decode (digits : List UInt8) : Except Fault (List UInt8) :=
  if digits.length % 2 = 1 then .error .oddLength else decodePairs 0 digits

theorem high_lt (b : UInt8) : b / 16 < 16 := by
  have := b.toNat_lt
  simp only [UInt8.lt_iff_toNat_lt, UInt8.toNat_div]
  simp
  omega

theorem low_lt (b : UInt8) : b % 16 < 16 := by
  simp only [UInt8.lt_iff_toNat_lt, UInt8.toNat_mod]
  simp
  omega

theorem digits_join (b : UInt8) : 16 * (b / 16) + b % 16 = b := by
  apply UInt8.toNat_inj.mp
  have := b.toNat_lt
  simp only [UInt8.toNat_add, UInt8.toNat_mul, UInt8.toNat_div, UInt8.toNat_mod]
  simp
  omega

theorem length_encode (bytes : List UInt8) : (encode bytes).length = 2 * bytes.length := by
  induction bytes with
  | nil => rfl
  | cons b rest ih => simp_all [encode, encodeByte]; omega

end TlsFixtures.Text.Hex
