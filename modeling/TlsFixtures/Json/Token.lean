/-! Tokens of JSON text. Strings and numbers are kept as they are spelled, so a text can be checked for its
form alone; what they denote is decided later. -/
namespace TlsFixtures.Json

/-- One element of a string: a character, or a code unit written by its number. -/
inductive Piece where
  | char (c : Char)
  | unit (code : Nat)
  deriving DecidableEq, Repr

/-- A number as it is spelled: decimal digits before the point, after it, and of the exponent. -/
structure NumberText where
  negative : Bool
  whole : List Nat
  fraction : Option (List Nat)
  /-- Whether the exponent is negative, and its digits. -/
  exponent : Option (Bool × List Nat)
  deriving DecidableEq, Repr

inductive Token where
  | openArray
  | closeArray
  | openObject
  | closeObject
  | comma
  | colon
  | null
  | bool (b : Bool)
  | number (n : NumberText)
  | string (s : List Piece)
  deriving DecidableEq, Repr

namespace Token

def isBlank (c : Char) : Bool := c = ' ' || c = '\t' || c = '\n' || c = '\r'

def isDigit (c : Char) : Bool := '0' ≤ c && c ≤ '9'

def digitValue (c : Char) : Nat := c.toNat - '0'.toNat

def hexValue? (c : Char) : Option Nat :=
  if '0' ≤ c ∧ c ≤ '9' then some (c.toNat - '0'.toNat)
  else if 'a' ≤ c ∧ c ≤ 'f' then some (c.toNat - 'a'.toNat + 10)
  else if 'A' ≤ c ∧ c ≤ 'F' then some (c.toNat - 'A'.toNat + 10)
  else none

def unit? (a b c d : Char) : Option Nat := do
  let a ← hexValue? a
  let b ← hexValue? b
  let c ← hexValue? c
  let d ← hexValue? d
  return ((a * 16 + b) * 16 + c) * 16 + d

/-- What a backslash and one character stand for. -/
def escaped? : Char → Option Char
  | '"' => some '"'
  | '\\' => some '\\'
  | '/' => some '/'
  | 'b' => some '\x08'
  | 'f' => some '\x0c'
  | 'n' => some '\n'
  | 'r' => some '\r'
  | 't' => some '\t'
  | _ => none

/-- The rest of a string whose opening quote is read, and the text after its closing quote. -/
def scanString : List Char → Option (List Piece × List Char)
  | [] => none
  | '"' :: rest => some ([], rest)
  | '\\' :: 'u' :: a :: b :: c :: d :: rest => do
    let code ← unit? a b c d
    let (pieces, after) ← scanString rest
    return (.unit code :: pieces, after)
  | '\\' :: e :: rest => do
    let c ← escaped? e
    let (pieces, after) ← scanString rest
    return (.char c :: pieces, after)
  | c :: rest =>
    if c = '\\' ∨ c.toNat < 0x20 then none
    else (scanString rest).map fun (pieces, after) => (.char c :: pieces, after)

def scanDigits (s : List Char) : Option (List Nat × List Char) :=
  match s.takeWhile isDigit with
  | [] => none
  | digits => some (digits.map digitValue, s.dropWhile isDigit)

/-- Digits without a needless zero in front. -/
def scanWhole (s : List Char) : Option (List Nat × List Char) := do
  let (digits, after) ← scanDigits s
  match digits with
  | 0 :: _ :: _ => none
  | _ => return (digits, after)

def scanFraction : List Char → Option (Option (List Nat) × List Char)
  | '.' :: rest => (scanDigits rest).map fun (digits, after) => (some digits, after)
  | s => some (none, s)

def scanSign : List Char → Bool × List Char
  | '-' :: rest => (true, rest)
  | '+' :: rest => (false, rest)
  | s => (false, s)

def scanExponent : List Char → Option (Option (Bool × List Nat) × List Char)
  | c :: rest =>
    if c = 'e' ∨ c = 'E' then
      let signed := scanSign rest
      (scanDigits signed.2).map fun (digits, after) => (some (signed.1, digits), after)
    else some (none, c :: rest)
  | [] => some (none, [])

def scanMagnitude (negative : Bool) (s : List Char) : Option (NumberText × List Char) := do
  let (whole, s) ← scanWhole s
  let (fraction, s) ← scanFraction s
  let (exponent, s) ← scanExponent s
  return (⟨negative, whole, fraction, exponent⟩, s)

def scanNumber : List Char → Option (NumberText × List Char)
  | '-' :: rest => scanMagnitude true rest
  | s => scanMagnitude false s

/-- The token that begins with `c`, and the text after it. -/
def scanOne (c : Char) (rest : List Char) : Option (Token × List Char) :=
  match c, rest with
  | '[', _ => some (openArray, rest)
  | ']', _ => some (closeArray, rest)
  | '\x7b', _ => some (openObject, rest)
  | '\x7d', _ => some (closeObject, rest)
  | ',', _ => some (comma, rest)
  | ':', _ => some (colon, rest)
  | '"', _ => (scanString rest).map fun (pieces, after) => (string pieces, after)
  | 'n', 'u' :: 'l' :: 'l' :: after => some (null, after)
  | 't', 'r' :: 'u' :: 'e' :: after => some (bool true, after)
  | 'f', 'a' :: 'l' :: 's' :: 'e' :: after => some (bool false, after)
  | _, _ => (scanNumber (c :: rest)).map fun (n, after) => (number n, after)

theorem length_after_string {s after : List Char} {pieces : List Piece}
    (h : scanString s = some (pieces, after)) : after.length < s.length := by
  fun_induction scanString s generalizing pieces after with
  | case1 => simp at h
  | case2 => simp_all
  | case3 a b c d rest ih =>
    simp only [Option.bind_eq_bind, Option.bind_eq_some_iff] at h
    obtain ⟨_, _, ⟨_, _⟩, inner, h⟩ := h
    have := ih inner
    simp_all
    omega
  | case4 e rest _ ih =>
    simp only [Option.bind_eq_bind, Option.bind_eq_some_iff] at h
    obtain ⟨_, _, ⟨_, _⟩, inner, h⟩ := h
    have := ih inner
    simp_all
    omega
  | case5 => simp at h
  | case6 c rest _ _ _ _ ih =>
    obtain ⟨⟨_, _⟩, inner, h⟩ := Option.map_eq_some_iff.mp h
    have := ih inner
    simp_all
    omega

theorem length_after_digits {s after : List Char} {digits : List Nat}
    (h : scanDigits s = some (digits, after)) : after.length < s.length := by
  unfold scanDigits at h
  split at h
  · simp at h
  · next some_digit =>
    have whole : (s.takeWhile isDigit ++ s.dropWhile isDigit).length = s.length := by
      rw [List.takeWhile_append_dropWhile]
    have positive := List.length_pos_iff.mpr some_digit
    simp only [List.length_append] at whole
    obtain ⟨_, rfl⟩ := Prod.mk.inj (Option.some.inj h)
    omega

theorem length_after_whole {s after : List Char} {digits : List Nat}
    (h : scanWhole s = some (digits, after)) : after.length < s.length := by
  simp only [scanWhole, Option.bind_eq_bind, Option.bind_eq_some_iff] at h
  obtain ⟨⟨_, _⟩, scanned, h⟩ := h
  split at h
  · simp at h
  · simp_all
    exact length_after_digits scanned

theorem length_after_fraction {s after : List Char} {digits : Option (List Nat)}
    (h : scanFraction s = some (digits, after)) : after.length ≤ s.length := by
  unfold scanFraction at h
  split at h
  · obtain ⟨⟨_, _⟩, scanned, h⟩ := Option.map_eq_some_iff.mp h
    have := length_after_digits scanned
    simp_all
    omega
  · simp_all

theorem length_after_sign (s : List Char) : (scanSign s).2.length ≤ s.length := by
  fun_cases scanSign s <;> simp

theorem length_after_exponent {s after : List Char} {exponent : Option (Bool × List Nat)}
    (h : scanExponent s = some (exponent, after)) : after.length ≤ s.length := by
  unfold scanExponent at h
  split at h
  · next rest =>
    split at h
    · obtain ⟨⟨_, _⟩, scanned, h⟩ := Option.map_eq_some_iff.mp h
      have := length_after_digits scanned
      have := length_after_sign rest
      obtain ⟨_, rfl⟩ := Prod.mk.inj h
      simp only [List.length_cons]
      omega
    · simp_all
  · simp_all

theorem length_after_magnitude {s after : List Char} {negative : Bool} {n : NumberText}
    (h : scanMagnitude negative s = some (n, after)) : after.length < s.length := by
  simp only [scanMagnitude, Option.bind_eq_bind, Option.bind_eq_some_iff] at h
  obtain ⟨_, whole, _, fraction, _, exponent, h⟩ := h
  have := length_after_whole whole
  have := length_after_fraction fraction
  have := length_after_exponent exponent
  obtain ⟨_, rfl⟩ := Prod.mk.inj (Option.some.inj h)
  omega

theorem length_after_number {s after : List Char} {n : NumberText}
    (h : scanNumber s = some (n, after)) : after.length < s.length := by
  unfold scanNumber at h
  split at h
  · have := length_after_magnitude h
    simp only [List.length_cons]
    omega
  · exact length_after_magnitude h

/-- Every token takes at least its first character. -/
theorem length_after_one {c : Char} {rest after : List Char} {t : Token}
    (h : scanOne c rest = some (t, after)) : after.length ≤ rest.length := by
  unfold scanOne at h
  split at h
  case h_7 =>
    obtain ⟨⟨_, _⟩, scanned, h⟩ := Option.map_eq_some_iff.mp h
    have := length_after_string scanned
    obtain ⟨_, rfl⟩ := Prod.mk.inj h
    omega
  case h_11 =>
    obtain ⟨⟨_, _⟩, scanned, h⟩ := Option.map_eq_some_iff.mp h
    have := length_after_number scanned
    obtain ⟨_, rfl⟩ := Prod.mk.inj h
    simp only [List.length_cons] at this
    omega
  all_goals simp_all
  all_goals omega

def scan : List Char → Option (List Token)
  | [] => some []
  | c :: rest =>
    if isBlank c then scan rest
    else
      match _one : scanOne c rest with
      | none => none
      | some (t, after) => (scan after).map (t :: ·)
termination_by s => s.length
decreasing_by
  · simp
  · have := length_after_one _one
    simp
    omega

end Token
end TlsFixtures.Json
