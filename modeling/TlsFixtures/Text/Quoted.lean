import TlsFixtures.Text.Unprintable

/-! Quoted literals. Inside the quotes the quote itself, the backslash and four control characters have
short escapes, unprintable code points are written by number, and all else stands as it is. `readBody` reads
such literals back; main statement: it takes the literal at the start of a text, whatever follows. -/
namespace TlsFixtures.Text.Quoted

/-- The escape of a number, in lower-case hex without leading zeros. -/
def numbered (c : Char) : List Char := '\\' :: 'u' :: '\x7b' :: Nat.toDigits 16 c.toNat ++ ['\x7d']

def escape (quote c : Char) : List Char :=
  if c = '\x00' then ['\\', '0']
  else if c = '\t' then ['\\', 't']
  else if c = '\r' then ['\\', 'r']
  else if c = '\n' then ['\\', 'n']
  else if c = quote ∨ c = '\\' then ['\\', c]
  else if isUnprintable c then numbered c
  else [c]

def body (quote : Char) (s : List Char) : List Char := s.flatMap (escape quote)

/-- A string literal: double quotes, in which a single quote stands as it is. -/
def string (s : String) : String := String.ofList ('"' :: body '"' s.toList ++ ['"'])

/-- A character literal: single quotes, in which a double quote stands as it is. -/
def character (c : Char) : String := String.ofList ('\'' :: body '\'' [c] ++ ['\''])

def hexValue? (c : Char) : Option Nat :=
  if '0' ≤ c ∧ c ≤ '9' then some (c.toNat - '0'.toNat)
  else if 'a' ≤ c ∧ c ≤ 'f' then some (c.toNat - 'a'.toNat + 10)
  else none

/-- The number that hex digits up to a closing brace write behind `value`, and the text after it. -/
def readNumber (value : Nat) : List Char → Option (Nat × List Char)
  | [] => none
  | c :: rest =>
    if c = '\x7d' then some (value, rest)
    else (hexValue? c).bind fun d => readNumber (16 * value + d) rest

theorem length_after_readNumber {value n : Nat} {s after : List Char}
    (h : readNumber value s = some (n, after)) : after.length < s.length := by
  induction s generalizing value with
  | nil => simp [readNumber] at h
  | cons c rest ih =>
    simp only [readNumber] at h
    split at h
    · simp_all
    · obtain ⟨d, _, h⟩ := Option.bind_eq_some_iff.mp h
      have := ih h
      simp
      omega

/-- What a backslash and one character stand for. -/
def unescape? (quote c : Char) : Option Char :=
  if c = '0' then some '\x00'
  else if c = 't' then some '\t'
  else if c = 'r' then some '\r'
  else if c = 'n' then some '\n'
  else if c = quote ∨ c = '\\' then some c
  else none

/-- The text inside a literal whose opening quote is read, and what follows its closing quote. -/
def readBody (quote : Char) : List Char → Option (List Char × List Char)
  | [] => none
  | '\\' :: 'u' :: '\x7b' :: rest =>
    match _number : readNumber 0 rest with
    | none => none
    | some (n, after) => (readBody quote after).map fun (s, after) => (Char.ofNat n :: s, after)
  | '\\' :: c :: rest =>
    (unescape? quote c).bind fun c => (readBody quote rest).map fun (s, after) => (c :: s, after)
  | c :: rest =>
    if c = quote then some ([], rest)
    else if c = '\\' then none
    else (readBody quote rest).map fun (s, after) => (c :: s, after)
termination_by s => s.length
decreasing_by
  · have := length_after_readNumber _number
    simp only [List.length_cons]
    omega
  · simp only [List.length_cons]
    omega
  · simp

/-- The string literal at the start of a text, and what follows it. -/
def read : List Char → Option (List Char × List Char)
  | '"' :: rest => readBody '"' rest
  | _ => none

theorem hexValue?_digitChar : ∀ n : Fin 16, hexValue? (Nat.digitChar n) = some n.val := by decide

theorem digitChar_ne_brace : ∀ n : Fin 16, Nat.digitChar n ≠ '\x7d' := by decide

theorem readNumber_digit {value n : Nat} (h : n < 16) (rest : List Char) :
    readNumber value (n.digitChar :: rest) = readNumber (16 * value + n) rest := by
  have value_digit := hexValue?_digitChar ⟨n, h⟩
  have not_brace := digitChar_ne_brace ⟨n, h⟩
  simp_all [readNumber]

theorem readNumber_toDigits (n : Nat) (rest : List Char) :
    readNumber 0 (Nat.toDigits 16 n ++ rest) = readNumber n rest := by
  induction n using Nat.strongRecOn generalizing rest with
  | _ n ih =>
    by_cases small : n < 16
    · rw [Nat.toDigits_of_lt_base small, List.singleton_append, readNumber_digit small]
      simp
    · rw [Nat.toDigits_of_base_le (by decide) (by omega), List.append_assoc, ih _ (by omega),
        List.singleton_append, readNumber_digit (Nat.mod_lt _ (by decide)), Nat.div_add_mod]

theorem readBody_numbered (quote c : Char) (rest : List Char) :
    readBody quote (numbered c ++ rest) =
      (readBody quote rest).map fun (s, after) => (c :: s, after) := by
  have number : readNumber 0 (Nat.toDigits 16 c.toNat ++ '\x7d' :: rest) = some (c.toNat, rest) := by
    rw [readNumber_toDigits]
    simp [readNumber]
  have shape : numbered c ++ rest =
      '\\' :: 'u' :: '\x7b' :: (Nat.toDigits 16 c.toNat ++ '\x7d' :: rest) := by simp [numbered]
  rw [shape, readBody]
  split
  · simp_all
  · simp_all

theorem readBody_short {quote c meant : Char} (h : unescape? quote c = some meant) (not_u : c ≠ 'u')
    (rest : List Char) :
    readBody quote ('\\' :: c :: rest) =
      (readBody quote rest).map fun (s, after) => (meant :: s, after) := by
  rw [readBody]
  · simp [h]
  · rintro _ rfl
    contradiction

theorem readBody_plain {quote c : Char} (not_quote : c ≠ quote) (not_backslash : c ≠ '\\')
    (rest : List Char) :
    readBody quote (c :: rest) = (readBody quote rest).map fun (s, after) => (c :: s, after) := by
  rw [readBody]
  · simp [not_quote, not_backslash]
  · simp_all
  · simp_all

theorem readBody_escape {quote : Char} (h : quote = '"' ∨ quote = '\'') (c : Char) (rest : List Char) :
    readBody quote (escape quote c ++ rest) =
      (readBody quote rest).map fun (s, after) => (c :: s, after) := by
  unfold escape
  split
  · subst c; exact readBody_short (by simp [unescape?]) (by decide) rest
  split
  · subst c; exact readBody_short (by simp [unescape?]) (by decide) rest
  split
  · subst c; exact readBody_short (by simp [unescape?]) (by decide) rest
  split
  · subst c; exact readBody_short (by simp [unescape?]) (by decide) rest
  split
  · next special =>
    have not_u : c ≠ 'u' := by rintro rfl; rcases h with rfl | rfl <;> simp at special
    refine readBody_short ?_ not_u rest
    rcases special with rfl | rfl
    · rcases h with rfl | rfl <;> simp [unescape?]
    · simp [unescape?]
  split
  · exact readBody_numbered quote c rest
  · next plain _ => exact readBody_plain (by simp_all) (by simp_all) rest

theorem readBody_close {quote : Char} (h : quote = '"' ∨ quote = '\'') (rest : List Char) :
    readBody quote (quote :: rest) = some ([], rest) := by
  rcases h with rfl | rfl <;> simp [readBody]

theorem readBody_body {quote : Char} (h : quote = '"' ∨ quote = '\'') (s rest : List Char) :
    readBody quote (body quote s ++ quote :: rest) = some (s, rest) := by
  induction s with
  | nil => exact readBody_close h rest
  | cons c s ih =>
    simp only [body, List.flatMap_cons, List.append_assoc] at ih ⊢
    rw [readBody_escape h, ih]
    rfl

/-- A string literal reads back, whatever follows it. -/
theorem read_string (s : String) (rest : List Char) :
    read ((string s).toList ++ rest) = some (s.toList, rest) := by
  simp [string, read, readBody_body]

end TlsFixtures.Text.Quoted
