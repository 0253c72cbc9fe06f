import Mathlib.Data.List.Chain
import TlsFixtures.Json.Tree
import TlsFixtures.Proofs.Numerals

/-! JSON text by the rules of its grammar: every spelling of strings and numbers, and blanks wherever they may stand.
What the rules let a text spell is what the scanner and the reader make of it. -/
namespace TlsFixtures.Json

open Text (Numeral.Digit Numeral.Writes)

/-- Decimal digits, one at least, and what each is worth. -/
structure SpellsDigits (text : List Char) (digits : List Nat) : Prop where
  nonempty : digits ≠ []
  decimal : ∀ d ∈ digits, d < 10
  text_eq : text = digits.map Nat.digitChar

inductive SpellsFraction : List Char → Option (List Nat) → Prop where
  | absent : SpellsFraction [] none
  | present : SpellsDigits text digits → SpellsFraction ('.' :: text) (some digits)

/-- The signs of a number, and whether they make it negative. -/
def numberSigns : List (List Char × Bool) := [([], false), (['-'], true)]

def exponentSigns : List (List Char × Bool) := (['+'], false) :: numberSigns

inductive SpellsExponent : List Char → Option (Bool × List Nat) → Prop where
  | absent : SpellsExponent [] none
  | present : mark ∈ ['e', 'E'] → (sign, negative) ∈ exponentSigns → SpellsDigits text digits →
      SpellsExponent (mark :: (sign ++ text)) (some (negative, digits))

/-- The whole part has a zero in front only if it is that zero. -/
inductive SpellsNumber : List Char → NumberText → Prop where
  | intro : (sign, negative) ∈ numberSigns → SpellsDigits text whole → whole = [0] ∨ whole.head? ≠ some 0 →
      SpellsFraction behind fraction → SpellsExponent last exponent →
      SpellsNumber (sign ++ (text ++ (behind ++ last))) ⟨negative, whole, fraction, exponent⟩

/-- The letter behind a backslash, and the character that both stand for. -/
def shortEscapes : List (Char × Char) :=
  [('"', '"'), ('\\', '\\'), ('/', '/'), ('b', '\x08'), ('f', '\x0c'), ('n', '\n'), ('r', '\r'), ('t', '\t')]

/-- A character that needs no escape. -/
def Bare (c : Char) : Prop := c ≠ '"' ∧ c ≠ '\\' ∧ 0x20 ≤ c.toNat

instance (c : Char) : Decidable (Bare c) := inferInstanceAs (Decidable (c ≠ '"' ∧ c ≠ '\\' ∧ 0x20 ≤ c.toNat))

/-- The text of a string behind its opening quote, with the closing one. -/
inductive SpellsString : List Char → List Piece → Prop where
  | close : SpellsString ['"'] []
  | bare : Bare c → SpellsString text s → SpellsString (c :: text) (.char c :: s)
  | short : (letter, c) ∈ shortEscapes → SpellsString text s → SpellsString ('\\' :: letter :: text) (.char c :: s)
  | unit : Numeral.Writes 16 [a, b, c, d] code → SpellsString text s →
      SpellsString ('\\' :: 'u' :: a :: b :: c :: d :: text) (.unit code :: s)

def marks : List (Char × Token) := [('[', .openArray), (']', .closeArray), ('\x7b', .openObject),
  ('\x7d', .closeObject), (',', .comma), (':', .colon)]

def words : List (List Char × Token) :=
  [(['n', 'u', 'l', 'l'], .null), (['t', 'r', 'u', 'e'], .bool true), (['f', 'a', 'l', 's', 'e'], .bool false)]

inductive Spells : List Char → Token → Prop where
  | mark : (c, t) ∈ marks → Spells [c] t
  | word : (text, t) ∈ words → Spells text t
  | number : SpellsNumber text n → Spells text (.number n)
  | string : SpellsString text s → Spells ('"' :: text) (.string s)

def Blanks (text : List Char) : Prop := ∀ c ∈ text, c ∈ [' ', '\t', '\n', '\r']

instance (text : List Char) : Decidable (Blanks text) := List.decidableBAll _ text

/-- Tokens with blanks between them, but none at the ends. -/
inductive Joined : List Char → List Token → Prop where
  | one : Spells text t → Joined text [t]
  | more : Spells text t → Blanks between → Joined later tokens → Joined (text ++ (between ++ later)) (t :: tokens)

/-- A text of a tree: its tokens, with blanks around and between them. -/
inductive SpellsTree : List Char → Tree → Prop where
  | intro : Blanks front → Joined text tree.tokens → Blanks back → SpellsTree (front ++ text ++ back) tree

variable {text later between s : List Char} {digits : List Nat} {c : Char} {t : Token} {tokens : List Token}

theorem mem_numberSigns {negative : Bool} : (s, negative) ∈ numberSigns ↔
    s = [] ∧ negative = false ∨ s = ['-'] ∧ negative = true := by
  simp [numberSigns]

theorem mem_marks : (c, t) ∈ marks ↔ c = '[' ∧ t = .openArray ∨ c = ']' ∧ t = .closeArray ∨
    c = '\x7b' ∧ t = .openObject ∨ c = '\x7d' ∧ t = .closeObject ∨ c = ',' ∧ t = .comma ∨ c = ':' ∧ t = .colon := by
  simp [marks]

theorem mem_words : (text, t) ∈ words ↔ text = ['n', 'u', 'l', 'l'] ∧ t = .null ∨
    text = ['t', 'r', 'u', 'e'] ∧ t = .bool true ∨ text = ['f', 'a', 'l', 's', 'e'] ∧ t = .bool false := by
  simp [words]

theorem mem_blanks : c ∈ [' ', '\t', '\n', '\r'] ↔ c = ' ' ∨ c = '\t' ∨ c = '\n' ∨ c = '\r' := by
  simp

/-! ### Numbers -/

theorem digitChar_digit : ∀ d < 10, Token.isDigit (Nat.digitChar d) = true ∧
    Token.digitValue (Nat.digitChar d) = d := by
  decide

def isNumber : Token → Bool
  | .number _ => true
  | _ => false

/-- Tokens that may stand behind a number. -/
def Follows (tokens : List Token) : Prop := ∀ u ∈ tokens.head?, isNumber u = false

/-- What stands behind a number neither belongs to it nor could. -/
def Ends (rest : List Char) : Prop := ∀ c ∈ rest.head?, Token.isDigit c = false ∧ c ≠ '.' ∧ c ≠ 'e' ∧ c ≠ 'E'

theorem SpellsDigits.isDigit (spells : SpellsDigits text digits) : ∀ c ∈ text, Token.isDigit c = true := by
  rw [spells.text_eq]
  intro c member
  obtain ⟨d, inside, rfl⟩ := List.mem_map.mp member
  exact (digitChar_digit d (spells.decimal d inside)).1

theorem SpellsDigits.values (spells : SpellsDigits text digits) : text.map Token.digitValue = digits := by
  rw [spells.text_eq, List.map_map]
  exact (List.map_congr_left fun d inside => (digitChar_digit d (spells.decimal d inside)).2).trans (List.map_id _)

theorem SpellsDigits.cons (spells : SpellsDigits text digits) :
    ∃ c more, text = c :: more ∧ Token.isDigit c = true := by
  cases text with
  | nil => exact absurd (List.map_eq_nil_iff.mp spells.text_eq.symm) spells.nonempty
  | cons c more => exact ⟨c, more, rfl, spells.isDigit c List.mem_cons_self⟩

theorem SpellsDigits.scan (spells : SpellsDigits text digits) {rest : List Char}
    (ends : ∀ c ∈ rest.head?, Token.isDigit c = false) : Token.scanDigits (text ++ rest) = some (digits, rest) := by
  have none : rest.takeWhile Token.isDigit = [] ∧ rest.dropWhile Token.isDigit = rest := by
    cases rest with
    | nil => exact ⟨rfl, rfl⟩
    | cons c rest => simp [ends c rfl]
  have taken : (text ++ rest).takeWhile Token.isDigit = text := by
    rw [List.takeWhile_append_of_pos spells.isDigit, none.1, List.append_nil]
  have left : (text ++ rest).dropWhile Token.isDigit = rest := by
    rw [List.dropWhile_append_of_pos spells.isDigit, none.2]
  obtain ⟨c, more, whole, _⟩ := spells.cons
  rw [Token.scanDigits, taken, left, ← spells.values, whole]

theorem SpellsFraction.scan (spells : SpellsFraction text fraction) {rest : List Char}
    (ends : ∀ c ∈ rest.head?, Token.isDigit c = false ∧ c ≠ '.') :
    Token.scanFraction (text ++ rest) = some (fraction, rest) := by
  cases spells with
  | absent =>
    rw [List.nil_append, Token.scanFraction]
    rintro after rfl
    exact (ends '.' rfl).2 rfl
  | present digits =>
    rw [List.cons_append, Token.scanFraction, digits.scan fun c first => (ends c first).1]
    rfl

theorem scanSign_digits (spells : SpellsDigits text digits) (sign : (s, negative) ∈ exponentSigns)
    (rest : List Char) : Token.scanSign (s ++ (text ++ rest)) = (negative, text ++ rest) := by
  obtain ⟨c, more, whole, digit⟩ := spells.cons
  have unsigned : Token.scanSign (text ++ rest) = (false, text ++ rest) := by
    rw [Token.scanSign]
    all_goals
      rintro after same
      rw [whole] at same
      rw [(List.cons.inj same).1] at digit
      exact absurd digit (by decide)
  rcases List.mem_cons.mp sign with plus | sign
  · obtain ⟨rfl, rfl⟩ := Prod.mk.inj plus
    rfl
  · rcases mem_numberSigns.mp sign with ⟨rfl, rfl⟩ | ⟨rfl, rfl⟩
    · exact unsigned
    · rfl

theorem SpellsExponent.scan (spells : SpellsExponent text exponent) {rest : List Char} (ends : Ends rest) :
    Token.scanExponent (text ++ rest) = some (exponent, rest) := by
  cases spells with
  | absent =>
    cases rest with
    | nil => rfl
    | cons c rest =>
      obtain ⟨_, _, small, capital⟩ := ends c rfl
      simp [Token.scanExponent, small, capital]
  | present mark sign digits =>
    rw [List.cons_append, List.append_assoc, Token.scanExponent, if_pos (by simpa using mark)]
    simp only [scanSign_digits digits sign, digits.scan fun c first => (ends c first).1, Option.map_some]

theorem SpellsExponent.stops (spells : SpellsExponent text exponent) {rest : List Char} (ends : Ends rest) :
    ∀ c ∈ (text ++ rest).head?, Token.isDigit c = false ∧ c ≠ '.' := by
  cases spells with
  | absent => exact fun c first => ⟨(ends c first).1, (ends c first).2.1⟩
  | present mark =>
    rintro c ⟨⟩
    simp only [List.mem_cons, List.not_mem_nil, or_false] at mark
    rcases mark with rfl | rfl <;> decide

theorem SpellsFraction.stops (spells : SpellsFraction text fraction) {rest : List Char}
    (ends : ∀ c ∈ rest.head?, Token.isDigit c = false ∧ c ≠ '.') :
    ∀ c ∈ (text ++ rest).head?, Token.isDigit c = false := by
  cases spells with
  | absent => exact fun c first => (ends c first).1
  | present => rintro c ⟨⟩; rfl

theorem scanWhole_digits (spells : SpellsDigits text digits) (needed : digits = [0] ∨ digits.head? ≠ some 0)
    {rest : List Char} (ends : ∀ c ∈ rest.head?, Token.isDigit c = false) :
    Token.scanWhole (text ++ rest) = some (digits, rest) := by
  simp only [Token.scanWhole, spells.scan ends, Option.bind_eq_bind, Option.bind_some]
  split
  next => simp at needed
  next => rfl

theorem SpellsNumber.scan (spells : SpellsNumber text n) {rest : List Char} (ends : Ends rest) :
    Token.scanNumber (text ++ rest) = some (n, rest) := by
  cases spells with
  | @intro sign negative text whole behind fraction last exponent sign' digits needed fraction' exponent' =>
    have stops := exponent'.stops ends
    have magnitude : Token.scanMagnitude negative (text ++ (behind ++ (last ++ rest))) =
        some (⟨negative, whole, fraction, exponent⟩, rest) := by
      simp only [Token.scanMagnitude, scanWhole_digits digits needed (fraction'.stops stops), fraction'.scan stops,
        exponent'.scan ends, Option.bind_eq_bind, Option.bind_some, Option.pure_def]
    rcases mem_numberSigns.mp sign' with ⟨rfl, rfl⟩ | ⟨rfl, rfl⟩
    · simp only [List.nil_append, List.append_assoc]
      rw [Token.scanNumber, magnitude]
      rintro after same
      obtain ⟨c, more, rfl, digit⟩ := digits.cons
      rw [(List.cons.inj same).1] at digit
      exact absurd digit (by decide)
    · simpa [Token.scanNumber] using magnitude

/-- A number begins with its minus sign or with a digit. -/
theorem SpellsNumber.cons (spells : SpellsNumber text n) :
    ∃ c more, text = c :: more ∧ (c = '-' ∨ Token.isDigit c = true) := by
  cases spells with
  | intro sign digits =>
    rcases mem_numberSigns.mp sign with ⟨rfl, _⟩ | ⟨rfl, _⟩
    · obtain ⟨c, more, rfl, digit⟩ := digits.cons
      exact ⟨c, _, rfl, .inr digit⟩
    · exact ⟨'-', _, rfl, .inl rfl⟩

/-! ### Strings and tokens -/

theorem hexValue?_digit {d : Nat} (digit : Numeral.Digit 16 c d) : Token.hexValue? c = some d := by
  have all : ∀ d : Fin 16, c.toLower = Nat.digitChar d → Token.hexValue? c = some d.val :=
    Text.Utf8.forall_ascii (P := fun c => ∀ d : Fin 16, c.toLower = Nat.digitChar d →
      Token.hexValue? c = some d.val) (by decide +kernel) (digit.ascii (by decide))
  exact all ⟨d, digit.1⟩ digit.2

theorem unit?_writes {a b c d : Char} {code : Nat} (writes : Numeral.Writes 16 [a, b, c, d] code) :
    Token.unit? a b c d = some code := by
  obtain ⟨_, _, three, fourth, rfl⟩ := (Numeral.Writes.of_concat (s := [a, b, c]) writes).resolve_left (by simp)
  obtain ⟨_, _, two, third, rfl⟩ := (Numeral.Writes.of_concat (s := [a, b]) three).resolve_left (by simp)
  obtain ⟨_, _, one, second, rfl⟩ := (Numeral.Writes.of_concat (s := [a]) two).resolve_left (by simp)
  obtain ⟨_, first⟩ := (Numeral.Writes.of_concat (s := []) one).resolve_right fun ⟨_, _, empty, _, _⟩ =>
    empty.ne_nil rfl
  simp [Token.unit?, hexValue?_digit first, hexValue?_digit second, hexValue?_digit third, hexValue?_digit fourth,
    Nat.mul_comm]

theorem escaped?_short {letter : Char} (short : (letter, c) ∈ shortEscapes) :
    Token.escaped? letter = some c ∧ letter ≠ 'u' := by
  have all : ∀ e ∈ shortEscapes, Token.escaped? e.1 = some e.2 ∧ e.1 ≠ 'u' := by decide
  exact all _ short

theorem SpellsString.scan (spells : SpellsString text pieces) (rest : List Char) :
    Token.scanString (text ++ rest) = some (pieces, rest) := by
  induction spells with
  | close => rfl
  | bare bare _ ih =>
    obtain ⟨quote, backslash, visible⟩ := bare
    rw [List.cons_append, Token.scanString]
    · simp [backslash, Nat.not_lt.mpr visible, ih]
    all_goals simp_all
  | short escape _ ih =>
    obtain ⟨meant, letter⟩ := escaped?_short escape
    simp only [List.cons_append]
    rw [Token.scanString]
    · simp [meant, ih]
    · simp_all
  | unit writes _ ih =>
    simp only [List.cons_append]
    rw [Token.scanString, unit?_writes writes]
    simp [ih]

theorem scanOne_number (first : c = '-' ∨ Token.isDigit c = true) (rest : List Char) :
    Token.scanOne c rest = (Token.scanNumber (c :: rest)).map fun (n, after) => (.number n, after) := by
  unfold Token.scanOne
  split
  case h_11 => rfl
  all_goals simp [Token.isDigit] at first

theorem not_blank_number (first : c = '-' ∨ Token.isDigit c = true) : Token.isBlank c = false := by
  rw [Bool.eq_false_iff]
  intro blank
  simp only [Token.isBlank, Bool.or_eq_true, decide_eq_true_eq] at blank
  rcases blank with ((rfl | rfl) | rfl) | rfl <;> simp [Token.isDigit] at first

/-- What stands behind a token is not read with it. -/
theorem Spells.scan (spells : Spells text t) {rest : List Char} (ends : isNumber t = true → Ends rest) :
    ∃ c more, text = c :: more ∧ Token.isBlank c = false ∧ Token.scanOne c (more ++ rest) = some (t, rest) := by
  cases spells with
  | mark mark =>
    rcases mem_marks.mp mark with ⟨rfl, rfl⟩ | ⟨rfl, rfl⟩ | ⟨rfl, rfl⟩ | ⟨rfl, rfl⟩ | ⟨rfl, rfl⟩ | ⟨rfl, rfl⟩
    all_goals exact ⟨_, _, rfl, rfl, rfl⟩
  | word word =>
    rcases mem_words.mp word with ⟨rfl, rfl⟩ | ⟨rfl, rfl⟩ | ⟨rfl, rfl⟩
    all_goals exact ⟨_, _, rfl, rfl, rfl⟩
  | number number =>
    obtain ⟨c, more, rfl, first⟩ := number.cons
    refine ⟨c, more, rfl, not_blank_number first, ?_⟩
    rw [scanOne_number first, ← List.cons_append, number.scan (ends rfl)]
    rfl
  | string string =>
    refine ⟨_, _, rfl, rfl, ?_⟩
    simp [Token.scanOne, string.scan]

/-- Two tokens that would run together are none that stand side by side. -/
theorem Spells.ends (spells : Spells text t) (other : isNumber t = false) (rest : List Char) :
    Ends (text ++ rest) := by
  cases spells with
  | mark mark =>
    rcases mem_marks.mp mark with ⟨rfl, rfl⟩ | ⟨rfl, rfl⟩ | ⟨rfl, rfl⟩ | ⟨rfl, rfl⟩ | ⟨rfl, rfl⟩ | ⟨rfl, rfl⟩
    all_goals rintro c ⟨⟩; decide
  | word word =>
    rcases mem_words.mp word with ⟨rfl, rfl⟩ | ⟨rfl, rfl⟩ | ⟨rfl, rfl⟩
    all_goals rintro c ⟨⟩; decide
  | number => contradiction
  | string => rintro c ⟨⟩; decide

/-! ### Texts of trees -/

theorem blank_iff : Token.isBlank c = true ↔ c ∈ [' ', '\t', '\n', '\r'] := by
  simp [Token.isBlank, or_assoc]

theorem scan_cons {rest after : List Char} (solid : Token.isBlank c = false)
    (one : Token.scanOne c rest = some (t, after)) :
    Token.scan (c :: rest) = (Token.scan after).map (t :: ·) := by
  rw [Token.scan, if_neg (by simp [solid])]
  split
  next none => simp [one] at none
  next same =>
    obtain ⟨rfl, rfl⟩ := Prod.mk.inj (Option.some.inj (one.symm.trans same))
    rfl

theorem Blanks.scan (blanks : Blanks between) (rest : List Char) :
    Token.scan (between ++ rest) = Token.scan rest := by
  induction between with
  | nil => rfl
  | cons c between ih =>
    rw [List.cons_append, Token.scan, if_pos (blank_iff.mpr (blanks c List.mem_cons_self))]
    exact ih fun d member => blanks d (List.mem_cons_of_mem _ member)

theorem Spells.scan_append (spells : Spells text t) {rest : List Char} (ends : isNumber t = true → Ends rest) :
    Token.scan (text ++ rest) = (Token.scan rest).map (t :: ·) := by
  obtain ⟨c, more, rfl, solid, one⟩ := spells.scan ends
  exact scan_cons solid one

theorem Joined.ends (joined : Joined text tokens) (other : Follows tokens) : Ends text := by
  cases joined with
  | one spells => simpa using spells.ends (other _ rfl) []
  | more spells _ _ => exact spells.ends (other _ rfl) _

theorem Blanks.ends (blanks : Blanks between) (ends : Ends later) : Ends (between ++ later) := by
  cases between with
  | nil => exact ends
  | cons c between =>
    rintro d ⟨⟩
    rcases mem_blanks.mp (blanks c List.mem_cons_self) with rfl | rfl | rfl | rfl <;> decide

/-- No two numbers stand side by side. -/
def Parted (tokens : List Token) : Prop := tokens.IsChain fun t u => isNumber t = true → isNumber u = false

theorem Joined.scan (joined : Joined text tokens) (parted : Parted tokens) : Token.scan text = some tokens := by
  induction joined with
  | @one text _ spells =>
    have ends : Ends [] := nofun
    rw [← List.append_nil text, spells.scan_append fun _ => ends, Token.scan]
    rfl
  | more spells blanks joined ih =>
    obtain ⟨next, parted⟩ := List.isChain_cons.mp parted
    have ends := fun number => blanks.ends (joined.ends fun u first => next u first number)
    rw [spells.scan_append ends, blanks.scan, ih parted]
    rfl

theorem follows_mark (mark : isNumber t = false) : Follows (t :: tokens) := by
  rintro u ⟨⟩
  exact mark

theorem Parted.mark (mark : isNumber t = false) (parted : Parted tokens) : Parted (t :: tokens) :=
  List.isChain_cons.mpr ⟨fun _ _ number => absurd number (by simp [mark]), parted⟩

theorem Parted.value (first : Follows tokens) (parted : Parted tokens) : Parted (t :: tokens) :=
  List.isChain_cons.mpr ⟨fun u next _ => first u next, parted⟩

theorem follows_itemTokens {rest : List Token} (first : Follows rest) (items : List Tree) :
    Follows (Tree.itemTokens items ++ rest) := by
  cases items with
  | nil => exact first
  | cons => exact follows_mark rfl

theorem follows_memberTokens {rest : List Token} (first : Follows rest) (members : List (List Piece × Tree)) :
    Follows (Tree.memberTokens members ++ rest) := by
  cases members with
  | nil => exact first
  | cons => exact follows_mark rfl

-- Tokens are taken in front of what follows them: only there a number meets its neighbour.
mutual

theorem parted_tokens (v : Tree) {rest : List Token} (first : Follows rest)
    (parted : Parted rest) : Parted (v.tokens ++ rest) := by
  match v with
  | .null | .bool _ | .string _ => exact parted.mark rfl
  | .number _ => exact parted.value first
  | .array [] | .object [] => exact (parted.mark rfl).mark rfl
  | .array (item :: items) =>
    have closed : Parted (.closeArray :: rest) := parted.mark rfl
    have close : Follows (.closeArray :: rest) := follows_mark rfl
    simp only [Tree.tokens, List.cons_append, List.append_assoc, List.nil_append]
    exact .mark rfl (parted_tokens item (follows_itemTokens close items) (parted_itemTokens items close closed))
  | .object ((key, value) :: members) =>
    have closed : Parted (.closeObject :: rest) := parted.mark rfl
    have close : Follows (.closeObject :: rest) := follows_mark rfl
    simp only [Tree.tokens, List.cons_append, List.append_assoc, List.nil_append]
    exact .mark rfl (.mark rfl (.mark rfl
      (parted_tokens value (follows_memberTokens close members) (parted_memberTokens members close closed))))

theorem parted_itemTokens (items : List Tree) {rest : List Token} (first : Follows rest)
    (parted : Parted rest) : Parted (Tree.itemTokens items ++ rest) := by
  match items with
  | [] => exact parted
  | item :: items =>
    simp only [Tree.itemTokens, List.cons_append, List.append_assoc]
    exact .mark rfl (parted_tokens item (follows_itemTokens first items) (parted_itemTokens items first parted))

theorem parted_memberTokens (members : List (List Piece × Tree)) {rest : List Token}
    (first : Follows rest) (parted : Parted rest) :
    Parted (Tree.memberTokens members ++ rest) := by
  match members with
  | [] => exact parted
  | (key, value) :: members =>
    simp only [Tree.memberTokens, List.cons_append, List.append_assoc]
    exact .mark rfl (.mark rfl (.mark rfl
      (parted_tokens value (follows_memberTokens first members) (parted_memberTokens members first parted))))

end

theorem digitChar_visible : ∀ d < 10, Text.isBlank (Nat.digitChar d) = false := by decide

theorem SpellsDigits.visible (spells : SpellsDigits text digits) : Text.Visible text := by
  rw [spells.text_eq]
  intro c member
  obtain ⟨d, inside, rfl⟩ := List.mem_map.mp member
  exact digitChar_visible d (spells.decimal d inside)

theorem signs_visible : ∀ sign ∈ exponentSigns, Text.Visible sign.1 := by decide

theorem SpellsFraction.visible (spells : SpellsFraction text fraction) : Text.Visible text := by
  cases spells with
  | absent => exact nofun
  | present digits => exact List.forall_mem_cons.mpr ⟨by decide, digits.visible⟩

theorem SpellsExponent.visible (spells : SpellsExponent text exponent) : Text.Visible text := by
  cases spells with
  | absent => exact nofun
  | @present mark _ _ _ _ letter sign digits =>
    have marks : Text.Visible ['e', 'E'] := by decide
    refine List.forall_mem_cons.mpr ⟨marks mark letter, List.forall_mem_append.mpr ⟨?_, digits.visible⟩⟩
    exact signs_visible _ sign

theorem SpellsNumber.visible (spells : SpellsNumber text n) : Text.Visible text := by
  cases spells with
  | intro sign digits _ fraction exponent =>
    refine List.forall_mem_append.mpr ⟨?_, List.forall_mem_append.mpr ⟨digits.visible,
      List.forall_mem_append.mpr ⟨fraction.visible, exponent.visible⟩⟩⟩
    exact signs_visible _ (List.mem_cons_of_mem _ sign)

theorem SpellsString.getLast? (spells : SpellsString text pieces) : text.getLast? = some '"' := by
  induction spells with
  | close => rfl
  | bare _ _ ih => simp [List.getLast?_cons, ih]
  | short _ _ ih => simp [List.getLast?_cons, ih]
  | unit _ _ ih => simp [List.getLast?_cons, ih]

theorem Spells.solid (spells : Spells text t) : Text.Solid text := by
  cases spells with
  | mark mark =>
    have all : ∀ e ∈ marks, Text.Visible [e.1] := by decide
    exact .of_visible (List.cons_ne_nil _ _) (all _ mark)
  | word word =>
    have all : ∀ e ∈ words, e.1 ≠ [] ∧ Text.Visible e.1 := by decide
    exact .of_visible (all _ word).1 (all _ word).2
  | number number =>
    obtain ⟨c, more, rfl, _⟩ := number.cons
    exact .of_visible (by simp) number.visible
  | string string =>
    refine ⟨⟨'"', rfl, by decide⟩, ⟨'"', ?_, by decide⟩⟩
    simp [List.getLast?_cons, string.getLast?]

theorem Joined.solid (joined : Joined text tokens) : Text.Solid text := by
  induction joined with
  | one spells => exact spells.solid
  | more spells _ _ ih => exact spells.solid.around _ ih

theorem Blanks.isBlank (blanks : Blanks between) : ∀ c ∈ between, Text.isBlank c = true := by
  intro c member
  rcases mem_blanks.mp (blanks c member) with rfl | rfl | rfl | rfl <;> rfl

/-- A text of a tree is read as that tree once its ends are trimmed, and it is not blank. -/
theorem SpellsTree.read (spells : SpellsTree text tree) :
    Text.trim text ≠ [] ∧ Tree.ofText? (Text.trim text) = some tree := by
  cases spells with
  | intro blanks joined blanks' =>
    have parted : Parted tree.tokens := by
      rw [← List.append_nil tree.tokens]
      exact parted_tokens tree nofun .nil
    rw [Text.trim_append_right blanks'.isBlank, Text.trim_append_left blanks.isBlank, joined.solid.trim_eq,
      Tree.ofText?, joined.scan parted]
    obtain ⟨c, first, _⟩ := joined.solid.first
    exact ⟨List.ne_nil_of_mem (List.mem_of_mem_head? first), Tree.ofTokens?_tokens tree⟩

def Plain (s : List Char) : Prop := ∀ c ∈ s, Bare c

instance (s : List Char) : Decidable (Plain s) := List.decidableBAll _ s

theorem spellsString_chars {s : List Char} (plain : Plain s) : SpellsString (s ++ ['"']) (s.map .char) := by
  induction s with
  | nil => exact .close
  | cons c s ih =>
    obtain ⟨bare, plain⟩ := List.forall_mem_cons.mp plain
    exact .bare bare (ih plain)

/-- Tokens may stand side by side. -/
theorem joined_flatten {texts : List (List Char)} (spells : List.Forall₂ Spells texts tokens)
    (nonempty : tokens ≠ []) : Joined texts.flatten tokens := by
  induction spells with
  | nil => contradiction
  | @cons text t texts tokens spells others ih =>
    cases tokens with
    | nil =>
      cases others
      simpa using Joined.one spells
    | cons u tokens => exact .more spells (List.forall_mem_nil _) (ih (List.cons_ne_nil u tokens))

end TlsFixtures.Json
