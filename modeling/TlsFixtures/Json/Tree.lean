import TlsFixtures.Json.Token

/-! Grammar of JSON over tokens. A tree keeps the spelling of its strings and numbers, every member of an
object and their order; nesting is not limited. The reader holds the arrays and objects that are not yet
closed on a stack, and what may come next. Every tree is what the reader makes of its tokens
(`ofTokens?_tokens`), and `Reading.run?_tokens` says so inside any larger value. -/
namespace TlsFixtures.Json

inductive Tree where
  | null
  | bool (b : Bool)
  | number (n : NumberText)
  | string (s : List Piece)
  | array (items : List Tree)
  | object (members : List (List Piece × Tree))

namespace Tree

/-- An array or object being read, its latest part first; an object waits for the value of `key`. -/
inductive Open where
  | array (items : List Tree)
  | object (members : List (List Piece × Tree)) (key : List Piece)

/-- What may come next, above the stack of open parts. -/
inductive Due where
  | value
  | itemOrClose
  | keyOrClose
  | key (members : List (List Piece × Tree))
  | colon (members : List (List Piece × Tree)) (key : List Piece)
  | after (v : Tree)

structure Reading where
  stack : List Open
  due : Due

namespace Reading

def start : Reading := ⟨[], .value⟩

def valueToken? (stack : List Open) : Token → Option Reading
  | .openArray => some ⟨stack, .itemOrClose⟩
  | .openObject => some ⟨stack, .keyOrClose⟩
  | .null => some ⟨stack, .after .null⟩
  | .bool b => some ⟨stack, .after (.bool b)⟩
  | .number n => some ⟨stack, .after (.number n)⟩
  | .string s => some ⟨stack, .after (.string s)⟩
  | _ => none

def step? (r : Reading) (t : Token) : Option Reading :=
  match r.due, t, r.stack with
  | .value, t, stack => valueToken? stack t
  | .itemOrClose, .closeArray, stack => some ⟨stack, .after (.array [])⟩
  | .itemOrClose, t, stack => valueToken? (.array [] :: stack) t
  | .keyOrClose, .closeObject, stack => some ⟨stack, .after (.object [])⟩
  | .keyOrClose, .string k, stack => some ⟨stack, .colon [] k⟩
  | .key members, .string k, stack => some ⟨stack, .colon members k⟩
  | .colon members k, .colon, stack => some ⟨.object members k :: stack, .value⟩
  | .after v, .comma, .array items :: stack => some ⟨.array (v :: items) :: stack, .value⟩
  | .after v, .closeArray, .array items :: stack =>
    some ⟨stack, .after (.array (v :: items).reverse)⟩
  | .after v, .comma, .object members k :: stack => some ⟨stack, .key ((k, v) :: members)⟩
  | .after v, .closeObject, .object members k :: stack =>
    some ⟨stack, .after (.object ((k, v) :: members).reverse)⟩
  | _, _, _ => none

def run? (r : Reading) : List Token → Option Reading
  | [] => some r
  | t :: rest => (r.step? t).bind (run? · rest)

def result? (r : Reading) : Option Tree :=
  match r.stack, r.due with
  | [], .after v => some v
  | _, _ => none

end Reading

/-- The one value that the tokens spell. -/
def ofTokens? (tokens : List Token) : Option Tree := (Reading.start.run? tokens).bind Reading.result?

def ofText? (s : List Char) : Option Tree := (Token.scan s).bind ofTokens?

mutual

def tokens : Tree → List Token
  | .null => [.null]
  | .bool b => [.bool b]
  | .number n => [.number n]
  | .string s => [.string s]
  | .array [] => [.openArray, .closeArray]
  | .array (item :: rest) => .openArray :: (tokens item ++ itemTokens rest ++ [.closeArray])
  | .object [] => [.openObject, .closeObject]
  | .object ((key, value) :: rest) =>
    .openObject :: .string key :: .colon :: (tokens value ++ memberTokens rest ++ [.closeObject])

def itemTokens : List Tree → List Token
  | [] => []
  | item :: rest => .comma :: (tokens item ++ itemTokens rest)

def memberTokens : List (List Piece × Tree) → List Token
  | [] => []
  | (key, value) :: rest => .comma :: .string key :: .colon :: (tokens value ++ memberTokens rest)

end

namespace Reading

theorem run?_cons (r : Reading) (t : Token) (rest : List Token) :
    r.run? (t :: rest) = (r.step? t).bind (run? · rest) := rfl

/-- A value may begin an array wherever an item is due. -/
theorem run?_item (stack : List Open) (v : Tree) (rest : List Token) :
    run? ⟨stack, .itemOrClose⟩ (v.tokens ++ rest) = run? ⟨.array [] :: stack, .value⟩ (v.tokens ++ rest) := by
  cases v with
  | array items => cases items <;> simp [tokens, run?_cons, step?]
  | object members => cases members <;> simp [tokens, run?_cons, step?]
  | _ => simp [tokens, run?_cons, step?]

mutual

theorem run?_tokens (v : Tree) (stack : List Open) (rest : List Token) :
    run? ⟨stack, .value⟩ (v.tokens ++ rest) = run? ⟨stack, .after v⟩ rest := by
  match v with
  | .null => simp [tokens, run?_cons, step?, valueToken?]
  | .bool b => simp [tokens, run?_cons, step?, valueToken?]
  | .number n => simp [tokens, run?_cons, step?, valueToken?]
  | .string s => simp [tokens, run?_cons, step?, valueToken?]
  | .array [] => simp [tokens, run?_cons, step?, valueToken?]
  | .array (item :: items) =>
    simp only [tokens, List.cons_append, run?_cons, step?, valueToken?, List.append_assoc,
      Option.bind_some]
    rw [run?_item, run?_tokens item, run?_itemTokens items]
    simp
  | .object [] => simp [tokens, run?_cons, step?, valueToken?]
  | .object ((key, value) :: members) =>
    simp only [tokens, List.cons_append, run?_cons, step?, valueToken?, List.append_assoc,
      Option.bind_some]
    rw [run?_tokens value, run?_memberTokens members]
    simp

theorem run?_itemTokens (items : List Tree) (stack : List Open) (before : List Tree) (v : Tree)
    (rest : List Token) :
    run? ⟨.array before :: stack, .after v⟩ (itemTokens items ++ .closeArray :: rest) =
      run? ⟨stack, .after (.array ((v :: before).reverse ++ items))⟩ rest := by
  match items with
  | [] => simp [itemTokens, run?_cons, step?]
  | item :: items =>
    simp only [itemTokens, List.cons_append, run?_cons, step?, List.append_assoc, Option.bind_some]
    rw [run?_tokens item, run?_itemTokens items]
    simp

theorem run?_memberTokens (members : List (List Piece × Tree)) (stack : List Open)
    (before : List (List Piece × Tree)) (key : List Piece) (v : Tree) (rest : List Token) :
    run? ⟨.object before key :: stack, .after v⟩ (memberTokens members ++ .closeObject :: rest) =
      run? ⟨stack, .after (.object (((key, v) :: before).reverse ++ members))⟩ rest := by
  match members with
  | [] => simp [memberTokens, run?_cons, step?]
  | (k, value) :: members =>
    simp only [memberTokens, List.cons_append, run?_cons, step?, List.append_assoc, Option.bind_some]
    rw [run?_tokens value, run?_memberTokens members]
    simp

end
end Reading

theorem ofTokens?_tokens (v : Tree) : ofTokens? v.tokens = some v := by
  have h := Reading.run?_tokens v [] []
  rw [List.append_nil] at h
  simp [ofTokens?, Reading.start, h, Reading.run?, Reading.result?]

end Tree
end TlsFixtures.Json
