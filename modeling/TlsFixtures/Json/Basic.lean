import TlsFixtures.Json.Number
import TlsFixtures.Json.Tree

/-! JSON values. The members of an object stand in the order of their keys, each key once. A tree denotes a
value if its strings pair their surrogates, its numbers are in range and its nesting stays within a limit. -/
namespace TlsFixtures

inductive Json where
  | null
  | bool (b : Bool)
  | number (n : Json.Number)
  | string (s : String)
  | array (items : List Json)
  | object (members : List (String × Json))

namespace Json

/-- Puts a member in its place by key order; an equal key gives way. -/
def insertMember (key : String) (value : Json) : List (String × Json) → List (String × Json)
  | [] => [(key, value)]
  | (k, v) :: rest =>
    if key = k then (key, value) :: rest
    else if key < k then (key, value) :: (k, v) :: rest
    else (k, v) :: insertMember key value rest

/-- Members by key; of equal keys the last counts. -/
def sortMembers (members : List (String × Json)) : List (String × Json) :=
  members.foldl (fun sorted (key, value) => insertMember key value sorted) []

/-- The text of a string: characters as they are, code units paired up where they are surrogates. -/
def pieceText? : List Piece → Option (List Char)
  | [] => some []
  | .char c :: rest => (pieceText? rest).map (c :: ·)
  | .unit high :: .unit low :: rest =>
    if 0xd800 ≤ high ∧ high < 0xdc00 then
      if 0xdc00 ≤ low ∧ low < 0xe000 then
        (pieceText? rest).map (Char.ofNat (0x10000 + (high - 0xd800) * 0x400 + (low - 0xdc00)) :: ·)
      else none
    else if 0xdc00 ≤ high ∧ high < 0xe000 then none
    else (pieceText? (.unit low :: rest)).map (Char.ofNat high :: ·)
  | .unit code :: rest =>
    if 0xd800 ≤ code ∧ code < 0xe000 then none else (pieceText? rest).map (Char.ofNat code :: ·)

def string? (s : List Piece) : Option String := (pieceText? s).map String.ofList

mutual

/-- The value of a tree in which at most `depth` arrays and objects lie in one another. -/
def Tree.value? (depth : Nat) : Tree → Option Json
  | .null => some .null
  | .bool b => some (.bool b)
  | .number n => n.value?.map .number
  | .string s => (string? s).map .string
  | .array items =>
    match depth with
    | 0 => none
    | depth + 1 => (itemValues? depth items).map .array
  | .object members =>
    match depth with
    | 0 => none
    | depth + 1 => (memberValues? depth members).map fun values => .object (sortMembers values)

def itemValues? (depth : Nat) : List Tree → Option (List Json)
  | [] => some []
  | item :: rest => do
    let value ← Tree.value? depth item
    return value :: (← itemValues? depth rest)

def memberValues? (depth : Nat) : List (List Piece × Tree) → Option (List (String × Json))
  | [] => some []
  | (key, tree) :: rest => do
    let key ← string? key
    let value ← Tree.value? depth tree
    return (key, value) :: (← memberValues? depth rest)

end

/-- Arrays and objects that may lie in one another in a text. -/
def depthLimit : Nat := 127

def ofText? (s : List Char) : Option Json := (Tree.ofText? s).bind (Tree.value? depthLimit)

def members? : Json → Option (List (String × Json))
  | object members => some members
  | _ => none

def find? (members : List (String × Json)) (key : String) : Option Json := members.lookup key

end Json
end TlsFixtures
