/-! Frames as extraction sees them: a number and the answers to questions about layers and fields, which are
named as the dissector's display filters name them. A frame either carries a field once or lists its occurrences in
dissection order; absence is `Option.none` at the lookup, never a value. A table is the frame whose answers are
listed. -/
namespace TlsFixtures

inductive FieldValue where
  | one (value : String)
  | many (values : List String)
  deriving DecidableEq, Repr

namespace FieldValue

/-- The first occurrence, and nothing for an empty list. -/
def first : FieldValue → String
  | one value => value
  | many values => values.headD ""

def candidates : FieldValue → List String
  | one value => [value]
  | many values => values

/-- Collected occurrences as a value: none is absence, and a single one is no list. -/
def ofOccurrences? : List String → Option FieldValue
  | [] => none
  | [value] => some (one value)
  | values => some (many values)

theorem ofOccurrences?_eq_none_iff {texts : List String} : ofOccurrences? texts = none ↔ texts = [] := by
  match texts with
  | [] | [_] | _ :: _ :: _ => simp [ofOccurrences?]

theorem candidates_eq {texts : List String} {value : FieldValue} (found : ofOccurrences? texts = some value) :
    value.candidates = texts := by
  match texts with
  | [] => cases found
  | [only] =>
    obtain rfl := Option.some.inj found
    rfl
  | first :: second :: rest =>
    obtain rfl := Option.some.inj found
    rfl

theorem ofOccurrences?_many {texts : List String} (several : 2 ≤ texts.length) :
    ofOccurrences? texts = some (many texts) := by
  match texts with
  | first :: second :: rest => rfl

theorem many_length {texts raws : List String} (found : ofOccurrences? texts = some (.many raws)) :
    2 ≤ raws.length := by
  match texts with
  | [] | [_] => exact nomatch found
  | first :: second :: rest =>
    obtain rfl := many.inj (Option.some.inj found)
    simp

end FieldValue

structure Frame where
  /-- Position of the frame in its capture, from 1. -/
  number : UInt64
  /-- Whether a protocol was dissected in the frame. -/
  hasLayer : String → Bool
  /-- Display value of a field. -/
  field : String → Option FieldValue
  /-- Wire bytes of a field in hex. -/
  rawField : String → Option FieldValue

def Frame.hasField (frame : Frame) (name : String) : Bool := (frame.field name).isSome

/-- How a capture is to be read: the display filter that chooses frames, and whether wire bytes are wanted. -/
structure FrameQuery where
  filter : String
  wireBytes : Bool
  deriving DecidableEq, Repr

structure FieldTable where
  number : UInt64
  layers : List String
  fields : List (String × FieldValue)
  rawFields : List (String × FieldValue)
  deriving DecidableEq, Repr

def FieldTable.frame (table : FieldTable) : Frame where
  number := table.number
  hasLayer name := table.layers.contains name
  field name := table.fields.lookup name
  rawField name := table.rawFields.lookup name

/-- What is found under a name is listed under it. -/
theorem mem_of_lookup {α : Type} {l : List (String × α)} {name : String} {a : α}
    (found : l.lookup name = some a) : (name, a) ∈ l := by
  obtain ⟨front, back, rfl, _⟩ := List.lookup_eq_some_iff.mp found
  simp

end TlsFixtures
