import TlsFixtures.Frame
import TlsFixtures.Json.Basic
import TlsFixtures.Text.Basic

/-! Frames of EK documents. The field `a.b.c` of protocol `a` stands under `a_a_b_c`, and its wire bytes under that
key with `_raw` behind it. A field may be attached under the layer of another protocol, so every layer is
searched, in key order; a layer is an array where a frame holds several PDUs. The occurrences of a field
are the scalars under its key, arrays being opened and nulls and objects passed over. -/
namespace TlsFixtures

structure EkFrame where
  number : UInt64
  layers : List (String × Json)

namespace Ek

def underscored (c : Char) : Char := if c = '.' then '_' else c

/-- The protocol, which is the name up to its first point, and the name with underscores for points. -/
def keyCharacters (name : List Char) : List Char :=
  name.takeWhile (· ≠ '.') ++ '_' :: name.map underscored

def key (name : String) : String := String.ofList (keyCharacters name.toList)

def rawKey (name : String) : String := key name ++ "_raw"

mutual

def occurrences : Json → List String
  | .null => []
  | .bool b => [if b then "true" else "false"]
  | .number n => [n.text]
  | .string s => [s]
  | .array items => itemOccurrences items
  | .object _ => []

def itemOccurrences : List Json → List String
  | [] => []
  | item :: rest => occurrences item ++ itemOccurrences rest

end

def pdus : Json → List Json
  | .array items => items
  | layer => [layer]

/-- Occurrences under `key` in one PDU; what is no object has none. -/
def pduOccurrences (key : String) (pdu : Json) : List String :=
  match pdu.members?.bind (Json.find? · key) with
  | some value => occurrences value
  | none => []

def layerOccurrences (key : String) (layer : Json) : List String :=
  (pdus layer).flatMap (pduOccurrences key)

def find? (layers : List (String × Json)) (key : String) : Option FieldValue :=
  FieldValue.ofOccurrences? (layers.flatMap fun layer => layerOccurrences key layer.2)

theorem itemOccurrences_eq (items : List Json) : itemOccurrences items = items.flatMap occurrences := by
  induction items with
  | nil => rfl
  | cons item rest ih => rw [itemOccurrences, ih, List.flatMap_cons]

theorem occurrences_array (items : List Json) :
    occurrences (.array items) = items.flatMap occurrences := by
  rw [occurrences, itemOccurrences_eq]

theorem pduOccurrences_object (key : String) (members : List (String × Json)) :
    pduOccurrences key (.object members) = ((Json.find? members key).map occurrences).getD [] := by
  simp only [pduOccurrences, Json.members?, Option.bind_some]
  cases Json.find? members key <;> rfl

end Ek

namespace EkFrame

/-- The frame of a layers object; its number is the first occurrence of `frame.number`. -/
def ofLayers? (layers : List (String × Json)) : Option EkFrame := do
  let value ← Ek.find? layers (Ek.key "frame.number")
  let number ← Text.Numeral.word? value.first.toList
  return ⟨number, layers⟩

def frame (f : EkFrame) : Frame where
  number := f.number
  hasLayer name := (Json.find? f.layers name).isSome
  field name := Ek.find? f.layers (Ek.key name)
  rawField name := Ek.find? f.layers (Ek.rawKey name)

end EkFrame
end TlsFixtures
