import TlsFixtures.Proofs.FrameStream
import TlsFixtures.Proofs.JsonValues

/-! Frames of one-line documents. A text that spells an object with certain layers is read as the frame that is made
of those layers, however its strings, its blanks and its members' order are chosen, and whatever stands under its
other keys. -/
namespace TlsFixtures

namespace Ek

/-- Members under other keys than that of the layers. Their keys are proper texts; their values may be anything. -/
def Others (members : List (List Json.Piece × Json.Tree)) : Prop :=
  ∀ member ∈ members, ∃ key : String, key ≠ "layers" ∧ Json.Writes member.1 key.toList

/-- A text of an object that has the layers once, under their key. -/
inductive SpellsDocument : List Char → List (String × Json) → Prop where
  | intro : Json.Writes pieces "layers".toList → Json.Denotes tree (.object layers) → Others front → Others back →
      Json.SpellsTree text (.object (front ++ (pieces, tree) :: back)) → SpellsDocument text layers

variable {layers : List (String × Json)} {front back members : List (List Json.Piece × Json.Tree)} {text : List Char}

theorem Others.layersMembers?_append (others : Others front) (members : List (List Json.Piece × Json.Tree)) :
    layersMembers? (front ++ members) = layersMembers? members := by
  induction front with
  | nil => rfl
  | cons member front ih =>
    obtain ⟨⟨key, other, writes⟩, others⟩ := List.forall_mem_cons.mp others
    rw [List.cons_append, layersMembers?, writes.string?_eq, ih others]
    cases layersMembers? members with
    | none => rfl
    | some found => simp [other]

theorem Others.layersMembers?_eq (others : Others members) : layersMembers? members = some [] := by
  have none := others.layersMembers?_append []
  rwa [List.append_nil] at none

/-- The one member under the key of the layers is all that counts. -/
theorem documentLayers?_of_key {pieces : List Json.Piece} {tree : Json.Tree}
    (key : Json.Writes pieces "layers".toList) (others : Others front) (others' : Others back) :
    documentLayers? (.object (front ++ (pieces, tree) :: back)) = layers? tree := by
  rw [documentLayers?, others.layersMembers?_append, layersMembers?, key.string?_eq, others'.layersMembers?_eq]
  rfl

theorem documents_of_spells {tree : Json.Tree} (spells : Json.SpellsTree text tree) :
    EkStream.Documents (Text.Utf8.encode text) (documentLayers? tree) := by
  obtain ⟨nonblank, read⟩ := spells.read
  refine ⟨String.ofList text, Text.Utf8.decode?_encode text, ?_⟩
  rw [String.toList_ofList, read]
  exact ⟨nonblank, rfl⟩

theorem layers?_of_denotes {tree : Json.Tree} (denotes : Json.Denotes tree (.object layers))
    (within : Json.Within layersDepth (.object layers)) : layers? tree = some (some layers) := by
  have value := Json.value?_of_denotes denotes within
  cases denotes with
  | object => rw [layers?, value]; rfl

/-- What a document with layers comes to. -/
theorem SpellsDocument.documents (spells : SpellsDocument text layers)
    (within : Json.Within layersDepth (.object layers)) :
    EkStream.Documents (Text.Utf8.encode text) (some (some layers)) := by
  cases spells with
  | intro key denotes others others' tree =>
    have documents := documents_of_spells tree
    rwa [documentLayers?_of_key key others others', layers?_of_denotes denotes within] at documents

/-- Layers that a text can give have a document of one line. -/
theorem exists_document (fits : Json.Exact (.object layers)) :
    ∃ text, SpellsDocument text layers ∧ '\n' ∉ text := by
  obtain ⟨tree, denotes, printable⟩ := fits.exists_tree
  have member : Json.PrintableMembers [("layers".toList.map Json.piece, tree)] :=
    List.forall_mem_singleton.mpr ⟨Json.printable_string _, printable⟩
  obtain ⟨text, spells, single⟩ := Json.exists_text (Json.printable_object member)
  have key := Json.writes_pieces "layers".toList
  exact ⟨text, .intro key denotes (List.forall_mem_nil _) (List.forall_mem_nil _) spells, single⟩

end Ek

namespace EkStream

theorem feed_not_mem_encode {text : List Char} (single : '\n' ∉ text) : Text.lineFeed ∉ Text.Utf8.encode text :=
  mt (Text.Utf8.mem_encode_ascii (c := '\n') (by decide)).mp single

/-- What layers come to in a stream: the frame that is made of them, or an error where they have no number. -/
inductive ItemOf (path : String) (layers : List (String × Json)) : Item → Prop where
  | frame : EkFrame.ofLayers? layers = some frame → ItemOf path layers (.ok frame)
  | unnumbered : EkFrame.ofLayers? layers = none → fault.message = "EK document without frame.number" →
      ItemOf path layers (.error (.dissection path fault))

theorem exists_itemOf (path : String) (layers : List (String × Json)) :
    ∃ item, ItemOf path layers item ∧
      ∀ line, Documents line (some (some layers)) → lineItem? path line = some item := by
  cases made : EkFrame.ofLayers? layers with
  | none => exact ⟨_, .unnumbered made rfl, fun _ documents => (Gives.noNumber documents made).lineItem?_eq⟩
  | some frame => exact ⟨_, .frame made, fun _ documents => (Gives.frame documents made).lineItem?_eq⟩

/-- Layers have a text of one line, and every document with them is read alike: as the frame that is made of them, or
as the error that they have no number, among whatever other lines. Where the document is the whole output, that is the
only item. -/
theorem document_read (path : String) {layers : List (String × Json)} (fits : Json.Exact (.object layers))
    (within : Json.Within Ek.layersDepth (.object layers)) :
    (∃ text, Ek.SpellsDocument text layers ∧ '\n' ∉ text) ∧
      ∃ item, ItemOf path layers item ∧
        ∀ text, Ek.SpellsDocument text layers → '\n' ∉ text →
          lineItem? path (Text.Utf8.encode text) = some item ∧
            ∀ diagnostics call,
              (ofDissection path ⟨Text.Utf8.encode text, diagnostics, 0, false⟩).answer call = [item][call]? := by
  obtain ⟨item, made, same⟩ := exists_itemOf path layers
  refine ⟨Ek.exists_document fits, item, made, fun text spells single => ?_⟩
  have gives := same _ (spells.documents within)
  refine ⟨gives, fun diagnostics call => ?_⟩
  have nonempty : Text.Utf8.encode text ≠ [] := by
    intro empty
    have blank : lineItem? path [] = none := rfl
    rw [empty, blank] at gives
    contradiction
  have items : (ofDissection path ⟨Text.Utf8.encode text, diagnostics, 0, false⟩).items = [item] := by
    rw [items_ofDissection path rfl, failure?_of_success rfl, Text.lines_unended nonempty (feed_not_mem_encode single)]
    cases made <;> simp [gives, throughError]
  rw [← items]
  exact answer_eq_items rfl call

/-- A document between blanks, with an escape in the key of its layers and half of a pair under another. -/
def noted : String :=
  " \x7b\"a\":\"\\ud800\",\"l\\u0061yers\":\x7b\"frame\":\x7b\"frame_frame_number\":7\x7d\x7d\x7d\t"

def notedLayers : List (String × Json) := [("frame", .object [("frame_frame_number", .number (.integer 7))])]

def notedKey : List Json.Piece := [.char 'l', .unit 0x61, .char 'y', .char 'e', .char 'r', .char 's']

def notedTree : Json.Tree := .object [("frame".toList.map .char,
  .object [("frame_frame_number".toList.map .char, .number ⟨false, [7], none, none⟩)])]

open Json in
theorem noted_tokens : List.Forall₂ Spells
    [['\x7b'], "\"a\"".toList, [':'], "\"\\ud800\"".toList, [','], "\"l\\u0061yers\"".toList, [':'], ['\x7b'],
      "\"frame\"".toList, [':'], ['\x7b'], "\"frame_frame_number\"".toList, [':'], ['7'],
      ['\x7d'], ['\x7d'], ['\x7d']]
    (Tree.object ([("a".toList.map .char, .string [.unit 0xd800])] ++ (notedKey, notedTree) :: [])).tokens := by
  have opening : Spells ['\x7b'] .openObject := .mark (by decide)
  have closing : Spells ['\x7d'] .closeObject := .mark (by decide)
  have colon : Spells [':'] .colon := .mark (by decide)
  have comma : Spells [','] .comma := .mark (by decide)
  have chars : ∀ s : String, Plain s.toList →
      Spells ('"' :: (s.toList ++ ['"'])) (.string (s.toList.map .char)) :=
    fun _ plain => .string (spellsString_chars plain)
  have surrogate : Spells "\"\\ud800\"".toList (.string [.unit 0xd800]) := by
    have digits : Text.Numeral.Writes 16 ['d', '8', '0', '0'] 0xd800 :=
      Text.Numeral.writes_toDigits (by decide) (by decide) 0xd800
    exact .string (.unit digits .close)
  have key : Spells "\"l\\u0061yers\"".toList (.string notedKey) := by
    have digits : Text.Numeral.Writes 16 (['0'] ++ ['0'] ++ ['6'] ++ ['1']) (16 * (16 * (16 * 0 + 0) + 6) + 1) :=
      .more (.more (.more (.digit (by decide)) (by decide)) (by decide)) (by decide)
    have later : SpellsString "yers\"".toList ("yers".toList.map .char) :=
      spellsString_chars (s := "yers".toList) (by decide)
    exact .string (.bare (by decide) (.unit digits later))
  have number : Spells ['7'] (.number ⟨false, [7], none, none⟩) := by
    have digits : SpellsDigits ['7'] [7] := ⟨by decide, by decide, rfl⟩
    exact .number (.intro List.mem_cons_self digits (by decide) .absent .absent)
  refine .cons opening (.cons (chars "a" (by decide)) (.cons colon (.cons surrogate (.cons comma ?_))))
  refine .cons key (.cons colon (.cons opening (.cons (chars "frame" (by decide)) (.cons colon ?_))))
  refine .cons opening (.cons (chars "frame_frame_number" (by decide)) (.cons colon (.cons number ?_)))
  exact .cons closing (.cons closing (.cons closing .nil))

theorem noted_spells : Ek.SpellsDocument noted.toList notedLayers := by
  have key : Json.Writes notedKey "layers".toList :=
    .char (.unit (c := 'a') (by decide) (Json.writes_chars "yers".toList))
  have number : Json.Denotes (.number ⟨false, [7], none, none⟩) (.number (.integer 7)) := .natural (by decide)
  have frame : Json.Denotes (.object [("frame_frame_number".toList.map .char, .number ⟨false, [7], none, none⟩)])
      (.object [("frame_frame_number", .number (.integer 7))]) :=
    .object (.cons (Json.writes_chars _) number .nil) (.refl _) (List.pairwise_singleton _ _)
  have layers : Json.Denotes notedTree (.object notedLayers) :=
    .object (.cons (Json.writes_chars _) frame .nil) (.refl _) (List.pairwise_singleton _ _)
  have other : Ek.Others [("a".toList.map .char, .string [.unit 0xd800])] := by
    exact List.forall_mem_singleton.mpr ⟨"a", by decide, Json.writes_chars _⟩
  have blank : Json.Blanks [' '] := by decide
  have tab : Json.Blanks ['\t'] := by decide
  have text := Json.SpellsTree.intro blank (Json.joined_flatten noted_tokens (by simp [Json.Tree.tokens])) tab
  exact .intro key layers other (List.forall_mem_nil _) text

theorem document_read_noted :
    Json.Exact (.object notedLayers) ∧ Json.Within Ek.layersDepth (.object notedLayers) ∧
      Ek.SpellsDocument noted.toList notedLayers ∧ '\n' ∉ noted.toList ∧
      EkFrame.ofLayers? notedLayers = some ⟨7, notedLayers⟩ ∧
      ∃ item, ItemOf "a.pcap" notedLayers item ∧
        lineItem? "a.pcap" (Text.Utf8.encode noted.toList) = some item ∧
        ∀ diagnostics call,
          (ofDissection "a.pcap" ⟨Text.Utf8.encode noted.toList, diagnostics, 0, false⟩).answer call =
            [item][call]? := by
  have number : Json.Exact (.number (.integer 7)) := .integer (by decide) (by decide)
  have frame : Json.Exact (.object [("frame_frame_number", .number (.integer 7))]) :=
    .object (List.pairwise_singleton _ _) (List.forall_mem_singleton.mpr number)
  have fits : Json.Exact (.object notedLayers) :=
    .object (List.pairwise_singleton _ _) (List.forall_mem_singleton.mpr frame)
  have within : Json.Within Ek.layersDepth (.object notedLayers) :=
    .object (List.forall_mem_singleton.mpr (.object (List.forall_mem_singleton.mpr .number)))
  obtain ⟨_, item, made, read⟩ := document_read "a.pcap" fits within
  exact ⟨fits, within, noted_spells, by decide, rfl, item, made, read _ noted_spells (by decide)⟩

end EkStream

end TlsFixtures
