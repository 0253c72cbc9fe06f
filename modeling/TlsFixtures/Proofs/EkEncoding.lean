import Mathlib.Data.List.Dedup
import TlsFixtures.Extraction
import TlsFixtures.Proofs.FieldKeys

/-! Tables of fields written as EK documents. Each field is put into the object of one layer, whichever its
writer chooses. What is written is read back: the frame of such a document answers every question about plain
names as the table does, and so gives the same records. -/
namespace TlsFixtures

namespace Ek

/-- The members of all layers that are objects, in the order of the layers. -/
def entries (layers : List (String × Json)) : List (String × Json) :=
  layers.flatMap fun layer => layer.2.members?.getD []

/-- A value as a frame gives it: once, or listed because there are several. -/
inductive Regular : FieldValue → Prop where
  | one : Regular (.one value)
  | many : 2 ≤ values.length → Regular (.many values)

/-- How a value may be written: a string, or an array of strings. -/
inductive Writes : FieldValue → Json → Prop where
  | string : Writes (.one value) (.string value)
  | single : Writes (.one value) (.array [.string value])
  | array : Writes (.many values) (.array (values.map .string))

/-- How the number of a frame may be written: in decimal, with quotes or without. -/
inductive WritesNumber (n : UInt64) : Json → Prop where
  | string : WritesNumber n (.string n.toNat.repr)
  | number : WritesNumber n (.number (.integer n.toNat))

variable {layers : List (String × Json)} {key name : String} {value : Json} {v : FieldValue}

theorem lookup_of_mem {α : Type} {l : List (String × α)} {a : α} (distinct : (l.map Prod.fst).Nodup)
    (member : (name, a) ∈ l) : l.lookup name = some a := by
  induction l with
  | nil => simp at member
  | cons first rest ih =>
    obtain ⟨key, b⟩ := first
    obtain ⟨fresh, distinct⟩ := List.nodup_cons.mp distinct
    rcases List.mem_cons.mp member with same | later
    · obtain ⟨rfl, rfl⟩ := Prod.mk.inj same
      simp
    · have other : name ≠ key := by
        rintro rfl
        exact fresh (List.mem_map.mpr ⟨_, later, rfl⟩)
      rw [List.lookup_cons, beq_eq_false_iff_ne.mpr other]
      exact ih distinct later

theorem lookup_eq_none {α : Type} {l : List (String × α)} (absent : name ∉ l.map Prod.fst) :
    l.lookup name = none := by
  refine List.lookup_eq_none_iff.mpr fun entry member => ?_
  have other : name ≠ entry.1 := by
    rintro rfl
    exact absent (List.mem_map_of_mem member)
  simpa using other

theorem layerOccurrences_object (key : String) (members : List (String × Json)) :
    layerOccurrences key (.object members) = ((members.lookup key).map occurrences).getD [] :=
  (List.flatMap_singleton _ _).trans (pduOccurrences_object key members)

section Objects

variable (objects : ∀ layer ∈ layers, ∃ members, layer.2 = .object members)
include objects

theorem occurrences_of_absent (absent : key ∉ (entries layers).map Prod.fst) :
    (layers.flatMap fun layer => layerOccurrences key layer.2) = [] := by
  refine List.flatMap_eq_nil_iff.mpr fun layer member => ?_
  obtain ⟨members, object⟩ := objects layer member
  have outside : key ∉ members.map Prod.fst := by
    intro inside
    obtain ⟨entry, here, same⟩ := List.mem_map.mp inside
    refine absent (List.mem_map.mpr ⟨entry, List.mem_flatMap.mpr ⟨layer, member, ?_⟩, same⟩)
    simpa [object, Json.members?] using here
  simp [object, layerOccurrences_object, lookup_eq_none outside]

/-- A key that is written once is read with what is written under it, whichever layer that is in. -/
theorem occurrences_of_entry (once : ((entries layers).map Prod.fst).Nodup)
    (entry : (key, value) ∈ entries layers) :
    (layers.flatMap fun layer => layerOccurrences key layer.2) = occurrences value := by
  induction layers with
  | nil => simp [entries] at entry
  | cons layer rest ih =>
    obtain ⟨members, object⟩ := objects layer List.mem_cons_self
    have objects := fun other member => objects other (List.mem_cons_of_mem _ member)
    have split : entries (layer :: rest) = members ++ entries rest := by
      simp [entries, object, Json.members?]
    rw [split, List.map_append] at once
    obtain ⟨distinct, distinctRest, apart⟩ := List.nodup_append.mp once
    rw [List.flatMap_cons, object, layerOccurrences_object]
    rcases List.mem_append.mp (split ▸ entry) with first | later
    · have absent : key ∉ (entries rest).map Prod.fst := fun again =>
        apart key (List.mem_map_of_mem (f := Prod.fst) first) key again rfl
      simp [lookup_of_mem distinct first, occurrences_of_absent objects absent]
    · have outside : key ∉ members.map Prod.fst := fun inside =>
        apart key inside key (List.mem_map_of_mem (f := Prod.fst) later) rfl
      simp [lookup_eq_none outside, ih objects distinctRest later]

theorem find?_of_absent (absent : key ∉ (entries layers).map Prod.fst) : find? layers key = none := by
  rw [find?, occurrences_of_absent objects absent]
  rfl

theorem find?_of_entry (once : ((entries layers).map Prod.fst).Nodup) (entry : (key, value) ∈ entries layers) :
    find? layers key = FieldValue.ofOccurrences? (occurrences value) := by
  rw [find?, occurrences_of_entry objects once entry]

end Objects

theorem itemOccurrences_strings (values : List String) : itemOccurrences (values.map .string) = values := by
  induction values with
  | nil => rfl
  | cons value rest ih => simp [itemOccurrences, occurrences, ih]

theorem Writes.read (writes : Writes v value) (regular : Regular v) :
    FieldValue.ofOccurrences? (occurrences value) = some v := by
  cases writes with
  | string => rfl
  | single => rfl
  | @array values =>
    cases regular with
    | many several =>
      rw [occurrences, itemOccurrences_strings, FieldValue.ofOccurrences?_many several]

theorem WritesNumber.occurrences_eq {n : UInt64} (writes : WritesNumber n value) :
    occurrences value = [n.toNat.repr] := by
  cases writes <;> rfl

end Ek

namespace Text.Numeral

theorem extend_digits {digits : List Char} (all : ∀ c ∈ digits, c.isDigit) (value : Nat) :
    extend value digits = some (Nat.ofDigitChars 10 digits value) := by
  induction digits generalizing value with
  | nil => rfl
  | cons c rest ih =>
    have digit : digitValue? c = some (c.toNat - '0'.toNat) := by
      have isDigit := all c List.mem_cons_self
      simp only [Char.isDigit, Bool.and_eq_true, decide_eq_true_eq, ge_iff_le] at isDigit
      exact if_pos isDigit
    simp only [extend, digit, Option.bind_some, ih fun d member => all d (List.mem_cons_of_mem _ member)]
    rfl

theorem word?_repr (n : UInt64) : word? n.toNat.repr.toList = some n := by
  have digits : ∀ c ∈ Nat.toDigits 10 n.toNat, c.isDigit := fun c member =>
    Nat.isDigit_of_mem_toDigits (by decide) (by decide) member
  rw [Nat.toList_repr]
  cases whole : Nat.toDigits 10 n.toNat with
  | nil => exact absurd whole Nat.toDigits_ne_nil
  | cons c rest =>
    have unsigned : c ≠ '+' := by
      rintro rfl
      have isDigit := digits '+' (by simp [whole])
      simp [Char.isDigit] at isDigit
    have value : extend 0 (c :: rest) = some n.toNat := by
      rw [← whole, extend_digits digits, Nat.ofDigitChars_ten_toDigits]
    have bound : n.toNat < UInt64.size := n.toNat_lt
    simp [word?, unsigned, magnitude?, value, bound]

end Text.Numeral

/-- A frame that can be told from its document: its names are plain, each of them has one value, and its own
layer is among its layers. -/
structure FieldTable.Encodable (t : FieldTable) : Prop where
  ownLayer : "frame" ∈ t.layers
  plain : ∀ field ∈ t.fields ++ t.rawFields, Ek.PlainName field.1
  regular : ∀ field ∈ t.fields ++ t.rawFields, Ek.Regular field.2
  distinct : (t.fields.map Prod.fst).Nodup
  rawDistinct : (t.rawFields.map Prod.fst).Nodup

namespace Ek

/-- Layers that a table is written into: an object for each layer, in which no key is used that is used in
another one, and in them the frame's number, the fields and their wire bytes, and nothing else. -/
structure Encodes (t : FieldTable) (layers : List (String × Json)) : Prop where
  distinct : (layers.map Prod.fst).Nodup
  names : ∀ name, name ∈ layers.map Prod.fst ↔ name ∈ t.layers
  objects : ∀ layer ∈ layers, ∃ members, layer.2 = .object members
  once : ((entries layers).map Prod.fst).Nodup
  number : ∃ members value, ("frame", .object members) ∈ layers ∧ (numberKey, value) ∈ members ∧
    WritesNumber t.number value
  fields : ∀ field ∈ t.fields, ∃ value, (key field.1, value) ∈ entries layers ∧ Writes field.2 value
  rawFields : ∀ field ∈ t.rawFields, ∃ value, (rawKey field.1, value) ∈ entries layers ∧ Writes field.2 value
  only : ∀ used ∈ (entries layers).map Prod.fst, used = numberKey ∨
    used ∈ t.fields.map (key ·.1) ∨ used ∈ t.rawFields.map (rawKey ·.1)

variable {t : FieldTable}

theorem Encodes.find?_number (encodes : Encodes t layers) :
    find? layers numberKey = some (.one t.number.toNat.repr) := by
  obtain ⟨members, value, frame, member, writes⟩ := encodes.number
  have entry : (numberKey, value) ∈ entries layers := List.mem_flatMap.mpr ⟨_, frame, member⟩
  rw [find?_of_entry encodes.objects encodes.once entry, writes.occurrences_eq]
  rfl

/-- A list of fields is read from their keys if a name it lacks has no key in use. -/
theorem Encodes.find?_eq_lookup (encodes : Encodes t layers) {fields : List (String × FieldValue)}
    {keyOf : String → String} (distinct : (fields.map Prod.fst).Nodup)
    (written : ∀ field ∈ fields, Regular field.2 ∧
      ∃ value, (keyOf field.1, value) ∈ entries layers ∧ Writes field.2 value)
    (unused : name ∉ fields.map Prod.fst → keyOf name ∉ (entries layers).map Prod.fst) :
    find? layers (keyOf name) = fields.lookup name := by
  by_cases present : name ∈ fields.map Prod.fst
  · obtain ⟨field, member, rfl⟩ := List.mem_map.mp present
    obtain ⟨regular, value, entry, writes⟩ := written field member
    rw [find?_of_entry encodes.objects encodes.once entry, writes.read regular, lookup_of_mem distinct member]
  · rw [find?_of_absent encodes.objects (unused present), lookup_eq_none present]

theorem Encodes.find?_key (encodes : Encodes t layers) (encodable : t.Encodable) (plain : PlainName name) :
    find? layers (key name) = t.fields.lookup name := by
  refine encodes.find?_eq_lookup encodable.distinct (fun field member =>
    ⟨encodable.regular field (List.mem_append_left _ member), encodes.fields field member⟩) fun absent used => ?_
  rcases encodes.only _ used with number | display | raw
  · exact plain.key_ne_number number
  · obtain ⟨field, member, same⟩ := List.mem_map.mp display
    have other := encodable.plain field (List.mem_append_left _ member)
    obtain rfl := key_injective other.noUnderscore plain.noUnderscore same
    exact absent (List.mem_map_of_mem member)
  · obtain ⟨field, member, same⟩ := List.mem_map.mp raw
    have other := encodable.plain field (List.mem_append_right _ member)
    exact rawKey_ne_key other.noUnderscore plain.noUnderscore plain.notRaw same

theorem Encodes.find?_rawKey (encodes : Encodes t layers) (encodable : t.Encodable) (plain : PlainName name) :
    find? layers (rawKey name) = t.rawFields.lookup name := by
  refine encodes.find?_eq_lookup encodable.rawDistinct (fun field member =>
    ⟨encodable.regular field (List.mem_append_right _ member), encodes.rawFields field member⟩)
    fun absent used => ?_
  rcases encodes.only _ used with number | display | raw
  · exact plain.rawKey_ne_number number
  · obtain ⟨field, member, same⟩ := List.mem_map.mp display
    have other := encodable.plain field (List.mem_append_left _ member)
    exact rawKey_ne_key plain.noUnderscore other.noUnderscore other.notRaw same.symm
  · obtain ⟨field, member, same⟩ := List.mem_map.mp raw
    have other := encodable.plain field (List.mem_append_right _ member)
    obtain rfl := rawKey_injective other.noUnderscore plain.noUnderscore same
    exact absent (List.mem_map_of_mem member)

theorem Encodes.hasLayer (encodes : Encodes t layers) (name : String) :
    (Json.find? layers name).isSome = t.layers.contains name := by
  by_cases present : name ∈ layers.map Prod.fst
  · obtain ⟨layer, member, rfl⟩ := List.mem_map.mp present
    simp [Json.find?, lookup_of_mem encodes.distinct member, (encodes.names _).mp present]
  · have absent : name ∉ t.layers := mt (encodes.names name).mpr present
    simp [Json.find?, lookup_eq_none present, absent]

theorem Encodes.ofLayers? (encodes : Encodes t layers) :
    EkFrame.ofLayers? layers = some ⟨t.number, layers⟩ := by
  have number := encodes.find?_number
  rw [numberKey] at number
  simp only [EkFrame.ofLayers?, number, FieldValue.first, Option.bind_eq_bind, Option.bind_some,
    Text.Numeral.word?_repr, Option.pure_def]

/-- One way to write a value. -/
def write : FieldValue → Json
  | .one value => .string value
  | .many values => .array (values.map .string)

theorem writes_write (v : FieldValue) : Writes v (write v) := by
  cases v with
  | one => exact .string
  | many => exact .array

/-- All that is to be written of a table. -/
def contents (t : FieldTable) : List (String × Json) :=
  (numberKey, .string t.number.toNat.repr) ::
    (t.fields.map (fun field => (key field.1, write field.2)) ++
      t.rawFields.map fun field => (rawKey field.1, write field.2))

/-- The layers of a table with everything in the frame's own one. -/
def inOwnLayer (t : FieldTable) : List (String × Json) :=
  ("frame", .object (contents t)) :: (t.layers.dedup.filter (· ≠ "frame")).map fun name => (name, .object [])

theorem entries_inOwnLayer (t : FieldTable) : entries (inOwnLayer t) = contents t := by
  simp [entries, inOwnLayer, Json.members?, List.flatMap_map]

theorem contents_distinct (encodable : t.Encodable) : ((contents t).map Prod.fst).Nodup := by
  have plain : ∀ {field}, field ∈ t.fields → PlainName field.1 := fun member =>
    encodable.plain _ (List.mem_append_left _ member)
  have rawPlain : ∀ {field}, field ∈ t.rawFields → PlainName field.1 := fun member =>
    encodable.plain _ (List.mem_append_right _ member)
  have keys : ((t.fields.map Prod.fst).map key).Nodup := by
    refine encodable.distinct.map_on fun a ha b hb same => ?_
    obtain ⟨first, member, rfl⟩ := List.mem_map.mp ha
    obtain ⟨second, member', rfl⟩ := List.mem_map.mp hb
    exact key_injective (plain member).noUnderscore (plain member').noUnderscore same
  have rawKeys : ((t.rawFields.map Prod.fst).map rawKey).Nodup := by
    refine encodable.rawDistinct.map_on fun a ha b hb same => ?_
    obtain ⟨first, member, rfl⟩ := List.mem_map.mp ha
    obtain ⟨second, member', rfl⟩ := List.mem_map.mp hb
    exact rawKey_injective (rawPlain member).noUnderscore (rawPlain member').noUnderscore same
  simp only [contents, List.map_cons, List.map_append, List.map_map, Function.comp_def] at keys rawKeys ⊢
  refine List.nodup_cons.mpr ⟨?_, List.nodup_append.mpr ⟨keys, rawKeys, ?_⟩⟩
  · intro member
    rcases List.mem_append.mp member with display | raw
    · obtain ⟨field, member, same⟩ := List.mem_map.mp display
      exact (plain member).key_ne_number same
    · obtain ⟨field, member, same⟩ := List.mem_map.mp raw
      exact (rawPlain member).rawKey_ne_number same
  · intro used display other raw same
    obtain ⟨field, member, rfl⟩ := List.mem_map.mp display
    obtain ⟨rawField, rawMember, rfl⟩ := List.mem_map.mp raw
    exact rawKey_ne_key (rawPlain rawMember).noUnderscore (plain member).noUnderscore (plain member).notRaw
      same.symm

theorem encodes_inOwnLayer (encodable : t.Encodable) : Encodes t (inOwnLayer t) where
  distinct := by
    simp only [inOwnLayer, List.map_cons, List.map_map, Function.comp_def, List.map_id']
    exact List.nodup_cons.mpr ⟨by simp, (List.nodup_dedup _).filter _⟩
  names name := by
    by_cases own : name = "frame"
    · simp [inOwnLayer, own, encodable.ownLayer]
    · simp [inOwnLayer, own]
  objects layer member := by
    rcases List.mem_cons.mp member with rfl | other
    · exact ⟨_, rfl⟩
    · obtain ⟨name, _, rfl⟩ := List.mem_map.mp other
      exact ⟨_, rfl⟩
  once := by
    rw [entries_inOwnLayer]
    exact contents_distinct encodable
  number := ⟨_, _, List.mem_cons_self, List.mem_cons_self, .string⟩
  fields field member := by
    rw [entries_inOwnLayer]
    refine ⟨write field.2, List.mem_cons_of_mem _ (List.mem_append_left _ ?_), writes_write _⟩
    exact List.mem_map.mpr ⟨field, member, rfl⟩
  rawFields field member := by
    rw [entries_inOwnLayer]
    refine ⟨write field.2, List.mem_cons_of_mem _ (List.mem_append_right _ ?_), writes_write _⟩
    exact List.mem_map.mpr ⟨field, member, rfl⟩
  only used member := by
    rw [entries_inOwnLayer] at member
    simpa [contents, Function.comp_def] using member

end Ek

namespace Extraction

/-- The display fields that extraction asks for. -/
def askedFields : List String := [certificateField, ja4Field, ja4sField, ja4xField]

/-- Two frames of which extraction learns the same. -/
structure SameAnswers (a b : Frame) : Prop where
  number : a.number = b.number
  layer : a.hasLayer tlsLayer = b.hasLayer tlsLayer
  fields : ∀ name ∈ askedFields, a.field name = b.field name
  handshake : a.rawField handshakeField = b.rawField handshakeField

variable {a b : Frame}

theorem SameAnswers.hello_eq (same : SameAnswers a b) (file : String) (expected : Handshake.MessageType)
    {fingerprintField : String} (asked : fingerprintField ∈ askedFields) :
    hello a file expected fingerprintField = hello b file expected fingerprintField := by
  have payload : helloPayload a expected = helloPayload b expected := by
    rw [helloPayload, same.handshake, helloPayload]
  simp only [hello, same.layer, same.fields _ asked, same.number, payload]

theorem SameAnswers.certificates_eq (same : SameAnswers a b) (file : String) :
    certificates a file = certificates b file := by
  have single : certificate a file = certificate b file := by
    funext pair
    simp only [certificate, same.number]
  have chains := same.fields certificateField (by simp [askedFields])
  have fingerprints := same.fields ja4xField (by simp [askedFields])
  simp only [certificates, chain, same.layer, chains, fingerprints, same.number, single]

theorem SameAnswers.ofFrame_eq (same : SameAnswers a b) (v : Variant) (file : String) :
    ofFrame v a file = ofFrame v b file := by
  cases v with
  | ja4 => exact same.hello_eq file _ (by simp [askedFields])
  | ja4s => exact same.hello_eq file _ (by simp [askedFields])
  | ja4x => exact same.certificates_eq file

end Extraction

namespace Ek

/-- Every table whose names are plain can be written into layers, and from any layers it is written into the
frame it is can be read: with its number and layers, the same answers about all plain names, and so the same
records, errors and events for each variant. -/
theorem encoding_read {t : FieldTable} (encodable : t.Encodable) : (∃ layers, Encodes t layers) ∧
    ∀ layers, Encodes t layers → ∃ f, EkFrame.ofLayers? layers = some f ∧
      f.frame.number = t.frame.number ∧
      (∀ name, f.frame.hasLayer name = t.frame.hasLayer name) ∧
      (∀ name, PlainName name →
        f.frame.field name = t.frame.field name ∧ f.frame.rawField name = t.frame.rawField name) ∧
      ∀ v file, Extraction.ofFrame v f.frame file = Extraction.ofFrame v t.frame file := by
  refine ⟨⟨_, encodes_inOwnLayer encodable⟩, fun layers encodes => ⟨_, encodes.ofLayers?, ?_⟩⟩
  have answers : ∀ name, PlainName name → find? layers (key name) = t.fields.lookup name ∧
      find? layers (rawKey name) = t.rawFields.lookup name := fun name plain =>
    ⟨encodes.find?_key encodable plain, encodes.find?_rawKey encodable plain⟩
  refine ⟨rfl, encodes.hasLayer, answers, fun v file => Extraction.SameAnswers.ofFrame_eq ?_ v file⟩
  have asked : ∀ name ∈ Extraction.askedFields, PlainName name := by
    intro name member
    simp only [Extraction.askedFields, List.mem_cons, List.not_mem_nil, or_false] at member
    rcases member with rfl | rfl | rfl | rfl
    all_goals exact ⟨by decide, by decide, by decide⟩
  exact {
    number := rfl
    layer := encodes.hasLayer _
    fields := fun name member => (answers name (asked name member)).1
    handshake := (answers _ ⟨by decide, by decide, by decide⟩).2 }

/-- A table with a fingerprint that is written under the layer of another protocol. -/
def pluginTable : FieldTable :=
  ⟨9, ["tls", "tcp", "frame"], [("tls.handshake.ja4", .one "t13d"), ("tls.handshake.type", .many ["1", "11"])],
    [("tls.handshake", .many ["0b000000", "01000000"])]⟩

def pluginLayers : List (String × Json) := [
  ("frame", .object [("frame_frame_number", .number (.integer 9))]),
  ("tcp", .object [("tls_tls_handshake_ja4", .string "t13d")]),
  ("tls", .object [("tls_tls_handshake_raw", .array [.string "0b000000", .string "01000000"]),
    ("tls_tls_handshake_type", .array [.string "1", .string "11"])])]

theorem pluginTable_encodable : pluginTable.Encodable where
  ownLayer := by decide
  plain := by
    simp only [pluginTable, List.cons_append, List.nil_append, List.forall_mem_cons]
    refine ⟨?_, ?_, ?_, by simp⟩
    all_goals exact ⟨by decide, by decide, by decide⟩
  regular := by
    simp only [pluginTable, List.cons_append, List.nil_append, List.forall_mem_cons]
    exact ⟨.one, .many (by decide), .many (by decide), by simp⟩
  distinct := by decide
  rawDistinct := by decide

theorem encodes_pluginLayers : Encodes pluginTable pluginLayers where
  distinct := by decide
  names name := by
    simp only [pluginLayers, pluginTable, List.map_cons, List.map_nil, List.mem_cons, List.not_mem_nil, or_false]
    tauto
  objects := by
    simp only [pluginLayers, List.forall_mem_cons]
    exact ⟨⟨_, rfl⟩, ⟨_, rfl⟩, ⟨_, rfl⟩, by simp⟩
  once := by decide
  number := ⟨_, _, List.mem_cons_self, List.mem_cons_self, .number⟩
  fields := by
    simp only [pluginTable, List.forall_mem_cons]
    exact ⟨⟨_, .tail _ (.head _), .string⟩, ⟨_, .tail _ (.tail _ (.tail _ (.head _))), .array⟩, by simp⟩
  rawFields := by
    simp only [pluginTable, List.forall_mem_cons]
    exact ⟨⟨_, .tail _ (.tail _ (.head _)), .array⟩, by simp⟩
  only := by decide

/-- A fingerprint under another protocol's layer is found, and a field that is not there is not. -/
theorem encoding_read_plugin : pluginTable.Encodable ∧ Encodes pluginTable pluginLayers ∧
    ∃ f, EkFrame.ofLayers? pluginLayers = some f ∧ f.frame.number = 9 ∧
      f.frame.field "tls.handshake.ja4" = some (.one "t13d") ∧
      f.frame.rawField "tls.handshake" = some (.many ["0b000000", "01000000"]) ∧
      f.frame.field "ja4.ja4s" = none := by
  obtain ⟨f, read, number, _, answers, _⟩ :=
    (encoding_read pluginTable_encodable).2 pluginLayers encodes_pluginLayers
  exact ⟨pluginTable_encodable, encodes_pluginLayers, f, read, number,
    (answers _ ⟨by decide, by decide, by decide⟩).1, (answers _ ⟨by decide, by decide, by decide⟩).2,
    (answers _ ⟨by decide, by decide, by decide⟩).1⟩

end Ek
end TlsFixtures
