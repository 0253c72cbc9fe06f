import Mathlib.Logic.Relation
import TlsFixtures.Proofs.EkEncoding
import TlsFixtures.Proofs.Places

/-! Changes of EK documents that are not noticed. Values may be grouped into arrays and PDUs in any way, as long as
their scalars stay in order: no question about a frame is answered otherwise. And layers and members may be added
that extraction does not ask for: the records, the errors and the events of the frame stay as they are. -/
namespace TlsFixtures

namespace Ek

open Extraction (tlsLayer)

/-- A layer with a change to the members of one of its PDUs. -/
inductive InPdu (change : List (String × Json) → List (String × Json) → Prop) : Json → Json → Prop where
  | alone : change members members' → InPdu change (.object members) (.object members')
  | among : change members members' →
      InPdu change (.array (front ++ .object members :: back)) (.array (front ++ .object members' :: back))

/-- Layers with a change to one of them. -/
inductive InLayer (change : Json → Json → Prop) : List (String × Json) → List (String × Json) → Prop where
  | intro : change layer layer' → InLayer change (front ++ (name, layer) :: back) (front ++ (name, layer') :: back)

/-- A change of one member's value. -/
inductive InValue (change : Json → Json → Prop) : List (String × Json) → List (String × Json) → Prop where
  | intro {key : String} : change value value' →
      InValue change (front ++ (key, value) :: back) (front ++ (key, value') :: back)

/-- What counts for nothing in an array. -/
inductive Idle : Json → Prop where
  | null : Idle .null
  | object : Idle (.object members)
  | empty : Idle (.array [])

/-- Changes of the arrays in a field's value that leave its scalars in their order. -/
inductive Rearranged : Json → Json → Prop where
  | wrapped : Rearranged value (.array [value])
  | opened : Rearranged (.array (front ++ .array items :: back)) (.array (front ++ items ++ back))
  | idle : Idle item → Rearranged (.array (front ++ back)) (.array (front ++ item :: back))
  | inside : Rearranged item item' → Rearranged (.array (front ++ item :: back)) (.array (front ++ item' :: back))

/-- A PDU cut in two within the array under one key; all other members go to the one or the other part. -/
structure Cut (key : String) (members first second : List (String × Json)) : Prop where
  inside : ∃ xs ys, Json.find? members key = some (.array (xs ++ ys)) ∧
    Json.find? first key = some (.array xs) ∧ Json.find? second key = some (.array ys)
  outside : ∀ other ≠ key,
    Json.find? first other = Json.find? members other ∧ Json.find? second other = none ∨
    Json.find? first other = none ∧ Json.find? second other = Json.find? members other

/-- Changes of a layer that leave the scalars under each key in their order. -/
inductive Regrouped : Json → Json → Prop where
  | wrapped : (∀ items, layer ≠ .array items) → Regrouped layer (.array [layer])
  | stray : (∀ members, item ≠ .object members) →
      Regrouped (.array (front ++ back)) (.array (front ++ item :: back))
  | cut {key : String} : Cut key members first second →
      Regrouped (.array (front ++ .object members :: back)) (.array (front ++ .object first :: .object second :: back))
  | value : InPdu (InValue Rearranged) layer layer' → Regrouped layer layer'

/-- The keys that extraction asks for. -/
def askedKeys : List String :=
  ["frame_frame_number", "tls_tls_handshake_certificate", "ja4_ja4_ja4x", "ja4_ja4_ja4s", "tls_tls_handshake_ja4",
    "tls_tls_handshake_raw"]

/-- A new member that is not asked for, put where the order of keys has it. -/
inductive AddsMember : List (String × Json) → List (String × Json) → Prop where
  | intro {key : String} : key ∉ members.map Prod.fst → key ∉ askedKeys →
      AddsMember members (Json.insertMember key value members)

/-- Nothing is asked for in the PDUs of the layer. -/
def Unasked (layer : Json) : Prop :=
  ∀ members, .object members ∈ pdus layer → ∀ key ∈ members.map Prod.fst, key ∉ askedKeys

/-- A new layer in which nothing is asked for, or a new member of a PDU. -/
inductive Adds : List (String × Json) → List (String × Json) → Prop where
  | layer : name ∉ layers.map Prod.fst → name ≠ tlsLayer → Unasked layer →
      Adds layers (Json.insertMember name layer layers)
  | member : InLayer (InPdu AddsMember) layers layers' → Adds layers layers'

variable {layers layers' members : List (String × Json)} {layer layer' value value' : Json} {key name : String}

theorem InPdu.occurrences_eq {change : List (String × Json) → List (String × Json) → Prop}
    (same : ∀ {members members'}, change members members' →
      pduOccurrences key (.object members) = pduOccurrences key (.object members'))
    (changed : InPdu change layer layer') : layerOccurrences key layer = layerOccurrences key layer' := by
  cases changed with
  | alone change => simp only [layerOccurrences, pdus, List.flatMap_singleton, same change]
  | among change => simp only [layerOccurrences, pdus, List.flatMap_append, List.flatMap_cons, same change]

theorem InLayer.find?_eq {change : Json → Json → Prop}
    (same : ∀ {layer layer'}, change layer layer' → layerOccurrences key layer = layerOccurrences key layer')
    (changed : InLayer change layers layers') : find? layers key = find? layers' key := by
  cases changed with
  | intro change => simp only [find?, List.flatMap_append, List.flatMap_cons, same change]

theorem InLayer.names_eq {change : Json → Json → Prop} (changed : InLayer change layers layers') :
    layers.map Prod.fst = layers'.map Prod.fst := by
  cases changed with
  | intro => simp only [List.map_append, List.map_cons]

theorem InValue.find?_eq {change : Json → Json → Prop} (changed : InValue change members members') (key : String) :
    Json.find? members key = Json.find? members' key ∨ ∃ value value', change value value' ∧
      Json.find? members key = some value ∧ Json.find? members' key = some value' := by
  cases changed with
  | @intro value value' front back key' change =>
    simp only [Json.find?, List.lookup_append, List.lookup_cons]
    cases front.lookup key with
    | some => exact .inl rfl
    | none =>
      cases key == key' with
      | true => exact .inr ⟨value, value', change, rfl, rfl⟩
      | false => exact .inl rfl

/-! ### Grouping -/

theorem Idle.occurrences_eq {item : Json} (idle : Idle item) : occurrences item = [] := by
  cases idle <;> simp only [occurrences, itemOccurrences]

theorem Rearranged.occurrences_eq (rearranged : Rearranged value value') : occurrences value = occurrences value' := by
  induction rearranged with
  | wrapped => rw [occurrences_array, List.flatMap_singleton]
  | opened => simp only [occurrences_array, List.flatMap_append, List.flatMap_cons, List.append_assoc]
  | idle idle =>
    simp only [occurrences_array, List.flatMap_append, List.flatMap_cons, idle.occurrences_eq, List.nil_append]
  | inside _ ih => simp only [occurrences_array, List.flatMap_append, List.flatMap_cons, ih]

theorem rearranged_pduOccurrences (changed : InValue Rearranged members members') :
    pduOccurrences key (.object members) = pduOccurrences key (.object members') := by
  rw [pduOccurrences_object, pduOccurrences_object]
  rcases changed.find?_eq key with same | ⟨value, value', rearranged, there, there'⟩
  · rw [same]
  · rw [there, there', Option.map_some, Option.map_some, rearranged.occurrences_eq]

theorem Cut.pduOccurrences_eq {cutKey : String} {first second : List (String × Json)}
    (cut : Cut cutKey members first second) (key : String) : pduOccurrences key (.object members) =
      pduOccurrences key (.object first) ++ pduOccurrences key (.object second) := by
  simp only [pduOccurrences_object]
  by_cases same : key = cutKey
  · subst same
    obtain ⟨xs, ys, whole, left, right⟩ := cut.inside
    simp only [whole, left, right, Option.map_some, Option.getD_some, occurrences_array, List.flatMap_append]
  · rcases cut.outside key same with ⟨here, absent⟩ | ⟨absent, here⟩
    · rw [here, absent, Option.map_none, Option.getD_none, List.append_nil]
    · rw [here, absent, Option.map_none, Option.getD_none, List.nil_append]

theorem pduOccurrences_stray {item : Json} (stray : ∀ members, item ≠ .object members) :
    pduOccurrences key item = [] := by
  cases item with
  | object members => exact absurd rfl (stray members)
  | _ => rfl

/-- Whichever way a layer is grouped, it has the same occurrences under each key. -/
theorem Regrouped.occurrences_eq (regrouped : Regrouped layer layer') :
    layerOccurrences key layer = layerOccurrences key layer' := by
  cases regrouped with
  | wrapped single =>
    have alone : pdus layer = [layer] := by
      cases layer with
      | array items => exact absurd rfl (single items)
      | _ => rfl
    rw [layerOccurrences, layerOccurrences, alone, pdus]
  | stray stray =>
    simp only [layerOccurrences, pdus, List.flatMap_append, List.flatMap_cons, pduOccurrences_stray stray,
      List.nil_append]
  | cut cut =>
    simp only [layerOccurrences, pdus, List.flatMap_append, List.flatMap_cons, cut.pduOccurrences_eq key,
      List.append_assoc]
  | value changed => exact changed.occurrences_eq rearranged_pduOccurrences

/-- Layers of which every question is answered alike. -/
structure SameLookups (layers layers' : List (String × Json)) : Prop where
  names : layers.map Prod.fst = layers'.map Prod.fst
  find? : ∀ key, find? layers key = find? layers' key

theorem sameLookups_of_regrouped (regrouped : Relation.EqvGen (InLayer Regrouped) layers layers') :
    SameLookups layers layers' := by
  induction regrouped with
  | rel _ _ step => exact ⟨step.names_eq, fun _ => step.find?_eq Regrouped.occurrences_eq⟩
  | refl => exact ⟨rfl, fun _ => rfl⟩
  | symm _ _ _ ih => exact ⟨ih.names.symm, fun key => (ih.find? key).symm⟩
  | trans _ _ _ _ _ first second =>
    exact ⟨first.names.trans second.names, fun key => (first.find? key).trans (second.find? key)⟩

theorem ofLayers?_eq (layers : List (String × Json)) : EkFrame.ofLayers? layers =
    ((find? layers numberKey).bind fun value => Text.Numeral.word? value.first.toList).map (⟨·, layers⟩) := by
  simp only [EkFrame.ofLayers?, numberKey, Option.bind_eq_bind, Option.pure_def, Option.map_eq_bind,
    Option.bind_assoc, Function.comp_def]

theorem SameLookups.frame_eq (same : SameLookups layers layers') :
    (EkFrame.ofLayers? layers).map EkFrame.frame = (EkFrame.ofLayers? layers').map EkFrame.frame := by
  have answers : ∀ number, EkFrame.frame ⟨number, layers⟩ = EkFrame.frame ⟨number, layers'⟩ := by
    intro number
    have hasLayer : ∀ name, (Json.find? layers name).isSome = (Json.find? layers' name).isSome := by
      intro name
      rw [Bool.eq_iff_iff, Json.isSome_find?_iff, Json.isSome_find?_iff, same.names]
    simp only [EkFrame.frame, hasLayer, same.find?]
  rw [ofLayers?_eq, ofLayers?_eq, Option.map_map, Option.map_map, same.find?]
  exact congrArg (Option.map · _) (funext answers)

theorem value?_object {depth : Nat} {trees : List (List Json.Piece × Json.Tree)}
    (denoted : Json.Tree.value? depth (.object trees) = some value) :
    ∃ values, value = .object (Json.sortMembers values) := by
  cases depth with
  | zero => exact nomatch denoted
  | succ depth =>
    rw [Json.Tree.value?] at denoted
    obtain ⟨values, _, rfl⟩ := Option.map_eq_some_iff.mp denoted
    exact ⟨values, rfl⟩

theorem layers?_ordered {tree : Json.Tree} (read : layers? tree = some (some layers)) : Json.Ordered layers := by
  unfold layers? at read
  split at read
  next => exact nomatch read
  next trees =>
    obtain ⟨value, denoted, found⟩ := Option.bind_eq_some_iff.mp read
    obtain ⟨values, rfl⟩ := value?_object denoted
    obtain rfl := Option.some.inj (Option.some.inj found)
    exact Json.ordered_sortMembers values
  next => exact nomatch read

theorem documentLayers?_ordered {tree : Json.Tree} (read : documentLayers? tree = some (some layers)) :
    Json.Ordered layers := by
  unfold documentLayers? at read
  split at read
  next members =>
    obtain ⟨found, _, read⟩ := Option.bind_eq_some_iff.mp read
    split at read
    next => exact nomatch read
    next => exact layers?_ordered read
    next => exact nomatch read
  next => exact layers?_ordered read
  next => exact nomatch read

/-- Frames that are read hold their layers in the order of the names. -/
theorem ordered_of_frameOfLine {line : List Char} {f : EkFrame} (read : frameOfLine? line = .ok (some f)) :
    Json.Ordered f.layers := by
  unfold frameOfLine? at read
  split at read
  next => exact nomatch read
  next =>
    split at read
    next => exact nomatch read
    next => exact nomatch read
    next layers document =>
      split at read
      next frame made =>
        obtain rfl := Option.some.inj (Except.ok.inj read)
        obtain ⟨tree, _, denoted⟩ := Option.bind_eq_some_iff.mp document
        rw [ofLayers?_eq] at made
        obtain ⟨number, _, rfl⟩ := Option.map_eq_some_iff.mp made
        exact documentLayers?_ordered denoted
      next => exact nomatch read

/-- Layers that are grouped otherwise make the same frame, or none either; and a frame that was read gives each value
as the scalars stand, in the order of the layers' names, of the PDUs and of the entries of arrays: nothing where there
is none, one alone, and a list of two or more. -/
theorem grouping_unnoticed :
    (∀ layers layers', Relation.EqvGen (InLayer Regrouped) layers layers' →
      (EkFrame.ofLayers? layers).map EkFrame.frame = (EkFrame.ofLayers? layers').map EkFrame.frame) ∧
    (∀ line f, frameOfLine? line = .ok (some f) → Json.Ordered f.layers) ∧
    ∀ f : EkFrame, Json.Ordered f.layers → ∀ name, Collected f.layers (Ek.key name) (f.frame.field name) ∧
      Collected f.layers (rawKey name) (f.frame.rawField name) := by
  refine ⟨fun _ _ regrouped => (sameLookups_of_regrouped regrouped).frame_eq, fun _ _ => ordered_of_frameOfLine, ?_⟩
  intro f ordered name
  exact ⟨find?_collected ordered _, find?_collected ordered _⟩

def certificates (values : List Json) : List (String × Json) := [("tls_tls_handshake_certificate", .array values)]

def chainLayers : List (String × Json) := [
  ("frame", .object [("frame_frame_number", .string "3")]),
  ("tls", .object (certificates [.string "30:01", .string "30:02"]))]

/-- The same with one PDU for each certificate, among what counts for nothing. -/
def scatteredLayers : List (String × Json) := [
  ("frame", .object [("frame_frame_number", .array [.string "3"])]),
  ("tls", .array [.object (certificates [.string "30:01"]), .null,
    .object (certificates [.null, .string "30:02"])])]

theorem certificates_cut (xs ys : List Json) :
    Cut "tls_tls_handshake_certificate" (certificates (xs ++ ys)) (certificates xs) (certificates ys) where
  inside := ⟨xs, ys, rfl, rfl, rfl⟩
  outside other apart := by
    have absent : ∀ values, Json.find? (certificates values) other = none := fun values => by
      rw [certificates, Json.find?, List.lookup_cons, beq_eq_false_iff_ne.mpr apart, List.lookup_nil]
    exact .inl ⟨(absent _).trans (absent _).symm, absent _⟩

theorem scattered_regrouped : Relation.EqvGen (InLayer Regrouped) chainLayers scatteredLayers := by
  have tls : ∀ {frame : String × Json} {layer layer'}, Regrouped layer layer' →
      Relation.EqvGen (InLayer Regrouped) [frame, ("tls", layer)] [frame, ("tls", layer')] :=
    fun step => .rel _ _ (@InLayer.intro _ _ _ [_] _ [] step)
  have number : InLayer Regrouped chainLayers
      [("frame", .object [("frame_frame_number", .array [.string "3"])]),
        ("tls", .object (certificates [.string "30:01", .string "30:02"]))] :=
    @InLayer.intro _ _ _ [] _ _ (.value (.alone (@InValue.intro _ _ _ [] [] _ .wrapped)))
  have wrapped : Regrouped (.object (certificates [.string "30:01", .string "30:02"]))
      (.array [.object (certificates [.string "30:01", .string "30:02"])]) := .wrapped nofun
  have cut : Regrouped (.array [.object (certificates [.string "30:01", .string "30:02"])])
      (.array [.object (certificates [.string "30:01"]), .object (certificates [.string "30:02"])]) :=
    @Regrouped.cut _ _ _ [] [] _ (certificates_cut [_] [_])
  have stray : Regrouped (.array [.object (certificates [.string "30:01"]), .object (certificates [.string "30:02"])])
      (.array [.object (certificates [.string "30:01"]), .null, .object (certificates [.string "30:02"])]) :=
    @Regrouped.stray _ [_] [_] nofun
  have idle : Regrouped
      (.array [.object (certificates [.string "30:01"]), .null, .object (certificates [.string "30:02"])])
      (.array [.object (certificates [.string "30:01"]), .null, .object (certificates [.null, .string "30:02"])]) :=
    .value (@InPdu.among _ _ _ [_, _] [] (@InValue.intro _ _ _ [] [] _ (@Rearranged.idle _ [] _ .null)))
  exact (Relation.EqvGen.rel _ _ number).trans _ _ _ <| (tls wrapped).trans _ _ _ <| (tls cut).trans _ _ _ <|
    (tls stray).trans _ _ _ (tls idle)

/-- Two certificates are found in their order, whether they stand together or apart. -/
theorem scattered_unnoticed :
    Relation.EqvGen (InLayer Regrouped) chainLayers scatteredLayers ∧
    EkFrame.ofLayers? chainLayers = some ⟨3, chainLayers⟩ ∧
    EkFrame.ofLayers? scatteredLayers = some ⟨3, scatteredLayers⟩ ∧
    EkFrame.frame ⟨3, chainLayers⟩ = EkFrame.frame ⟨3, scatteredLayers⟩ ∧
    Json.Ordered scatteredLayers ∧
    Collected scatteredLayers "tls_tls_handshake_certificate" (some (.many ["30:01", "30:02"])) := by
  have ordered : Json.Ordered scatteredLayers := by
    simp only [Json.Ordered, scatteredLayers, List.pairwise_pair]
    decide
  have same := grouping_unnoticed.1 _ _ scattered_regrouped
  have found := (grouping_unnoticed.2.2 ⟨3, scatteredLayers⟩ ordered "tls.handshake.certificate").1
  exact ⟨scattered_regrouped, rfl, rfl, Option.some.inj same, ordered, found⟩

/-! ### Additions -/

theorem insertMember_split (fresh : name ∉ members.map Prod.fst) : ∃ front back, members = front ++ back ∧
    ∀ value, Json.insertMember name value members = front ++ (name, value) :: back := by
  induction members with
  | nil => exact ⟨[], [], rfl, fun _ => rfl⟩
  | cons first rest ih =>
    obtain ⟨other, later⟩ := not_or.mp (mt List.mem_cons.mpr fresh)
    by_cases less : name < first.1
    · exact ⟨[], first :: rest, rfl, fun _ => by rw [Json.insertMember, if_neg other, if_pos less]; rfl⟩
    · obtain ⟨front, back, split, inserted⟩ := ih later
      refine ⟨first :: front, back, by rw [split]; rfl, fun value => ?_⟩
      rw [Json.insertMember, if_neg other, if_neg less, inserted]
      rfl

theorem find?_insertMember (fresh : name ∉ members.map Prod.fst) {other : String} (apart : other ≠ name) :
    Json.find? (Json.insertMember name value members) other = Json.find? members other := by
  obtain ⟨front, back, split, inserted⟩ := insertMember_split fresh
  rw [inserted, split, Json.find?, Json.find?, List.lookup_append, List.lookup_append, List.lookup_cons,
    beq_eq_false_iff_ne.mpr apart]

/-- Layers of which extraction learns the same. -/
structure SameAsked (layers layers' : List (String × Json)) : Prop where
  tls : (Json.find? layers tlsLayer).isSome = (Json.find? layers' tlsLayer).isSome
  find? : ∀ key ∈ askedKeys, find? layers key = find? layers' key

theorem Unasked.occurrences_eq (unasked : Unasked layer) (asked : name ∈ askedKeys) :
    layerOccurrences name layer = [] := by
  refine List.flatMap_eq_nil_iff.mpr fun pdu member => ?_
  cases pdu with
  | object members =>
    have absent : name ∉ members.map Prod.fst := fun inside => unasked members member name inside asked
    rw [pduOccurrences_object, Json.find?, lookup_eq_none absent]
    rfl
  | _ => rfl

theorem Adds.sameAsked (adds : Adds layers layers') : SameAsked layers layers' := by
  cases adds with
  | layer fresh other unasked =>
    refine ⟨by rw [find?_insertMember fresh (Ne.symm other)], fun key asked => ?_⟩
    obtain ⟨front, back, split, inserted⟩ := insertMember_split fresh
    rw [inserted, split]
    simp only [find?, List.flatMap_append, List.flatMap_cons, unasked.occurrences_eq asked, List.nil_append]
  | member changed =>
    refine ⟨?_, fun key asked => changed.find?_eq fun change => change.occurrences_eq fun adds => ?_⟩
    · rw [Bool.eq_iff_iff, Json.isSome_find?_iff, Json.isSome_find?_iff, changed.names_eq]
    · cases adds with
      | intro fresh unasked =>
        have apart := ne_of_mem_of_not_mem asked unasked
        rw [pduOccurrences_object, pduOccurrences_object, find?_insertMember fresh apart]

theorem sameAsked_of_adds (adds : Relation.ReflTransGen Adds layers layers') : SameAsked layers layers' := by
  induction adds with
  | refl => exact ⟨rfl, fun _ _ => rfl⟩
  | tail _ step ih =>
    have last := step.sameAsked
    exact ⟨ih.tls.trans last.tls, fun key asked => (ih.find? key asked).trans (last.find? key asked)⟩

theorem SameAsked.answers (same : SameAsked layers layers') (number : UInt64) :
    Extraction.SameAnswers (EkFrame.frame ⟨number, layers⟩) (EkFrame.frame ⟨number, layers'⟩) where
  number := rfl
  layer := same.tls
  fields := by
    simp only [Extraction.askedFields, List.forall_mem_cons]
    refine ⟨same.find? _ ?_, same.find? _ ?_, same.find? _ ?_, same.find? _ ?_, List.forall_mem_nil _⟩
    all_goals decide
  handshake := same.find? _ (by decide)

/-- What is added without being asked for changes neither the number of a frame nor whether there is one, and none of
the records, errors and events that extraction has for it. -/
theorem additions_unnoticed (adds : Relation.ReflTransGen Adds layers layers') :
    (EkFrame.ofLayers? layers).map EkFrame.number = (EkFrame.ofLayers? layers').map EkFrame.number ∧
    ∀ f f', EkFrame.ofLayers? layers = some f → EkFrame.ofLayers? layers' = some f' → ∀ v file,
      Extraction.ofFrame v f.frame file = Extraction.ofFrame v f'.frame file := by
  have same := sameAsked_of_adds adds
  have number : find? layers numberKey = find? layers' numberKey := same.find? _ (by decide)
  rw [ofLayers?_eq, ofLayers?_eq, number]
  refine ⟨by simp only [Option.map_map, Function.comp_def], ?_⟩
  intro f f' made made' v file
  obtain ⟨n, read, rfl⟩ := Option.map_eq_some_iff.mp made
  obtain ⟨n', read', rfl⟩ := Option.map_eq_some_iff.mp made'
  obtain rfl := Option.some.inj (read.symm.trans read')
  exact (same.answers n).ofFrame_eq v file

def handshakeMembers : List (String × Json) :=
  [("tls_tls_handshake_ja4", .string "t13d"), ("tls_tls_handshake_raw", .string "01000000")]

def bareLayers : List (String × Json) :=
  [("frame", .object [("frame_frame_number", .string "9")]), ("tls", .object handshakeMembers)]

/-- A layer of payload in which a raw handshake stands, but deeper inside. -/
def payloadLayer : Json := .array [.object [("data_data", .object [("tls_tls_handshake_raw", .string "02")])]]

def extensions : Json := .array [.object [("tls_tls_handshake_ja4", .string "other")]]

/-- The same with the layer of payload, and with a member more in the TLS layer. -/
def ladenLayers : List (String × Json) := [
  ("data", payloadLayer),
  ("frame", .object [("frame_frame_number", .string "9")]),
  ("tls", .object [("tls_tls_handshake_extension", extensions), ("tls_tls_handshake_ja4", .string "t13d"),
    ("tls_tls_handshake_raw", .string "01000000")])]

theorem laden_adds : Relation.ReflTransGen Adds bareLayers ladenLayers := by
  have payload : Unasked payloadLayer := by
    intro members member key inside
    obtain rfl := Json.object.inj (List.mem_singleton.mp member)
    obtain rfl := List.mem_singleton.mp inside
    decide
  have first : Json.insertMember "data" payloadLayer bareLayers = ("data", payloadLayer) :: bareLayers := by
    rw [bareLayers, Json.insertMember, if_neg (by decide), if_pos (by decide)]
  have second : Json.insertMember "tls_tls_handshake_extension" extensions handshakeMembers =
      ("tls_tls_handshake_extension", extensions) :: handshakeMembers := by
    rw [handshakeMembers, Json.insertMember, if_neg (by decide), if_pos (by decide)]
  have layer : Adds bareLayers (("data", payloadLayer) :: bareLayers) := by
    rw [← first]
    exact .layer (by decide) (by decide) payload
  have member : AddsMember handshakeMembers (("tls_tls_handshake_extension", extensions) :: handshakeMembers) := by
    rw [← second]
    exact .intro (by decide) (by decide)
  exact .tail (.single layer) (.member (@InLayer.intro _ _ _ [_, _] _ [] (.alone member)))

/-- The raw handshake in the payload is not taken for that of the frame. -/
theorem laden_unnoticed :
    Relation.ReflTransGen Adds bareLayers ladenLayers ∧
    EkFrame.ofLayers? bareLayers = some ⟨9, bareLayers⟩ ∧ EkFrame.ofLayers? ladenLayers = some ⟨9, ladenLayers⟩ ∧
    Extraction.ofFrame .ja4 (EkFrame.frame ⟨9, bareLayers⟩) "a.pcap" =
      Extraction.ofFrame .ja4 (EkFrame.frame ⟨9, ladenLayers⟩) "a.pcap" ∧
    Extraction.ofFrame .ja4 (EkFrame.frame ⟨9, ladenLayers⟩) "a.pcap" =
      ⟨.ok [⟨"a.pcap", 9, [1, 0, 0, 0], "t", "t13d"⟩], []⟩ :=
  ⟨laden_adds, rfl, rfl, (additions_unnoticed laden_adds).2 _ _ rfl rfl .ja4 "a.pcap", rfl⟩

end Ek
end TlsFixtures
