import Mathlib.Data.String.Basic
import TlsFixtures.Ek.Document

/-! Where the occurrences of a field stand in an EK document. A place is a layer, a PDU of that layer, and a way
through the arrays of what the PDU has under the key. The occurrences are the texts of the scalars at all places,
in the order of the places, which for layers is the order of their names. -/
namespace TlsFixtures

/-- Texts in the order of places: the ones that stand at the places, each once, and no others. -/
def Enumerates {ι : Type} (before : ι → ι → Prop) (stands : ι → String → Prop) (texts : List String) : Prop :=
  ∃ found : List (ι × String), found.map Prod.snd = texts ∧
    found.Pairwise (fun a b => before a.1 b.1) ∧ ∀ place s, (place, s) ∈ found ↔ stands place s

namespace Enumerates

variable {ι κ α : Type} {before : ι → ι → Prop} {texts : List String}

theorem eq_nil_iff {stands : ι → String → Prop} (enumerates : Enumerates before stands texts) :
    texts = [] ↔ ∀ place s, ¬stands place s := by
  obtain ⟨found, rfl, _, exact⟩ := enumerates
  rw [List.map_eq_nil_iff, List.eq_nil_iff_forall_not_mem]
  exact ⟨fun none place s stands => none _ ((exact place s).mpr stands),
    fun none entry member => none _ _ ((exact entry.1 entry.2).mp member)⟩

theorem mem_iff {stands : ι → String → Prop} (enumerates : Enumerates before stands texts) {s : String} :
    s ∈ texts ↔ ∃ place, stands place s := by
  obtain ⟨found, rfl, _, exact⟩ := enumerates
  simp only [List.mem_map, Prod.exists, exists_eq_right, exact]

/-- The same texts at places that are named otherwise. -/
theorem rename {stands : ι → String → Prop} {before' : κ → κ → Prop} {stands' : κ → String → Prop}
    (enumerates : Enumerates before stands texts) (name : ι → κ)
    (ordered : ∀ a b, before a b → before' (name a) (name b))
    (same : ∀ place s, stands' place s ↔ ∃ old, name old = place ∧ stands old s) :
    Enumerates before' stands' texts := by
  obtain ⟨found, rfl, order, exact⟩ := enumerates
  refine ⟨found.map fun entry => (name entry.1, entry.2), ?_, ?_, fun place s => ?_⟩
  · rw [List.map_map]
    rfl
  · exact List.pairwise_map.mpr (order.imp (ordered _ _))
  · rw [same, List.mem_map]
    constructor
    · rintro ⟨⟨old, t⟩, member, named⟩
      obtain ⟨rfl, rfl⟩ := Prod.mk.inj named
      exact ⟨old, rfl, (exact old t).mp member⟩
    · rintro ⟨old, rfl, stands⟩
      exact ⟨(old, s), (exact old s).mpr stands, rfl⟩

/-- Lists that are enumerated each by itself, one after another: the order is that of the lists first. -/
theorem flatMap {lt : κ → κ → Prop} {stands : α → ι → String → Prop} {texts : α → List String} {l : List α}
    (key : α → κ) (sorted : l.Pairwise fun a b => lt (key a) (key b))
    (each : ∀ a ∈ l, Enumerates before (stands a) (texts a)) :
    Enumerates (Prod.Lex lt before) (fun place s => ∃ a ∈ l, key a = place.1 ∧ stands a place.2 s)
      (l.flatMap texts) := by
  induction l with
  | nil => exact ⟨[], rfl, .nil, by simp⟩
  | cons a rest ih =>
    obtain ⟨lower, sorted⟩ := List.pairwise_cons.mp sorted
    obtain ⟨⟨found, own, order, exact⟩, later⟩ := List.forall_mem_cons.mp each
    obtain ⟨others, follow, otherOrder, otherExact⟩ := ih sorted later
    refine ⟨found.map (fun entry => ((key a, entry.1), entry.2)) ++ others, ?_, ?_, fun place s => ?_⟩
    · rw [List.map_append, List.map_map, follow, List.flatMap_cons, ← own]
      rfl
    · refine List.pairwise_append.mpr ⟨?_, otherOrder, ?_⟩
      · exact List.pairwise_map.mpr (order.imp fun earlier => .right _ earlier)
      · intro x inFirst y inRest
        obtain ⟨entry, _, rfl⟩ := List.mem_map.mp inFirst
        obtain ⟨⟨k, place⟩, s⟩ := y
        obtain ⟨b, member, rfl, _⟩ := (otherExact (k, place) s).mp inRest
        exact .left _ _ (lower b member)
    · rw [List.mem_append, otherExact, List.mem_map]
      constructor
      · rintro (⟨⟨old, t⟩, member, named⟩ | ⟨b, member, stands⟩)
        · obtain ⟨rfl, rfl⟩ := Prod.mk.inj named
          exact ⟨a, .head _, rfl, (exact old t).mp member⟩
        · exact ⟨b, .tail _ member, stands⟩
      · rintro ⟨b, member, named, stands⟩
        rcases List.mem_cons.mp member with rfl | member
        · exact .inl ⟨(place.2, s), (exact _ _).mpr stands, by rw [named]⟩
        · exact .inr ⟨b, member, named, stands⟩

/-- The same for the entries of a list, which are told by their positions. -/
theorem entries {stands : α → ι → String → Prop} {texts : α → List String} {l : List α}
    (each : ∀ a ∈ l, Enumerates before (stands a) (texts a)) :
    Enumerates (Prod.Lex (fun i j : Nat => i < j) before) (fun place s => ∃ a, l[place.1]? = some a ∧ stands a place.2 s)
      (l.flatMap texts) := by
  have sorted : l.zipIdx.Pairwise fun a b => a.2 < b.2 := by
    apply List.pairwise_map.mp
    rw [List.zipIdx_map_snd]
    exact List.pairwise_lt_range'
  have inside : ∀ entry ∈ l.zipIdx, Enumerates before (stands entry.1) (texts entry.1) := fun entry member =>
    each _ (List.mem_of_getElem? (List.mem_zipIdx_iff_getElem?.mp member))
  have positions : l.zipIdx.flatMap (fun entry => texts entry.1) = l.flatMap texts := by
    rw [← List.flatMap_map, List.zipIdx_map_fst]
  rw [← positions]
  refine (flatMap Prod.snd sorted inside).rename id (fun _ _ earlier => earlier) fun place s => ?_
  simp [List.mem_zipIdx_iff_getElem?]

end Enumerates

namespace Json

/-- Members by the order of their keys, so that no key is repeated. -/
def Ordered (members : List (String × Json)) : Prop := members.Pairwise fun a b => a.1 < b.1

/-- The text of a scalar. -/
inductive Scalar : Json → String → Prop where
  | true : Scalar (.bool true) "true"
  | false : Scalar (.bool false) "false"
  | number : Scalar (.number n) n.text
  | string : Scalar (.string s) s

/-- A way through arrays to a scalar with a text: the positions that it takes. -/
inductive At : Json → List Nat → String → Prop where
  | here : Scalar value s → At value [] s
  | inside : items[i]? = some item → At item path s → At (.array items) (i :: path) s

variable {members : List (String × Json)} {key s text : String} {value : Json} {path : List Nat}

theorem isSome_find?_iff : (find? members key).isSome = true ↔ key ∈ members.map Prod.fst := by
  rw [find?, List.lookup_isSome_iff, List.mem_map]
  simp only [beq_iff_eq, @eq_comm _ key]

theorem mem_insertMember {entry : String × Json} (member : entry ∈ insertMember key value members) :
    entry = (key, value) ∨ entry ∈ members := by
  induction members with
  | nil => exact .inl (List.mem_singleton.mp member)
  | cons first rest ih =>
    simp only [insertMember] at member
    split at member
    · rcases List.mem_cons.mp member with same | old
      · exact .inl same
      · exact .inr (.tail _ old)
    split at member
    · exact List.mem_cons.mp member
    · rcases List.mem_cons.mp member with same | new
      · exact .inr (same ▸ .head _)
      · exact (ih new).imp_right (.tail _)

theorem ordered_insertMember (ordered : Ordered members) : Ordered (insertMember key value members) := by
  induction members with
  | nil => exact List.pairwise_singleton _ _
  | cons first rest ih =>
    obtain ⟨lower, sorted⟩ := List.pairwise_cons.mp ordered
    simp only [insertMember]
    split
    next same =>
      subst same
      exact List.pairwise_cons.mpr ⟨lower, sorted⟩
    next other =>
      split
      next less =>
        refine List.pairwise_cons.mpr ⟨?_, ordered⟩
        exact List.forall_mem_cons.mpr ⟨less, fun entry member => lt_trans less (lower entry member)⟩
      next notLess =>
        have greater : first.1 < key := lt_of_le_of_ne (not_lt.mp notLess) (Ne.symm other)
        refine List.pairwise_cons.mpr ⟨fun entry member => ?_, ih sorted⟩
        rcases mem_insertMember member with rfl | old
        · exact greater
        · exact lower entry old

theorem ordered_sortMembers (members : List (String × Json)) : Ordered (sortMembers members) := by
  have kept : ∀ sorted : List (String × Json), Ordered sorted →
      Ordered (members.foldl (fun sorted entry => insertMember entry.1 entry.2 sorted) sorted) := by
    induction members with
    | nil => exact fun _ ordered => ordered
    | cons entry rest ih => exact fun sorted ordered => ih _ (ordered_insertMember ordered)
  exact kept [] .nil

/-- What holds of every value that is no array, and of an array if it holds of its entries, holds of all. -/
theorem array_induction {motive : Json → Prop} (plain : ∀ value, (∀ items, value ≠ .array items) → motive value)
    (array : ∀ items, (∀ item ∈ items, motive item) → motive (.array items)) (value : Json) : motive value := by
  match value with
  | .array items => exact array items fun item member => array_induction plain array item
  | .null | .bool _ | .number _ | .string _ | .object _ => exact plain _ nofun
termination_by sizeOf value
decreasing_by
  have smaller := List.sizeOf_lt_of_mem member
  rw [Json.array.sizeOf_spec]
  omega

theorem Scalar.unique (scalar : Scalar value text) (other : Scalar value s) : s = text := by
  cases scalar <;> cases other <;> rfl

theorem enumerates_scalar (scalar : Scalar value text) :
    Enumerates (fun a b : List Nat => a < b) value.At [text] := by
  refine ⟨[([], text)], rfl, List.pairwise_singleton _ _, fun path s => ⟨fun member => ?_, fun reached => ?_⟩⟩
  · obtain ⟨rfl, rfl⟩ := Prod.mk.inj (List.mem_singleton.mp member)
    exact .here scalar
  · cases reached with
    | here other => rw [scalar.unique other]; exact .head _
    | inside => cases scalar

theorem enumerates_nothing (unreached : ∀ path s, ¬At value path s) :
    Enumerates (fun a b : List Nat => a < b) value.At [] :=
  ⟨[], rfl, .nil, fun path s => iff_of_false List.not_mem_nil (unreached path s)⟩

theorem members?_eq_some_iff : value.members? = some members ↔ value = .object members := by
  cases value <;> simp [members?]

/-- Occurrences in a value are the scalars that can be reached through its arrays, in the order of the ways. -/
theorem enumerates_occurrences (value : Json) :
    Enumerates (fun a b : List Nat => a < b) value.At (Ek.occurrences value) := by
  induction value using array_induction with
  | plain value plain =>
    cases value with
    | null => exact enumerates_nothing fun _ _ reached => by cases reached with | here scalar => cases scalar
    | object => exact enumerates_nothing fun _ _ reached => by cases reached with | here scalar => cases scalar
    | bool b => cases b <;> exact enumerates_scalar (by constructor)
    | number => exact enumerates_scalar .number
    | string => exact enumerates_scalar .string
    | array items => exact absurd rfl (plain items)
  | array items ih =>
    rw [Ek.occurrences_array]
    refine (Enumerates.entries ih).rename (fun place => place.1 :: place.2) (fun a b earlier => ?_) fun path s => ?_
    · cases earlier with
      | left _ _ less => exact List.cons_lt_cons_iff.mpr (.inl less)
      | right _ less => exact List.cons_lt_cons_iff.mpr (.inr ⟨rfl, less⟩)
    · constructor
      · intro reached
        cases reached with
        | here scalar => cases scalar
        | @inside _ i item path _ there reached => exact ⟨(i, path), rfl, item, there, reached⟩
      · rintro ⟨⟨i, path⟩, rfl, item, there, reached⟩
        exact .inside there reached

end Json

namespace Ek

/-- The name of a layer, the position of a PDU in it, and a way through arrays. -/
abbrev Place : Type := String × Nat × List Nat

/-- The order of layers by name, then of PDUs, then of the entries of arrays. -/
def Place.Before : Place → Place → Prop :=
  Prod.Lex (fun a b => a < b) (Prod.Lex (fun i j => i < j) fun p q => p < q)

/-- A PDU has a scalar under a key, at the end of a way through arrays. -/
def Under (key : String) (pdu : Json) (path : List Nat) (s : String) : Prop :=
  ∃ members value, pdu = .object members ∧ Json.find? members key = some value ∧ value.At path s

/-- A place under a key where a scalar with a text stands. -/
def Stands (layers : List (String × Json)) (key : String) (place : Place) (s : String) : Prop :=
  ∃ layer pdu, (place.1, layer) ∈ layers ∧ (pdus layer)[place.2.1]? = some pdu ∧ Under key pdu place.2.2 s

/-- There is a scalar under the key, be it empty. -/
def Carries (layers : List (String × Json)) (key : String) : Prop := ∃ place s, Stands layers key place s

/-- A value as it is found: a text that stands alone, or all texts in the order of their places. -/
inductive Collected (layers : List (String × Json)) (key : String) : Option FieldValue → Prop where
  | none : Enumerates Place.Before (Stands layers key) [] → Collected layers key none
  | one : Enumerates Place.Before (Stands layers key) [text] → Collected layers key (some (.one text))
  | many : Enumerates Place.Before (Stands layers key) texts → 2 ≤ texts.length →
      Collected layers key (some (.many texts))

variable {layers : List (String × Json)}

theorem enumerates_pdu (key : String) (pdu : Json) :
    Enumerates (fun p q => p < q) (Under key pdu) (pduOccurrences key pdu) := by
  cases found : pdu.members?.bind (Json.find? · key) with
  | none =>
    rw [pduOccurrences, found]
    refine ⟨[], rfl, .nil, fun path s => iff_of_false List.not_mem_nil ?_⟩
    rintro ⟨members, value, rfl, there, _⟩
    cases found.symm.trans there
  | some value =>
    rw [pduOccurrences, found]
    refine (Json.enumerates_occurrences value).rename id (fun _ _ earlier => earlier) fun path s => ?_
    obtain ⟨members, object, there⟩ := Option.bind_eq_some_iff.mp found
    constructor
    · rintro ⟨members, value', rfl, there', reached⟩
      obtain rfl := Option.some.inj (found.symm.trans there')
      exact ⟨path, rfl, reached⟩
    · rintro ⟨_, rfl, reached⟩
      exact ⟨members, value, Json.members?_eq_some_iff.mp object, there, reached⟩

/-- Layers by any order that they are in, with the PDUs and the ways behind it. -/
theorem enumerates_layers (lt : String → String → Prop) (sorted : layers.Pairwise fun a b => lt a.1 b.1)
    (key : String) : Enumerates (Prod.Lex lt (Prod.Lex (fun i j : Nat => i < j) fun p q : List Nat => p < q))
      (Stands layers key) (layers.flatMap fun layer => layerOccurrences key layer.2) := by
  have each : ∀ layer ∈ layers, Enumerates (Prod.Lex (fun i j : Nat => i < j) fun p q : List Nat => p < q)
      (fun place s => ∃ pdu, (pdus layer.2)[place.1]? = some pdu ∧ Under key pdu place.2 s)
      (layerOccurrences key layer.2) := fun layer _ => Enumerates.entries fun pdu _ => enumerates_pdu key pdu
  refine (Enumerates.flatMap Prod.fst sorted each).rename id (fun _ _ earlier => earlier) fun place s => ?_
  constructor
  · rintro ⟨layer, pdu, member, there, under⟩
    exact ⟨place, rfl, (place.1, layer), member, rfl, pdu, there, under⟩
  · rintro ⟨_, rfl, layer, member, named, pdu, there, under⟩
    exact ⟨layer.2, pdu, named ▸ member, there, under⟩

theorem find?_eq_none_iff (layers : List (String × Json)) (key : String) :
    find? layers key = none ↔ ¬Carries layers key := by
  -- The order of the layers does not matter here.
  have sorted : layers.Pairwise fun _ _ => True := List.pairwise_of_forall fun _ _ => trivial
  have nothing := (enumerates_layers (fun _ _ => True) sorted key).eq_nil_iff
  simp only [find?, FieldValue.ofOccurrences?_eq_none_iff, nothing, Carries, not_exists]

theorem find?_collected (ordered : Json.Ordered layers) (key : String) :
    Collected layers key (find? layers key) := by
  have enumerates := enumerates_layers (fun a b => a < b) ordered key
  unfold find?
  generalize layers.flatMap (fun layer => layerOccurrences key layer.2) = texts at enumerates
  match texts with
  | [] => exact .none enumerates
  | [text] => exact .one enumerates
  | first :: second :: rest => exact .many enumerates (by simp)

end Ek
end TlsFixtures
