import TlsFixtures.Proofs.EkEncoding

/-! Questions about fields that no frame of an EK document answers differently. Each is answered with what stands under
one key, and for any two keys there is a frame that tells them apart. So names without underscores are confused in one
way only: the wire bytes of a field, and the display value of the field that is named `raw` below it. -/
namespace TlsFixtures.Ek

/-- What a frame is asked about a field: for its display value, or for its wire bytes. -/
inductive Question where
  | display (name : String)
  | wire (name : String)
  deriving DecidableEq, Repr

namespace Question

def name : Question → String
  | display name => name
  | wire name => name

def answer (frame : Frame) : Question → Option FieldValue
  | display name => frame.field name
  | wire name => frame.rawField name

/-- Two questions that every frame of an EK document answers alike. -/
def Confused (p q : Question) : Prop :=
  ∀ layers f, EkFrame.ofLayers? layers = some f → p.answer f.frame = q.answer f.frame

/-- The wire bytes of a field, and the display value of the field that is named `raw` below it. -/
inductive RawBelow : Question → Question → Prop where
  | intro (name : String) : RawBelow (wire name) (display (name ++ ".raw"))

/-- The field whose display value is the answer. -/
def field : Question → String
  | display name => name
  | wire name => name ++ ".raw"

variable {p q : Question} {asked other : String}

theorem answer_eq (q : Question) (f : EkFrame) : q.answer f.frame = find? f.layers (key q.field) := by
  cases q with
  | display name => rfl
  | wire name => exact congrArg (find? f.layers) (rawKey_eq name)

theorem noUnderscore_field (plain : '_' ∉ q.name.toList) : '_' ∉ q.field.toList := by
  cases q with
  | display name => exact plain
  | wire name => exact noUnderscore_raw plain

theorem field_eq_iff : p.field = q.field ↔ p = q ∨ RawBelow p q ∨ RawBelow q p := by
  constructor
  · intro same
    cases p with
    | display a =>
      cases q with
      | display b => exact .inl (congrArg display same)
      | wire b =>
        obtain rfl : a = b ++ ".raw" := same
        exact .inr (.inr (.intro b))
    | wire a =>
      cases q with
      | display b =>
        obtain rfl : a ++ ".raw" = b := same
        exact .inr (.inl (.intro a))
      | wire b =>
        have same : a ++ ".raw" = b ++ ".raw" := same
        exact .inl (congrArg wire (by simpa using same))
  · rintro (rfl | ⟨⟨⟩⟩ | ⟨⟨⟩⟩) <;> rfl

/-- Layers of a frame that has a value under a key, and under no other but that of its number. -/
def telling (asked : String) : List (String × Json) :=
  [("frame", .object [(numberKey, .string "1")]), ("tls", .object [(asked, .string "told")])]

theorem find?_telling (asked key : String) : find? (telling asked) key = FieldValue.ofOccurrences?
    ((if key = numberKey then ["1"] else []) ++ if key = asked then ["told"] else []) := by
  have under (k v : String) : layerOccurrences key (.object [(k, .string v)]) = if key = k then [v] else [] := by
    rw [layerOccurrences_object, List.lookup_cons]
    by_cases same : key = k
    · simp [same, occurrences]
    · simp [same, beq_eq_false_iff_ne.mpr same]
  simp only [find?, telling, List.flatMap_cons, List.flatMap_nil, List.append_nil, under]

theorem ofLayers?_telling (asked : String) : EkFrame.ofLayers? (telling asked) = some ⟨1, telling asked⟩ := by
  have number : ∃ value, find? (telling asked) (key "frame.number") = some value ∧ value.first = "1" := by
    rw [← numberKey, find?_telling, if_pos rfl]
    by_cases same : numberKey = asked
    · exact ⟨.many ["1", "told"], by rw [if_pos same]; rfl, rfl⟩
    · exact ⟨.one "1", by rw [if_neg same]; rfl, rfl⟩
  obtain ⟨value, found, first⟩ := number
  simp only [EkFrame.ofLayers?, found, Option.bind_eq_bind, Option.bind_some, first]
  rfl

theorem find?_telling_ne (different : asked ≠ other) : find? (telling asked) asked ≠ find? (telling asked) other := by
  rw [find?_telling, find?_telling, if_pos rfl, if_neg different.symm]
  by_cases number : asked = numberKey
  · have otherwise : other ≠ numberKey := fun same => different (number.trans same.symm)
    simp [number, otherwise, FieldValue.ofOccurrences?]
  · by_cases own : other = numberKey <;> simp [number, own, FieldValue.ofOccurrences?]

theorem confused_iff : Confused p q ↔ key p.field = key q.field := by
  constructor
  · intro confused
    apply Classical.byContradiction
    intro different
    apply find?_telling_ne different
    have alike := confused _ _ (ofLayers?_telling (key p.field))
    rwa [answer_eq, answer_eq] at alike
  · intro same layers f _
    rw [answer_eq, answer_eq, same]

/-- With an underscore behind its first point a name is confused with another one. -/
theorem confused_underscore (protocol front back : String) :
    Confused (display (protocol ++ "." ++ front ++ "_" ++ back)) (display (protocol ++ "." ++ front ++ "." ++ back)) := by
  apply confused_iff.mpr
  exact key_underscore protocol front back

end Question

/-- In every frame the wire bytes of a field are the display value of the field named `raw` below it, for all names.
Without underscores no two names have one key, a key of wire bytes is a key of a display value for that name only, and
any other two questions are told apart by some frame. -/
theorem questions_confused :
    (∀ (f : EkFrame) (name : String), f.frame.rawField name = f.frame.field (name ++ ".raw")) ∧
    (∀ a b : String, '_' ∉ a.toList → '_' ∉ b.toList →
      (key a = key b → a = b) ∧ (rawKey a = key b ↔ b = a ++ ".raw")) ∧
    ∀ p q : Question, '_' ∉ p.name.toList → '_' ∉ q.name.toList →
      (p.Confused q ↔ p = q ∨ p.RawBelow q ∨ q.RawBelow p) := by
  refine ⟨fun f name => ?_, fun a b ha hb => ⟨key_injective ha hb, ?_⟩, fun p q hp hq => ?_⟩
  · exact congrArg (find? f.layers) (rawKey_eq name)
  · rw [rawKey_eq, key_eq_iff (noUnderscore_raw ha) hb]
    exact eq_comm
  · rw [Question.confused_iff, key_eq_iff (Question.noUnderscore_field hp) (Question.noUnderscore_field hq),
      Question.field_eq_iff]

/-- The wire bytes of handshakes are asked for by two names, and their fingerprint by one. -/
theorem questions_confused_handshake :
    let handshake := Question.wire "tls.handshake"
    let below := Question.display "tls.handshake.raw"
    let fingerprint := Question.display "tls.handshake.ja4"
    '_' ∉ handshake.name.toList ∧ '_' ∉ below.name.toList ∧ '_' ∉ fingerprint.name.toList ∧
    rawKey "tls.handshake" = key "tls.handshake.raw" ∧ handshake.Confused below ∧ ¬handshake.Confused fingerprint := by
  intro handshake below fingerprint
  obtain ⟨_, keys, confused⟩ := questions_confused
  have ofHandshake : '_' ∉ handshake.name.toList := by decide
  have ofBelow : '_' ∉ below.name.toList := by decide
  have ofFingerprint : '_' ∉ fingerprint.name.toList := by decide
  refine ⟨ofHandshake, ofBelow, ofFingerprint, (keys _ _ ofHandshake ofBelow).2.mpr (by decide), ?_, ?_⟩
  · exact (confused handshake below ofHandshake ofBelow).mpr (.inr (.inl (.intro _)))
  · intro alike
    have same : handshake.field = fingerprint.field :=
      Question.field_eq_iff.mpr ((confused handshake fingerprint ofHandshake ofFingerprint).mp alike)
    exact absurd same (by decide)

end TlsFixtures.Ek
