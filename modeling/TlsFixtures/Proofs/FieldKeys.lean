import TlsFixtures.Ek.Frame

/-! The keys of fields in EK documents. A key has the parts of the name, the first of them twice. A name without
underscores can be read off its key, so no two of them have one key; and wire bytes stand under the key of the
field that is named `raw` below. With underscores names do share keys, since behind the first point an underscore
may stand for a point. -/
namespace TlsFixtures.Ek

theorem map_underscored_of_whole {part : List Char} (whole : '.' ∉ part) : part.map underscored = part := by
  have kept : ∀ c ∈ part, underscored c = id c := by
    intro c member
    have other : c ≠ '.' := by rintro rfl; exact whole member
    simp [underscored, other]
  rw [List.map_congr_left kept, List.map_id]

theorem map_underscored_intercalate {parts : List (List Char)} (whole : ∀ part ∈ parts, '.' ∉ part) :
    (['.'].intercalate parts).map underscored = ['_'].intercalate parts := by
  induction parts with
  | nil => rfl
  | cons part parts ih =>
    obtain ⟨first, later⟩ := List.forall_mem_cons.mp whole
    cases parts with
    | nil => rw [List.intercalate_singleton, List.intercalate_singleton, map_underscored_of_whole first]
    | cons next parts =>
      rw [List.intercalate_cons_cons, List.intercalate_cons_cons, List.map_append, List.map_append,
        map_underscored_of_whole first, ih later]
      rfl

theorem takeWhile_intercalate {protocol : List Char} (whole : '.' ∉ protocol) (parts : List (List Char)) :
    (['.'].intercalate (protocol :: parts)).takeWhile (· ≠ '.') = protocol := by
  have inside : ∀ c ∈ protocol, decide (c ≠ '.') = true := by
    intro c member
    have other : c ≠ '.' := by rintro rfl; exact whole member
    simpa using other
  cases parts with
  | nil =>
    have whole : (protocol ++ []).takeWhile (· ≠ '.') = protocol ++ [] := List.takeWhile_append_of_pos inside
    rw [List.intercalate_singleton, ← List.append_nil protocol, whole]
  | cons part parts =>
    rw [List.intercalate_cons_cons, List.append_assoc, List.takeWhile_append_of_pos inside]
    simp

/-- The parts of a name stand in its key with underscores between them, and the first of them, which is the
protocol, twice. -/
theorem key_intercalate {protocol : String} {parts : List String}
    (whole : ∀ part ∈ protocol :: parts, '.' ∉ part.toList) :
    key (".".intercalate (protocol :: parts)) = "_".intercalate (protocol :: protocol :: parts) := by
  have wholes : ∀ part ∈ (protocol :: parts).map String.toList, '.' ∉ part := List.forall_mem_map.mpr whole
  apply String.toList_inj.mp
  rw [key, String.toList_ofList, String.toList_intercalate, String.toList_intercalate]
  show keyCharacters (['.'].intercalate ((protocol :: parts).map String.toList)) =
    ['_'].intercalate (protocol.toList :: (protocol :: parts).map String.toList)
  rw [keyCharacters, map_underscored_intercalate wholes, List.map_cons,
    takeWhile_intercalate (whole _ (.head _)), List.intercalate_cons_cons]
  simp

/-- A name whose key belongs to it alone: none with underscores, not that of the frame's number, and not one
that ends like the wire bytes of another field. -/
structure PlainName (name : String) : Prop where
  noUnderscore : '_' ∉ name.toList
  notNumber : name ≠ "frame.number"
  notRaw : ¬".raw".toList <:+ name.toList

/-- The name that a key was made of, as long as that has no underscores. -/
def nameCharacters (key : List Char) : List Char :=
  (key.dropWhile (· ≠ '_')).tail.map fun c => if c = '_' then '.' else c

theorem nameCharacters_keyCharacters {name : List Char} (plain : '_' ∉ name) :
    nameCharacters (keyCharacters name) = name := by
  have protocol : ∀ c ∈ name.takeWhile (· ≠ '.'), decide (c ≠ '_') = true := by
    intro c member
    have inside : c ∈ name := (List.takeWhile_prefix _).subset member
    have other : c ≠ '_' := by rintro rfl; exact plain inside
    simpa using other
  rw [nameCharacters, keyCharacters, List.dropWhile_append_of_pos protocol]
  simp only [ne_eq, not_true_eq_false, decide_false, Bool.false_eq_true, not_false_eq_true,
    List.dropWhile_cons_of_neg, List.tail_cons, List.map_map]
  have undone : ∀ c ∈ name, ((fun c => if c = '_' then '.' else c) ∘ underscored) c = id c := by
    intro c member
    have other : c ≠ '_' := by rintro rfl; exact plain member
    by_cases point : c = '.'
    · simp [underscored, point]
    · simp [underscored, point, other]
  rw [List.map_congr_left undone, List.map_id]

theorem key_injective {a b : String} (ha : '_' ∉ a.toList) (hb : '_' ∉ b.toList) (same : key a = key b) :
    a = b := by
  have characters := String.ofList_injective same
  apply String.toList_inj.mp
  rw [← nameCharacters_keyCharacters ha, characters, nameCharacters_keyCharacters hb]

theorem key_eq_iff {a b : String} (ha : '_' ∉ a.toList) (hb : '_' ∉ b.toList) : key a = key b ↔ a = b :=
  ⟨key_injective ha hb, congrArg key⟩

/-- The protocol of a name is not changed by what follows a point. -/
theorem takeWhile_point (front rest : List Char) :
    (front ++ '.' :: rest).takeWhile (· ≠ '.') = front.takeWhile (· ≠ '.') := by
  induction front with
  | nil => rfl
  | cons c front ih => by_cases point : c = '.' <;> simp_all

theorem keyCharacters_point (front rest : List Char) :
    keyCharacters (front ++ '.' :: rest) = keyCharacters front ++ '_' :: rest.map underscored := by
  rw [keyCharacters, keyCharacters, takeWhile_point]
  simp [underscored]

/-- Wire bytes stand under the key that a field named `raw` below would have. -/
theorem rawKey_eq (name : String) : rawKey name = key (name ++ ".raw") := by
  apply String.toList_inj.mp
  have below : (name ++ ".raw").toList = name.toList ++ '.' :: "raw".toList := by simp
  rw [rawKey, key, key, below, keyCharacters_point]
  simp [underscored]

/-- Behind the first point of a name an underscore is not told from a point. -/
theorem key_underscore (protocol front back : String) :
    key (protocol ++ "." ++ front ++ "_" ++ back) = key (protocol ++ "." ++ front ++ "." ++ back) := by
  simp [key, keyCharacters_point, underscored]

theorem noUnderscore_raw {name : String} (plain : '_' ∉ name.toList) : '_' ∉ (name ++ ".raw").toList := by
  simpa using plain

theorem rawKey_injective {a b : String} (ha : '_' ∉ a.toList) (hb : '_' ∉ b.toList)
    (same : rawKey a = rawKey b) : a = b := by
  rw [rawKey_eq, rawKey_eq] at same
  have names := key_injective (noUnderscore_raw ha) (noUnderscore_raw hb) same
  simpa using names

theorem rawKey_ne_key {a b : String} (ha : '_' ∉ a.toList) (hb : '_' ∉ b.toList)
    (notRaw : ¬".raw".toList <:+ b.toList) : rawKey a ≠ key b := by
  intro same
  rw [rawKey_eq] at same
  obtain rfl := key_injective (noUnderscore_raw ha) hb same
  exact notRaw ⟨a.toList, by simp⟩

def numberKey : String := key "frame.number"

theorem numberKey_eq : numberKey = "frame_frame_number" := by decide

theorem PlainName.key_ne_number {name : String} (plain : PlainName name) : key name ≠ numberKey :=
  fun same => plain.notNumber (key_injective plain.noUnderscore (by decide) same)

theorem PlainName.rawKey_ne_number {name : String} (plain : PlainName name) : rawKey name ≠ numberKey :=
  rawKey_ne_key plain.noUnderscore (by decide) (by decide)

end TlsFixtures.Ek
