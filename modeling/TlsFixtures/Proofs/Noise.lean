import Mathlib.Logic.Relation
import TlsFixtures.Proofs.Documents

/-! What a stream of frames does not notice: lines without a frame among the others, carriage returns before line
feeds, a line feed at the end, and blanks around the text of a line. Each of these changes keeps what the lines give;
so any number of them, made or undone, keeps what the calls return. -/
namespace TlsFixtures

namespace Text

/-- Bytes behind which a line begins. -/
def Boundary (front : List UInt8) : Prop := ∀ b ∈ front.getLast?, b = lineFeed

variable {front back line : List UInt8}

theorem lines_append (boundary : Boundary front) (back : List UInt8) :
    lines (front ++ back) = lines front ++ lines back := by
  have split := split_lines front
  generalize lines front = cut at split
  induction split with
  | nil => rfl
  | @unended line nonempty inside =>
    have last := boundary _ (List.getLast?_eq_some_getLast nonempty)
    exact absurd (last ▸ List.getLast_mem nonempty) inside
  | @ended line bytes more inside _ ih =>
    have boundary : Boundary bytes := by
      cases bytes with
      | nil => exact nofun
      | cons b bytes => simpa [Boundary] using boundary
    rw [List.append_assoc, List.cons_append, lines_ended inside, ih boundary, List.cons_append]

/-- The line that is not ended yet, and the bytes before it. -/
theorem exists_boundary (bytes : List UInt8) :
    ∃ front line, bytes = front ++ line ∧ Boundary front ∧ lineFeed ∉ line := by
  have split := split_lines bytes
  generalize lines bytes = cut at split
  induction split with
  | nil => exact ⟨[], [], rfl, nofun, List.not_mem_nil⟩
  | @unended line _ inside => exact ⟨[], line, rfl, nofun, inside⟩
  | @ended line bytes _ _ _ ih =>
    obtain ⟨front, last, rfl, boundary, inside⟩ := ih
    refine ⟨line ++ lineFeed :: front, last, by simp, ?_, inside⟩
    cases front with
    | nil => simp [Boundary]
    | cons b front => simpa [Boundary] using boundary

namespace Utf8

theorem encode_append (s t : List Char) : encode (s ++ t) = encode s ++ encode t := List.flatMap_append

/-- Bytes that are no text do not become one by an ASCII character behind them. -/
theorem decode?_append_ascii {c : Char} (ascii : c.toNat < 128) (undecoded : decode? line = none) :
    decode? (line ++ [toByte c]) = none := by
  rw [Option.eq_none_iff_forall_ne_some]
  intro text decoded
  have encoded := decode?_eq_some_iff.mp decoded
  rcases List.eq_nil_or_concat' text.toList with empty | ⟨init, d, whole⟩
  · rw [empty] at encoded
    exact absurd encoded (by simp [encode])
  obtain ⟨last, single⟩ : ∃ last, String.utf8EncodeChar d = last ++ [toByte c] := by
    obtain ⟨b, member⟩ := exists_mem_utf8EncodeChar d
    obtain ⟨last, b, concat⟩ := (List.eq_nil_or_concat' (String.utf8EncodeChar d)).resolve_left
      (List.ne_nil_of_mem member)
    rw [whole, encode_append, encode, encode, List.flatMap_singleton, concat, ← List.append_assoc] at encoded
    rw [concat, (List.append_inj' encoded rfl).2]
    exact ⟨last, rfl⟩
  have low : toByte c < 128 := by
    simp [toByte, UInt8.lt_iff_toNat_lt]
    omega
  have ascii' : d.toNat < 128 := ascii_of_mem_utf8EncodeChar (b := toByte c) (by simp [single]) low
  rw [whole, encode_append, encode, encode, List.flatMap_singleton, utf8EncodeChar_ascii ascii'] at encoded
  have shorter := decode?_encode init
  rw [encode, ← (List.append_inj' encoded rfl).1, undecoded] at shorter
  contradiction

end Utf8

end Text

namespace EkStream

open Text (Boundary lineFeed)

def carriageReturn : UInt8 := 13

/-- Lines that hold no frame and no error: blank ones, objects without layers, and documents whose layers are null. -/
inductive Noise : List Char → Prop where
  | blank : (∀ c ∈ text, Text.isBlank c = true) → Noise text
  | noLayers : Ek.Others members → Json.SpellsTree text (.object members) → Noise text
  | nullLayers : Json.Writes pieces "layers".toList → Ek.Others front → Ek.Others back →
      Json.SpellsTree text (.object (front ++ (pieces, .null) :: back)) → Noise text
  | nullAlone : Json.SpellsTree text (.array [.null]) → Noise text

/-- Blanks that leave a line one line. -/
def Padding (text : List Char) : Prop := ∀ c ∈ text, Text.isBlank c = true ∧ c ≠ '\n'

/-- One change of an output that its reader does not notice. -/
inductive Restyled : List UInt8 → List UInt8 → Prop where
  | noise : Boundary front → Noise text → '\n' ∉ text →
      Restyled (front ++ back) (front ++ (Text.Utf8.encode text ++ lineFeed :: back))
  | carriage : Restyled (front ++ lineFeed :: back) (front ++ carriageReturn :: lineFeed :: back)
  | ended : output ≠ [] → output.getLast? ≠ some lineFeed → Restyled output (output ++ [lineFeed])
  | padded : Boundary front → '\n' ∉ text → (∀ b ∈ back.head?, b = lineFeed) → Padding left → Padding right →
      Restyled (front ++ (Text.Utf8.encode text ++ back))
        (front ++ (Text.Utf8.encode (left ++ text ++ right) ++ back))

variable {path : String} {text left right : List Char} {front back line output restyled : List UInt8}

theorem Noise.lineItem?_eq (noise : Noise text) (path : String) :
    lineItem? path (Text.Utf8.encode text) = none := by
  cases noise with
  | blank blank =>
    refine (Gives.blank (Text.Utf8.decode?_encode text) ?_).lineItem?_eq
    rw [String.toList_ofList, Text.trim_blanks blank]
  | noLayers others spells =>
    have documents := Ek.documents_of_spells spells
    rw [Ek.documentLayers?, others.layersMembers?_eq] at documents
    exact (Gives.noLayers documents).lineItem?_eq
  | nullLayers key others others' spells =>
    have documents := Ek.documents_of_spells spells
    rw [Ek.documentLayers?_of_key key others others'] at documents
    exact (Gives.noLayers documents).lineItem?_eq
  | nullAlone spells => exact (Gives.noLayers (Ek.documents_of_spells spells)).lineItem?_eq

theorem frameOfLine?_of_trim {s t : List Char} (same : Text.trim s = Text.trim t) :
    Ek.frameOfLine? s = Ek.frameOfLine? t := by
  rw [Ek.frameOfLine?, same, Ek.frameOfLine?]

theorem lineItem?_of_trim {s t : List Char} (same : Text.trim s = Text.trim t) :
    lineItem? path (Text.Utf8.encode s) = lineItem? path (Text.Utf8.encode t) := by
  simp only [lineItem?, Text.Utf8.decode?_encode, String.toList_ofList, frameOfLine?_of_trim same]

/-- A carriage return at the end of a line is a blank of its text, or stands behind bytes that are no text anyway. -/
theorem lineItem?_carriage (path : String) (line : List UInt8) :
    lineItem? path (line ++ [carriageReturn]) = lineItem? path line := by
  cases decoded : Text.Utf8.decode? line with
  | none =>
    have undecoded := Text.Utf8.decode?_append_ascii (c := '\r') (by decide) decoded
    exact (Gives.notText undecoded).lineItem?_eq.trans (Gives.notText decoded).lineItem?_eq.symm
  | some text =>
    obtain rfl := Text.Utf8.decode?_eq_some_iff.mp decoded
    have longer : Text.Utf8.encode text.toList ++ [carriageReturn] = Text.Utf8.encode (text.toList ++ ['\r']) := by
      rw [Text.Utf8.encode_append]
      rfl
    rw [longer]
    exact lineItem?_of_trim (Text.trim_append_right (List.forall_mem_singleton.mpr rfl))

/-- What the lines of an output give. -/
def given (path : String) (output : List UInt8) : List Item := (Text.lines output).filterMap (lineItem? path)

theorem given_append (boundary : Boundary front) :
    given path (front ++ back) = given path front ++ given path back := by
  rw [given, Text.lines_append boundary, List.filterMap_append, given, given]

theorem given_ended (inside : lineFeed ∉ line) (rest : List UInt8) :
    given path (line ++ lineFeed :: rest) = (lineItem? path line).toList ++ given path rest := by
  rw [given, Text.lines_ended inside, given]
  cases found : lineItem? path line <;> simp [found]

theorem given_unended (inside : lineFeed ∉ line) : given path line = (lineItem? path line).toList := by
  cases line with
  | nil => rfl
  | cons b line =>
    rw [given, Text.lines_unended (List.cons_ne_nil b line) inside]
    cases found : lineItem? path (b :: line) <;> simp [found]

theorem Restyled.given_eq (step : Restyled output restyled) (path : String) :
    given path output = given path restyled := by
  cases step with
  | noise boundary noise single =>
    rw [given_append boundary, given_append boundary, given_ended (feed_not_mem_encode single),
      noise.lineItem?_eq path]
    rfl
  | @carriage bytes back =>
    obtain ⟨front, line, rfl, boundary, inside⟩ := Text.exists_boundary bytes
    have inside' : lineFeed ∉ line ++ [carriageReturn] := by
      simpa [inside] using (by decide : lineFeed ≠ carriageReturn)
    have split : front ++ line ++ carriageReturn :: lineFeed :: back =
        front ++ ((line ++ [carriageReturn]) ++ lineFeed :: back) := by simp
    rw [split, List.append_assoc, given_append boundary, given_append boundary, given_ended inside,
      given_ended inside', lineItem?_carriage]
  | ended =>
    obtain ⟨front, line, rfl, boundary, inside⟩ := Text.exists_boundary output
    have nothing : given path [] = [] := rfl
    rw [List.append_assoc, given_append boundary, given_append boundary, given_unended inside, given_ended inside,
      nothing, List.append_nil]
  | @padded front text left right back boundary single ends padding padding' =>
    have single' : '\n' ∉ left ++ text ++ right := by
      simp only [List.mem_append, not_or]
      exact ⟨⟨fun inside => (padding _ inside).2 rfl, single⟩, fun inside => (padding' _ inside).2 rfl⟩
    have item : lineItem? path (Text.Utf8.encode (left ++ text ++ right)) =
        lineItem? path (Text.Utf8.encode text) := by
      apply lineItem?_of_trim
      rw [Text.trim_append_right fun c inside => (padding' c inside).1,
        Text.trim_append_left fun c inside => (padding c inside).1]
    rw [given_append boundary, given_append boundary]
    cases back with
    | nil =>
      rw [List.append_nil, List.append_nil, given_unended (feed_not_mem_encode single),
        given_unended (feed_not_mem_encode single'), item]
    | cons b back =>
      obtain rfl := ends b rfl
      rw [given_ended (feed_not_mem_encode single), given_ended (feed_not_mem_encode single'), item]

theorem given_of_restyled (restyled : Relation.EqvGen Restyled output output') (path : String) :
    given path output = given path output' := by
  induction restyled with
  | rel _ _ step => exact step.given_eq path
  | refl => rfl
  | symm _ _ _ ih => exact ih.symm
  | trans _ _ _ _ _ first second => exact first.trans second

/-- Outputs that differ in noise and line ends only are streamed alike, call by call: the frames with all they answer,
the error if there is one, and the end. -/
theorem noise_unnoticed (restyled : Relation.EqvGen Restyled output output') (path : String)
    (diagnostics : List UInt8) (exitStatus call : Nat) :
    (ofDissection path ⟨output, diagnostics, exitStatus, false⟩).answer call =
      (ofDissection path ⟨output', diagnostics, exitStatus, false⟩).answer call := by
  have same := given_of_restyled restyled path
  rw [answer_eq_items rfl, answer_eq_items rfl, items_ofDissection path rfl, items_ofDissection path rfl]
  exact congrArg (fun given => (throughError (given ++ _))[call]?) same

/-- A document, and a last line that is no text. -/
def notedOutput : List UInt8 := Text.Utf8.encode noted.toList ++ [lineFeed, 0xff]

/-- The same behind an index line, with blanks around the document, a carriage return behind it, and the last line
ended. -/
def dressedOutput : List UInt8 :=
  Text.Utf8.encode "\x7b\"index\":\x7b\x7d\x7d".toList ++ lineFeed ::
    (Text.Utf8.encode (['\u0085'] ++ noted.toList ++ ['\u3000']) ++ [carriageReturn, lineFeed, 0xff, lineFeed])

theorem index_noise : Noise "\x7b\"index\":\x7b\x7d\x7d".toList := by
  have key : Json.Spells "\"index\"".toList (.string ("index".toList.map .char)) :=
    .string (Json.spellsString_chars (s := "index".toList) (by decide))
  have opening : Json.Spells ['\x7b'] .openObject := .mark (by decide)
  have closing : Json.Spells ['\x7d'] .closeObject := .mark (by decide)
  have colon : Json.Spells [':'] .colon := .mark (by decide)
  have tokens : List.Forall₂ Json.Spells [['\x7b'], "\"index\"".toList, [':'], ['\x7b'], ['\x7d'], ['\x7d']]
      (Json.Tree.object [("index".toList.map .char, .object [])]).tokens :=
    .cons opening (.cons key (.cons colon (.cons opening (.cons closing (.cons closing .nil)))))
  have blank : Json.Blanks [] := by decide
  have spells := Json.SpellsTree.intro blank (Json.joined_flatten tokens (by simp [Json.Tree.tokens])) blank
  exact .noLayers (List.forall_mem_singleton.mpr ⟨"index", by decide, Json.writes_chars _⟩) spells

theorem dressed_restyled : Relation.EqvGen Restyled notedOutput dressedOutput := by
  have begins : Boundary [] := nofun
  have ended : Restyled notedOutput (Text.Utf8.encode noted.toList ++ [lineFeed, 0xff, lineFeed]) := by
    have step := @Restyled.ended notedOutput (by decide) (by decide)
    rwa [notedOutput, List.append_assoc] at step
  have feed : ∀ b ∈ [lineFeed, 0xff, lineFeed].head?, b = lineFeed := by rintro b ⟨⟩; rfl
  have padded := @Restyled.padded [] noted.toList ['\u0085'] ['\u3000'] _ begins (by decide) feed
    (List.forall_mem_singleton.mpr (by decide)) (List.forall_mem_singleton.mpr (by decide))
  have carriage := @Restyled.carriage (Text.Utf8.encode (['\u0085'] ++ noted.toList ++ ['\u3000'])) [0xff, lineFeed]
  have noise := @Restyled.noise [] _ (Text.Utf8.encode (['\u0085'] ++ noted.toList ++ ['\u3000']) ++
    [carriageReturn, lineFeed, 0xff, lineFeed]) begins index_noise (by decide)
  exact (Relation.EqvGen.rel _ _ ended).trans _ _ _ <| (Relation.EqvGen.rel _ _ padded).trans _ _ _ <|
    (Relation.EqvGen.rel _ _ carriage).trans _ _ _ (Relation.EqvGen.rel _ _ noise)

theorem noise_unnoticed_dressed :
    Relation.EqvGen Restyled notedOutput dressedOutput ∧
      ∀ diagnostics exitStatus call,
        (ofDissection "a.pcap" ⟨notedOutput, diagnostics, exitStatus, false⟩).answer call =
          (ofDissection "a.pcap" ⟨dressedOutput, diagnostics, exitStatus, false⟩).answer call :=
  ⟨dressed_restyled, noise_unnoticed dressed_restyled "a.pcap"⟩

end EkStream

end TlsFixtures
