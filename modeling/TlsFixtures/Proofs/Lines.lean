import Mathlib.Data.List.Chain
import TlsFixtures.FixtureFile

/-! Texts made of lines. Lines without a line feed of their own are found again in the text that joins them,
and after the last blank line of a text no other one can begin. -/
namespace TlsFixtures

namespace Text

/-- Where a mark first stands in a text does not depend on what follows. -/
theorem first_mark_unique {mark : Char} {a b s t : List Char} (ha : mark ∉ a) (hb : mark ∉ b)
    (same : a ++ mark :: s = b ++ mark :: t) : a = b ∧ s = t := by
  induction a generalizing b with
  | nil =>
    cases b with
    | nil => simpa using same
    | cons d b =>
      have first : d = mark := (List.cons.inj same).1.symm
      simp [first] at hb
  | cons c a ih =>
    cases b with
    | nil =>
      have first : c = mark := (List.cons.inj same).1
      simp [first] at ha
    | cons d b =>
      obtain ⟨rfl, tails⟩ := List.cons.inj same
      obtain ⟨rfl, rest⟩ := ih (List.not_mem_of_not_mem_cons ha) (List.not_mem_of_not_mem_cons hb) tails
      exact ⟨rfl, rest⟩

end Text

namespace FixtureFile

/-- One line of text, and not a blank one. -/
def IsLine (line : String) : Prop := line ≠ "" ∧ '\n' ∉ line.toList

theorem toList_joinLines (lines : List String) :
    (joinLines lines).toList = lines.flatMap fun line => line.toList ++ ['\n'] := by
  simp [joinLines, String.toList_join, List.flatMap_map]

theorem toList_joinLines_cons (line : String) (lines : List String) :
    (joinLines (line :: lines)).toList = line.toList ++ '\n' :: (joinLines lines).toList := by
  simp [toList_joinLines]

@[simp] theorem joinLines_append (front back : List String) :
    joinLines (front ++ back) = joinLines front ++ joinLines back := by
  apply String.toList_inj.mp
  simp [toList_joinLines]

theorem joinLines_flatten (blocks : List (List String)) :
    joinLines blocks.flatten = String.join (blocks.map joinLines) := by
  induction blocks with
  | nil => rfl
  | cons block blocks ih => simp [ih]

theorem joinLines_ends (lines : List String) (some : lines ≠ []) : ∃ before,
    (joinLines lines).toList = before ++ ['\n'] := by
  obtain ⟨front, line, rfl⟩ := (List.eq_nil_or_concat lines).resolve_left some
  exact ⟨(joinLines front).toList ++ line.toList, by simp [toList_joinLines]⟩

theorem joinLines_injective {a b : List String} (ha : ∀ line ∈ a, '\n' ∉ line.toList)
    (hb : ∀ line ∈ b, '\n' ∉ line.toList) (same : joinLines a = joinLines b) : a = b := by
  replace same := congrArg String.toList same
  induction a generalizing b with
  | nil =>
    cases b with
    | nil => rfl
    | cons other b => simp [toList_joinLines] at same
  | cons line a ih =>
    cases b with
    | nil => simp [toList_joinLines] at same
    | cons other b =>
      rw [toList_joinLines_cons, toList_joinLines_cons] at same
      obtain ⟨first, rest⟩ := Text.first_mark_unique (ha line (by simp)) (hb other (by simp)) same
      rw [String.toList_inj.mp first, ih (fun l m => ha l (by simp [m])) (fun l m => hb l (by simp [m])) rest]

def NoBlank (s : List Char) : Prop := s.IsChain fun c d => ¬(c = '\n' ∧ d = '\n')

theorem noBlank_of_not_mem {s : List Char} (h : '\n' ∉ s) : NoBlank s := by
  apply List.Pairwise.isChain
  apply List.pairwise_of_forall_mem_list
  rintro c member d _ ⟨rfl, _⟩
  exact h member

/-- Behind a line feed, lines that are not blank bring no blank one. -/
theorem noBlank_joinLines {lines : List String} (h : ∀ line ∈ lines, IsLine line) :
    NoBlank ('\n' :: (joinLines lines).toList) := by
  induction lines with
  | nil => exact .singleton _
  | cons line lines ih =>
    obtain ⟨nonempty, single⟩ := h line (by simp)
    have rest := ih fun other member => h other (by simp [member])
    rw [toList_joinLines_cons]
    cases chars : line.toList with
    | nil => exact absurd (String.toList_eq_nil_iff.mp chars) nonempty
    | cons c cs =>
      rw [chars] at single
      have first : c ≠ '\n' := by rintro rfl; simp at single
      have inside : NoBlank (c :: cs) := noBlank_of_not_mem single
      refine List.isChain_cons_cons.mpr ⟨by simp [first], List.isChain_append.mpr ⟨inside, rest, ?_⟩⟩
      rintro d last _ _ ⟨rfl, _⟩
      exact single (List.mem_of_getLast? last)

/-- The last blank line of a text leaves one text behind it. -/
theorem after_blank_unique {a b s t : List Char} (hs : NoBlank ('\n' :: s)) (ht : NoBlank ('\n' :: t))
    (same : a ++ '\n' :: '\n' :: s = b ++ '\n' :: '\n' :: t) : s = t := by
  have shorter : ∀ {a b s t : List Char}, NoBlank ('\n' :: t) →
      a ++ '\n' :: '\n' :: s = b ++ '\n' :: '\n' :: t → t.length ≤ s.length := by
    intro a b s t ht same
    by_contra longer
    have left : ('\n' :: '\n' :: s) <:+ b ++ '\n' :: '\n' :: t := ⟨a, same⟩
    have right : ('\n' :: t) <:+ b ++ '\n' :: '\n' :: t := ⟨b ++ ['\n'], by simp⟩
    have inside := List.suffix_of_suffix_length_le left right (by simp; omega)
    exact (List.isChain_cons_cons.mp (ht.suffix inside)).1 ⟨rfl, rfl⟩
  have lengths : s.length = t.length := Nat.le_antisymm (shorter hs same.symm) (shorter ht same)
  have tails := List.append_inj_right' same (by simp [lengths])
  simpa using tails

end FixtureFile

end TlsFixtures
