import TlsFixtures.Proofs.Changes
import TlsFixtures.Proofs.JsonText

/-! Values of JSON trees. What a tree denotes is given by rules, for every spelling of strings and every order of
members, and is what the reader makes of it within its limit of nesting. Every value whose integers fit a word has a
tree, and a text of it in one line. -/
namespace TlsFixtures

namespace Json

/-- The characters that the pieces of a string come to. A character beyond the first plane takes two units. -/
inductive Writes : List Piece → List Char → Prop where
  | nil : Writes [] []
  | char : Writes pieces s → Writes (.char c :: pieces) (c :: s)
  | unit : c.toNat < 0x10000 → Writes pieces s → Writes (.unit c.toNat :: pieces) (c :: s)
  | pair : 0xd800 ≤ high → high < 0xdc00 → 0xdc00 ≤ low → low < 0xe000 →
      c.toNat = 0x10000 + (high - 0xd800) * 0x400 + (low - 0xdc00) → Writes pieces s →
      Writes (.unit high :: .unit low :: pieces) (c :: s)

mutual

/-- The value of a tree. Members may stand in any order, but no key twice. -/
inductive Denotes : Tree → Json → Prop where
  | null : Denotes .null .null
  | bool : Denotes (.bool b) (.bool b)
  | natural : NumberText.ofDigits whole < Nat.pow 2 64 →
      Denotes (.number ⟨false, whole, none, none⟩) (.number (.integer (NumberText.ofDigits whole)))
  | negative : 0 < NumberText.ofDigits whole → NumberText.ofDigits whole ≤ Nat.pow 2 63 →
      Denotes (.number ⟨true, whole, none, none⟩) (.number (.integer (-(NumberText.ofDigits whole : Int))))
  | string : Writes pieces s.toList → Denotes (.string pieces) (.string s)
  | array : DenotesItems trees items → Denotes (.array trees) (.array items)
  | object : DenotesMembers trees entries → entries.Perm members → Ordered members →
      Denotes (.object trees) (.object members)

inductive DenotesItems : List Tree → List Json → Prop where
  | nil : DenotesItems [] []
  | cons : Denotes tree value → DenotesItems trees items → DenotesItems (tree :: trees) (value :: items)

inductive DenotesMembers : List (List Piece × Tree) → List (String × Json) → Prop where
  | nil : DenotesMembers [] []
  | cons : Writes pieces key.toList → Denotes tree value → DenotesMembers trees entries →
      DenotesMembers ((pieces, tree) :: trees) ((key, value) :: entries)

end

/-- A value of which at most `depth` arrays and objects lie in one another. -/
inductive Within : Nat → Json → Prop where
  | null : Within depth .null
  | bool : Within depth (.bool b)
  | number : Within depth (.number n)
  | string : Within depth (.string s)
  | array : (∀ item ∈ items, Within depth item) → Within (depth + 1) (.array items)
  | object : (∀ entry ∈ members, Within depth entry.2) → Within (depth + 1) (.object members)

/-- A value that the rules give to a text: its integers fit a word, and its members are in the order of their keys. -/
inductive Exact : Json → Prop where
  | null : Exact .null
  | bool : Exact (.bool b)
  | integer : -(Nat.pow 2 63 : Int) ≤ n → n < Nat.pow 2 64 → Exact (.number (.integer n))
  | string : Exact (.string s)
  | array : (∀ item ∈ items, Exact item) → Exact (.array items)
  | object : Ordered members → (∀ entry ∈ members, Exact entry.2) → Exact (.object members)

variable {pieces : List Piece} {s : List Char} {whole : List Nat} {entries members : List (String × Json)}
  {tree : Tree} {value : Json} {depth : Nat}

theorem Writes.pieceText?_eq (writes : Writes pieces s) : pieceText? pieces = some s := by
  induction writes with
  | nil => rfl
  | char _ ih => rw [pieceText?, ih]; rfl
  | @unit pieces s c plane _ ih =>
    have scalar : ¬(0xd800 ≤ c.toNat ∧ c.toNat < 0xdc00) ∧ ¬(0xdc00 ≤ c.toNat ∧ c.toNat < 0xe000) ∧
        ¬(0xd800 ≤ c.toNat ∧ c.toNat < 0xe000) := by
      have valid := c.valid
      rw [UInt32.isValidChar, Nat.isValidChar, Char.toNat_val] at valid
      omega
    obtain ⟨high, low, neither⟩ := scalar
    have alone : pieceText? (.unit c.toNat :: pieces) = (pieceText? pieces).map (Char.ofNat c.toNat :: ·) := by
      match pieces with
      | [] | .char _ :: _ => simp only [pieceText?, if_neg neither]
      | .unit _ :: _ => rw [pieceText?, if_neg high, if_neg low]
    rw [alone, ih, Char.ofNat_toNat]
    rfl
  | pair high high' low low' code _ ih =>
    rw [pieceText?, if_pos ⟨high, high'⟩, if_pos ⟨low, low'⟩, ih, ← code, Char.ofNat_toNat]
    rfl

theorem Writes.string?_eq {s : String} (writes : Writes pieces s.toList) : string? pieces = some s := by
  rw [string?, writes.pieceText?_eq, Option.map_some, String.ofList_toList]

theorem writes_chars (s : List Char) : Writes (s.map .char) s := by
  induction s with
  | nil => exact .nil
  | cons c s ih => exact .char ih

theorem ofWhole_eq (fits : NumberText.ofDigits whole < Nat.pow 2 64) :
    NumberText.Gathered.ofWhole whole = ⟨NumberText.ofDigits whole, 0, false⟩ := by
  have gathered : ∀ (whole : List Nat) (n : Nat), whole.foldl (fun n d => n * 10 + d) n < Nat.pow 2 64 →
      n ≤ whole.foldl (fun n d => n * 10 + d) n ∧ whole.foldl NumberText.Gathered.wholeDigit ⟨n, 0, false⟩ =
        ⟨whole.foldl (fun n d => n * 10 + d) n, 0, false⟩ := by
    intro whole
    induction whole with
    | nil => exact fun n _ => ⟨Nat.le_refl n, rfl⟩
    | cons d whole ih =>
      intro n fits
      obtain ⟨above, same⟩ := ih (n * 10 + d) fits
      have step : NumberText.Gathered.wholeDigit ⟨n, 0, false⟩ d = ⟨n * 10 + d, 0, false⟩ := by
        have fits : n * 10 + d < NumberText.wordBound := Nat.lt_of_le_of_lt above fits
        simp [NumberText.Gathered.wholeDigit, fits]
      rw [List.foldl_cons, List.foldl_cons, step]
      exact ⟨by omega, same⟩
  exact (gathered whole 0 fits).2

/-- Members with distinct keys are put in order without loss. -/
theorem sortMembers_perm (distinct : (entries.map Prod.fst).Nodup) : (sortMembers entries).Perm entries := by
  have inserted : ∀ (entries sorted : List (String × Json)), ((sorted ++ entries).map Prod.fst).Nodup →
      (entries.foldl (fun sorted entry => insertMember entry.1 entry.2 sorted) sorted).Perm (sorted ++ entries) := by
    intro entries
    induction entries with
    | nil => intro sorted _; rw [List.append_nil]; exact .refl _
    | cons entry entries ih =>
      intro sorted distinct
      have moved : (sorted ++ entry :: entries).Perm (entry :: sorted ++ entries) := List.perm_middle
      have distinct' := (moved.map Prod.fst).nodup_iff.mp distinct
      have fresh : entry.1 ∉ sorted.map Prod.fst := by
        rw [List.cons_append, List.map_cons, List.map_append] at distinct'
        exact fun inside => (List.nodup_cons.mp distinct').1 (List.mem_append_left _ inside)
      obtain ⟨front, back, rfl, placed⟩ := Ek.insertMember_split fresh
      have put : (insertMember entry.1 entry.2 (front ++ back)).Perm (entry :: (front ++ back)) := by
        rw [placed]
        exact List.perm_middle
      have whole := put.append_right entries
      exact (ih _ ((whole.map Prod.fst).nodup_iff.mpr distinct')).trans (whole.trans moved.symm)
  exact inserted entries [] distinct

theorem Ordered.distinct (ordered : Ordered members) : (members.map Prod.fst).Nodup :=
  List.pairwise_map.mpr (ordered.imp fun less => ne_of_lt less)

/-- Members in any order are sorted into the one order of their keys. -/
theorem sortMembers_eq (perm : entries.Perm members) (ordered : Ordered members) : sortMembers entries = members := by
  have distinct := (perm.map Prod.fst).nodup_iff.mpr ordered.distinct
  refine List.Perm.eq_of_pairwise ?_ (ordered_sortMembers entries) ordered ((sortMembers_perm distinct).trans perm)
  exact fun a b _ _ less greater => absurd greater (lt_asymm less)

mutual

theorem value?_of_denotes {tree : Tree} {value : Json} {depth : Nat} (denotes : Denotes tree value)
    (within : Within depth value) : tree.value? depth = some value := by
  cases denotes with
  | null => rfl
  | bool => rfl
  | natural fits => simp [Tree.value?, NumberText.value?, ofWhole_eq fits]
  | negative positive fits =>
    have small := ofWhole_eq (Nat.lt_of_le_of_lt fits (by decide))
    simp only [Tree.value?, NumberText.value?, small]
    rw [if_neg (by simp), if_neg (by simp), if_pos ⟨positive, fits⟩]
    rfl
  | string writes => rw [Tree.value?, writes.string?_eq]; rfl
  | array items =>
    cases within with
    | array within => rw [Tree.value?, itemValues?_of_denotes items within]; rfl
  | object members perm ordered =>
    cases within with
    | object within =>
      have within' := fun entry member => within entry (perm.mem_iff.mp member)
      rw [Tree.value?, memberValues?_of_denotes members within', Option.map_some, sortMembers_eq perm ordered]

theorem itemValues?_of_denotes {trees : List Tree} {items : List Json} {depth : Nat}
    (denotes : DenotesItems trees items) (within : ∀ item ∈ items, Within depth item) :
    itemValues? depth trees = some items := by
  cases denotes with
  | nil => rfl
  | cons first later =>
    obtain ⟨within, within'⟩ := List.forall_mem_cons.mp within
    rw [itemValues?, value?_of_denotes first within, itemValues?_of_denotes later within']
    rfl

theorem memberValues?_of_denotes {trees : List (List Piece × Tree)} {entries : List (String × Json)} {depth : Nat}
    (denotes : DenotesMembers trees entries) (within : ∀ entry ∈ entries, Within depth entry.2) :
    memberValues? depth trees = some entries := by
  cases denotes with
  | nil => rfl
  | cons writes first later =>
    obtain ⟨within, within'⟩ := List.forall_mem_cons.mp within
    rw [memberValues?, writes.string?_eq, value?_of_denotes first within, memberValues?_of_denotes later within']
    rfl

end

mutual

/-- Only such values are given. -/
theorem exact_of_denotes {tree : Tree} {value : Json} (denotes : Denotes tree value) : Exact value := by
  cases denotes with
  | null => exact .null
  | bool => exact .bool
  | natural fits => exact .integer (by omega) (by exact_mod_cast fits)
  | negative _ fits => exact .integer (by omega) (by omega)
  | string => exact .string
  | array items => exact .array (exact_of_denotesItems items)
  | object members perm ordered =>
    have each := exact_of_denotesMembers members
    exact .object ordered fun entry member => each entry (perm.mem_iff.mpr member)

theorem exact_of_denotesItems {trees : List Tree} {items : List Json} (denotes : DenotesItems trees items) :
    ∀ item ∈ items, Exact item := by
  cases denotes with
  | nil => exact List.forall_mem_nil _
  | cons first later => exact List.forall_mem_cons.mpr ⟨exact_of_denotes first, exact_of_denotesItems later⟩

theorem exact_of_denotesMembers {trees : List (List Piece × Tree)} {entries : List (String × Json)}
    (denotes : DenotesMembers trees entries) : ∀ entry ∈ entries, Exact entry.2 := by
  cases denotes with
  | nil => exact List.forall_mem_nil _
  | cons _ first later => exact List.forall_mem_cons.mpr ⟨exact_of_denotes first, exact_of_denotesMembers later⟩

end

/-! ### Texts of values -/

/-- A character as it stands, or by its number where it may not stand. -/
def piece (c : Char) : Piece := if Bare c then .char c else .unit c.toNat

/-- Tokens that a text of one line may hold. -/
def Printable (t : Token) : Prop := ∃ text, Spells text t ∧ '\n' ∉ text

theorem small_of_not_bare {c : Char} (escaped : ¬Bare c) : c.toNat < 0x10000 := by
  by_contra large
  refine escaped ⟨?_, ?_, by omega⟩
  · rintro rfl
    exact large (by decide)
  · rintro rfl
    exact large (by decide)

theorem writes_pieces (s : List Char) : Writes (s.map piece) s := by
  induction s with
  | nil => exact .nil
  | cons c s ih =>
    rw [List.map_cons, piece]
    split
    next => exact .char ih
    next escaped => exact .unit (small_of_not_bare escaped) ih

/-- The numeral of a code unit, with the zeros in front that it needs. -/
theorem writes_four {code : Nat} (small : code < 0x10000) : Text.Numeral.Writes 16 [Nat.digitChar (code / 4096),
    Nat.digitChar (code / 256 % 16), Nat.digitChar (code / 16 % 16), Nat.digitChar (code % 16)] code := by
  have digit : ∀ {d : Nat}, d < 16 → Text.Numeral.Digit 16 (Nat.digitChar d) d := fun small =>
    Text.Numeral.digit_digitChar small (Nat.le_refl 16)
  have worth : 16 * (16 * (16 * (code / 4096) + code / 256 % 16) + code / 16 % 16) + code % 16 = code := by omega
  have writes := (((Text.Numeral.Writes.digit (digit (d := code / 4096) (by omega))).more
    (digit (d := code / 256 % 16) (by omega))).more (digit (d := code / 16 % 16) (by omega))).more
    (digit (d := code % 16) (by omega))
  rwa [worth] at writes

theorem newline_not_mem_four {a b c d : Char} {code : Nat} (writes : Text.Numeral.Writes 16 [a, b, c, d] code) :
    '\n' ∉ [a, b, c, d] := by
  intro member
  obtain ⟨_, digit⟩ := writes.digits _ member
  exact digit.ne (Nat.le_refl 16) (by decide) rfl

theorem exists_spellsString (s : List Char) : ∃ text, SpellsString text (s.map piece) ∧ '\n' ∉ text := by
  induction s with
  | nil => exact ⟨['"'], .close, by decide⟩
  | cons c s ih =>
    obtain ⟨text, spells, single⟩ := ih
    rw [List.map_cons, piece]
    split
    next bare =>
      have other : '\n' ≠ c := by
        rintro rfl
        exact absurd bare (by decide)
      exact ⟨c :: text, .bare bare spells, List.not_mem_cons_of_ne_of_not_mem other single⟩
    next escaped =>
      have writes := writes_four (small_of_not_bare escaped)
      have digits := newline_not_mem_four writes
      refine ⟨_, .unit writes spells, List.not_mem_cons_of_ne_of_not_mem (by decide) ?_⟩
      exact List.not_mem_cons_of_ne_of_not_mem (by decide) (List.not_mem_append digits single)

theorem printable_string (s : List Char) : Printable (.string (s.map piece)) := by
  obtain ⟨text, spells, single⟩ := exists_spellsString s
  exact ⟨'"' :: text, .string spells, List.not_mem_cons_of_ne_of_not_mem (by decide) single⟩

theorem ofDigits_append (digits : List Nat) (d : Nat) :
    NumberText.ofDigits (digits ++ [d]) = NumberText.ofDigits digits * 10 + d := by
  simp [NumberText.ofDigits]

/-- Every number has digits without a needless zero in front. -/
theorem exists_digits (n : Nat) : ∃ digits, SpellsDigits (digits.map Nat.digitChar) digits ∧
    (digits = [0] ∨ digits.head? ≠ some 0) ∧ NumberText.ofDigits digits = n := by
  induction n using Nat.strongRecOn with
  | _ n ih =>
    by_cases small : n < 10
    · refine ⟨[n], ⟨by simp, by simpa using small, rfl⟩, ?_, by simp [NumberText.ofDigits]⟩
      by_cases zero : n = 0
      · exact .inl (by rw [zero])
      · exact .inr (by simpa using zero)
    obtain ⟨digits, spells, front, worth⟩ := ih (n / 10) (by omega)
    have other : digits.head? ≠ some 0 := by
      refine front.resolve_left ?_
      rintro rfl
      have zero : NumberText.ofDigits [0] = 0 := rfl
      omega
    refine ⟨digits ++ [n % 10], ⟨by simp, ?_, rfl⟩, .inr ?_, ?_⟩
    · exact List.forall_mem_append.mpr ⟨spells.decimal, List.forall_mem_singleton.mpr (Nat.mod_lt _ (by decide))⟩
    · obtain ⟨d, more, rfl⟩ := List.exists_cons_of_ne_nil spells.nonempty
      exact other
    · rw [ofDigits_append, worth]
      omega

theorem printable_number {sign : List Char} {negative : Bool} {digits : List Nat}
    (known : (sign, negative) ∈ numberSigns) (spells : SpellsDigits (digits.map Nat.digitChar) digits)
    (front : digits = [0] ∨ digits.head? ≠ some 0) : Printable (.number ⟨negative, digits, none, none⟩) := by
  have number := SpellsNumber.intro known spells front .absent .absent
  exact ⟨_, .number number, fun member => absurd (number.visible _ member) (by decide)⟩

theorem printable_mark {c : Char} {t : Token} (mark : (c, t) ∈ marks) (other : '\n' ≠ c) : Printable t :=
  ⟨[c], .mark mark, by simpa using other⟩

theorem printable_itemTokens {trees : List Tree} (printable : ∀ tree ∈ trees, ∀ t ∈ tree.tokens, Printable t) :
    ∀ t ∈ Tree.itemTokens trees, Printable t := by
  have comma : Printable .comma := printable_mark (c := ',') (by decide) (by decide)
  induction trees with
  | nil => exact List.forall_mem_nil _
  | cons tree trees ih =>
    obtain ⟨first, later⟩ := List.forall_mem_cons.mp printable
    exact List.forall_mem_cons.mpr ⟨comma, List.forall_mem_append.mpr ⟨first, ih later⟩⟩

theorem printable_array {trees : List Tree} (printable : ∀ tree ∈ trees, ∀ t ∈ tree.tokens, Printable t) :
    ∀ t ∈ (Tree.array trees).tokens, Printable t := by
  have opening : Printable .openArray := printable_mark (c := '[') (by decide) (by decide)
  have closing : Printable .closeArray := printable_mark (c := ']') (by decide) (by decide)
  cases trees with
  | nil => exact List.forall_mem_cons.mpr ⟨opening, List.forall_mem_singleton.mpr closing⟩
  | cons tree trees =>
    obtain ⟨first, later⟩ := List.forall_mem_cons.mp printable
    refine List.forall_mem_cons.mpr ⟨opening, List.forall_mem_append.mpr ⟨List.forall_mem_append.mpr ⟨first, ?_⟩, ?_⟩⟩
    · exact printable_itemTokens later
    · exact List.forall_mem_singleton.mpr closing

/-- Members of which key and value may be printed. -/
def PrintableMembers (members : List (List Piece × Tree)) : Prop :=
  ∀ member ∈ members, Printable (.string member.1) ∧ ∀ t ∈ member.2.tokens, Printable t

theorem printable_memberTokens {members : List (List Piece × Tree)} (printable : PrintableMembers members) :
    ∀ t ∈ Tree.memberTokens members, Printable t := by
  have comma : Printable .comma := printable_mark (c := ',') (by decide) (by decide)
  have colon : Printable .colon := printable_mark (c := ':') (by decide) (by decide)
  induction members with
  | nil => exact List.forall_mem_nil _
  | cons member members ih =>
    obtain ⟨⟨key, value⟩, later⟩ := List.forall_mem_cons.mp printable
    refine List.forall_mem_cons.mpr ⟨comma, List.forall_mem_cons.mpr ⟨key, List.forall_mem_cons.mpr ⟨colon, ?_⟩⟩⟩
    exact List.forall_mem_append.mpr ⟨value, ih later⟩

theorem printable_object {members : List (List Piece × Tree)} (printable : PrintableMembers members) :
    ∀ t ∈ (Tree.object members).tokens, Printable t := by
  have opening : Printable .openObject := printable_mark (c := '\x7b') (by decide) (by decide)
  have closing : Printable .closeObject := printable_mark (c := '\x7d') (by decide) (by decide)
  have colon : Printable .colon := printable_mark (c := ':') (by decide) (by decide)
  cases members with
  | nil => exact List.forall_mem_cons.mpr ⟨opening, List.forall_mem_singleton.mpr closing⟩
  | cons member members =>
    obtain ⟨⟨key, value⟩, later⟩ := List.forall_mem_cons.mp printable
    refine List.forall_mem_cons.mpr ⟨opening, List.forall_mem_cons.mpr ⟨key, List.forall_mem_cons.mpr ⟨colon, ?_⟩⟩⟩
    exact List.forall_mem_append.mpr ⟨List.forall_mem_append.mpr ⟨value, printable_memberTokens later⟩,
      List.forall_mem_singleton.mpr closing⟩

/-- A tree that denotes the value and that a text of one line can spell. -/
def Represents (value : Json) (tree : Tree) : Prop := Denotes tree value ∧ ∀ t ∈ tree.tokens, Printable t

theorem exists_items {items : List Json} (each : ∀ item ∈ items, ∃ tree, Represents item tree) :
    ∃ trees, DenotesItems trees items ∧ ∀ tree ∈ trees, ∀ t ∈ tree.tokens, Printable t := by
  induction items with
  | nil => exact ⟨[], .nil, List.forall_mem_nil _⟩
  | cons item items ih =>
    obtain ⟨⟨tree, denotes, printable⟩, each⟩ := List.forall_mem_cons.mp each
    obtain ⟨trees, others, printables⟩ := ih each
    exact ⟨tree :: trees, .cons denotes others, List.forall_mem_cons.mpr ⟨printable, printables⟩⟩

theorem exists_members {members : List (String × Json)} (each : ∀ entry ∈ members, ∃ tree, Represents entry.2 tree) :
    ∃ trees, DenotesMembers trees members ∧ PrintableMembers trees := by
  induction members with
  | nil => exact ⟨[], .nil, List.forall_mem_nil _⟩
  | cons entry members ih =>
    obtain ⟨⟨tree, denotes, printable⟩, each⟩ := List.forall_mem_cons.mp each
    obtain ⟨trees, others, printables⟩ := ih each
    exact ⟨(entry.1.toList.map piece, tree) :: trees, .cons (writes_pieces _) denotes others,
      List.forall_mem_cons.mpr ⟨⟨printable_string _, printable⟩, printables⟩⟩

theorem exists_number {n : Int} (low : -(Nat.pow 2 63 : Int) ≤ n) (high : n < Nat.pow 2 64) :
    ∃ tree, Represents (.number (.integer n)) tree := by
  obtain ⟨digits, spells, front, worth⟩ := exists_digits n.natAbs
  by_cases negative : n < 0
  · have denotes : Denotes (.number ⟨true, digits, none, none⟩) (.number (.integer (-(n.natAbs : Int)))) := by
      rw [← worth]
      exact .negative (by omega) (by omega)
    have printable := printable_number (List.mem_cons_of_mem _ List.mem_cons_self) spells front
    rw [show (-(n.natAbs : Int)) = n by omega] at denotes
    exact ⟨.number ⟨true, digits, none, none⟩, denotes, List.forall_mem_singleton.mpr printable⟩
  · have denotes : Denotes (.number ⟨false, digits, none, none⟩) (.number (.integer (n.natAbs : Int))) := by
      rw [← worth]
      exact .natural (by omega)
    have printable := printable_number List.mem_cons_self spells front
    rw [show (n.natAbs : Int) = n by omega] at denotes
    exact ⟨.number ⟨false, digits, none, none⟩, denotes, List.forall_mem_singleton.mpr printable⟩

theorem Exact.exists_tree (fits : Exact value) : ∃ tree, Represents value tree := by
  have word : ∀ {text t}, (text, t) ∈ words → '\n' ∉ text → Printable t := fun known single => ⟨_, .word known, single⟩
  induction fits with
  | null =>
    exact ⟨.null, .null, List.forall_mem_singleton.mpr (word List.mem_cons_self (by decide))⟩
  | @bool b =>
    refine ⟨.bool b, .bool, List.forall_mem_singleton.mpr ?_⟩
    cases b with
    | true => exact word (List.mem_cons_of_mem _ List.mem_cons_self) (by decide)
    | false => exact word (List.mem_cons_of_mem _ (List.mem_cons_of_mem _ List.mem_cons_self)) (by decide)
  | integer low high => exact exists_number low high
  | string => exact ⟨.string _, .string (writes_pieces _), List.forall_mem_singleton.mpr (printable_string _)⟩
  | array _ ih =>
    obtain ⟨trees, denotes, printable⟩ := exists_items ih
    exact ⟨.array trees, .array denotes, printable_array printable⟩
  | object ordered _ ih =>
    obtain ⟨trees, denotes, printable⟩ := exists_members ih
    exact ⟨.object trees, .object denotes (.refl _) ordered, printable_object printable⟩

theorem exact_iff_exists_denotes : Exact value ↔ ∃ tree, Denotes tree value := by
  constructor
  · intro fits
    obtain ⟨tree, denotes, _⟩ := fits.exists_tree
    exact ⟨tree, denotes⟩
  · rintro ⟨tree, denotes⟩
    exact exact_of_denotes denotes

theorem exists_texts {tokens : List Token} (printable : ∀ t ∈ tokens, Printable t) :
    ∃ texts, List.Forall₂ Spells texts tokens ∧ '\n' ∉ texts.flatten := by
  induction tokens with
  | nil => exact ⟨[], .nil, List.not_mem_nil⟩
  | cons t tokens ih =>
    obtain ⟨⟨text, spells, single⟩, printable⟩ := List.forall_mem_cons.mp printable
    obtain ⟨texts, others, singles⟩ := ih printable
    refine ⟨text :: texts, .cons spells others, ?_⟩
    rw [List.flatten_cons]
    exact List.not_mem_append single singles

theorem tokens_ne_nil (tree : Tree) : tree.tokens ≠ [] := by
  cases tree with
  | array items => cases items <;> simp [Tree.tokens]
  | object members => cases members <;> simp [Tree.tokens]
  | _ => simp [Tree.tokens]

/-- A tree of printable tokens has a text of one line. -/
theorem exists_text {tree : Tree} (printable : ∀ t ∈ tree.tokens, Printable t) :
    ∃ text, SpellsTree text tree ∧ '\n' ∉ text := by
  obtain ⟨texts, spells, single⟩ := exists_texts printable
  have joined := joined_flatten spells (tokens_ne_nil tree)
  have spelled := SpellsTree.intro (List.forall_mem_nil _) joined (List.forall_mem_nil _)
  rw [List.nil_append, List.append_nil] at spelled
  exact ⟨_, spelled, single⟩

end Json

end TlsFixtures
