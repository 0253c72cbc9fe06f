import TlsFixtures.Proofs.Lines

/-! Generated files tell their records and their module path apart. A literal stays on its line and is no
other literal; a record is a block of lines that its layout fixes; and the module path, which is written as it
is, cannot move the last blank line of a file, behind which the table stands. -/
namespace TlsFixtures

namespace Literal

theorem digitChar_of_mem_toDigits {b n : Nat} {c : Char} (large : 1 < b) (member : c ∈ Nat.toDigits b n) :
    ∃ d < b, c = Nat.digitChar d := by
  induction n using Nat.strongRecOn with
  | _ n ih =>
    by_cases small : n < b
    · rw [Nat.toDigits_of_lt_base small, List.mem_singleton] at member
      exact ⟨n, small, member⟩
    rw [Nat.toDigits_of_base_le large (by omega), List.mem_append, List.mem_singleton] at member
    rcases member with front | last
    · exact ih (n / b) (Nat.div_lt_self (by omega) large) front
    · exact ⟨n % b, Nat.mod_lt _ (by omega), last⟩

theorem digitChar_plain : ∀ d < 16, Nat.digitChar d ≠ '\n' ∧ Nat.digitChar d ≠ '\r' ∧ Nat.digitChar d ≠ '"' ∧
    Nat.digitChar d ≠ '&' := by
  decide

theorem feed_not_mem_toDigits {feed : Char} (ends : feed = '\n' ∨ feed = '\r') {b n : Nat} (large : 1 < b)
    (small : b ≤ 16) : feed ∉ Nat.toDigits b n := by
  intro member
  obtain ⟨d, digit, same⟩ := digitChar_of_mem_toDigits large member
  have plain := digitChar_plain d (by omega)
  rcases ends with rfl | rfl
  · exact plain.1 same.symm
  · exact plain.2.1 same.symm

open Text in
/-- A text literal has no raw character that ends a line. -/
theorem feed_not_mem_escape {feed : Char} (ends : feed = '\n' ∨ feed = '\r') (c : Char) :
    feed ∉ Quoted.escape '"' c := by
  have number : feed ∉ Quoted.numbered c := by
    have digits : feed ∉ Nat.toDigits 16 c.toNat := feed_not_mem_toDigits ends (by decide) (by decide)
    rcases ends with rfl | rfl <;> simp [Quoted.numbered, digits]
  unfold Quoted.escape
  split
  · rcases ends with rfl | rfl <;> simp
  split
  · rcases ends with rfl | rfl <;> simp
  split
  · rcases ends with rfl | rfl <;> simp
  split
  · rcases ends with rfl | rfl <;> simp
  next carriage newline =>
    have plain : feed ≠ c := by
      rcases ends with rfl | rfl
      · exact Ne.symm newline
      · exact Ne.symm carriage
    split
    · rcases ends with rfl | rfl <;> simp [plain]
    split
    · exact number
    · simp [plain]

open Text in
theorem feed_not_mem_text {feed : Char} (ends : feed = '\n' ∨ feed = '\r') (s : String) :
    feed ∉ (render (.text s)).toList := by
  have quote : feed ≠ '"' := by rcases ends with rfl | rfl <;> decide
  simp [render, Quoted.string, Quoted.body, feed_not_mem_escape ends, quote]

theorem newline_ne_digit {n : UInt8} (h : n < 16) : Char.ofNat (Text.Hex.digit n).toNat ≠ '\n' := by
  intro same
  have value := hexValue?_digit h
  rw [same] at value
  simp [Text.Quoted.hexValue?] at value

theorem newline_not_mem_byteItem (b : UInt8) : '\n' ∉ (byteItem b).toList := by
  simp [toList_byteItem, Ne.symm (newline_ne_digit (Text.Hex.high_lt b)),
    Ne.symm (newline_ne_digit (Text.Hex.low_lt b))]

theorem newline_not_mem_items (b : List UInt8) : '\n' ∉ (", ".intercalate (b.map byteItem)).toList := by
  induction b with
  | nil => simp
  | cons b bytes ih =>
    cases bytes with
    | nil => simp [newline_not_mem_byteItem]
    | cons c bytes => simpa [newline_not_mem_byteItem] using ih

theorem newline_not_mem_render (literal : Literal) : '\n' ∉ literal.render.toList := by
  cases literal with
  | text s => exact feed_not_mem_text (.inl rfl) s
  | word n =>
    rw [render, Nat.toList_repr]
    exact feed_not_mem_toDigits (.inl rfl) (by decide) (by decide)
  | bytes b => simpa [render, byteArray] using newline_not_mem_items b

theorem head?_text (s : String) : (render (.text s)).toList.head? = some '"' := by
  simp [render, Text.Quoted.string]

theorem head?_bytes (b : List UInt8) : (render (.bytes b)).toList.head? = some '&' := by
  simp [render]

theorem head?_word (n : UInt64) : ∃ c, (render (.word n)).toList.head? = some c ∧ c ≠ '"' ∧ c ≠ '&' := by
  rw [render, Nat.toList_repr]
  cases digits : Nat.toDigits 10 n.toNat with
  | nil => exact absurd digits Nat.toDigits_ne_nil
  | cons c rest =>
    have member : c ∈ Nat.toDigits 10 n.toNat := by simp [digits]
    obtain ⟨d, small, rfl⟩ := digitChar_of_mem_toDigits (by decide) member
    exact ⟨_, rfl, (digitChar_plain d (by omega)).2.2⟩

theorem text_injective {s t : String} (same : render (.text s) = render (.text t)) : s = t := by
  have back := Text.Quoted.read_string s []
  rw [show Text.Quoted.string s = Text.Quoted.string t from same, Text.Quoted.read_string] at back
  simpa [String.toList_inj, eq_comm] using back

theorem word_injective {n m : UInt64} (same : render (.word n) = render (.word m)) : n = m := by
  have digits : Nat.toDigits 10 n.toNat = Nat.toDigits 10 m.toNat := by
    simpa [render] using congrArg String.toList same
  apply UInt64.toNat_inj.mp
  rw [← @Nat.ofDigitChars_ten_toDigits n.toNat, digits, Nat.ofDigitChars_ten_toDigits]

theorem bytes_injective {a b : List UInt8} (same : render (.bytes a) = render (.bytes b)) : a = b := by
  have back := readBytes_bytes a []
  rw [same, readBytes_bytes] at back
  simpa [eq_comm] using back

/-- Literals of one kind are read back, and those of two kinds begin differently. -/
theorem render_injective {first second : Literal} (same : first.render = second.render) : first = second := by
  have heads : first.render.toList.head? = second.render.toList.head? := by rw [same]
  cases first with
  | text s =>
    cases second with
    | text t => rw [text_injective same]
    | word m =>
      obtain ⟨c, head, quote, _⟩ := head?_word m
      simp [head?_text, head, Ne.symm quote] at heads
    | bytes b => simp [head?_text, head?_bytes] at heads
  | word n =>
    obtain ⟨c, head, quote, ampersand⟩ := head?_word n
    cases second with
    | text t => simp [head?_text, head, quote] at heads
    | word m => rw [word_injective same]
    | bytes b => simp [head?_bytes, head, ampersand] at heads
  | bytes a =>
    cases second with
    | text t => simp [head?_text, head?_bytes] at heads
    | word m =>
      obtain ⟨c, head, _, ampersand⟩ := head?_word m
      simp [head?_bytes, head, Ne.symm ampersand] at heads
    | bytes b => rw [bytes_injective same]

end Literal

namespace FixtureFile

variable {layout : Layout}

def recordLines (layout : Layout) (values : List Literal) : List String :=
  ["\t" ++ layout.recordType ++ " \x7b"] ++ layout.fields.zipWith fieldLine values ++ ["\t\x7d,"]

/-- No name that a layout gives has a line of its own. -/
structure SingleLine (layout : Layout) : Prop where
  recordType : '\n' ∉ layout.recordType.toList
  table : '\n' ∉ layout.table.toList
  fields : ∀ field ∈ layout.fields, '\n' ∉ field.name.toList

theorem recordLiteral_eq (layout : Layout) (values : List Literal) :
    recordLiteral layout values = joinLines (recordLines layout values) := rfl

theorem layout_singleLine (v : Variant) : SingleLine v.layout := by
  cases v <;> exact ⟨by decide, by decide, by decide⟩

theorem fieldLine_isLine {field : FieldDeclaration} (h : '\n' ∉ field.name.toList) (value : Literal) :
    IsLine (fieldLine field value) := by
  constructor
  · intro empty
    simpa [fieldLine] using congrArg String.toList empty
  · simp [fieldLine, h, Literal.newline_not_mem_render]

theorem fieldLine_injective {field : FieldDeclaration} {a b : Literal}
    (same : fieldLine field a = fieldLine field b) : a = b := by
  apply Literal.render_injective
  simpa [fieldLine, String.append_assoc] using same

theorem recordLines_isLine (single : SingleLine layout) (values : List Literal) :
    ∀ line ∈ recordLines layout values, IsLine line := by
  intro line member
  simp only [recordLines, List.mem_append, List.mem_singleton] at member
  rcases member with (rfl | field) | rfl
  · exact ⟨by intro empty; simpa using congrArg String.toList empty, by simp [single.recordType]⟩
  · obtain ⟨i, bound, rfl⟩ := List.getElem_of_mem field
    rw [List.getElem_zipWith]
    exact fieldLine_isLine (single.fields _ (List.getElem_mem _)) _
  · exact ⟨by decide, by decide⟩

theorem length_recordLines {values : List Literal} (paired : values.length = layout.fields.length) :
    (recordLines layout values).length = 2 + layout.fields.length := by
  simp [recordLines, paired]
  omega

theorem zipWith_fieldLine_injective {fields : List FieldDeclaration} {a b : List Literal}
    (ha : a.length = fields.length) (hb : b.length = fields.length)
    (same : fields.zipWith fieldLine a = fields.zipWith fieldLine b) : a = b := by
  induction fields generalizing a b with
  | nil => simp_all
  | cons field fields ih =>
    obtain ⟨x, a, rfl⟩ := List.exists_cons_of_length_eq_add_one ha
    obtain ⟨y, b, rfl⟩ := List.exists_cons_of_length_eq_add_one hb
    simp only [List.zipWith_cons_cons, List.cons.injEq] at same
    rw [fieldLine_injective same.1, ih (by simpa using ha) (by simpa using hb) same.2]

theorem recordLines_injective {a b : List Literal} (ha : a.length = layout.fields.length)
    (hb : b.length = layout.fields.length) (same : recordLines layout a = recordLines layout b) : a = b := by
  apply zipWith_fieldLine_injective ha hb
  simpa [recordLines] using same

theorem length_literals (v : Variant) (r : v.Record) : (v.literals r).length = v.layout.fields.length := by
  cases v <;> rfl

theorem literals_injective (v : Variant) {r s : v.Record} (same : v.literals r = v.literals s) : r = s := by
  cases v with
  | ja4 => cases r; cases s; simp_all [Variant.literals, HelloRecord.literals]
  | ja4s => cases r; cases s; simp_all [Variant.literals, HelloRecord.literals]
  | ja4x => cases r; cases s; simp_all [Variant.literals, CertificateRecord.literals]

def blocks (v : Variant) (records : List v.Record) : List (List String) :=
  records.map fun r => recordLines v.layout (v.literals r)

def tableLines (v : Variant) (records : List v.Record) : List String := (blocks v records).flatten ++ ["];"]

theorem render_eq (v : Variant) (records : List v.Record) (oraclePath : String) :
    render v records oraclePath = header v.layout oraclePath ++ joinLines (tableLines v records) := by
  simp [render, tableLines, blocks, joinLines_flatten, footer, recordLiteral_eq, String.append_assoc,
    Function.comp_def]

theorem tableLines_isLine (v : Variant) (records : List v.Record) :
    ∀ line ∈ tableLines v records, IsLine line := by
  intro line member
  simp only [tableLines, List.mem_append, List.mem_singleton, List.mem_flatten] at member
  rcases member with ⟨block, inside, member⟩ | rfl
  · obtain ⟨r, _, rfl⟩ := List.mem_map.mp inside
    exact recordLines_isLine (layout_singleLine v) _ line member
  · exact ⟨by decide, by decide⟩

/-- Records of one variant take as many lines as each other, and their first line is not that of the end. -/
theorem tableLines_injective (v : Variant) {first second : List v.Record}
    (same : tableLines v first = tableLines v second) : first = second := by
  have ends : ∀ (r : v.Record) (later : List v.Record), tableLines v (r :: later) ≠ tableLines v [] := by
    intro r later same
    simp [tableLines, blocks, recordLines] at same
  induction first generalizing second with
  | nil =>
    cases second with
    | nil => rfl
    | cons s second => exact absurd same.symm (ends s second)
  | cons r first ih =>
    cases second with
    | nil => exact absurd same (ends r first)
    | cons s second =>
      have lengths : (recordLines v.layout (v.literals r)).length =
          (recordLines v.layout (v.literals s)).length := by
        rw [length_recordLines (length_literals v r), length_recordLines (length_literals v s)]
      simp only [tableLines, blocks, List.map_cons, List.flatten_cons, List.append_assoc] at same
      obtain ⟨block, rest⟩ := List.append_inj same lengths
      rw [literals_injective v (recordLines_injective (length_literals v r) (length_literals v s) block),
        ih rest]

/-- The two lines between the last blank one and the table. -/
def tableHead (layout : Layout) : List String :=
  ["#[rustfmt::skip]", "static " ++ layout.table ++ ": &[" ++ layout.recordType ++ "] = &["]

theorem tableHead_isLine {layout : Layout} (single : SingleLine layout) :
    ∀ line ∈ tableHead layout, IsLine line := by
  simp only [tableHead, List.mem_cons, List.not_mem_nil, or_false]
  rintro line (rfl | rfl)
  · exact ⟨by decide, by decide⟩
  · exact ⟨by intro empty; simpa using congrArg String.toList empty,
      by simp [single.table, single.recordType]⟩

/-- What is imported: the end of a line that the module path begins. -/
def importEnd (layout : Layout) : String := "::" ++ layout.oracle ++ ";"

/-- The lines from there down to the last blank one. -/
def opening (layout : Layout) : List String :=
  [importEnd layout, ""] ++ structLines layout ++ [""] ++ testLines layout

theorem render_eq_lines (v : Variant) (records : List v.Record) (oraclePath : String) :
    render v records oraclePath = preamble ++ oraclePath ++
      joinLines (opening v.layout ++ [""] ++ tableHead v.layout ++ tableLines v records) := by
  have lines : declarations v.layout = joinLines (opening v.layout ++ [""] ++ tableHead v.layout) := by
    simp only [declarations, opening, importEnd, tableHead, List.append_assoc, List.cons_append,
      List.nil_append]
  rw [joinLines_append, ← lines, render_eq, header, String.append_assoc, String.append_assoc]

/-- Every file has its last blank line before the head of its table. -/
theorem last_blank (v : Variant) (records : List v.Record) (oraclePath : String) : ∃ before,
    (render v records oraclePath).toList =
      before ++ '\n' :: '\n' :: (joinLines (tableHead v.layout ++ tableLines v records)).toList := by
  obtain ⟨before, ending⟩ := joinLines_ends (opening v.layout) (by simp [opening])
  refine ⟨(preamble ++ oraclePath).toList ++ before, ?_⟩
  simp [render_eq_lines, ending, toList_joinLines_cons]

theorem table_unique (v : Variant) {first second : List v.Record} {p q : String}
    (same : render v first p = render v second q) : first = second := by
  obtain ⟨before, shape⟩ := last_blank v first p
  obtain ⟨before', shape'⟩ := last_blank v second q
  have lines : ∀ records, ∀ line ∈ tableHead v.layout ++ tableLines v records, IsLine line := by
    intro records line member
    rcases List.mem_append.mp member with head | table
    · exact tableHead_isLine (layout_singleLine v) line head
    · exact tableLines_isLine v records line table
  -- The module path may hold blank lines too, so the files are cut at their last one.
  have tables := after_blank_unique (noBlank_joinLines (lines first)) (noBlank_joinLines (lines second))
    (shape.symm.trans ((congrArg String.toList same).trans shape'))
  have joined := joinLines_injective (fun line m => (lines first line m).2)
    (fun line m => (lines second line m).2) (String.toList_inj.mp tables)
  exact tableLines_injective v (List.append_cancel_left joined)

theorem path_unique (v : Variant) {records : List v.Record} {p q : String}
    (same : render v records p = render v records q) : p = q := by
  simpa [render_eq, header, String.append_assoc] using same

theorem importEnd_injective {v w : Variant} (same : importEnd v.layout = importEnd w.layout) : v = w := by
  revert same
  cases v <;> cases w <;> decide

/-- The import line ends in the function under test, which is another one for each variant. -/
theorem variant_unique {v w : Variant} {first : List v.Record} {second : List w.Record} {oraclePath : String}
    (same : render v first oraclePath = render w second oraclePath) : v = w := by
  have single : ∀ u : Variant, '\n' ∉ (importEnd u.layout).toList := by
    intro u
    cases u <;> decide
  rw [render_eq_lines, render_eq_lines] at same
  have lines := congrArg String.toList ((String.append_right_inj _).mp same)
  simp only [opening, List.cons_append, toList_joinLines_cons] at lines
  exact importEnd_injective (String.toList_inj.mp (Text.first_mark_unique (single v) (single w) lines).1)

/-- A file determines the records and the module path that it was made of, and all that stands below its
header is one block of lines a record, as long as the layout says, and the line that closes the table. -/
theorem render_faithful (v : Variant) :
    (∀ (first second : List v.Record) (p q : String),
      render v first p = render v second q → first = second ∧ p = q) ∧
    ∀ (records : List v.Record) (oraclePath : String), ∃ blocks : List (List String),
      render v records oraclePath = header v.layout oraclePath ++ joinLines (blocks.flatten ++ ["];"]) ∧
      blocks.length = records.length ∧
      ∀ block ∈ blocks, block.length = 2 + v.layout.fields.length ∧ ∀ line ∈ block, IsLine line := by
  constructor
  · intro first second p q same
    obtain rfl := table_unique v same
    exact ⟨rfl, path_unique v same⟩
  · intro records oraclePath
    refine ⟨blocks v records, render_eq v records oraclePath, by simp [blocks], ?_⟩
    intro block member
    obtain ⟨r, _, rfl⟩ := List.mem_map.mp member
    exact ⟨length_recordLines (length_literals v r), recordLines_isLine (layout_singleLine v) _⟩

end FixtureFile

end TlsFixtures
