import TlsFixtures.FileSystem

/-! What a write does to the paths of a file system. It goes to one location, which no write moves, and
whatever path does not denote that location finds what it found before. A path may denote a location where
nothing is yet: that of the file which a write to it would make. -/
namespace TlsFixtures.FileSystem

variable {fs : FileSystem} {location other inner : Location} {s text name : String} {names : List String}

/-- Where a write to `s` goes. -/
def destination (fs : FileSystem) (s : String) : Except AccessError Location :=
  match Path.ofText s with
  | .error e => .error e
  | .ok path => fs.target path

/-- New text at a location, in a file that comes to be if there is none. -/
def overwrite (fs : FileSystem) (location : Location) (text : String) : FileSystem :=
  fs.put location (rewritten (fs.node? location) text)

/-- A path denotes the location of what is there or, where nothing is, of the file it would name. -/
def Denotes (fs : FileSystem) (s : String) (location : Location) : Prop :=
  fs.locate s = .ok location ∨ fs.destination s = .ok location

/-- A name that leads to an entry of its own, not to the directory itself or the one above. -/
def Plain (name : String) : Prop := name ≠ "." ∧ name ≠ ".." ∧ ¬Path.nameLimit < name.utf8ByteSize

/-- What the last name of a path may add to the walk through the others. -/
def EntersNew (fs : FileSystem) (start : Location) (names : List String) (location : Location) : Prop :=
  ∃ front name parent, names = front ++ [name] ∧ Plain name ∧ fs.walk start front = .ok parent ∧
    fs.node? parent = some .directory ∧ location = name :: parent

theorem write_eq (fs : FileSystem) (s text : String) :
    fs.write s text = (fs.destination s).map (fs.overwrite · text) := by
  unfold write destination
  cases Path.ofText s with
  | error e => rfl
  | ok path => cases target : fs.target path <;> simp [target, overwrite, Except.map]

theorem enter_eq_ok_iff : fs.enter location name = .ok inner ↔
    fs.node? location = some .directory ∧
      (name = "." ∧ location = inner ∨ name = ".." ∧ location.tail = inner ∨
        Plain name ∧ (fs.node? (name :: location)).isSome ∧ name :: location = inner) := by
  unfold enter
  cases found : fs.node? location with
  | none => simp
  | some node =>
    cases node with
    | file f => simp
    | directory =>
      by_cases here : name = "."
      · simp [here, Plain]
      by_cases up : name = ".."
      · simp [up, Plain]
      by_cases long : Path.nameLimit < name.utf8ByteSize
      · simp [here, up, long, Plain]
      by_cases present : (fs.node? (name :: location)).isSome
      · simp [here, up, long, present, Plain]
      · simp [here, up, long, present]

theorem entersNew_append_singleton {front : List String} : fs.EntersNew inner (front ++ [name]) location ↔
    Plain name ∧ ∃ parent, fs.walk inner front = .ok parent ∧ fs.node? parent = some .directory ∧
      location = name :: parent := by
  constructor
  · rintro ⟨front, name, parent, same, plain, walked, directory, rfl⟩
    obtain ⟨rfl, rfl⟩ := List.append_singleton_inj.mp same
    exact ⟨plain, parent, walked, directory, rfl⟩
  · rintro ⟨plain, parent, walked, directory, rfl⟩
    exact ⟨front, name, parent, rfl, plain, walked, directory, rfl⟩

theorem EntersNew.cons (new : fs.EntersNew inner names location) (entered : fs.enter other name = .ok inner) :
    fs.EntersNew other (name :: names) location := by
  obtain ⟨front, last, parent, rfl, plain, walked, directory, entry⟩ := new
  exact ⟨name :: front, last, parent, rfl, plain, by simpa [walk, entered] using walked, directory, entry⟩

theorem target_append_singleton {path : Path} {front : List String} (names : path.names = front ++ [name]) :
    fs.target path = .ok location ↔ path.wantsDirectory = false ∧ Plain name ∧ ∃ parent,
      fs.walk (fs.start path) front = .ok parent ∧ fs.node? parent = some .directory ∧
        fs.node? (name :: parent) ≠ some .directory ∧ name :: parent = location := by
  simp only [target, names, List.getLast?_concat, List.dropLast_concat]
  by_cases dots : name = "." ∨ name = ".."
  · have reserved : ¬Plain name := by rintro ⟨here, up, _⟩; simp_all
    simp only [dots, ↓reduceIte, reserved]
    split <;> simp
  have undotted : name ≠ "." ∧ name ≠ ".." := by simpa using dots
  simp only [dots, ↓reduceIte]
  cases fs.walk (fs.start path) front with
  | error e => simp
  | ok parent =>
    cases found : fs.node? parent with
    | none => simp [found]
    | some node =>
      cases node with
      | file f => simp [found]
      | directory =>
        by_cases slash : path.wantsDirectory = true
        · simp [found, slash]
        by_cases long : Path.nameLimit < name.utf8ByteSize
        · simp [found, slash, long, Plain]
        by_cases occupied : fs.node? (name :: parent) = some .directory
        · simp [found, slash, long, occupied]
        · simp [found, slash, long, occupied, Plain, undotted]

/-- A write goes to a plain name in a directory, where no directory has that name. -/
theorem target_eq_ok_iff {path : Path} : fs.target path = .ok location ↔
    path.wantsDirectory = false ∧ fs.node? location ≠ some .directory ∧
      fs.EntersNew (fs.start path) path.names location := by
  cases last : path.names.getLast? with
  | none =>
    have empty : path.names = [] := by simpa using last
    simp [target, EntersNew, empty]
  | some name =>
    obtain ⟨front, names⟩ := List.getLast?_eq_some_iff.mp last
    rw [target_append_singleton names, names, entersNew_append_singleton]
    constructor
    · rintro ⟨slash, plain, parent, walked, directory, free, rfl⟩
      exact ⟨slash, free, plain, parent, walked, directory, rfl⟩
    · rintro ⟨slash, free, plain, parent, walked, directory, rfl⟩
      exact ⟨slash, plain, parent, walked, directory, free, rfl⟩

theorem destination_eq_ok_iff : fs.destination s = .ok location ↔ ∃ path, Path.ofText s = .ok path ∧
    path.wantsDirectory = false ∧ fs.node? location ≠ some .directory ∧
      fs.EntersNew (fs.start path) path.names location := by
  unfold destination
  cases Path.ofText s with
  | error e => simp
  | ok path => simp [target_eq_ok_iff]

theorem locate_eq_ok_iff : fs.locate s = .ok location ↔ ∃ path, Path.ofText s = .ok path ∧
    fs.walk (fs.start path) (path.names ++ if path.wantsDirectory then ["."] else []) = .ok location := by
  unfold locate
  cases Path.ofText s <;> simp

theorem walk_append {front back : List String} : fs.walk location (front ++ back) = .ok inner ↔
    ∃ between, fs.walk location front = .ok between ∧ fs.walk between back = .ok inner := by
  induction front generalizing location with
  | nil => simp [walk]
  | cons name front ih =>
    simp only [List.cons_append, walk]
    cases fs.enter location name <;> simp [ih]

theorem text?_eq_of_nodeAt?_eq {fs' : FileSystem} (same : fs'.nodeAt? s = fs.nodeAt? s) :
    fs'.text? s = fs.text? s := by
  rw [text?, same, text?]

@[simp] theorem start_overwrite {path : Path} : (fs.overwrite location text).start path = fs.start path := rfl

theorem node?_overwrite_same (fs : FileSystem) (location : Location) (text : String) : ∃ executable,
    (fs.overwrite location text).node? location = some (.file ⟨.text text, executable⟩) := by
  simp only [overwrite, node?_put, ↓reduceIte, rewritten]
  split
  · exact ⟨_, rfl⟩
  · exact ⟨_, rfl⟩

theorem node?_overwrite_other (apart : other ≠ location) :
    (fs.overwrite location text).node? other = fs.node? other := by
  simp [overwrite, apart]

section FreeLocation

variable (free : fs.node? location ≠ some .directory)
include free

theorem directory_overwrite_iff :
    (fs.overwrite location text).node? other = some .directory ↔ fs.node? other = some .directory := by
  by_cases same : other = location
  · obtain ⟨executable, node⟩ := node?_overwrite_same fs location text
    subst other
    simp [node, free]
  · rw [node?_overwrite_other same]

theorem enter_overwrite (entered : fs.enter other name = .ok inner) :
    (fs.overwrite location text).enter other name = .ok inner := by
  obtain ⟨directory, step⟩ := enter_eq_ok_iff.mp entered
  refine enter_eq_ok_iff.mpr ⟨(directory_overwrite_iff free).mpr directory, ?_⟩
  refine step.imp_right (Or.imp_right (And.imp_right (And.imp_left fun present => ?_)))
  by_cases same : name :: other = location
  · obtain ⟨executable, node⟩ := node?_overwrite_same fs location text
    simp [same, node]
  · rwa [node?_overwrite_other same]

/-- Nothing new can be entered but the location itself. -/
theorem enter_of_overwrite (entered : (fs.overwrite location text).enter other name = .ok inner) :
    fs.enter other name = .ok inner ∨
      Plain name ∧ fs.node? other = some .directory ∧ name :: other = location ∧ inner = location := by
  obtain ⟨directory, step⟩ := enter_eq_ok_iff.mp entered
  rw [directory_overwrite_iff free] at directory
  rcases step with here | up | ⟨plain, present, rfl⟩
  · exact .inl (enter_eq_ok_iff.mpr ⟨directory, .inl here⟩)
  · exact .inl (enter_eq_ok_iff.mpr ⟨directory, .inr (.inl up)⟩)
  by_cases same : name :: other = location
  · exact .inr ⟨plain, directory, same, same⟩
  · rw [node?_overwrite_other same] at present
    exact .inl (enter_eq_ok_iff.mpr ⟨directory, .inr (.inr ⟨plain, present, rfl⟩)⟩)

theorem walk_overwrite (walked : fs.walk other names = .ok inner) :
    (fs.overwrite location text).walk other names = .ok inner := by
  induction names generalizing other with
  | nil => exact walked
  | cons name names ih =>
    cases entered : fs.enter other name with
    | error e => simp [walk, entered] at walked
    | ok next =>
      simp only [walk, entered] at walked
      simp only [walk, enter_overwrite free entered]
      exact ih walked

/-- Nothing new can be reached but the location itself, and that only by the last name: it holds no directory. -/
theorem walk_of_overwrite (walked : (fs.overwrite location text).walk other names = .ok inner) :
    fs.walk other names = .ok inner ∨ inner = location ∧ fs.EntersNew other names location := by
  induction names generalizing other with
  | nil => exact .inl walked
  | cons name names ih =>
    cases entered : (fs.overwrite location text).enter other name with
    | error e => simp [walk, entered] at walked
    | ok next =>
      simp only [walk, entered] at walked
      rcases enter_of_overwrite free entered with known | ⟨plain, directory, same, rfl⟩
      · rcases ih walked with old | ⟨rfl, new⟩
        · exact .inl (by simpa [walk, known] using old)
        · exact .inr ⟨rfl, new.cons known⟩
      · cases names with
        | nil =>
          simp only [walk, Except.ok.injEq] at walked
          exact .inr ⟨walked.symm, [], name, other, rfl, plain, rfl, directory, same.symm⟩
        | cons below names =>
          cases entered : (fs.overwrite next text).enter next below with
          | error e => simp [walk, entered] at walked
          | ok deeper =>
            have inside := (enter_eq_ok_iff.mp entered).1
            exact absurd ((directory_overwrite_iff free).mp inside) free

theorem walk_overwrite_directory (directory : fs.node? inner = some .directory) :
    (fs.overwrite location text).walk other names = .ok inner ↔ fs.walk other names = .ok inner := by
  refine ⟨fun walked => ?_, walk_overwrite free⟩
  rcases walk_of_overwrite free walked with old | ⟨rfl, _⟩
  · exact old
  · exact absurd directory free

theorem entersNew_overwrite_iff {start : Location} :
    (fs.overwrite location text).EntersNew start names other ↔ fs.EntersNew start names other := by
  refine exists_congr fun front => exists_congr fun name => exists_congr fun parent => ?_
  rw [directory_overwrite_iff free]
  constructor
  · rintro ⟨same, plain, walked, directory, entry⟩
    exact ⟨same, plain, (walk_overwrite_directory free directory).mp walked, directory, entry⟩
  · rintro ⟨same, plain, walked, directory, entry⟩
    exact ⟨same, plain, (walk_overwrite_directory free directory).mpr walked, directory, entry⟩

/-- Where a write goes is settled before any write. -/
theorem destination_overwrite_iff :
    (fs.overwrite location text).destination s = .ok other ↔ fs.destination s = .ok other := by
  simp only [destination_eq_ok_iff, Ne, directory_overwrite_iff free]
  exact exists_congr fun path => and_congr_right fun _ => and_congr_right fun _ =>
    and_congr_right fun _ => entersNew_overwrite_iff free

theorem locate_overwrite (located : fs.locate s = .ok other) :
    (fs.overwrite location text).locate s = .ok other := by
  obtain ⟨path, read, walked⟩ := locate_eq_ok_iff.mp located
  exact locate_eq_ok_iff.mpr ⟨path, read, walk_overwrite free walked⟩

theorem locate_of_overwrite (located : (fs.overwrite location text).locate s = .ok other) :
    fs.locate s = .ok other ∨ other = location ∧ fs.destination s = .ok location := by
  obtain ⟨path, read, walked⟩ := locate_eq_ok_iff.mp located
  rcases walk_of_overwrite free walked with old | ⟨same, new⟩
  · exact .inl (locate_eq_ok_iff.mpr ⟨path, read, old⟩)
  refine .inr ⟨same, destination_eq_ok_iff.mpr ⟨path, read, ?_⟩⟩
  cases slash : path.wantsDirectory with
  | false => exact ⟨rfl, free, by simpa [slash] using new⟩
  | true =>
    simp only [slash, ↓reduceIte] at new
    exact absurd rfl (entersNew_append_singleton.mp new).1.1

/-- Which paths denote which locations is settled before any write. -/
theorem denotes_overwrite_iff : (fs.overwrite location text).Denotes s other ↔ fs.Denotes s other := by
  simp only [Denotes, destination_overwrite_iff free]
  constructor
  · rintro (located | written)
    · rcases locate_of_overwrite free located with old | ⟨rfl, new⟩
      · exact .inl old
      · exact .inr new
    · exact .inr written
  · exact .imp_left (locate_overwrite free)

theorem nodeAt?_overwrite (apart : ¬fs.Denotes s location) :
    (fs.overwrite location text).nodeAt? s = fs.nodeAt? s := by
  have unmoved : ∀ other, (fs.overwrite location text).locate s = .ok other ↔ fs.locate s = .ok other := by
    refine fun other => ⟨fun located => ?_, locate_overwrite free⟩
    rcases locate_of_overwrite free located with old | ⟨_, new⟩
    · exact old
    · exact absurd (.inr new) apart
  unfold nodeAt?
  cases located : fs.locate s with
  | ok other =>
    have elsewhere : other ≠ location := by rintro rfl; exact apart (.inl located)
    simp only [(unmoved other).mpr located, node?_overwrite_other elsewhere]
  | error e =>
    cases moved : (fs.overwrite location text).locate s with
    | ok other => simp [(unmoved other).mp moved] at located
    | error e => rfl

theorem text?_overwrite (denoted : fs.Denotes s location) :
    (fs.overwrite location text).text? s = some text := by
  obtain ⟨executable, node⟩ := node?_overwrite_same fs location text
  have located : (fs.overwrite location text).locate s = .ok location := by
    rcases denoted with located | written
    · exact locate_overwrite free located
    obtain ⟨path, read, slash, _, front, name, parent, names, plain, walked, directory, rfl⟩ :=
      destination_eq_ok_iff.mp written
    refine locate_eq_ok_iff.mpr ⟨path, read, ?_⟩
    simp only [slash, names, Bool.false_eq_true, ↓reduceIte, List.append_nil]
    refine walk_append.mpr ⟨parent, walk_overwrite free walked, ?_⟩
    have entered : (fs.overwrite (name :: parent) text).enter parent name = .ok (name :: parent) :=
      enter_eq_ok_iff.mpr ⟨(directory_overwrite_iff free).mpr directory,
        .inr (.inr ⟨plain, by simp [node], rfl⟩)⟩
    simp [walk, entered]
  simp [text?, nodeAt?, located, node]

end FreeLocation

theorem destination_free (written : fs.destination s = .ok location) :
    fs.node? location ≠ some .directory := by
  obtain ⟨_, _, _, free, _⟩ := destination_eq_ok_iff.mp written
  exact free

theorem text?_write {fs' : FileSystem} (written : fs.write s text = .ok fs') : fs'.text? s = some text := by
  rw [write_eq] at written
  cases reached : fs.destination s with
  | error e => simp [reached, Except.map] at written
  | ok location =>
    simp only [reached, Except.map, Except.ok.injEq] at written
    subst written
    exact text?_overwrite (destination_free reached) (.inr reached)

end TlsFixtures.FileSystem
