import TlsFixtures.Proofs.Overwriting

/-! File systems that differ in some files only. A path that does not lead through any of these files ends
alike in both, in success as in failure; the last of its names may be one of them. -/
namespace TlsFixtures.FileSystem

/-- The file systems differ at most in the given places, none of which holds a directory in either. -/
structure AlikeOutside (places : Location → Prop) (fs fs' : FileSystem) : Prop where
  workingDirectory : fs'.workingDirectory = fs.workingDirectory
  elsewhere : ∀ location, ¬places location → fs'.node? location = fs.node? location
  free : ∀ location, places location → fs.node? location ≠ some .directory
  freeAfter : ∀ location, places location → fs'.node? location ≠ some .directory

/-- Names lead to a location, be there something or not. -/
def Leads (fs : FileSystem) (start : Location) (names : List String) (location : Location) : Prop :=
  fs.walk start names = .ok location ∨ fs.EntersNew start names location

/-- A path goes on after it has come to a location. -/
def LeadsThrough (fs : FileSystem) (s : String) (location : Location) : Prop :=
  ∃ path front back, Path.ofText s = .ok path ∧ path.names = front ++ back ∧ back ≠ [] ∧
    fs.Leads (fs.start path) front location

/-- A path comes to a location, at its end or before. -/
def Meets (fs : FileSystem) (s : String) (location : Location) : Prop :=
  ∃ path front, Path.ofText s = .ok path ∧ front <+: path.names ∧ fs.Leads (fs.start path) front location

/-- Paths at which a program may be looked for. -/
def candidates (searchPath : List String) (program : String) : List String :=
  if program.toList.contains '/' then [program] else searchPath.map (· ++ "/" ++ program)

/-- File systems that come of one by writing texts at places. -/
inductive Rewritten (places : Location → Prop) (fs : FileSystem) : FileSystem → Prop where
  | refl : Rewritten places fs fs
  | overwrite : Rewritten places fs fs' → places location → Rewritten places fs (fs'.overwrite location text)

/-- Texts written at their locations, one after another. -/
def overwriteAll (fs : FileSystem) : List (Location × String) → FileSystem
  | [] => fs
  | (location, text) :: later => (fs.overwrite location text).overwriteAll later

variable {places : Location → Prop} {fs fs' : FileSystem} {location other inner start : Location}
  {s text name : String} {names : List String}

namespace AlikeOutside

theorem refl (free : ∀ location, places location → fs.node? location ≠ some .directory) :
    AlikeOutside places fs fs := ⟨rfl, fun _ _ => rfl, free, free⟩

theorem overwrite (alike : AlikeOutside places fs fs') (inside : places location) :
    AlikeOutside places fs (fs'.overwrite location text) where
  workingDirectory := alike.workingDirectory
  elsewhere other outside := by
    have apart : other ≠ location := by
      rintro rfl
      exact outside inside
    rw [node?_overwrite_other apart, alike.elsewhere other outside]
  free := alike.free
  freeAfter other inside' := by
    rw [Ne, directory_overwrite_iff (alike.freeAfter location inside)]
    exact alike.freeAfter other inside'

theorem directory_iff (alike : AlikeOutside places fs fs') (location : Location) :
    fs'.node? location = some .directory ↔ fs.node? location = some .directory := by
  by_cases inside : places location
  · exact iff_of_false (alike.freeAfter location inside) (alike.free location inside)
  · rw [alike.elsewhere location inside]

theorem start_eq (alike : AlikeOutside places fs fs') (path : Path) : fs'.start path = fs.start path := by
  simp only [start, alike.workingDirectory]

end AlikeOutside

theorem Leads.cons (leads : fs.Leads inner names location) (entered : fs.enter other name = .ok inner) :
    fs.Leads other (name :: names) location := by
  rcases leads with walked | new
  · exact .inl (by simpa [walk, entered] using walked)
  · exact .inr (new.cons entered)

theorem leads_entry (directory : fs.node? other = some .directory) (plain : Plain name) :
    fs.Leads other [name] (name :: other) := .inr ⟨[], name, other, rfl, plain, rfl, directory, rfl⟩

theorem enter_eq (here : fs'.node? location = fs.node? location)
    (entry : fs.node? location = some .directory → Plain name →
      fs'.node? (name :: location) = fs.node? (name :: location)) :
    fs'.enter location name = fs.enter location name := by
  unfold enter
  rw [here]
  cases found : fs.node? location with
  | none => rfl
  | some node =>
    cases node with
    | file f => rfl
    | directory =>
      by_cases here : name = "."
      · simp [here]
      by_cases up : name = ".."
      · simp [up]
      by_cases long : Path.nameLimit < name.utf8ByteSize
      · simp [here, up, long]
      simp only [entry found ⟨here, up, long⟩]

theorem walk_concat (front : List String) : fs.walk location (front ++ [name]) =
    match fs.walk location front with
    | .error e => .error e
    | .ok between => fs.enter between name := by
  induction front generalizing location with
  | nil =>
    simp only [List.nil_append, walk]
    cases fs.enter location name <;> rfl
  | cons first front ih =>
    simp only [List.cons_append, walk]
    cases fs.enter location first with
    | error e => rfl
    | ok inner => exact ih

namespace AlikeOutside

theorem walk_eq (alike : AlikeOutside places fs fs')
    (avoids : ∀ front location, front <+: names → fs.Leads start front location → ¬places location) :
    fs'.walk start names = fs.walk start names := by
  induction names generalizing start with
  | nil => rfl
  | cons name names ih =>
    have here := alike.elsewhere start (avoids [] start List.nil_prefix (.inl rfl))
    have entry (directory : fs.node? start = some .directory) (plain : Plain name) :=
      alike.elsewhere (name :: start)
        (avoids [name] _ (List.cons_prefix_cons.mpr ⟨rfl, List.nil_prefix⟩) (leads_entry directory plain))
    simp only [walk, enter_eq here entry]
    cases entered : fs.enter start name with
    | error e => rfl
    | ok inner =>
      exact ih fun front location part leads =>
        avoids (name :: front) location (List.cons_prefix_cons.mpr ⟨rfl, part⟩) (leads.cons entered)

theorem target_eq (alike : AlikeOutside places fs fs') {path : Path}
    (avoids : ∀ front back location, path.names = front ++ back → back ≠ [] →
      fs.Leads (fs.start path) front location → ¬places location) : fs'.target path = fs.target path := by
  unfold target
  cases last : path.names.getLast? with
  | none => rfl
  | some name =>
    obtain ⟨front, names⟩ := List.getLast?_eq_some_iff.mp last
    have walked : fs'.walk (fs.start path) front = fs.walk (fs.start path) front :=
      alike.walk_eq fun part location ⟨more, same⟩ leads =>
        avoids part (more ++ [name]) location (by rw [names, ← same, List.append_assoc]) (by simp) leads
    simp only [alike.start_eq, names, List.dropLast_concat, walk_concat, walked]
    cases reached : fs.walk (fs.start path) front with
    | error e => rfl
    | ok parent =>
      have here : fs'.node? parent = fs.node? parent :=
        alike.elsewhere parent (avoids front [name] parent names (by simp) (.inl reached))
      simp only [here, alike.directory_iff]
      by_cases dots : name = "." ∨ name = ".."
      -- A path that ends in one of these does not look for an entry of the name.
      · have entered : fs'.enter parent name = fs.enter parent name :=
          enter_eq here fun _ plain => (dots.elim plain.1 plain.2.1).elim
        simp only [dots, ↓reduceIte, entered]
      · simp only [dots, ↓reduceIte]

theorem destination_eq (alike : AlikeOutside places fs fs')
    (avoids : ∀ location, places location → ¬fs.LeadsThrough s location) :
    fs'.destination s = fs.destination s := by
  unfold destination
  cases read : Path.ofText s with
  | error e => rfl
  | ok path =>
    exact alike.target_eq fun front back location names more leads inside =>
      avoids location inside ⟨path, front, back, read, names, more, leads⟩

end AlikeOutside

/-- If the names can be followed, what they lead to is what is reached. -/
theorem Leads.eq_of_walk (leads : fs.Leads start names location) (walked : fs.walk start names = .ok inner) :
    inner = location := by
  rcases leads with walked' | ⟨front, name, parent, rfl, plain, reached, _, rfl⟩
  · exact Except.ok.inj (walked.symm.trans walked')
  · simp only [walk_concat, reached] at walked
    obtain ⟨_, here | up | ⟨_, _, same⟩⟩ := enter_eq_ok_iff.mp walked
    · exact absurd here.1 plain.1
    · exact absurd up.1 plain.2.1
    · exact same.symm

theorem directory_of_walk (walked : fs.walk location (name :: names) = .ok inner) :
    fs.node? location = some .directory := by
  cases entered : fs.enter location name with
  | error e => simp [walk, entered] at walked
  | ok next => exact (enter_eq_ok_iff.mp entered).1

/-- A path to a file comes to nothing but directories before its last name. -/
theorem not_leadsThrough_destination (written : fs.destination s = .ok location) :
    ¬fs.LeadsThrough s location := by
  rintro ⟨path, front, back, read, names, more, leads⟩
  obtain ⟨path', read', _, free, all, name, parent, names', _, walked, directory, _⟩ :=
    destination_eq_ok_iff.mp written
  obtain rfl : path = path' := Except.ok.inj (read.symm.trans read')
  obtain ⟨middle, last, rfl⟩ := (List.eq_nil_or_concat back).resolve_left more
  rw [names, List.concat_eq_append, ← List.append_assoc] at names'
  obtain ⟨rfl, _⟩ := List.append_singleton_inj.mp names'
  obtain ⟨between, reached, onward⟩ := walk_append.mp walked
  obtain rfl := leads.eq_of_walk reached
  cases middle with
  | nil =>
    obtain rfl : between = parent := Except.ok.inj onward
    exact free directory
  | cons next middle => exact free (directory_of_walk onward)

/-- A path of one name leads through nothing but the place where it begins. -/
theorem LeadsThrough.start_eq {path : Path} (leads : fs.LeadsThrough s location)
    (read : Path.ofText s = .ok path) (short : path.names.length ≤ 1) : fs.start path = location := by
  obtain ⟨path', front, back, read', names, more, leads⟩ := leads
  obtain rfl : path = path' := Except.ok.inj (read.symm.trans read')
  have some : 0 < back.length := List.length_pos_iff.mpr more
  have empty : front = [] := by
    rw [names, List.length_append] at short
    exact List.length_eq_zero_iff.mp (by omega)
  subst empty
  rcases leads with here | ⟨before, name, _, impossible, _⟩
  · exact Except.ok.inj here
  · simp at impossible

/-- What a path to a file finds is what is at its destination. -/
theorem nodeAt?_of_destination (written : fs.destination s = .ok location) :
    fs.nodeAt? s = fs.node? location := by
  obtain ⟨path, read, slash, free, front, name, parent, names, plain, walked, directory, rfl⟩ :=
    destination_eq_ok_iff.mp written
  have located : fs.locate s = fs.enter parent name := by
    simp [locate, read, slash, names, walk_concat, walked]
  have entered : fs.enter parent name =
      if (fs.node? (name :: parent)).isSome then .ok (name :: parent) else .error .notFound := by
    simp [enter, directory, plain.1, plain.2.1, plain.2.2]
  rw [nodeAt?, located, entered]
  cases found : fs.node? (name :: parent) <;> simp [found]

theorem overwrite_same {executable : Bool}
    (holds : fs.node? location = some (.file ⟨.text text, executable⟩)) : fs.overwrite location text = fs := by
  have same : (fs.overwrite location text).node? = fs.node? := by
    funext other
    by_cases here : other = location
    · simp [here, overwrite, holds, rewritten]
    · exact node?_overwrite_other here
  calc fs.overwrite location text
      = ⟨(fs.overwrite location text).node?, fs.workingDirectory⟩ := rfl
    _ = fs := by rw [same]

/-- Names that lead on to a point lead to the directory before it. -/
theorem Leads.of_point (leads : fs.Leads start (names ++ ["."]) location) : fs.Leads start names location := by
  rcases leads with walked | new
  · simp only [walk_concat] at walked
    split at walked
    next => exact nomatch walked
    next between reached =>
      obtain ⟨_, here | up | ⟨plain, _⟩⟩ := enter_eq_ok_iff.mp walked
      · exact .inl (reached.trans (congrArg Except.ok here.2))
      · exact absurd up.1 (by decide)
      · exact absurd rfl plain.1
  · exact absurd rfl (entersNew_append_singleton.mp new).1.1

/-- Whatever is passed when a path is looked up, the path meets. -/
theorem Meets.of_leads {path : Path} (read : Path.ofText s = .ok path) {front : List String}
    (part : front <+: path.names ++ if path.wantsDirectory then ["."] else [])
    (leads : fs.Leads (fs.start path) front location) : fs.Meets s location := by
  cases slash : path.wantsDirectory with
  | false =>
    simp only [slash, Bool.false_eq_true, ↓reduceIte, List.append_nil] at part
    exact ⟨path, front, read, part, leads⟩
  | true =>
    simp only [slash, ↓reduceIte] at part
    rcases List.prefix_concat_iff.mp part with rfl | part
    · exact ⟨path, path.names, read, List.prefix_rfl, leads.of_point⟩
    · exact ⟨path, front, read, part, leads⟩

/-- A path of one name meets the place where it begins and the place that it finds. -/
theorem Meets.of_name {path : Path} (meets : fs.Meets s location) (read : Path.ofText s = .ok path)
    (short : path.names = [name]) (walked : fs.walk (fs.start path) [name] = .ok inner) :
    location = fs.start path ∨ location = inner := by
  obtain ⟨path', front, read', part, leads⟩ := meets
  obtain rfl : path = path' := Except.ok.inj (read.symm.trans read')
  rw [short, ← List.nil_append [name]] at part
  rcases List.prefix_concat_iff.mp part with rfl | part
  · exact .inr (leads.eq_of_walk walked).symm
  · obtain rfl := List.prefix_nil.mp part
    exact .inl (leads.eq_of_walk rfl).symm

theorem Meets.of_locate (located : fs.locate s = .ok location) : fs.Meets s location := by
  obtain ⟨path, read, walked⟩ := locate_eq_ok_iff.mp located
  exact .of_leads read List.prefix_rfl (.inl walked)

namespace AlikeOutside

section Reading

variable (alike : AlikeOutside places fs fs')
include alike

theorem locate_eq (avoids : ∀ location, places location → ¬fs.Meets s location) :
    fs'.locate s = fs.locate s := by
  unfold locate
  cases read : Path.ofText s with
  | error e => rfl
  | ok path =>
    simp only [alike.start_eq]
    exact alike.walk_eq fun front location part leads inside =>
      avoids location inside (.of_leads read part leads)

theorem node?_of_locate (avoids : ∀ location, places location → ¬fs.Meets s location)
    (located : fs.locate s = .ok location) : fs'.node? location = fs.node? location :=
  alike.elsewhere location fun inside => avoids location inside (.of_locate located)

theorem execute_eq (avoids : ∀ location, places location → ¬fs.Meets s location) :
    fs'.execute s = fs.execute s := by
  unfold execute
  rw [alike.locate_eq avoids]
  cases located : fs.locate s with
  | error e => rfl
  | ok location => simp only [alike.node?_of_locate avoids located]

theorem dissection_eq (avoids : ∀ location, places location → ¬fs.Meets s location) (filter : String) :
    fs'.dissection s filter = fs.dissection s filter := by
  unfold dissection nodeAt?
  rw [alike.locate_eq avoids]
  cases located : fs.locate s with
  | error e => rfl
  | ok location => simp only [alike.node?_of_locate avoids located]

theorem search_eq {directories : List String} (denied : Bool)
    (avoids : ∀ directory ∈ directories, ∀ location, places location →
      ¬fs.Meets (directory ++ "/" ++ name) location) :
    fs'.search name denied directories = fs.search name denied directories := by
  induction directories generalizing denied with
  | nil => rfl
  | cons directory rest ih =>
    obtain ⟨first, later⟩ := List.forall_mem_cons.mp avoids
    simp only [search, alike.execute_eq first, ih _ later]

theorem startProgram_eq {searchPath : List String} {program : String}
    (avoids : ∀ candidate ∈ candidates searchPath program, ∀ location, places location →
      ¬fs.Meets candidate location) (arguments : List String) :
    fs'.startProgram searchPath program arguments = fs.startProgram searchPath program arguments := by
  unfold startProgram
  by_cases slash : program.toList.contains '/' = true
  · simp only [candidates, slash, ↓reduceIte, List.forall_mem_singleton] at avoids
    simp only [slash, ↓reduceIte, alike.execute_eq avoids]
  · simp only [candidates, slash, Bool.false_eq_true, ↓reduceIte, List.forall_mem_map] at avoids
    simp only [slash, Bool.false_eq_true, ↓reduceIte, alike.search_eq false avoids]

end Reading

end AlikeOutside

section Sequences

variable {writes : List (Location × String)}

theorem overwriteAll_append (writes later : List (Location × String)) :
    fs.overwriteAll (writes ++ later) = (fs.overwriteAll writes).overwriteAll later := by
  induction writes generalizing fs with
  | nil => rfl
  | cons write writes ih => exact ih

theorem Rewritten.trans {next : FileSystem} (first : Rewritten places fs next)
    (second : Rewritten places next fs') : Rewritten places fs fs' := by
  induction second with
  | refl => exact first
  | overwrite _ inside ih => exact .overwrite ih inside

theorem rewritten_overwriteAll (within : ∀ write ∈ writes, places write.1) :
    Rewritten places fs (fs.overwriteAll writes) := by
  induction writes generalizing fs with
  | nil => exact .refl
  | cons write writes ih =>
    obtain ⟨first, later⟩ := List.forall_mem_cons.mp within
    exact Rewritten.trans (.overwrite .refl first) (ih later)

theorem AlikeOutside.rewritten {next : FileSystem} (alike : AlikeOutside places fs fs')
    (rewritten : Rewritten places fs' next) : AlikeOutside places fs next := by
  induction rewritten with
  | refl => exact alike
  | overwrite _ inside ih => exact ih.overwrite inside

/-- A path finds what it found before if it denotes no place that is written. -/
theorem text?_overwriteAll (free : ∀ write ∈ writes, fs.node? write.1 ≠ some .directory)
    (apart : ∀ write ∈ writes, ¬fs.Denotes s write.1) : (fs.overwriteAll writes).text? s = fs.text? s := by
  induction writes generalizing fs with
  | nil => rfl
  | cons write writes ih =>
    obtain ⟨free, freeLater⟩ := List.forall_mem_cons.mp free
    obtain ⟨apart, apartLater⟩ := List.forall_mem_cons.mp apart
    have kept : (fs.overwrite write.1 write.2).nodeAt? s = fs.nodeAt? s := nodeAt?_overwrite free apart
    refine (ih ?_ ?_).trans (text?_eq_of_nodeAt?_eq kept)
    · simpa only [Ne, directory_overwrite_iff free] using freeLater
    · simpa only [denotes_overwrite_iff free] using apartLater

/-- A location at which one text only is written holds it in the end. -/
theorem node?_overwriteAll (only : ∀ write ∈ writes, write.1 = location → write.2 = text)
    (written : (location, text) ∈ writes ∨
      ∃ executable, fs.node? location = some (.file ⟨.text text, executable⟩)) :
    ∃ executable, (fs.overwriteAll writes).node? location = some (.file ⟨.text text, executable⟩) := by
  induction writes generalizing fs with
  | nil => exact written.resolve_left List.not_mem_nil
  | cons write writes ih =>
    obtain ⟨place, new⟩ := write
    obtain ⟨first, later⟩ := List.forall_mem_cons.mp only
    refine ih later ?_
    by_cases here : place = location
    · obtain rfl : new = text := first here
      subst here
      exact .inr (node?_overwrite_same fs place new)
    · refine written.imp (fun member => ?_) (fun holds => ?_)
      · refine (List.mem_cons.mp member).resolve_left fun same => here (congrArg Prod.fst same).symm
      · rwa [node?_overwrite_other (Ne.symm here)]

theorem overwriteAll_of_same (same : ∀ write ∈ writes, fs.overwrite write.1 write.2 = fs) :
    fs.overwriteAll writes = fs := by
  induction writes with
  | nil => rfl
  | cons write writes ih =>
    obtain ⟨first, later⟩ := List.forall_mem_cons.mp same
    rw [overwriteAll, first, ih later]

end Sequences

end TlsFixtures.FileSystem
