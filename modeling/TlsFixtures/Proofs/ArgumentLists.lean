import TlsFixtures.CommandLine.Arguments

/-! What an argument list is taken for. The settings that its arguments spell, in whatever order and spelling, may
stand together if none that counts once is made twice and no path is empty; then the list asks for a run with
exactly these settings, and with the inputs in their order, those behind a double dash among them. -/
namespace TlsFixtures.CommandLine

/-- What an argument, or an argument with its value, sets. -/
inductive Setting where
  | value (o : ValueOption) (text : String)
  | flag (f : Flag)
  | input (path : String)
  deriving DecidableEq

namespace Setting

def value? (o : ValueOption) : Setting → Option String
  | value other text => if other = o then some text else none
  | _ => none

def input? : Setting → Option String
  | input path => some path
  | _ => none

/-- An empty text is no path, and to ask for the version or for help is no setting of a run. -/
def Proper : Setting → Prop
  | value o text => o = .oraclePath ∨ text ≠ ""
  | flag f => f = .noProgress ∨ f = .verbose
  | input path => path ≠ ""

/-- Whether two settings are of one kind that counts once. -/
def Clashes : Setting → Setting → Prop
  | value o _, value other _ => o = other
  | flag .noProgress, flag .noProgress => True
  | _, _ => False

end Setting

/-- Settings that may stand in one argument list. -/
structure Permitted (settings : List Setting) : Prop where
  proper : ∀ s ∈ settings, s.Proper
  apart : settings.Pairwise fun s t => ¬s.Clashes t

/-- What settings come to. -/
def total (settings : List Setting) : Arguments where
  ja4 := settings.findSome? (Setting.value? (.output .ja4))
  ja4s := settings.findSome? (Setting.value? (.output .ja4s))
  ja4x := settings.findSome? (Setting.value? (.output .ja4x))
  program := settings.findSome? (Setting.value? .program)
  oraclePath := settings.findSome? (Setting.value? .oraclePath)
  noProgress := settings.contains (.flag .noProgress)
  verbosity := settings.count (.flag .verbose)
  inputs := settings.filterMap Setting.input?

def ValueOption.name : ValueOption → String
  | output .ja4 => "ja4"
  | output .ja4s => "ja4s"
  | output .ja4x => "ja4x"
  | program => "tshark"
  | oraclePath => "oracle-path"

def Flag.name : Flag → String
  | noProgress => "no-progress"
  | verbose => "verbose"
  | version => "version"
  | help => "help"

def Flag.letter? : Flag → Option Char
  | noProgress => none
  | verbose => some 'v'
  | version => some 'V'
  | help => some 'h'

/-- A dash at the beginning makes an argument an option, unless it is the whole argument. -/
def Undashed (argument : String) : Prop := argument = "-" ∨ argument.toList.head? ≠ some '-'

/-- Arguments and the settings they spell. -/
inductive Spells : List String → List Setting → Prop where
  | nil : Spells [] []
  | attached : Spells rest settings → Spells (("--" ++ o.name ++ "=" ++ text) :: rest) (.value o text :: settings)
  | detached : Undashed text → Spells rest settings →
      Spells (("--" ++ o.name) :: text :: rest) (.value o text :: settings)
  | longFlag : Spells rest settings → Spells (("--" ++ f.name) :: rest) (.flag f :: settings)
  | shortFlags : flags.map Flag.letter? = letters.map some → flags ≠ [] → Spells rest settings →
      Spells (("-" ++ String.ofList letters) :: rest) (flags.map .flag ++ settings)
  | input : Undashed path → Spells rest settings → Spells (path :: rest) (.input path :: settings)
  | inputs (paths : List String) : Spells ("--" :: paths) (paths.map .input)

namespace Arguments

def value? (a : Arguments) : ValueOption → Option String
  | .output .ja4 => a.ja4
  | .output .ja4s => a.ja4s
  | .output .ja4x => a.ja4x
  | .program => a.program
  | .oraclePath => a.oraclePath

/-- Whether nothing that is set clashes with the setting. -/
def Admits (a : Arguments) : Setting → Prop
  | .value o _ => a.value? o = none
  | .flag .noProgress => a.noProgress = false
  | _ => True

def after (a : Arguments) : Setting → Arguments
  | .value (.output .ja4) text => { a with ja4 := some text }
  | .value (.output .ja4s) text => { a with ja4s := some text }
  | .value (.output .ja4x) text => { a with ja4x := some text }
  | .value .program text => { a with program := some text }
  | .value .oraclePath text => { a with oraclePath := some text }
  | .flag .noProgress => { a with noProgress := true }
  | .flag .verbose => { a with verbosity := a.verbosity + 1 }
  | .flag _ => a
  | .input path => { a with inputs := a.inputs ++ [path] }

end Arguments

variable {arguments rest : List String} {a a' : Arguments} {done settings : List Setting} {s : Setting}
  {argument name text path : String} {o : ValueOption} {f : Flag}

theorem value?_total (settings : List Setting) (o : ValueOption) :
    (total settings).value? o = settings.findSome? (Setting.value? o) := by
  rcases o with v | _ | _
  · cases v <;> rfl
  · rfl
  · rfl

/-- A value is taken where none was, and an empty one only if it is no path. -/
theorem setOnce_eq_ok_iff {isPath : Bool} {old : Option String} {update : Option String → Arguments} :
    (setOnce name text isPath old >>= fun new => pure (update new)) = .ok a ↔
      old = none ∧ (isPath = true → text ≠ "") ∧ update (some text) = a := by
  cases old with
  | some _ => exact ⟨nofun, nofun⟩
  | none =>
    by_cases refused : (isPath && text.isEmpty) = true
    · rw [setOnce, if_pos refused]
      refine ⟨nofun, fun ⟨_, filled, _⟩ => ?_⟩
      simp_all
    · rw [setOnce, if_neg refused]
      simp only [Bool.and_eq_true, String.isEmpty_iff, not_and] at refused
      exact ⟨fun set => ⟨rfl, refused, Except.ok.inj set⟩, fun ⟨_, _, set⟩ => congrArg Except.ok set⟩

theorem withValue_eq_ok_iff : a.withValue name text o = .ok a' ↔
    a.Admits (.value o text) ∧ (Setting.value o text).Proper ∧ a.after (.value o text) = a' := by
  rcases o with (_ | _ | _) | _ | _
  all_goals
    refine setOnce_eq_ok_iff.trans (and_congr_right fun _ => and_congr_left fun _ => ?_)
    simp [Setting.Proper]

theorem withFlag_eq_inl_iff : a.withFlag name f = .ok (.inl a') ↔
    a.Admits (.flag f) ∧ (Setting.flag f).Proper ∧ a.after (.flag f) = a' := by
  cases f with
  | noProgress =>
    cases shown : a.noProgress <;>
      simp [Arguments.withFlag, Arguments.Admits, Setting.Proper, Arguments.after, shown]
  | verbose => simp [Arguments.withFlag, Arguments.Admits, Setting.Proper, Arguments.after]
  | version => simp [Arguments.withFlag, Setting.Proper]
  | help => simp [Arguments.withFlag, Setting.Proper]

theorem withInput_eq_ok_iff : a.withInput path = .ok a' ↔
    a.Admits (.input path) ∧ (Setting.input path).Proper ∧ a.after (.input path) = a' := by
  by_cases empty : path = "" <;>
    simp [Arguments.withInput, Arguments.Admits, Setting.Proper, Arguments.after, empty]

theorem admits_total_iff : (total done).Admits s ↔ ∀ t ∈ done, ¬t.Clashes s := by
  match s with
  | .value o text =>
    have same : ∀ t : Setting, t.value? o = none ↔ ¬t.Clashes (.value o text) := by
      rintro (⟨other, _⟩ | _ | _) <;> simp [Setting.value?, Setting.Clashes]
    simp only [Arguments.Admits, value?_total, List.findSome?_eq_none_iff, same]
  | .flag .noProgress =>
    have same : ∀ t : Setting, t ≠ .flag .noProgress ↔ ¬t.Clashes (.flag .noProgress) := by
      rintro (_ | (_ | _ | _ | _) | _) <;> simp [Setting.Clashes]
    simp only [Arguments.Admits, total, List.contains_eq_mem, decide_eq_false_iff_not, ← same]
    exact ⟨fun absent t member => ne_of_mem_of_not_mem member absent, fun apart member => apart _ member rfl⟩
  | .flag .verbose | .flag .version | .flag .help | .input _ =>
    refine ⟨fun _ t _ => ?_, fun _ => trivial⟩
    rcases t with _ | (_ | _ | _ | _) | _ <;> exact id

theorem total_concat (admits : (total done).Admits s) : total (done ++ [s]) = (total done).after s := by
  match s with
  | .value o text =>
    have none : done.findSome? (Setting.value? o) = none := (value?_total done o).symm.trans admits
    rcases o with (_ | _ | _) | _ | _ <;>
      simp [total, Arguments.after, Setting.value?, Setting.input?, none]
  | .flag f => cases f <;> simp [total, Arguments.after, Setting.value?, Setting.input?]
  | .input path => simp [total, Arguments.after, Setting.value?, Setting.input?]

theorem Permitted.earlier {later : List Setting} (permitted : Permitted (done ++ later)) : Permitted done :=
  ⟨(List.forall_mem_append.mp permitted.proper).1, (List.pairwise_append.mp permitted.apart).1⟩

theorem permitted_concat_iff :
    Permitted (done ++ [s]) ↔ Permitted done ∧ s.Proper ∧ ∀ t ∈ done, ¬t.Clashes s := by
  constructor
  · rintro ⟨proper, apart⟩
    obtain ⟨before, last⟩ := List.forall_mem_append.mp proper
    obtain ⟨earlier, _, clear⟩ := List.pairwise_append.mp apart
    exact ⟨⟨before, earlier⟩, last s (.head _), fun t member => clear t member s (.head _)⟩
  · rintro ⟨⟨before, earlier⟩, last, clear⟩
    refine ⟨List.forall_mem_append.mpr ⟨before, List.forall_mem_singleton.mpr last⟩, ?_⟩
    refine List.pairwise_append.mpr ⟨earlier, List.pairwise_singleton _ _, ?_⟩
    intro t member other only
    obtain rfl := List.mem_singleton.mp only
    exact clear t member

/-- A setting is taken exactly if it may stand with those before it. -/
theorem taken_iff (permitted : Permitted done) :
    (total done).Admits s ∧ s.Proper ∧ (total done).after s = a ↔
      Permitted (done ++ [s]) ∧ total (done ++ [s]) = a := by
  rw [permitted_concat_iff, ← admits_total_iff]
  constructor
  · rintro ⟨admits, proper, rfl⟩
    exact ⟨⟨permitted, proper, admits⟩, total_concat admits⟩
  · rintro ⟨⟨_, proper, admits⟩, rfl⟩
    exact ⟨admits, proper, (total_concat admits).symm⟩

theorem withValue_total (permitted : Permitted done) : (total done).withValue name text o = .ok a ↔
    Permitted (done ++ [.value o text]) ∧ total (done ++ [.value o text]) = a :=
  withValue_eq_ok_iff.trans (taken_iff permitted)

theorem withFlag_total (permitted : Permitted done) : (total done).withFlag name f = .ok (.inl a) ↔
    Permitted (done ++ [.flag f]) ∧ total (done ++ [.flag f]) = a :=
  withFlag_eq_inl_iff.trans (taken_iff permitted)

theorem withInput_total (permitted : Permitted done) : (total done).withInput path = .ok a ↔
    Permitted (done ++ [.input path]) ∧ total (done ++ [.input path]) = a :=
  withInput_eq_ok_iff.trans (taken_iff permitted)

theorem valueOption?_eq_some_iff : valueOption? name = some o ↔ o.name = name := by
  constructor
  · intro known
    unfold valueOption? at known
    split at known
    case h_6 => exact nomatch known
    all_goals
      cases known
      rfl
  · rintro rfl
    rcases o with (_ | _ | _) | _ | _ <;> rfl

theorem longFlag?_eq_some_iff : longFlag? name = some f ↔ f.name = name := by
  constructor
  · intro known
    unfold longFlag? at known
    split at known
    case h_5 => exact nomatch known
    all_goals
      cases known
      rfl
  · rintro rfl
    cases f <;> rfl

theorem shortFlag?_eq_some_iff {letter : Char} : shortFlag? letter = some f ↔ f.letter? = some letter := by
  constructor
  · intro known
    unfold shortFlag? at known
    split at known
    case h_4 => exact nomatch known
    all_goals
      cases known
      rfl
  · intro lettered
    cases f with
    | noProgress => exact nomatch lettered
    | verbose | version | help =>
      cases lettered
      rfl

theorem ValueOption.known (o : ValueOption) : valueOption? o.name = some o := valueOption?_eq_some_iff.mpr rfl

theorem Flag.known (f : Flag) : longFlag? f.name = some f := longFlag?_eq_some_iff.mpr rfl

theorem ValueOption.name_whole (o : ValueOption) : o.name.toList ≠ [] ∧ '=' ∉ o.name.toList := by
  rcases o with (_ | _ | _) | _ | _ <;> simp [name]

theorem Flag.name_whole (f : Flag) : f.name.toList ≠ [] ∧ '=' ∉ f.name.toList := by
  cases f <;> simp [name]

theorem Flag.valueless (f : Flag) : valueOption? f.name = none := by
  cases f <;> rfl

theorem isPlain_iff : isPlain argument = true ↔ Undashed argument := by
  rw [isPlain, Undashed, ← String.toList_inj]
  split
  next single => simp [single]
  next rest other chars =>
    have some : rest ≠ [] := other
    simp [chars, some]
  next other =>
    have undashed : argument.toList.head? ≠ some '-' := by
      intro dash
      obtain ⟨flags, chars⟩ := List.head?_eq_some_iff.mp dash
      exact other flags chars
    simp [undashed]

theorem forall_ne_equals {name : List Char} (whole : '=' ∉ name) : ∀ c ∈ name, decide (c ≠ '=') = true := by
  intro c member
  simpa using ne_of_mem_of_not_mem member whole

theorem splitAttached_attached {name : List Char} (whole : '=' ∉ name) (text : List Char) :
    splitAttached (name ++ '=' :: text) = (String.ofList name, some (String.ofList text)) := by
  have before := forall_ne_equals whole
  rw [splitAttached, List.takeWhile_append_of_pos before, List.dropWhile_append_of_pos before]
  simp

theorem splitAttached_alone {name : List Char} (whole : '=' ∉ name) :
    splitAttached name = (String.ofList name, none) := by
  have before := forall_ne_equals whole
  have taken : (name ++ []).takeWhile (· ≠ '=') = name ++ [] := List.takeWhile_append_of_pos before
  have dropped : (name ++ []).dropWhile (· ≠ '=') = [] := List.dropWhile_append_of_pos before
  rw [List.append_nil] at taken dropped
  rw [splitAttached, taken, dropped]

/-- A name with a value attached, as it stands behind two dashes. -/
theorem exists_attached (whole : name.toList ≠ [] ∧ '=' ∉ name.toList) (text : String) : ∃ c option,
    ("--" ++ name ++ "=" ++ text).toList = '-' :: '-' :: c :: option ∧
      splitAttached (c :: option) = (name, some text) := by
  obtain ⟨c, cs, begins⟩ := List.exists_cons_of_ne_nil whole.1
  refine ⟨c, cs ++ '=' :: text.toList, by simp [begins], ?_⟩
  rw [← List.cons_append, ← begins, splitAttached_attached whole.2, String.ofList_toList, String.ofList_toList]

theorem exists_alone (whole : name.toList ≠ [] ∧ '=' ∉ name.toList) : ∃ c option,
    ("--" ++ name).toList = '-' :: '-' :: c :: option ∧ splitAttached (c :: option) = (name, none) := by
  obtain ⟨c, cs, begins⟩ := List.exists_cons_of_ne_nil whole.1
  refine ⟨c, cs, by simp [begins], ?_⟩
  rw [← begins, splitAttached_alone whole.2, String.ofList_toList]

theorem read_attached_iff : read a (("--" ++ o.name ++ "=" ++ text) :: rest) = .ok (.generate a') ↔
    ∃ next, a.withValue ("--" ++ o.name ++ "=" ++ text) text o = .ok next ∧ read next rest = .ok (.generate a') := by
  obtain ⟨c, option, chars, split⟩ := exists_attached o.name_whole text
  rw [read, chars]
  simp only [split, o.known]
  cases a.withValue ("--" ++ o.name ++ "=" ++ text) text o <;> simp

theorem read_detached_iff (undashed : Undashed text) :
    read a (("--" ++ o.name) :: text :: rest) = .ok (.generate a') ↔
      ∃ next, a.withValue ("--" ++ o.name) text o = .ok next ∧ read next rest = .ok (.generate a') := by
  obtain ⟨c, option, chars, split⟩ := exists_alone o.name_whole
  rw [read, chars]
  simp only [split, o.known, if_pos (isPlain_iff.mpr undashed)]
  cases a.withValue ("--" ++ o.name) text o <;> simp

theorem withFlag_ne_generate : a.withFlag name f ≠ .ok (.inr (.generate a')) := by
  cases f with
  | noProgress => cases shown : a.noProgress <;> simp [Arguments.withFlag, shown]
  | verbose | version | help => exact nofun

theorem read_longFlag_iff : read a (("--" ++ f.name) :: rest) = .ok (.generate a') ↔
    ∃ next, a.withFlag ("--" ++ f.name) f = .ok (.inl next) ∧ read next rest = .ok (.generate a') := by
  obtain ⟨c, option, chars, split⟩ := exists_alone f.name_whole
  rw [read, chars]
  simp only [split, f.valueless, f.known]
  rcases flagged : a.withFlag ("--" ++ f.name) f with _ | next | request
  · simp
  · simp
  · have settled : request ≠ .generate a' := fun same => withFlag_ne_generate (same ▸ flagged)
    simpa using settled

theorem withShortFlags_ne_generate {letters : List Char} :
    a.withShortFlags argument letters ≠ .ok (.inr (.generate a')) := by
  induction letters generalizing a with
  | nil => exact nofun
  | cons letter letters ih =>
    rw [Arguments.withShortFlags]
    split
    · exact nofun
    · split
      next => exact ih
      next result _ =>
        intro settled
        exact withFlag_ne_generate settled

theorem read_shortFlags_iff {letter : Char} {letters : List Char} (other : letter ≠ '-') :
    read a (("-" ++ String.ofList (letter :: letters)) :: rest) = .ok (.generate a') ↔
      ∃ next, a.withShortFlags ("-" ++ String.ofList (letter :: letters)) (letter :: letters) = .ok (.inl next) ∧
        read next rest = .ok (.generate a') := by
  have chars : ("-" ++ String.ofList (letter :: letters)).toList = '-' :: letter :: letters := by simp
  rw [read, chars]
  split
  · simp_all
  · simp_all
  next flag flags _ _ same =>
    obtain ⟨rfl, rfl⟩ : letter = flag ∧ letters = flags := by simpa using same
    rcases flagged : a.withShortFlags ("-" ++ String.ofList (letter :: letters)) (letter :: letters) with
      _ | next | request
    · simp
    · simp
    · have settled : request ≠ .generate a' := fun same => withShortFlags_ne_generate (same ▸ flagged)
      simpa using settled
  next _ _ none => exact absurd rfl (none letter letters)

theorem read_input_iff (undashed : Undashed path) : read a (path :: rest) = .ok (.generate a') ↔
    ∃ next, a.withInput path = .ok next ∧ read next rest = .ok (.generate a') := by
  have plain := isPlain_iff.mpr undashed
  rw [read]
  split
  next chars => simp [isPlain, chars] at plain
  next chars => simp [isPlain, chars] at plain
  next chars => simp [isPlain, chars] at plain
  next => cases a.withInput path <;> simp

theorem withShortFlags_cons_iff {letter : Char} {letters : List Char} :
    a.withShortFlags argument (letter :: letters) = .ok (.inl a') ↔
      ∃ f, f.letter? = some letter ∧ ∃ next, a.withFlag argument f = .ok (.inl next) ∧
        next.withShortFlags argument letters = .ok (.inl a') := by
  rw [Arguments.withShortFlags]
  cases known : shortFlag? letter with
  | none =>
    have unlettered : ∀ f : Flag, f.letter? ≠ some letter := by
      intro f lettered
      exact nomatch known.symm.trans (shortFlag?_eq_some_iff.mpr lettered)
    simp [unlettered]
  | some f =>
    have only : ∀ other : Flag, other.letter? = some letter ↔ f = other := by
      intro other
      rw [← shortFlag?_eq_some_iff, known, Option.some.injEq]
    rcases flagged : a.withFlag argument f with _ | next | request <;> simp [only, flagged]

theorem withShortFlags_total (permitted : Permitted done) {letters : List Char} :
    (total done).withShortFlags argument letters = .ok (.inl a) ↔
      ∃ flags : List Flag, flags.map Flag.letter? = letters.map some ∧ Permitted (done ++ flags.map .flag) ∧
        total (done ++ flags.map .flag) = a := by
  induction letters generalizing done with
  | nil => simp [Arguments.withShortFlags, permitted]
  | cons letter letters ih =>
    rw [withShortFlags_cons_iff]
    constructor
    · rintro ⟨f, lettered, next, first, later⟩
      obtain ⟨permitted, rfl⟩ := (withFlag_total permitted).mp first
      obtain ⟨flags, spelled, all⟩ := (ih permitted).mp later
      rw [List.append_assoc] at all
      exact ⟨f :: flags, by rw [List.map_cons, List.map_cons, lettered, spelled], all⟩
    · rintro ⟨flags, spelled, all⟩
      obtain ⟨f, later, rfl, lettered, behind⟩ := List.map_eq_cons_iff.mp spelled
      rw [List.map_cons, List.append_cons] at all
      have first := all.1.earlier
      exact ⟨f, lettered, _, (withFlag_total permitted).mpr ⟨first, rfl⟩, (ih first).mpr ⟨later, behind, all⟩⟩

theorem readInputs_cons_iff {paths : List String} : readInputs a (path :: paths) = .ok (.generate a') ↔
    ∃ next, a.withInput path = .ok next ∧ readInputs next paths = .ok (.generate a') := by
  rw [readInputs]
  cases a.withInput path <;> simp

theorem readInputs_total (permitted : Permitted done) {paths : List String} :
    readInputs (total done) paths = .ok (.generate a) ↔
      Permitted (done ++ paths.map .input) ∧ total (done ++ paths.map .input) = a := by
  induction paths generalizing done with
  | nil => simp [readInputs, permitted]
  | cons path paths ih =>
    rw [readInputs_cons_iff, List.map_cons, List.append_cons]
    constructor
    · rintro ⟨next, first, later⟩
      obtain ⟨permitted, rfl⟩ := (withInput_total permitted).mp first
      exact (ih permitted).mp later
    · intro all
      have first := all.1.earlier
      exact ⟨_, (withInput_total permitted).mpr ⟨first, rfl⟩, (ih first).mpr all⟩

/-- Behind some arguments, those that spell settings which may stand with them are all read. -/
theorem Spells.read_eq (spells : Spells arguments settings) (permitted : Permitted (done ++ settings)) :
    read (total done) arguments = .ok (.generate (total (done ++ settings))) := by
  have started := permitted.earlier
  induction spells generalizing done with
  | nil => simp [read]
  | attached _ ih =>
    rw [List.append_cons] at permitted ⊢
    have first := permitted.earlier
    exact read_attached_iff.mpr ⟨_, (withValue_total started).mpr ⟨first, rfl⟩, ih permitted first⟩
  | detached undashed _ ih =>
    rw [List.append_cons] at permitted ⊢
    have first := permitted.earlier
    exact (read_detached_iff undashed).mpr ⟨_, (withValue_total started).mpr ⟨first, rfl⟩, ih permitted first⟩
  | longFlag _ ih =>
    rw [List.append_cons] at permitted ⊢
    have first := permitted.earlier
    exact read_longFlag_iff.mpr ⟨_, (withFlag_total started).mpr ⟨first, rfl⟩, ih permitted first⟩
  | @shortFlags flags letters _ _ lettered some _ ih =>
    rw [← List.append_assoc] at permitted ⊢
    have first := permitted.earlier
    cases flags with
    | nil => contradiction
    | cons f flags =>
      obtain ⟨letter, later, rfl, own, _⟩ := List.map_eq_cons_iff.mp lettered.symm
      have other : letter ≠ '-' := by
        rintro rfl
        cases f <;> exact nomatch own
      refine (read_shortFlags_iff other).mpr ⟨_, ?_, ih permitted first⟩
      exact (withShortFlags_total started).mpr ⟨f :: flags, lettered, first, rfl⟩
  | input undashed _ ih =>
    rw [List.append_cons] at permitted ⊢
    have first := permitted.earlier
    exact (read_input_iff undashed).mpr ⟨_, (withInput_total started).mpr ⟨first, rfl⟩, ih permitted first⟩
  | inputs paths => exact (readInputs_total started).mpr ⟨permitted, rfl⟩

/-- Nothing of an option is lost between its name and the value attached to it. -/
theorem toList_splitAttached (option : List Char) :
    (splitAttached option).1.toList ++ ((splitAttached option).2.elim [] fun text => '=' :: text.toList) = option := by
  have whole := List.takeWhile_append_dropWhile (p := fun c => decide (c ≠ '=')) (l := option)
  rw [splitAttached]
  rcases behind : option.dropWhile (fun c => decide (c ≠ '=')) with _ | ⟨c, text⟩
  · rw [behind] at whole
    simpa using whole
  · rw [behind] at whole
    have stopped : ¬decide (c ≠ '=') = true := by
      have head := List.head?_dropWhile_not (fun c => decide (c ≠ '=')) option
      rw [behind] at head
      simpa using head
    obtain rfl : c = '=' := by simpa using stopped
    simpa using whole

theorem eq_attached {option : List Char} (chars : argument.toList = '-' :: '-' :: option)
    (split : splitAttached option = (name, some text)) : argument = "--" ++ name ++ "=" ++ text := by
  have whole := toList_splitAttached option
  rw [split] at whole
  apply String.toList_inj.mp
  rw [chars, ← whole]
  simp

theorem eq_alone {option : List Char} (chars : argument.toList = '-' :: '-' :: option)
    (split : splitAttached option = (name, none)) : argument = "--" ++ name := by
  have whole := toList_splitAttached option
  rw [split] at whole
  apply String.toList_inj.mp
  rw [chars, ← whole]
  simp

theorem undashed_of_single (single : ∀ flag flags, argument.toList ≠ '-' :: flag :: flags) :
    Undashed argument := by
  rw [Undashed, ← String.toList_inj]
  rcases chars : argument.toList with _ | ⟨c, _ | ⟨flag, flags⟩⟩
  · simp
  · by_cases dash : c = '-' <;> simp [dash]
  · refine .inr fun dash => single flag flags ?_
    obtain rfl := Option.some.inj dash
    exact chars

/-- Behind settings that were made before, arguments spell such as may stand with them, and all come to `a`. -/
def Completes (done : List Setting) (arguments : List String) (a : Arguments) : Prop :=
  ∃ settings, Spells arguments settings ∧ Permitted (done ++ settings) ∧ total (done ++ settings) = a

theorem Completes.behind {front : List Setting} (completes : Completes (done ++ front) rest a)
    (spelled : ∀ settings, Spells rest settings → Spells arguments (front ++ settings)) :
    Completes done arguments a := by
  obtain ⟨settings, spells, all⟩ := completes
  rw [List.append_assoc] at all
  exact ⟨front ++ settings, spelled settings spells, all⟩

/-- What is read for a run is spelled by the arguments, and what they spell may stand together. -/
theorem completes_of_read (permitted : Permitted done)
    (accepted : read (total done) arguments = .ok (.generate a)) : Completes done arguments a := by
  generalize begun : total done = b at accepted
  -- In each case that is no refusal the first argument makes a setting, and the rest is read with it.
  fun_induction read b arguments generalizing done with
  | case1 b =>
    obtain rfl := Request.generate.inj (Except.ok.inj accepted)
    exact ⟨[], .nil, by simpa using permitted, by simpa using begun⟩
  | case2 b argument paths chars =>
    obtain rfl : argument = "--" := String.toList_inj.mp chars
    subst begun
    exact ⟨_, .inputs paths, (readInputs_total permitted).mp accepted⟩
  | case4 b argument option _ chars name o text rest known next set split ih =>
    obtain rfl := valueOption?_eq_some_iff.mp known
    obtain rfl := eq_attached chars split
    subst begun
    obtain ⟨permitted, reached⟩ := (withValue_total permitted).mp set
    exact (ih permitted reached accepted).behind fun _ => .attached
  | case6 b argument option _ chars name o text rest known plain next set split ih =>
    obtain rfl := valueOption?_eq_some_iff.mp known
    obtain rfl := eq_alone chars split
    subst begun
    obtain ⟨permitted, reached⟩ := (withValue_total permitted).mp set
    exact (ih permitted reached accepted).behind fun _ => .detached (isPlain_iff.mp plain)
  | case11 b argument option _ chars name f rest known _ next set split ih =>
    obtain rfl := longFlag?_eq_some_iff.mp known
    obtain rfl := eq_alone chars split
    subst begun
    obtain ⟨permitted, reached⟩ := (withFlag_total permitted).mp set
    exact (ih permitted reached accepted).behind fun _ => .longFlag
  | case15 b argument rest letter letters _ _ chars next set ih =>
    obtain rfl : argument = "-" ++ String.ofList (letter :: letters) := by
      apply String.toList_inj.mp
      rw [chars]
      simp
    subst begun
    obtain ⟨flags, lettered, permitted, reached⟩ := (withShortFlags_total permitted).mp set
    have some : flags ≠ [] := by
      rintro rfl
      exact nomatch lettered
    exact (ih permitted reached accepted).behind fun _ => .shortFlags lettered some
  | case18 b path rest next set _ _ single ih =>
    subst begun
    obtain ⟨permitted, reached⟩ := (withInput_total permitted).mp set
    exact (ih permitted reached accepted).behind fun _ => .input (undashed_of_single single)
  | case12 b argument option _ _ name f rest _ _ request set =>
    exact absurd (Except.ok.inj accepted ▸ set) withFlag_ne_generate
  | case16 b argument rest letter letters _ _ _ request set =>
    exact absurd (Except.ok.inj accepted ▸ set) withShortFlags_ne_generate
  | _ => exact nomatch accepted

/-- An argument list asks for a run exactly if it spells settings that may stand together, and it asks for the run
with all of these settings and no others. -/
theorem read_generate_iff : read .empty arguments = .ok (.generate a) ↔
    ∃ settings, Spells arguments settings ∧ Permitted settings ∧ total settings = a := by
  have none : Permitted [] := ⟨nofun, .nil⟩
  constructor
  · exact completes_of_read none
  · rintro ⟨settings, spells, permitted, rfl⟩
    exact spells.read_eq (show Permitted ([] ++ settings) from permitted)

example : read .empty ["-v", "--ja4=a.rs", "b.pcap", "--", "--ja4s"] =
    .ok (.generate ⟨some "a.rs", none, none, none, none, false, 1, ["b.pcap", "--ja4s"]⟩) := rfl

end TlsFixtures.CommandLine
