import TlsFixtures.Proofs.Overwriting
import TlsFixtures.Run

/-! What a run makes of its inputs, stated without its counters: an output is refused if every input failed,
and otherwise holds the records of the inputs that did not fail. Outputs follow one another, each of them
reading the file system that the one before it left. -/
namespace TlsFixtures.Run

def readings (source : Source) (fs : FileSystem) (v : Variant) (inputs : List String) :
    List (Except Error (List v.Record)) :=
  inputs.map fun input => (Extraction.ofCapture source fs v input).value

/-- The records of all readings that succeeded, one after another. -/
def successes (readings : List (Except Error (List α))) : List α :=
  (readings.filterMap Except.toOption).flatten

def failures (readings : List (Except Error (List α))) : Nat := readings.countP (!·.isOk)

def rendering (source : Source) (oraclePath : String) (inputs : List String) (fs : FileSystem)
    (v : Variant) : String :=
  FixtureFile.render v (successes (readings source fs v inputs)) oraclePath

/-- The three ways in which the output of `v` to `path` can end, and the file system after each. -/
inductive Delivers (source : Source) (oraclePath : String) (inputs : List String) (fs : FileSystem)
    (v : Variant) (path : String) : Except Error Summary → FileSystem → Prop where
  | unusable : (∀ reading ∈ readings source fs v inputs, reading.isOk = false) →
      Delivers source oraclePath inputs fs v path (.error (.noUsableInput inputs.length)) fs
  | unwritable : (∃ reading ∈ readings source fs v inputs, reading.isOk = true) →
      fs.write path (rendering source oraclePath inputs fs v) = .error cause →
      Delivers source oraclePath inputs fs v path (.error (.access path cause)) fs
  /-- The file holds the rendering and nothing of what it held before. -/
  | written : (∃ reading ∈ readings source fs v inputs, reading.isOk = true) →
      fs.write path (rendering source oraclePath inputs fs v) = .ok fs' →
      fs'.text? path = some (rendering source oraclePath inputs fs v) →
      Delivers source oraclePath inputs fs v path
        (.ok ⟨(successes (readings source fs v inputs)).length, failures (readings source fs v inputs)⟩) fs'

/-- Outputs in their order, with one report for each. -/
inductive Deliveries (source : Source) (oraclePath : String) (inputs : List String) :
    FileSystem → List (Variant × String) → List Report → FileSystem → Prop where
  | nil : Deliveries source oraclePath inputs fs [] [] fs
  | cons : Delivers source oraclePath inputs fs v path outcome next →
      Deliveries source oraclePath inputs next requested reports fs' →
      Deliveries source oraclePath inputs fs ((v, path) :: requested) (⟨v, path, outcome⟩ :: reports) fs'

@[simp] theorem successes_nil : successes ([] : List (Except Error (List α))) = [] := rfl

@[simp] theorem successes_ok (found : List α) (later : List (Except Error (List α))) :
    successes (.ok found :: later) = found ++ successes later := by simp [successes, Except.toOption]

@[simp] theorem successes_error (e : Error) (later : List (Except Error (List α))) :
    successes (.error e :: later) = successes later := rfl

@[simp] theorem failures_ok (found : List α) (later : List (Except Error (List α))) :
    failures (.ok found :: later) = failures later := by simp [failures, Except.isOk, Except.toBool]

@[simp] theorem failures_error (e : Error) (later : List (Except Error (List α))) :
    failures (.error e :: later) = failures later + 1 := by simp [failures, Except.isOk, Except.toBool]

theorem value_readInput (source : Source) (fs : FileSystem) (v : Variant) (input : String) :
    (readInput source fs v input).value = (Extraction.ofCapture source fs v input).value := by
  simp only [readInput, Logged.value_bind]
  split <;> rfl

theorem value_gather (source : Source) (fs : FileSystem) (v : Variant) (inputs : List String) :
    (gather source fs v inputs).value =
      ⟨successes (readings source fs v inputs), failures (readings source fs v inputs)⟩ := by
  induction inputs with
  | nil => rfl
  | cons input rest ih =>
    have first : readings source fs v (input :: rest) =
        (Extraction.ofCapture source fs v input).value :: readings source fs v rest := rfl
    simp only [gather, Logged.value_bind, Logged.value_pure, value_readInput, ih, first]
    cases (Extraction.ofCapture source fs v input).value with
    | ok found => simp [Gathered.precededBy]
    | error e => simp [Gathered.precededBy]

/-- As many failures as inputs means that no input was read. -/
theorem failures_eq_length_iff (source : Source) (fs : FileSystem) (v : Variant) (inputs : List String) :
    failures (readings source fs v inputs) = inputs.length ↔
      ∀ reading ∈ readings source fs v inputs, reading.isOk = false := by
  have counted : inputs.length = (readings source fs v inputs).length := by simp [readings]
  rw [counted, failures, List.countP_eq_length]
  simp

theorem usable_iff (readings : List (Except Error (List α))) :
    (∃ reading ∈ readings, reading.isOk = true) ↔ ¬∀ reading ∈ readings, reading.isOk = false := by
  simp

theorem writeOutput_delivers (source : Source) (oraclePath : String) (inputs : List String)
    (fs : FileSystem) (v : Variant) (path : String) :
    let written := writeOutput fs v path oraclePath inputs.length (gather source fs v inputs).value
    Delivers source oraclePath inputs fs v path written.1 written.2 := by
  simp only [value_gather, writeOutput, failures_eq_length_iff]
  split
  next unusable => exact .unusable unusable
  next usable =>
    have usable := (usable_iff _).mpr usable
    split
    next refused => exact .unwritable usable refused
    next written => exact .written usable written (FileSystem.text?_write written)

theorem value_generate (source : Source) (oraclePath : String) (inputs : List String) (fs : FileSystem)
    (v : Variant) (path : String) :
    let written := writeOutput fs v path oraclePath inputs.length (gather source fs v inputs).value
    (generate source oraclePath inputs fs (v, path)).value = (⟨v, path, written.1⟩, written.2) := rfl

theorem outputs_deliver (source : Source) (oraclePath : String) (inputs : List String) (fs : FileSystem)
    (requested : List (Variant × String)) :
    Deliveries source oraclePath inputs fs requested (outputs source oraclePath inputs fs requested).value.1
      (outputs source oraclePath inputs fs requested).value.2 := by
  induction requested generalizing fs with
  | nil => exact .nil
  | cons output rest ih =>
    obtain ⟨v, path⟩ := output
    simp only [outputs, Logged.value_bind, Logged.value_pure, value_generate]
    exact .cons (writeOutput_delivers source oraclePath inputs fs v path) (ih _)

theorem Deliveries.requests {requested : List (Variant × String)}
    (run : Deliveries source oraclePath inputs fs requested reports fs') :
    reports.map (fun report => (report.variant, report.path)) = requested := by
  induction run with
  | nil => rfl
  | cons _ _ ih => simp [ih]

theorem Delivers.unique (first : Delivers source oraclePath inputs fs v path outcome next)
    (second : Delivers source oraclePath inputs fs v path outcome' next') :
    outcome = outcome' ∧ next = next' := by
  cases first with
  | unusable none =>
    cases second with
    | unusable => exact ⟨rfl, rfl⟩
    | unwritable usable => exact absurd none ((usable_iff _).mp usable)
    | written usable => exact absurd none ((usable_iff _).mp usable)
  | unwritable usable refused =>
    cases second with
    | unusable none => exact absurd none ((usable_iff _).mp usable)
    | unwritable _ refused' =>
      obtain rfl := Except.error.inj (refused.symm.trans refused')
      exact ⟨rfl, rfl⟩
    | written _ written => exact nomatch refused.symm.trans written
  | written usable written =>
    cases second with
    | unusable none => exact absurd none ((usable_iff _).mp usable)
    | unwritable _ refused => exact nomatch refused.symm.trans written
    | written _ written' =>
      obtain rfl := Except.ok.inj (written.symm.trans written')
      exact ⟨rfl, rfl⟩

theorem Deliveries.unique (first : Deliveries source oraclePath inputs fs requested reports fs₁)
    (second : Deliveries source oraclePath inputs fs requested reports' fs₂) :
    reports = reports' ∧ fs₁ = fs₂ := by
  induction first generalizing reports' with
  | nil => cases second; exact ⟨rfl, rfl⟩
  | cons delivers _ ih =>
    cases second with
    | cons delivers' later =>
      obtain ⟨rfl, rfl⟩ := delivers.unique delivers'
      obtain ⟨rfl, rfl⟩ := ih later
      exact ⟨rfl, rfl⟩

/-- The reports of a run stand one to one for its outputs, and the run is the one in which each of them says
what the readings of all inputs come to: no input and no output that fails keeps a later one from its turn. -/
theorem run_delivers (plan : Plan) (source : Source) (oraclePath : String) (fs : FileSystem) :
    (plan.run source oraclePath fs).value.1.map (fun report => (report.variant, report.path)) =
        plan.outputs ∧
      ∀ reports fs', (plan.run source oraclePath fs).value = (reports, fs') ↔
        Deliveries source oraclePath plan.inputs fs plan.outputs reports fs' := by
  have run := outputs_deliver source oraclePath plan.inputs fs plan.outputs
  refine ⟨run.requests, fun reports fs' => ⟨?_, fun deliveries => ?_⟩⟩
  · intro same
    rw [Plan.run] at same
    rwa [same] at run
  · obtain ⟨rfl, rfl⟩ := run.unique deliveries
    rfl

end TlsFixtures.Run
