import TlsFixtures.CommandLine.Verdict
import TlsFixtures.Proofs.Collisions
import TlsFixtures.Proofs.Independence

/-! What an accepted invocation prints, exits with and leaves. Missing outputs are found out before missing
inputs, and both before any file is touched. Otherwise each output that was asked for has its line, on standard
output or on standard error as it was made or not, and the status tells whether any failed. -/
namespace TlsFixtures.CommandLine

/-- The path that is asked for a variant. -/
def Arguments.path? (a : Arguments) : Variant → Option String
  | .ja4 => a.ja4
  | .ja4s => a.ja4s
  | .ja4x => a.ja4x

/-- The outputs that are asked for, each once and in the order of the variants. -/
structure Asked (a : Arguments) (requested : List (Variant × String)) : Prop where
  ordered : (requested.map (·.1)).Sublist [.ja4, .ja4s, .ja4x]
  paths : ∀ v path, (v, path) ∈ requested ↔ a.path? v = some path

/-- The lines about some reports: those on standard output, and those on standard error. -/
inductive Lines : List Report → List String → List String → Prop where
  | nil : Lines [] [] []
  | generated : Lines reports out err →
      Lines (⟨v, path, .ok ⟨records, failedInputs⟩⟩ :: reports)
        ((v.label ++ " test file generated: " ++ path ++ " (" ++ records.repr ++ " records)\n") :: out) err
  | failed : Lines reports out err →
      Lines (⟨v, path, .error e⟩ :: reports) out
        ((v.label ++ " test file failed: " ++ path ++ ": " ++ e.message ++ "\n") :: err)

/-- The three ways in which an accepted invocation can end, and the file system after each. -/
inductive Concludes (a : Arguments) (source : Source) (oraclePath : String) (fs : FileSystem) :
    Verdict → FileSystem → Prop where
  | noOutput : (∀ v, a.path? v = none) →
      Concludes a source oraclePath fs
        ⟨1, "", "error: please specify at least one output file with --ja4, --ja4s or --ja4x\n", []⟩ fs
  | noInput : (∃ v path, a.path? v = some path) → a.inputs = [] →
      Concludes a source oraclePath fs ⟨2, "", "error: no PCAP files provided\n", []⟩ fs
  /-- Events that are logged stand apart from the complaints. -/
  | finished : Asked a requested → requested ≠ [] → a.inputs ≠ [] →
      Run.Deliveries source oraclePath a.inputs fs requested reports fs' → Lines reports out err →
      Concludes a source oraclePath fs
        ⟨if reports.all (·.outcome.isOk) then 0 else 3,
          a.inputs.length.repr ++ " PCAP files provided\n" ++ String.join out, String.join err, log⟩ fs'

variable {a : Arguments} {requested : List (Variant × String)}

theorem outputs_eq_filterMap (a : Arguments) :
    a.outputs = Variant.all.filterMap fun v => (a.path? v).map (v, ·) := by
  obtain ⟨ja4, ja4s, ja4x, _⟩ := a
  cases ja4 <;> cases ja4s <;> cases ja4x <;> rfl

theorem orderedOutputs_outputs (a : Arguments) : Plan.orderedOutputs a.outputs = a.outputs := by
  obtain ⟨ja4, ja4s, ja4x, _⟩ := a
  cases ja4 <;> cases ja4s <;> cases ja4x <;> rfl

theorem requested_sublist (paths : Variant → Option String) (variants : List Variant) :
    ((variants.filterMap fun v => (paths v).map (v, ·)).map (·.1)).Sublist variants := by
  induction variants with
  | nil => simp
  | cons v variants ih =>
    cases asked : paths v with
    | none => simpa [asked] using ih.cons v
    | some path => simpa [asked] using ih.cons_cons v

theorem asked_outputs (a : Arguments) : Asked a a.outputs := by
  rw [outputs_eq_filterMap]
  constructor
  · exact requested_sublist a.path? Variant.all
  · intro v path
    have known : v ∈ Variant.all := by cases v <;> decide
    simp [known]

theorem Asked.eq_nil_iff (asked : Asked a requested) : requested = [] ↔ ∀ v, a.path? v = none := by
  constructor
  · rintro rfl v
    apply Option.eq_none_iff_forall_ne_some.mpr
    intro path given
    exact absurd ((asked.paths v path).mpr given) List.not_mem_nil
  · intro none
    apply List.eq_nil_iff_forall_not_mem.mpr
    rintro ⟨v, path⟩ member
    exact nomatch ((asked.paths v path).mp member).symm.trans (none v)

theorem lines_filterMap (reports : List Report) :
    Lines reports (reports.filterMap successLine?) (reports.filterMap failureLine?) := by
  induction reports with
  | nil => exact .nil
  | cons report reports ih =>
    obtain ⟨v, path, outcome⟩ := report
    cases outcome with
    | ok summary => exact .generated ih
    | error e => exact .failed ih

theorem status_eq (reports : List Report) :
    status reports = if reports.all (·.outcome.isOk) then 0 else 3 := by
  have failed : ∀ report : Report, (failureLine? report).isSome = !report.outcome.isOk := by
    rintro ⟨v, path, outcome⟩
    cases outcome <;> rfl
  simp only [status, failed, ← List.not_all_eq_any_not]
  cases reports.all (·.outcome.isOk) <;> rfl

theorem ofRequests_outputs (a : Arguments) :
    Plan.ofRequests a.outputs a.inputs =
      if a.outputs = [] then .error .noOutputs
      else if a.inputs = [] then .error .noInputs
      else .ok ⟨a.outputs, a.inputs⟩ := by
  rw [Plan.ofRequests_eq, orderedOutputs_outputs]

/-- An invocation whose arguments are accepted concludes: it is refused without a trace for the first thing that
it misses, or else tells of each output what became of it. -/
theorem execute_concludes {arguments : List String} {env : Environment} {settings : Settings}
    (accepted : interpret arguments env = .ok (.generate a settings)) (fs : FileSystem) :
    let conclusion := execute arguments env fs
    Concludes a (Dissector.source ⟨settings.program, env.searchPath⟩) settings.oraclePath fs
      conclusion.1 conclusion.2 := by
  have asked := asked_outputs a
  simp only [execute, accepted, perform, ofRequests_outputs]
  by_cases noOutput : a.outputs = []
  · rw [if_pos noOutput]
    exact .noOutput (asked.eq_nil_iff.mp noOutput)
  rw [if_neg noOutput]
  by_cases noInput : a.inputs = []
  · rw [if_pos noInput]
    obtain ⟨⟨v, path⟩, member⟩ := List.exists_mem_of_ne_nil _ noOutput
    exact .noInput ⟨v, path, (asked.paths v path).mp member⟩ noInput
  · rw [if_neg noInput]
    have deliveries := Run.outputs_deliver (Dissector.source ⟨settings.program, env.searchPath⟩)
      settings.oraclePath a.inputs fs a.outputs
    simp only [verdict, status_eq]
    exact .finished asked noOutput noInput deliveries (lines_filterMap _)

/-- One output that is made of one record, and one at the root, which is no file. -/
theorem execute_concludes_mixed :
    let arguments := ["--ja4x", "/", "a.pcap", "--tshark=/tshark", "--ja4", "c.rs"]
    let a : Arguments := ⟨some "c.rs", none, some "/", some "/tshark", none, false, 0, ["a.pcap"]⟩
    let settings : Settings := ⟨"/tshark", "super", true⟩
    let conclusion := execute arguments ⟨[], []⟩ Run.workbench
    interpret arguments ⟨[], []⟩ = .ok (.generate a settings) ∧
      conclusion.1.exitStatus = 3 ∧
      conclusion.1.output = "1 PCAP files provided\nJA4 test file generated: c.rs (1 records)\n" ∧
      conclusion.1.complaints = "JA4X test file failed: /: /: Is a directory (os error 21)\n" ∧
      Concludes a (Dissector.source ⟨"/tshark", []⟩) "super" Run.workbench conclusion.1 conclusion.2 := by
  intro arguments a settings conclusion
  have accepted : interpret arguments ⟨[], []⟩ = .ok (.generate a settings) := rfl
  have told : (conclusion.1.exitStatus, conclusion.1.output, conclusion.1.complaints) =
      (3, "1 PCAP files provided\nJA4 test file generated: c.rs (1 records)\n",
        "JA4X test file failed: /: /: Is a directory (os error 21)\n") := by
    decide +kernel
  simp only [Prod.mk.injEq] at told
  obtain ⟨status, output, complaints⟩ := told
  exact ⟨accepted, status, output, complaints, execute_concludes accepted Run.workbench⟩

end TlsFixtures.CommandLine
