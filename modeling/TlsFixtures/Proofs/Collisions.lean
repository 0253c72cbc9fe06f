import TlsFixtures.Proofs.Generation
import TlsFixtures.Proofs.Rendering
import TlsFixtures.Proofs.Requests

/-! Paths of a plan that denote one file. A plan is accepted whatever its paths are, so an output may go to
the file of an earlier output or of an input. What is reported as written then lasts exactly until a later
output of the run is written to the same file, and an input survives exactly where no output is. -/
namespace TlsFixtures.Run

/-- The output of a report was written to the file that `s` denotes. -/
def Overwrites (fs : FileSystem) (report : Report) (s : String) : Prop :=
  report.outcome.isOk = true ∧ ∃ location, fs.destination report.path = .ok location ∧ fs.Denotes s location

/-- What `s` denotes is a fixture file of the report's variant with as many records as it says. -/
def Holds (fs : FileSystem) (oraclePath : String) (report : Report) (s : String) : Prop :=
  ∃ summary records, report.outcome = .ok summary ∧ records.length = summary.records ∧
    fs.text? s = some (FixtureFile.render report.variant records oraclePath)

structure SamePaths (fs fs' : FileSystem) : Prop where
  destination : ∀ s location, fs'.destination s = .ok location ↔ fs.destination s = .ok location
  denotes : ∀ s location, fs'.Denotes s location ↔ fs.Denotes s location

variable {source : Source} {oraclePath path s : String} {inputs : List String} {fs fs' : FileSystem}
  {v : Variant} {outcome : Except Error Summary} {requested : List (Variant × String)}
  {report : Report} {reports before after : List Report}

theorem SamePaths.refl (fs : FileSystem) : SamePaths fs fs := ⟨fun _ _ => Iff.rfl, fun _ _ => Iff.rfl⟩

theorem SamePaths.trans {next : FileSystem} (first : SamePaths fs next) (second : SamePaths next fs') :
    SamePaths fs fs' :=
  ⟨fun s location => (second.destination s location).trans (first.destination s location),
    fun s location => (second.denotes s location).trans (first.denotes s location)⟩

theorem SamePaths.overwrites_iff (same : SamePaths fs fs') :
    Overwrites fs' report s ↔ Overwrites fs report s := by
  simp only [Overwrites, same.destination, same.denotes]

theorem Delivers.effect (delivers : Delivers source oraclePath inputs fs v path outcome fs') :
    outcome.isOk = false ∧ fs' = fs ∨ ∃ location records failedInputs,
      outcome = .ok ⟨List.length records, failedInputs⟩ ∧ fs.destination path = .ok location ∧
        fs' = fs.overwrite location (FixtureFile.render v records oraclePath) := by
  cases delivers with
  | unusable => exact .inl ⟨rfl, rfl⟩
  | unwritable => exact .inl ⟨rfl, rfl⟩
  | written _ written =>
    rw [FileSystem.write_eq] at written
    cases reached : fs.destination path with
    | error e => simp [reached, Except.map] at written
    | ok location =>
      simp only [reached, Except.map, Except.ok.injEq] at written
      exact .inr ⟨location, _, _, rfl, rfl, written.symm⟩

theorem Delivers.samePaths (delivers : Delivers source oraclePath inputs fs v path outcome fs') :
    SamePaths fs fs' := by
  rcases delivers.effect with ⟨_, rfl⟩ | ⟨location, records, failedInputs, _, reached, rfl⟩
  · exact .refl fs'
  · have free := FileSystem.destination_free reached
    exact ⟨fun _ _ => FileSystem.destination_overwrite_iff free,
      fun _ _ => FileSystem.denotes_overwrite_iff free⟩

theorem Delivers.frame (delivers : Delivers source oraclePath inputs fs v path outcome fs')
    (apart : ¬Overwrites fs ⟨v, path, outcome⟩ s) : fs'.nodeAt? s = fs.nodeAt? s := by
  rcases delivers.effect with ⟨_, rfl⟩ | ⟨location, records, failedInputs, rfl, reached, rfl⟩
  · rfl
  · exact FileSystem.nodeAt?_overwrite (FileSystem.destination_free reached)
      fun denoted => apart ⟨rfl, location, reached, denoted⟩

theorem Delivers.holds (delivers : Delivers source oraclePath inputs fs v path outcome fs')
    (overwrites : Overwrites fs ⟨v, path, outcome⟩ s) : Holds fs' oraclePath ⟨v, path, outcome⟩ s := by
  obtain ⟨ok, location, reached, denoted⟩ := overwrites
  rcases delivers.effect with ⟨failed, _⟩ | ⟨location', records, failedInputs, rfl, reached', rfl⟩
  · exact absurd (ok.symm.trans failed) (by decide)
  · obtain rfl : location = location' := Except.ok.inj (reached.symm.trans reached')
    exact ⟨_, records, rfl, rfl, FileSystem.text?_overwrite (FileSystem.destination_free reached) denoted⟩

/-- A path to which something was written denotes the file it was written to. -/
theorem Delivers.overwrites_self (delivers : Delivers source oraclePath inputs fs v path outcome fs')
    (ok : outcome.isOk = true) : Overwrites fs ⟨v, path, outcome⟩ path := by
  rcases delivers.effect with ⟨failed, _⟩ | ⟨location, _, _, _, reached, _⟩
  · exact absurd (ok.symm.trans failed) (by decide)
  · exact ⟨ok, location, reached, .inr reached⟩

theorem Deliveries.samePaths (run : Deliveries source oraclePath inputs fs requested reports fs') :
    SamePaths fs fs' := by
  induction run with
  | nil => exact .refl _
  | cons delivers _ ih => exact delivers.samePaths.trans ih

theorem Deliveries.frame (run : Deliveries source oraclePath inputs fs requested reports fs')
    (apart : ∀ report ∈ reports, ¬Overwrites fs report s) : fs'.nodeAt? s = fs.nodeAt? s := by
  induction run with
  | nil => rfl
  | cons delivers _ ih =>
    have first := delivers.frame (apart _ List.mem_cons_self)
    have rest := ih fun report member overwrites =>
      apart report (List.mem_cons_of_mem _ member) (delivers.samePaths.overwrites_iff.mp overwrites)
    exact rest.trans first

theorem holds_of_nodeAt?_eq (same : fs'.nodeAt? s = fs.nodeAt? s) (holds : Holds fs oraclePath report s) :
    Holds fs' oraclePath report s := by
  obtain ⟨summary, records, ok, count, text⟩ := holds
  exact ⟨summary, records, ok, count, (FileSystem.text?_eq_of_nodeAt?_eq same).trans text⟩

/-- A file that some output of a run went to holds in the end what one of them made of it. -/
theorem Deliveries.holds (run : Deliveries source oraclePath inputs fs requested reports fs')
    (overwritten : ∃ report ∈ reports, Overwrites fs report s) :
    ∃ report ∈ reports, Overwrites fs report s ∧ Holds fs' oraclePath report s := by
  induction run with
  | nil => simp at overwritten
  | @cons fs v path outcome next requested reports fs' delivers later ih =>
    have back : ∀ report, Overwrites next report s ↔ Overwrites fs report s :=
      fun report => delivers.samePaths.overwrites_iff
    -- The last output to the file is among the later ones, or it is this one and its text lasts.
    by_cases again : ∃ report ∈ reports, Overwrites next report s
    · obtain ⟨report, member, overwrites, holds⟩ := ih again
      exact ⟨report, List.mem_cons_of_mem _ member, (back report).mp overwrites, holds⟩
    · have apart : ∀ report ∈ reports, ¬Overwrites next report s := by simpa using again
      have first : Overwrites fs ⟨v, path, outcome⟩ s := by
        obtain ⟨report, member, overwrites⟩ := overwritten
        rcases List.mem_cons.mp member with rfl | member
        · exact overwrites
        · exact absurd ((back report).mpr overwrites) (apart report member)
      exact ⟨_, List.mem_cons_self, first, holds_of_nodeAt?_eq (later.frame apart) (delivers.holds first)⟩

/-- A run up to one of its reports and from there on. -/
theorem Deliveries.split (run : Deliveries source oraclePath inputs fs requested (before ++ report :: after) fs') :
    ∃ here next outputs, SamePaths fs here ∧
      Delivers source oraclePath inputs here report.variant report.path report.outcome next ∧
      Deliveries source oraclePath inputs next outputs after fs' := by
  induction before generalizing fs requested with
  | nil =>
    cases run with
    | cons delivers later => exact ⟨fs, _, _, .refl fs, delivers, later⟩
  | cons first before ih =>
    cases run with
    | cons delivers later =>
      obtain ⟨here, next, outputs, same, rest⟩ := ih later
      exact ⟨here, next, outputs, delivers.samePaths.trans same, rest⟩

theorem variants_nodup {requests : List (Variant × String)} {plan : Plan}
    (accepted : Plan.ofRequests requests inputs = .ok plan) : (plan.outputs.map (·.1)).Nodup := by
  have settled := Plan.normalises_ofRequests requests inputs
  rw [accepted] at settled
  cases settled with
  | planned _ _ increasing _ =>
    exact List.pairwise_map.mpr (increasing.imp fun {a b} less (same : a.1 = b.1) => Nat.ne_of_lt less (by rw [same]))

/-- A success that was reported is still true after the run exactly if no later output of the run was written
to the same file. -/
theorem success_lasts_iff {requests : List (Variant × String)} {plan : Plan}
    (accepted : Plan.ofRequests requests inputs = .ok plan)
    (run : (plan.run source oraclePath fs).value = (before ++ report :: after, fs'))
    (ok : report.outcome.isOk = true) :
    Holds fs' oraclePath report report.path ↔ ∀ later ∈ after, ¬Overwrites fs later report.path := by
  have deliveries := outputs_deliver source oraclePath plan.inputs fs plan.outputs
  rw [← Plan.run, run] at deliveries
  obtain ⟨here, next, outputs, same, delivers, rest⟩ := deliveries.split
  have back : ∀ later, Overwrites next later report.path ↔ Overwrites fs later report.path :=
    fun later => (same.trans delivers.samePaths).overwrites_iff
  constructor
  · intro holds later member overwrites
    obtain ⟨last, inside, _, replaced⟩ := rest.holds ⟨later, member, (back later).mpr overwrites⟩
    obtain ⟨_, _, _, _, text⟩ := holds
    obtain ⟨_, _, _, _, text'⟩ := replaced
    -- A text tells its variant, and a later output of the plan has another one.
    have variants := FixtureFile.variant_unique (Option.some.inj (text.symm.trans text'))
    have distinct := variants_nodup accepted
    rw [← deliveries.requests, List.map_map, List.map_append, List.map_cons] at distinct
    have others := (List.nodup_cons.mp (List.nodup_append.mp distinct).2.1).1
    exact others (List.mem_map.mpr ⟨last, inside, variants.symm⟩)
  · intro apart
    have holds := delivers.holds (delivers.overwrites_self ok)
    exact holds_of_nodeAt?_eq (rest.frame fun later member => mt (back later).mp (apart later member)) holds

/-- Two outputs of a run with one input that fails, in two files. -/
theorem success_lasts_in_two_files :
    let frame := FieldTable.frame ⟨1, ["tls"], [("tls.handshake.ja4", .one "t")], [("tls.handshake", .one "01000000")]⟩
    let source := Archive.source ⟨[("a.pcap", [.ok frame])], []⟩
    let plan : Plan := ⟨[(.ja4, "c.rs"), (.ja4s, "s.rs")], ["b.pcap", "a.pcap"]⟩
    let first : Report := ⟨.ja4, "c.rs", .ok ⟨1, 1⟩⟩
    let run := (plan.run source "super" (.bare [])).value
    Plan.ofRequests [(.ja4s, "s.rs"), (.ja4, "c.rs")] ["b.pcap", "a.pcap"] = .ok plan ∧
      run.1 = [first, ⟨.ja4s, "s.rs", .ok ⟨0, 1⟩⟩] ∧ Holds run.2 "super" first "c.rs" := by
  intro frame source plan first run
  have accepted : Plan.ofRequests [(.ja4s, "s.rs"), (.ja4, "c.rs")] ["b.pcap", "a.pcap"] = .ok plan := rfl
  have reports : run = ([] ++ first :: [⟨.ja4s, "s.rs", .ok ⟨0, 1⟩⟩], run.2) := rfl
  refine ⟨accepted, rfl, (success_lasts_iff accepted reports rfl).mpr ?_⟩
  rintro later member ⟨_, location, reached, denoted⟩
  obtain rfl := List.mem_singleton.mp member
  obtain rfl : ["s.rs"] = location := Except.ok.inj reached
  rcases denoted with located | written
  · have nowhere : (FileSystem.bare []).locate "c.rs" = .error .notFound := rfl
    exact nomatch nowhere.symm.trans located
  · have elsewhere : (FileSystem.bare []).destination "c.rs" = .ok ["c.rs"] := rfl
    exact absurd (Except.ok.inj (elsewhere.symm.trans written)) (by decide)

/-- Two outputs to one file both succeed, and the first of them is lost. -/
theorem success_can_be_replaced :
    ¬∀ (requests : List (Variant × String)) (inputs : List String) (plan : Plan) (source : Source)
      (oraclePath : String) (fs : FileSystem), Plan.ofRequests requests inputs = .ok plan →
        ∀ report ∈ (plan.run source oraclePath fs).value.1, report.outcome.isOk = true →
          Holds (plan.run source oraclePath fs).value.2 oraclePath report report.path := by
  intro lasts
  let plan : Plan := ⟨[(.ja4, "o.rs"), (.ja4s, "o.rs")], ["a.pcap"]⟩
  let run := (plan.run (Archive.source ⟨[("a.pcap", [])], []⟩) "super" (.bare [])).value
  have reports : run.1 = [⟨.ja4, "o.rs", .ok ⟨0, 0⟩⟩, ⟨.ja4s, "o.rs", .ok ⟨0, 0⟩⟩] := rfl
  have last : run.2.text? "o.rs" = some (FixtureFile.render .ja4s [] "super") := rfl
  have first : (⟨.ja4, "o.rs", .ok ⟨0, 0⟩⟩ : Report) ∈ run.1 := by
    rw [reports]
    exact List.mem_cons_self
  obtain ⟨_, records, _, _, own⟩ := lasts plan.outputs plan.inputs plan _ "super" _ rfl _ first rfl
  exact absurd (FixtureFile.variant_unique (Option.some.inj (own.symm.trans last))) (by decide)

/-- The file system when `count` outputs of a plan are made. -/
def stateAfter (plan : Plan) (source : Source) (oraclePath : String) (fs : FileSystem) (count : Nat) :
    FileSystem :=
  (outputs source oraclePath plan.inputs fs (plan.outputs.take count)).value.2

theorem stateAfter_length (plan : Plan) (source : Source) (oraclePath : String) (fs : FileSystem) :
    stateAfter plan source oraclePath fs plan.outputs.length = (plan.run source oraclePath fs).value.2 := by
  rw [stateAfter, List.take_length, Plan.run]

theorem reports_take (requested : List (Variant × String)) (count : Nat) :
    (outputs source oraclePath inputs fs (requested.take count)).value.1 =
      (outputs source oraclePath inputs fs requested).value.1.take count := by
  induction requested generalizing fs count with
  | nil => simp [outputs]
  | cons output rest ih =>
    cases count with
    | zero => simp [outputs]
    | succ count => simp [outputs, ih]

/-- An input that no output of a run is written to is, whenever an output is made and at the end, what it was
before the run. Any other one is a fixture file in the end: it survives only if it was one before. -/
theorem inputs_survive_iff (plan : Plan) (source : Source) (oraclePath : String) (fs : FileSystem)
    (input : String) :
    let run := (plan.run source oraclePath fs).value
    ((∀ report ∈ run.1, ¬Overwrites fs report input) →
      ∀ count, (stateAfter plan source oraclePath fs count).nodeAt? input = fs.nodeAt? input) ∧
    ((∃ report ∈ run.1, Overwrites fs report input) →
      ∃ report ∈ run.1, Overwrites fs report input ∧ Holds run.2 oraclePath report input) ∧
    ((∀ v records, fs.text? input ≠ some (FixtureFile.render v records oraclePath)) →
      (run.2.nodeAt? input = fs.nodeAt? input ↔ ∀ report ∈ run.1, ¬Overwrites fs report input)) := by
  intro run
  have whole := outputs_deliver source oraclePath plan.inputs fs plan.outputs
  have survive : (∀ report ∈ run.1, ¬Overwrites fs report input) →
      ∀ count, (stateAfter plan source oraclePath fs count).nodeAt? input = fs.nodeAt? input := by
    intro apart count
    have partly := outputs_deliver source oraclePath plan.inputs fs (plan.outputs.take count)
    refine partly.frame fun report member => apart report ?_
    rw [reports_take] at member
    exact List.mem_of_mem_take member
  refine ⟨survive, whole.holds, fun fresh => ⟨fun same report member overwrites => ?_, fun apart => ?_⟩⟩
  · obtain ⟨last, _, _, _, records, _, _, text⟩ := whole.holds ⟨report, member, overwrites⟩
    exact fresh last.variant records ((FileSystem.text?_eq_of_nodeAt?_eq same).symm.trans text)
  · have final := survive apart plan.outputs.length
    rwa [stateAfter_length] at final

/-- A capture without frames, and the program that dissects it. -/
def oneCapture : FileSystem :=
  ((FileSystem.bare []).put ["tshark"] (.file ⟨.dissector, true⟩)).put ["a.pcap"]
    (.file ⟨.capture ⟨⟨[], [], 0, false⟩, []⟩, false⟩)

/-- A capture that is named as an output too is lost, although it was read. -/
theorem input_can_be_destroyed :
    ¬∀ (requests : List (Variant × String)) (inputs : List String) (plan : Plan) (source : Source)
      (oraclePath : String) (fs : FileSystem), Plan.ofRequests requests inputs = .ok plan →
        ∀ input ∈ plan.inputs, (plan.run source oraclePath fs).value.2.nodeAt? input = fs.nodeAt? input := by
  intro survives
  have same := survives [(.ja4, "a.pcap")] ["a.pcap"] ⟨[(.ja4, "a.pcap")], ["a.pcap"]⟩
    (Dissector.source ⟨"/tshark", []⟩) "super" oneCapture rfl "a.pcap" List.mem_cons_self
  have before : oneCapture.text? "a.pcap" = none := by rfl
  have after : (Plan.run ⟨[(.ja4, "a.pcap")], ["a.pcap"]⟩ (Dissector.source ⟨"/tshark", []⟩) "super"
      oneCapture).value.2.text? "a.pcap" = some (FixtureFile.render .ja4 [] "super") := by rfl
  have texts := FileSystem.text?_eq_of_nodeAt?_eq same
  rw [after, before] at texts
  exact Option.some_ne_none _ texts

end TlsFixtures.Run
