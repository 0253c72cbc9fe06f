import Mathlib.Data.List.Pairwise
import TlsFixtures.Proofs.Differences
import TlsFixtures.Proofs.Generation

/-! Outputs in files of their own. What such an output comes to can be told from the file system before the
run: neither the outputs before it nor what older runs left in the files matter, and a second run changes
nothing. -/
namespace TlsFixtures

open FileSystem (AlikeOutside Rewritten)

/-- A path neither names the file at which `t` is written nor leads on from it. -/
def FileSystem.Apart (fs : FileSystem) (s t : String) : Prop :=
  ∀ location, fs.destination t = .ok location → ¬fs.Denotes s location ∧ ¬fs.LeadsThrough s location

theorem FileSystem.Apart.of_name {fs : FileSystem} {s t : String} {path : Path} {place : Location}
    (read : Path.ofText s = .ok path) (short : path.names.length ≤ 1) (reached : fs.destination t = .ok place)
    (elsewhere : fs.destination s ≠ .ok place) (away : fs.locate s ≠ .ok place)
    (begins : fs.start path ≠ place) : fs.Apart s t := by
  intro location reached'
  obtain rfl : place = location := Except.ok.inj (reached.symm.trans reached')
  exact ⟨fun denoted => denoted.elim away elsewhere, fun leads => begins (leads.start_eq read short)⟩

namespace Plan

/-- The plan for one output and the same inputs. -/
def only (plan : Plan) (output : Variant × String) : Plan := ⟨[output], plan.inputs⟩

/-- No output path of a plan names the file of another one or lies below it. -/
def Separate (plan : Plan) (fs : FileSystem) : Prop :=
  plan.outputs.Pairwise fun a b => fs.Apart a.2 b.2 ∧ fs.Apart b.2 a.2

/-- A location at which an output of a plan is written. -/
def Occupies (plan : Plan) (fs : FileSystem) (location : Location) : Prop :=
  ∃ output ∈ plan.outputs, fs.destination output.2 = .ok location

variable {plan : Plan} {fs : FileSystem} {location : Location} {output : Variant × String}

theorem Separate.apart (separate : plan.Separate fs) {a b : Variant × String} (here : a ∈ plan.outputs)
    (there : b ∈ plan.outputs) (other : a ≠ b) : fs.Apart a.2 b.2 := by
  have : Std.Symm fun a b : Variant × String => fs.Apart a.2 b.2 ∧ fs.Apart b.2 a.2 := ⟨fun _ _ h => h.symm⟩
  exact (separate.forall here there other).1

theorem Separate.avoids (separate : plan.Separate fs) (member : output ∈ plan.outputs)
    (occupied : plan.Occupies fs location) : ¬fs.LeadsThrough output.2 location := by
  obtain ⟨other, inside, reached⟩ := occupied
  by_cases same : output = other
  · subst same
    exact FileSystem.not_leadsThrough_destination reached
  · exact (separate.apart member inside same location reached).2

theorem Separate.owner_unique (separate : plan.Separate fs) {a b : Variant × String} (here : a ∈ plan.outputs)
    (there : b ∈ plan.outputs) (reached : fs.destination a.2 = .ok location)
    (reached' : fs.destination b.2 = .ok location) : a = b := by
  apply Decidable.byContradiction
  intro other
  exact (separate.apart here there other location reached').1 (.inr reached)

theorem Occupies.free (occupied : plan.Occupies fs location) : fs.node? location ≠ some .directory := by
  obtain ⟨_, _, reached⟩ := occupied
  exact FileSystem.destination_free reached

end Plan

/-- Whatever texts are written to outputs of the plan, beginning with `old`, the source answers for its inputs
as it does on `fs`. -/
def Source.Steady (source : Source) (plan : Plan) (fs old : FileSystem) : Prop :=
  ∀ later, Rewritten (plan.Occupies fs) old later → ∀ input ∈ plan.inputs, ∀ v : Variant,
    (source.frames later input v.query).value = (source.frames fs input v.query).value

/-- The dissector is steady if neither an input nor a place where the program is looked for comes to a file that
an output is written to. -/
theorem Dissector.source_steady {d : Dissector} {plan : Plan} {fs old : FileSystem}
    (alike : AlikeOutside (plan.Occupies fs) fs old)
    (unread : ∀ s ∈ plan.inputs ++ FileSystem.candidates d.searchPath d.program,
      ∀ location, plan.Occupies fs location → ¬fs.Meets s location) : d.source.Steady plan fs old := by
  intro later rewritten input member v
  have alike := alike.rewritten rewritten
  have input := unread input (List.mem_append_left _ member)
  have program := fun candidate member => unread candidate (List.mem_append_right _ member)
  simp only [source, start, Logged.value_bind, alike.locate_eq input, alike.startProgram_eq program,
    alike.dissection_eq input]

namespace Run

/-- What an output comes to: its report, and what is written at which location, if anything is. -/
structure Effect where
  report : Report
  written : Option (Location × String)

def effect (source : Source) (oraclePath : String) (inputs : List String) (fs : FileSystem)
    (output : Variant × String) : Effect :=
  let (v, path) := output
  let gathered := (gather source fs v inputs).value
  if gathered.failedInputs = inputs.length then ⟨⟨v, path, .error (.noUsableInput inputs.length)⟩, none⟩
  else
    match fs.destination path with
    | .error cause => ⟨⟨v, path, .error (.access path cause)⟩, none⟩
    | .ok location => ⟨⟨v, path, .ok ⟨gathered.records.length, gathered.failedInputs⟩⟩,
        some (location, FixtureFile.render v gathered.records oraclePath)⟩

variable {source : Source} {oraclePath : String} {inputs : List String} {fs fs' old : FileSystem}
  {output : Variant × String} {requested : List (Variant × String)} {plan : Plan} {location : Location}
  {text : String}

theorem generate_eq_effect (source : Source) (oraclePath : String) (inputs : List String) (fs : FileSystem)
    (output : Variant × String) :
    let result := effect source oraclePath inputs fs output
    (generate source oraclePath inputs fs output).value =
      (result.report, fs.overwriteAll result.written.toList) := by
  obtain ⟨v, path⟩ := output
  simp only [value_generate, writeOutput, effect, FileSystem.write_eq]
  split
  · rfl
  · cases fs.destination path <;> rfl

/-- An output depends on the answers of the source and on where it is to be written. -/
theorem effect_congr
    (answers : ∀ input ∈ inputs, ∀ v : Variant,
      (source.frames fs' input v.query).value = (source.frames fs input v.query).value)
    (same : fs'.destination output.2 = fs.destination output.2) :
    effect source oraclePath inputs fs' output = effect source oraclePath inputs fs output := by
  have read : readings source fs' output.1 inputs = readings source fs output.1 inputs := by
    refine List.map_congr_left fun input member => ?_
    simp only [Extraction.ofCapture, Extractor.ofCapture, Variant.query_extractor, Logged.value_bind,
      answers input member]
  simp only [effect, value_gather, read, same]

theorem destination_of_written
    (written : (effect source oraclePath inputs fs output).written = some (location, text)) :
    fs.destination output.2 = .ok location := by
  obtain ⟨v, path⟩ := output
  simp only [effect] at written
  split at written
  · exact nomatch written
  · split at written
    next => exact nomatch written
    next reached => exact reached.trans (congrArg Except.ok (Prod.mk.inj (Option.some.inj written)).1)

/-- A report tells the output that it is about, and whether it was written. -/
theorem effect_report (source : Source) (oraclePath : String) (inputs : List String) (fs : FileSystem)
    (output : Variant × String) :
    let result := effect source oraclePath inputs fs output
    result.report.path = output.2 ∧ result.report.outcome.isOk = result.written.isSome := by
  obtain ⟨v, path⟩ := output
  simp only [effect]
  split
  · exact ⟨rfl, rfl⟩
  · split <;> exact ⟨rfl, rfl⟩

/-- Writes of some outputs, as they are told from `fs`. -/
def writes (source : Source) (oraclePath : String) (inputs : List String) (fs : FileSystem)
    (requested : List (Variant × String)) : List (Location × String) :=
  requested.flatMap fun output => (effect source oraclePath inputs fs output).written.toList

theorem mem_writes {write : Location × String} : write ∈ writes source oraclePath inputs fs requested ↔
    ∃ output ∈ requested, (effect source oraclePath inputs fs output).written = some write := by
  simp [writes]

theorem occupied_of_mem_writes {write : Location × String}
    (member : write ∈ writes source oraclePath inputs fs plan.outputs) : plan.Occupies fs write.1 := by
  obtain ⟨output, inside, written⟩ := mem_writes.mp member
  exact ⟨output, inside, destination_of_written written⟩

theorem rewritten_writes (source : Source) (oraclePath : String) (plan : Plan) (fs fs' : FileSystem) :
    Rewritten (plan.Occupies fs) fs' (fs'.overwriteAll (writes source oraclePath plan.inputs fs plan.outputs)) :=
  FileSystem.rewritten_overwriteAll fun _ inside => occupied_of_mem_writes inside

/-- Outputs come to what is told from `fs`, wherever the file system differs from it at outputs only. -/
theorem outputs_eq (separate : plan.Separate fs) (alike : AlikeOutside (plan.Occupies fs) fs fs')
    (steady : source.Steady plan fs fs') (asked : requested ⊆ plan.outputs) :
    (outputs source oraclePath plan.inputs fs' requested).value =
      (requested.map fun output => (effect source oraclePath plan.inputs fs output).report,
        fs'.overwriteAll (writes source oraclePath plan.inputs fs requested)) := by
  induction requested generalizing fs' with
  | nil => rfl
  | cons output rest ih =>
    obtain ⟨member, later⟩ := List.cons_subset.mp asked
    have same : effect source oraclePath plan.inputs fs' output =
        effect source oraclePath plan.inputs fs output :=
      effect_congr (steady fs' .refl) (alike.destination_eq fun _ => separate.avoids member)
    have rewritten : Rewritten (plan.Occupies fs) fs'
        (fs'.overwriteAll (effect source oraclePath plan.inputs fs output).written.toList) :=
      FileSystem.rewritten_overwriteAll fun write inside =>
        ⟨output, member, destination_of_written (Option.mem_toList.mp inside)⟩
    have onward : source.Steady plan fs
        (fs'.overwriteAll (effect source oraclePath plan.inputs fs output).written.toList) :=
      fun state reached => steady state (rewritten.trans reached)
    simp only [outputs, Logged.value_bind, Logged.value_pure, generate_eq_effect, same,
      ih (alike.rewritten rewritten) onward later, writes, List.map_cons, List.flatMap_cons,
      FileSystem.overwriteAll_append]

theorem run_eq (separate : plan.Separate fs) (alike : AlikeOutside (plan.Occupies fs) fs fs')
    (steady : source.Steady plan fs fs') : (plan.run source oraclePath fs').value =
      (plan.outputs.map fun output => (effect source oraclePath plan.inputs fs output).report,
        fs'.overwriteAll (writes source oraclePath plan.inputs fs plan.outputs)) :=
  outputs_eq separate alike steady (List.Subset.refl _)

theorem only_run (plan : Plan) (source : Source) (oraclePath : String) (fs : FileSystem)
    (output : Variant × String) :
    let result := effect source oraclePath plan.inputs fs output
    ((plan.only output).run source oraclePath fs).value =
      ([result.report], fs.overwriteAll result.written.toList) := by
  simp only [Plan.run, Plan.only, outputs, Logged.value_bind, Logged.value_pure, generate_eq_effect]

section Separate

variable (separate : plan.Separate fs)
include separate

/-- What is written at the location of an output is the text of that output. -/
theorem text_unique (member : output ∈ plan.outputs)
    (written : (effect source oraclePath plan.inputs fs output).written = some (location, text))
    {write : Location × String} (inside : write ∈ writes source oraclePath plan.inputs fs plan.outputs)
    (same : write.1 = location) : write.2 = text := by
  obtain ⟨other, member', written'⟩ := mem_writes.mp inside
  have reached : fs.destination other.2 = .ok location := same ▸ destination_of_written written'
  obtain rfl := separate.owner_unique member member' (destination_of_written written) reached
  exact congrArg Prod.snd (Option.some.inj (written'.symm.trans written))

/-- After all writes of a plan, the location of each holds its text. -/
theorem node?_of_written (member : output ∈ plan.outputs)
    (written : (effect source oraclePath plan.inputs fs output).written = some (location, text))
    (fs' : FileSystem) : ∃ executable,
      (fs'.overwriteAll (writes source oraclePath plan.inputs fs plan.outputs)).node? location =
        some (.file ⟨.text text, executable⟩) :=
  FileSystem.node?_overwriteAll (fun _ => text_unique separate member written)
    (.inl (mem_writes.mpr ⟨output, member, written⟩))

theorem text?_of_written (alike : AlikeOutside (plan.Occupies fs) fs fs') (member : output ∈ plan.outputs)
    (written : (effect source oraclePath plan.inputs fs output).written = some (location, text)) :
    (fs'.overwriteAll (writes source oraclePath plan.inputs fs plan.outputs)).text? output.2 = some text := by
  have reached := (alike.rewritten (rewritten_writes source oraclePath plan fs fs')).destination_eq
    fun _ => separate.avoids member
  rw [destination_of_written written] at reached
  obtain ⟨executable, node⟩ := node?_of_written separate member written fs'
  rw [FileSystem.text?, FileSystem.nodeAt?_of_destination reached, node]

theorem text?_of_unwritten (member : output ∈ plan.outputs)
    (unwritten : (effect source oraclePath plan.inputs fs output).written = none) :
    (fs.overwriteAll (writes source oraclePath plan.inputs fs plan.outputs)).text? output.2 =
      fs.text? output.2 := by
  refine FileSystem.text?_overwriteAll (fun write inside => ?_) fun write inside => ?_
  · exact (occupied_of_mem_writes inside).free
  · obtain ⟨other, member', written⟩ := mem_writes.mp inside
    have apart : output ≠ other := by
      rintro rfl
      exact nomatch unwritten.symm.trans written
    exact (separate.apart member member' apart write.1 (destination_of_written written)).1

/-- Every file holds in the end what was written to it, so to write it all again changes nothing. -/
theorem overwriteAll_writes_again :
    let after := fs'.overwriteAll (writes source oraclePath plan.inputs fs plan.outputs)
    after.overwriteAll (writes source oraclePath plan.inputs fs plan.outputs) = after := by
  intro after
  refine FileSystem.overwriteAll_of_same fun write inside => ?_
  obtain ⟨output, member, written⟩ := mem_writes.mp inside
  obtain ⟨executable, node⟩ := node?_of_written separate member written fs'
  exact FileSystem.overwrite_same node

end Separate

/-- Outputs that are apart do not know of one another, nor of what stood in their files before, and to run the
plan again reports and leaves the same. -/
theorem outputs_independent (oraclePath : String) (separate : plan.Separate fs)
    (steady : source.Steady plan fs fs) :
    let run := (plan.run source oraclePath fs).value
    let alone := fun output => ((plan.only output).run source oraclePath fs).value
    run.1.map (fun report => [report]) = plan.outputs.map (fun output => (alone output).1) ∧
    (∀ output ∈ plan.outputs, run.2.text? output.2 = (alone output).2.text? output.2) ∧
    (∀ old, AlikeOutside (plan.Occupies fs) fs old → source.Steady plan fs old →
      let other := (plan.run source oraclePath old).value
      other.1 = run.1 ∧ ∀ report ∈ run.1, report.outcome.isOk = true →
        other.2.text? report.path = run.2.text? report.path) ∧
    (plan.run source oraclePath run.2).value = run := by
  intro run alone
  have alike : AlikeOutside (plan.Occupies fs) fs fs := .refl fun _ occupied => occupied.free
  have first : run = _ := run_eq separate alike steady
  refine ⟨?_, fun output member => ?_, fun old alike' steady' => ?_, ?_⟩
  · simp only [first, alone, only_run, List.map_map]
    rfl
  · simp only [first, alone, only_run]
    cases written : (effect source oraclePath plan.inputs fs output).written with
    | none => exact text?_of_unwritten separate member written
    | some write =>
      have reached := destination_of_written written
      exact (text?_of_written separate alike member written).trans
        (FileSystem.text?_overwrite (FileSystem.destination_free reached) (.inr reached)).symm
  · intro other
    have second : other = _ := run_eq separate alike' steady'
    refine ⟨by rw [first, second], fun report member ok => ?_⟩
    rw [first] at member
    obtain ⟨output, inside, rfl⟩ := List.mem_map.mp member
    obtain ⟨path, outcome⟩ := effect_report source oraclePath plan.inputs fs output
    obtain ⟨write, written⟩ := Option.isSome_iff_exists.mp (outcome.symm.trans ok)
    rw [first, second, path, text?_of_written separate alike inside written,
      text?_of_written separate alike' inside written]
  · have rewritten : Rewritten (plan.Occupies fs) fs run.2 :=
      first ▸ rewritten_writes source oraclePath plan fs fs
    have onward : source.Steady plan fs run.2 := fun state reached => steady state (rewritten.trans reached)
    rw [run_eq separate (alike.rewritten rewritten) onward, first, overwriteAll_writes_again separate]

/-- Two outputs in files of their own, and one at the root, which is no file. -/
def threeOutputs : Plan := ⟨[(.ja4, "c.rs"), (.ja4s, "s.rs"), (.ja4x, "/")], ["a.pcap"]⟩

/-- A frame with a hello message and its fingerprint, as the dissector prints it. -/
def helloDocument : List Char :=
  "[\x7b\"frame\":\x7b\"frame_frame_number\":7\x7d,".toList ++
    "\"tls\":\x7b\"tls_tls_handshake_raw\":\"01000000\",".toList ++
    "\"tls_tls_handshake_ja4\":\"c\"\x7d\x7d]\n".toList

def rootDissector : Source := Dissector.source ⟨"/tshark", []⟩

/-- The dissector at the root, and a capture with that frame among those for the client fingerprint. -/
def workbench : FileSystem :=
  let hello : Dissection := ⟨Text.Utf8.encode helloDocument, [], 0, false⟩
  ((FileSystem.bare []).put ["tshark"] (.file ⟨.dissector, true⟩)).put ["a.pcap"]
    (.file ⟨.capture ⟨⟨[], [], 0, false⟩, [(Variant.ja4.query.filter, hello)]⟩, false⟩)

/-- The same with an older text in the file of one output. -/
def usedWorkbench : FileSystem := workbench.put ["c.rs"] (.file ⟨.text "old", true⟩)

theorem threeOutputs_separate : threeOutputs.Separate workbench := by
  have client : workbench.destination "c.rs" = .ok ["c.rs"] := rfl
  have server : workbench.destination "s.rs" = .ok ["s.rs"] := rfl
  have root : workbench.destination "/" = .error .isDirectory := rfl
  have fromRoot : ∀ s, workbench.Apart s "/" := fun _ _ reached => nomatch root.symm.trans reached
  simp only [Plan.Separate, threeOutputs, List.pairwise_cons, List.forall_mem_cons]
  refine ⟨⟨⟨?_, ?_⟩, ⟨fromRoot _, ?_⟩, by simp⟩, ⟨⟨fromRoot _, ?_⟩, by simp⟩, by simp⟩
  · exact .of_name rfl (by decide) server (by simp [client]) (nomatch ·) (by decide)
  · exact .of_name rfl (by decide) client (by simp [server]) (nomatch ·) (by decide)
  · exact .of_name rfl (by decide) client (by simp [root]) (nomatch ·) (by decide)
  · exact .of_name rfl (by decide) server (by simp [root]) (nomatch ·) (by decide)

theorem threeOutputs_occupies {location : Location} (occupied : threeOutputs.Occupies workbench location) :
    location = ["c.rs"] ∨ location = ["s.rs"] := by
  obtain ⟨output, member, reached⟩ := occupied
  simp only [threeOutputs, List.mem_cons, List.not_mem_nil, or_false] at member
  rcases member with rfl | rfl | rfl
  · exact .inl (Except.ok.inj reached).symm
  · exact .inr (Except.ok.inj reached).symm
  · exact nomatch reached

theorem usedWorkbench_alike : AlikeOutside (threeOutputs.Occupies workbench) workbench usedWorkbench where
  workingDirectory := rfl
  elsewhere location outside := by
    have other : location ≠ ["c.rs"] := by
      rintro rfl
      exact outside ⟨(.ja4, "c.rs"), .head _, rfl⟩
    simp [usedWorkbench, other]
  free _ occupied := occupied.free
  freeAfter location occupied := by
    rcases threeOutputs_occupies occupied with rfl | rfl
    · exact nofun
    · exact nofun

theorem threeOutputs_steady {old : FileSystem}
    (alike : AlikeOutside (threeOutputs.Occupies workbench) workbench old) :
    rootDissector.Steady threeOutputs workbench old := by
  refine Dissector.source_steady alike ?_
  intro s member location occupied meets
  have known : location = [] ∨ location = ["a.pcap"] ∨ location = ["tshark"] := by
    rcases List.mem_cons.mp member with rfl | member
    · exact (meets.of_name rfl rfl rfl).imp_right .inl
    · obtain rfl : s = "/tshark" := List.mem_singleton.mp member
      exact (meets.of_name rfl rfl rfl).imp_right .inr
  rcases threeOutputs_occupies occupied with rfl | rfl
  · exact absurd known (by decide)
  · exact absurd known (by decide)

/-- A run of a plan with the dissector at the root. -/
def rootRun (plan : Plan) (fs : FileSystem) : Logged (List Report × FileSystem) := plan.run rootDissector "super" fs

/-- One output with a record, one without, and one that fails. -/
theorem threeOutputs_independent :
    threeOutputs.Separate workbench ∧ rootDissector.Steady threeOutputs workbench workbench ∧
      AlikeOutside (threeOutputs.Occupies workbench) workbench usedWorkbench ∧
      rootDissector.Steady threeOutputs workbench usedWorkbench ∧
      (rootRun threeOutputs workbench).value.1.map (·.outcome.toOption) = [some ⟨1, 0⟩, some ⟨0, 0⟩, none] ∧
      (rootRun threeOutputs workbench).value.1.map (fun report => [report]) =
        threeOutputs.outputs.map (fun output => (rootRun (threeOutputs.only output) workbench).value.1) ∧
      (∀ output ∈ threeOutputs.outputs, (rootRun threeOutputs workbench).value.2.text? output.2 =
        (rootRun (threeOutputs.only output) workbench).value.2.text? output.2) ∧
      (rootRun threeOutputs usedWorkbench).value.1 = (rootRun threeOutputs workbench).value.1 ∧
      (∀ report ∈ (rootRun threeOutputs workbench).value.1, report.outcome.isOk = true →
        (rootRun threeOutputs usedWorkbench).value.2.text? report.path =
          (rootRun threeOutputs workbench).value.2.text? report.path) ∧
      (rootRun threeOutputs (rootRun threeOutputs workbench).value.2).value =
        (rootRun threeOutputs workbench).value := by
  have steady : rootDissector.Steady threeOutputs workbench workbench :=
    threeOutputs_steady (.refl fun _ occupied => occupied.free)
  have steady' : rootDissector.Steady threeOutputs workbench usedWorkbench := threeOutputs_steady usedWorkbench_alike
  obtain ⟨outcomes, texts, olds, again⟩ := outputs_independent "super" threeOutputs_separate steady
  obtain ⟨same, files⟩ := olds usedWorkbench usedWorkbench_alike steady'
  refine ⟨threeOutputs_separate, steady, usedWorkbench_alike, steady', ?_, outcomes, texts, same, files, again⟩
  decide +kernel

end Run
end TlsFixtures
