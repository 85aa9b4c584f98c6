import TypedIR.CommandLine.Program
import TypedIR.Proofs.CommandLine.Conclusion

/-!
Contract: a run that builds a module tells the truth about it.

Owns:
- what its status, its output and its notices say, for every description, settings and
  emission, with an abort and without one;
- runs whose module has a function that does not verify.

The libraries are arbitrary: how arguments are read, which documents texts write and how
documents are written is not looked into. Neither is how records and failures are shown.
-/

namespace TypedIR.CommandLine

variable {libraries : Libraries} {directory : Directory} {path : Option String}
  {options : BuildOptions} {opening : List Notice}

/-- What the transcript of a run says of its module, next to that of the same run without an
abort. -/
structure Truthful (libraries : Libraries) (directory : Directory) (path : Option String)
    (options : BuildOptions) (opening : List Notice) (transcript unaborted : Transcript) :
    Prop where
  /-- The run succeeds if it loads settings, reads a description and builds a module, all functions
  of which verify, and only then. -/
  success : transcript.status = .code 0 ↔
    ∃ building : Building libraries directory path options, building.Verifies
  text : options.emission = .text → ∀ building : Building libraries directory path options,
    building.Verifies → ∃ text, building.bench.store.moduleText building.id = .ok text ∧
      Delivered directory text options.output transcript.output transcript.directory
  /-- No text is delivered unless the run succeeds. -/
  withheld : options.emission = .text →
    (¬ ∃ building : Building libraries directory path options, building.Verifies) →
      transcript.output = "" ∧ transcript.directory = directory
  /-- The document that is written marks the functions that do not verify, and no others. -/
  summary : options.emission = .summary → options.abortOnInvalid = false →
    ∀ building : Building libraries directory path options, ∃ summary,
      building.Summarizes summary ∧ building.Marks summary.toJson ∧
        Delivered directory (libraries.writeJson summary.toJson) options.output transcript.output
          transcript.directory
  reasons : options.abortOnInvalid = false →
    ∀ building : Building libraries directory path options, ¬ building.Verifies →
      ∃ reasons, building.verified.result = .ok (.invalid reasons) ∧
        transcript.status = .code 1 ∧ transcript.notices = opening ++ building.complaint reasons
  aborts : options.abortOnInvalid = true →
    ∀ building : Building libraries directory path options,
      (transcript.status = .abort ↔ ¬ building.Verifies)
  /-- Nothing is delivered before an abort. -/
  abandoned : transcript.status = .abort →
    transcript.output = "" ∧ transcript.directory = directory
  spared : options.abortOnInvalid = true →
    ∀ building : Building libraries directory path options, building.Verifies →
      transcript = unaborted

/-- The ways in which a run that builds a module can end. -/
inductive Ended (libraries : Libraries) (directory : Directory) (path : Option String)
    (options : BuildOptions) : Transcript → Prop where
  | unbuilt (notices : List Notice)
      (unbuilt : IsEmpty (Building libraries directory path options)) :
      Ended libraries directory path options ⟨.code 1, "", notices, directory⟩
  | valid (building : Building libraries directory path options) {printed : String}
      {notices : List Notice} {changed : Directory} (verifies : building.Verifies)
      (emits : building.Emits .valid printed changed) :
      Ended libraries directory path options ⟨.code 0, printed, notices, changed⟩
  | rejected (building : Building libraries directory path options) {printed : String}
      {changed : Directory} {reasons : List String} (fails : ¬ building.Verifies)
      (invalid : building.verified.result = .ok (.invalid reasons))
      (returns : options.abortOnInvalid = false)
      (emits : building.Emits (.invalid reasons) printed changed) :
      Ended libraries directory path options
        ⟨.code 1, printed, building.complaint reasons, changed⟩
  | aborted (building : Building libraries directory path options) (notices : List Notice)
      (fails : ¬ building.Verifies) (aborts : options.abortOnInvalid = true) :
      Ended libraries directory path options ⟨.abort, "", notices, directory⟩

theorem ended (libraries : Libraries) (path : Option String)
    (writable : Writable directory options.output) :
    Ended libraries directory path options
      ((libraries.runTask path fun _ => libraries.build options).runIn directory) := by
  rcases isEmpty_or_nonempty (Building libraries directory path options) with unbuilt | ⟨⟨building⟩⟩
  · obtain ⟨notices, same⟩ := @runIn_unbuilt libraries directory path options unbuilt
    rw [same]
    exact .unbuilt notices unbuilt
  · rcases building.verdict_cases with ⟨verifies, valid⟩ | ⟨fails, reasons, invalid⟩
    · obtain ⟨printed, changed, notices, emits, same⟩ :=
        @Building.runIn_valid _ _ _ _ building writable valid
      rw [same]
      exact .valid building verifies emits
    · cases aborts : options.abortOnInvalid with
      | false =>
          obtain ⟨printed, changed, emits, same⟩ :=
            @Building.runIn_invalid _ _ _ _ building reasons writable invalid aborts
          rw [same]
          exact .rejected building fails invalid aborts emits
      | true =>
          obtain ⟨notices, same⟩ := @Building.runIn_abort _ _ _ _ building reasons invalid aborts
          rw [same]
          exact .aborted building notices fails aborts

/-- However it ends, the run tells the truth. -/
theorem Ended.truthful {transcript unaborted : Transcript}
    (ended : Ended libraries directory path options transcript)
    (spared : ∀ building : Building libraries directory path options, building.Verifies →
      transcript = unaborted) :
    Truthful libraries directory path options opening
      { transcript with notices := opening ++ transcript.notices }
      { unaborted with notices := opening ++ unaborted.notices } := by
  have alike : options.abortOnInvalid = true →
      ∀ building : Building libraries directory path options, building.Verifies →
        ({ transcript with notices := opening ++ transcript.notices } : Transcript) =
          { unaborted with notices := opening ++ unaborted.notices } := by
    intro _ building verifies
    rw [spared building verifies]
  cases ended with
  | unbuilt notices unbuilt =>
      exact
        { success := iff_of_false (by simp) fun ⟨building, _⟩ => unbuilt.false building
          text := fun _ building => (unbuilt.false building).elim
          withheld := fun _ _ => ⟨rfl, rfl⟩
          summary := fun _ _ building => (unbuilt.false building).elim
          reasons := fun _ building => (unbuilt.false building).elim
          aborts := fun _ building => (unbuilt.false building).elim
          abandoned := fun aborted => by cases aborted
          spared := alike }
  | valid building verifies emits =>
      have same : ∀ other, building = other := Subsingleton.elim building
      exact
        { success := iff_of_true rfl ⟨building, verifies⟩
          text := fun asked other _ => same other ▸ emits.exists_text asked
          withheld := fun _ none => absurd ⟨building, verifies⟩ none
          summary := fun asked _ other => same other ▸ emits.exists_summary asked
          reasons := fun _ other fails => absurd (same other ▸ verifies) fails
          aborts := fun _ other =>
            iff_of_false (fun aborted => by cases aborted) (not_not_intro (same other ▸ verifies))
          abandoned := fun aborted => by cases aborted
          spared := alike }
  | rejected building fails invalid returns emits =>
      have same : ∀ other, building = other := Subsingleton.elim building
      exact
        { success := iff_of_false (by simp) fun ⟨other, verifies⟩ => (same other ▸ fails) verifies
          text := fun _ other verifies => absurd verifies (same other ▸ fails)
          withheld := fun asked _ => emits.eq_of_invalid asked
          summary := fun asked _ other => same other ▸ emits.exists_summary asked
          reasons := fun _ other _ => same other ▸ ⟨_, invalid, rfl, rfl⟩
          aborts := fun aborts => by cases returns.symm.trans aborts
          abandoned := fun aborted => by cases aborted
          spared := alike }
  | aborted building notices fails aborts =>
      have same : ∀ other, building = other := Subsingleton.elim building
      exact
        { success := iff_of_false (by simp) fun ⟨other, verifies⟩ => (same other ▸ fails) verifies
          text := fun _ other verifies => absurd verifies (same other ▸ fails)
          withheld := fun _ _ => ⟨rfl, rfl⟩
          summary := fun _ returns => by cases aborts.symm.trans returns
          reasons := fun returns => by cases aborts.symm.trans returns
          aborts := fun _ other => iff_of_true rfl (same other ▸ fails)
          abandoned := fun _ => ⟨rfl, rfl⟩
          spared := alike }

/-- Every run that is asked for a build tells the truth, as long as the file that it is to write may
be written. -/
theorem build_truthful (libraries : Libraries) {arguments : List String} {verbose : Bool}
    (asked : libraries.request arguments = .ok ⟨verbose, path, .build options⟩)
    (writable : Writable directory options.output) :
    Truthful libraries directory path options [.logStarts (logWord verbose)]
      ((libraries.run arguments).runIn directory)
      ((libraries.perform ⟨verbose, path, .build { options with abortOnInvalid := false }⟩).runIn
        directory) := by
  unfold Libraries.run
  rw [asked]
  refine (ended libraries path writable).truthful fun building verifies => ?_
  rcases building.verdict_cases with ⟨_, valid⟩ | ⟨fails, _⟩
  · exact building.runIn_spared valid
  · exact absurd verifies fails

/-! ### A module that does not verify -/

def mixedText : String :=
  "\x7b\"module\": \"mixed\", \"functions\": [\x7b\"name\": \"f\", \"returns\": \"void\", " ++
    "\"blocks\": [\x7b\"name\": \"entry\"\x7d]\x7d, " ++
    "\x7b\"name\": \"g\", \"returns\": \"void\"\x7d]\x7d"

/-- Settings under which nothing is verified before emission, and a function with an empty block next
to one without blocks. -/
def mixedDirectory : Directory :=
  [("lax.json", "\x7b\"verify_before_emit\": false\x7d"), ("mixed.json", mixedText)]

def mixedFunction (name : String) (blocks : List Description.Block) : Description.Function where
  name := name
  result := .void
  parameters := []
  variadic := false
  convention := none
  collector := none
  personality := none
  attributes := []
  blocks := blocks

def mixedDescription : Description.Module where
  name := "mixed"
  functions := [mixedFunction "f" [⟨"entry", []⟩], mixedFunction "g" []]

def mixedOptions (output : Option String) (emission : Emission) (abortOnInvalid : Bool) :
    BuildOptions :=
  ⟨"mixed.json", output, emission, abortOnInvalid⟩

theorem read?_mixedText : Json.read? mixedText >>= Description.Module.ofJson? =
    some mixedDescription := by
  cbv

def laxSettings : Settings := { Settings.standard with verifyBeforeEmit := false }

/-- The workspace with the module of the description. -/
def mixedBench : Bench :=
  (Description.build Engine.reference mixedDescription (.start laxSettings .start)).workspace

theorem read_mixedDirectory : mixedDirectory.read "mixed.json" = .ok mixedText := by decide +kernel

def mixedReason : String := "@f/entry: block is empty and has no terminator"

theorem mixedBench_rejected :
    (Action.verifyModule Engine.reference ⟨0, 0⟩ mixedBench).result =
      .ok (.invalid [mixedReason]) := by
  decide +kernel

section Mixed

variable (output : Option String) (emission : Emission) (abortOnInvalid : Bool)

def mixedBuilding : Building Libraries.standard mixedDirectory (some "lax.json")
    (mixedOptions output emission abortOnInvalid) where
  settings := laxSettings
  content := mixedText
  description := mixedDescription
  id := ⟨0, 0⟩
  loaded := by decide +kernel
  read := read_mixedDirectory
  parsed := read?_mixedText
  built := by decide +kernel

theorem mixedBuilding_fails : ¬ (mixedBuilding output emission abortOnInvalid).Verifies := by
  rcases (mixedBuilding output emission abortOnInvalid).verdict_cases with ⟨_, valid⟩ | ⟨fails, _⟩
  · cases valid.symm.trans mixedBench_rejected
  · exact fails

theorem mixedBuilding_never :
    ¬ ∃ building : Building Libraries.standard mixedDirectory (some "lax.json")
      (mixedOptions output emission abortOnInvalid), building.Verifies := by
  rintro ⟨building, verifies⟩
  have same := Subsingleton.elim building (mixedBuilding output emission abortOnInvalid)
  exact mixedBuilding_fails output emission abortOnInvalid (same ▸ verifies)

end Mixed

theorem mixedDirectory_writable (emission : Emission) (abortOnInvalid : Bool) :
    Writable mixedDirectory (mixedOptions (some "mixed.ll") emission abortOnInvalid).output := by
  have writes : (mixedDirectory.write "mixed.ll" "").toOption.isSome = true := by decide +kernel
  cases written : mixedDirectory.write "mixed.ll" "" with
  | error fault =>
      rw [written] at writes
      cases writes
  | ok changed => exact writable_of_write written

/-- The overview of the module, in which one function is marked. -/
def mixedOverview : String :=
  "\x7b\n  \"module\": \"mixed\",\n  \"functions\": [\n    \x7b\n      \"name\": \"f\",\n" ++
    "      \"signature\": \"void ()\",\n      \"call_convention\": 0,\n      \"parameters\": 0,\n" ++
    "      \"blocks\": [\n        \x7b\n          \"name\": \"entry\",\n" ++
    "          \"instructions\": 0\n        \x7d\n      ],\n      \"function_attributes\": [],\n" ++
    "      \"state\": \"invalid\",\n      \"reasons\": [\n        \"" ++ mixedReason ++
    "\"\n      ]\n    \x7d,\n    \x7b\n      \"name\": \"g\",\n" ++
    "      \"signature\": \"void ()\",\n      \"call_convention\": 0,\n      \"parameters\": 0,\n" ++
    "      \"blocks\": [],\n      \"function_attributes\": [],\n      \"state\": \"verified\"\n" ++
    "    \x7d\n  ]\n\x7d"

theorem mixedBuilding_summary {summary : ModuleSummary}
    (summarizes : (mixedBuilding none .summary false).Summarizes summary) :
    Libraries.standard.writeJson summary.toJson = mixedOverview := by
  have shown : ((Action.verifyModule Engine.reference ⟨0, 0⟩ mixedBench).workspace.store.read ⟨0, 0⟩
      Context.summarize).map (fun summary => Libraries.standard.writeJson summary.toJson) =
        .ok mixedOverview := by
    decide +kernel
  obtain ⟨context, found, answered⟩ := bind_eq_ok.mp summarizes.1
  obtain ⟨same, made, equal⟩ := bind_eq_ok.mp answered
  obtain rfl := Fact.summary.inj (pure_eq_ok.mp equal)
  have read : ((mixedBuilding none .summary false).verified.workspace.store.read ⟨0, 0⟩
      Context.summarize) = .ok same := bind_eq_ok.mpr ⟨context, found, made⟩
  exact Except.ok.inj ((congrArg (Except.map _) read).symm.trans shown)

theorem mixedBuilding_complaint : noticesText none
      ([.logStarts "warn"] ++ (mixedBuilding (some "mixed.ll") .text false).complaint [mixedReason]) =
    "  @f/entry: block is empty and has no terminator\n" ++
      "Error: module 'mixed' failed verification with 1 error(s)\n" := by
  decide +kernel

/-- The text of the module is withheld, though emission would not have verified it. Its overview
marks the one function that is invalid. With an abort, nothing is delivered. -/
theorem mixedRuns_truthful :
    let run (mode : List String) := (Libraries.standard.run
      (["--config", "lax.json", "build", "mixed.json"] ++ mode)).runIn mixedDirectory
    let text := run ["--output", "mixed.ll"]
    let summary := run ["--emit", "summary"]
    let aborted := run ["--output", "mixed.ll", "--emit", "summary", "--abort-on-invalid"]
    (text.status = .code 1 ∧ text.output = "" ∧ text.directory = mixedDirectory ∧
        noticesText none text.notices = "  @f/entry: block is empty and has no terminator\n" ++
          "Error: module 'mixed' failed verification with 1 error(s)\n") ∧
      (summary.status = .code 1 ∧ summary.output = mixedOverview ∧
        summary.directory = mixedDirectory) ∧
      aborted.status = .abort ∧ aborted.output = "" ∧ aborted.directory = mixedDirectory := by
  intro run text summary aborted
  have inText : Libraries.standard.request
      ["--config", "lax.json", "build", "mixed.json", "--output", "mixed.ll"] =
        .ok ⟨false, some "lax.json", .build (mixedOptions (some "mixed.ll") .text false)⟩ := by
    rfl
  have inSummary : Libraries.standard.request
      ["--config", "lax.json", "build", "mixed.json", "--emit", "summary"] =
        .ok ⟨false, some "lax.json", .build (mixedOptions none .summary false)⟩ := by
    rfl
  have inAbort : Libraries.standard.request ["--config", "lax.json", "build", "mixed.json",
      "--output", "mixed.ll", "--emit", "summary", "--abort-on-invalid"] =
        .ok ⟨false, some "lax.json", .build (mixedOptions (some "mixed.ll") .summary true)⟩ := by
    rfl
  have textTold := build_truthful _ inText (mixedDirectory_writable .text false)
  have summaryTold := @build_truthful mixedDirectory _ _ _ _ _ inSummary (by rintro _ ⟨⟩)
  have abortTold := build_truthful _ inAbort (mixedDirectory_writable .summary true)
  refine ⟨?_, ?_, ?_⟩
  · obtain ⟨output, directory⟩ := textTold.withheld rfl (mixedBuilding_never _ _ _)
    obtain ⟨reasons, invalid, status, notices⟩ :=
      textTold.reasons rfl (mixedBuilding _ _ _) (mixedBuilding_fails _ _ _)
    obtain rfl := Verdict.invalid.inj (Except.ok.inj (invalid.symm.trans mixedBench_rejected))
    refine ⟨status, output, directory, ?_⟩
    rw [show text.notices = _ from notices]
    exact mixedBuilding_complaint
  · obtain ⟨_, _, status, _⟩ :=
      summaryTold.reasons rfl (mixedBuilding _ _ _) (mixedBuilding_fails _ _ _)
    obtain ⟨shown, summarizes, _, delivered⟩ := summaryTold.summary rfl rfl (mixedBuilding _ _ _)
    rw [mixedBuilding_summary summarizes] at delivered
    exact ⟨status, delivered.to_output⟩
  · have status := (abortTold.aborts rfl (mixedBuilding _ _ _)).mpr (mixedBuilding_fails _ _ _)
    exact ⟨status, abortTold.abandoned status⟩

end TypedIR.CommandLine
