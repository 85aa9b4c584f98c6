import TypedIR.Proofs.CommandLine.Building
import TypedIR.Proofs.Print.Summary

/-!
Contract: what a run does with a module that it has built.

Owns:
- the verdict on the module, which is valid exactly if all functions verify;
- the overview and the text of the module, as they are delivered, and what the document of
  the overview marks;
- the steps after the build: judging, delivering, and the end with reasons;
- that a run tells the truth about its module by its status, its output and its notices.

Does not own: how descriptions are read and built.
-/

namespace TypedIR.CommandLine

variable {libraries : Libraries} {directory : Directory} {path : Option String}
  {options : BuildOptions}

/-! ### The module -/

namespace Building

variable (building : Building libraries directory path options)

/-- The verification of the module. -/
def verified : Outcome ReferenceState Verdict :=
  Action.verifyModule Engine.reference building.id building.bench

theorem verifies_iff {context : Context}
    (found : building.bench.store.context? building.id = some context) :
    building.Verifies ↔
      ∀ single ∈ building.bench.verdicts Engine.reference context, single = .valid := by
  have single : ∀ entry ∈ context.functions,
      ((Action.verify Engine.reference (context.functionId entry.self) building.bench).result =
          .ok .valid ↔
        building.bench.verdict Engine.reference (context.functionId entry.self) = .valid) := by
    intro entry member
    rw [(Action.verify_named (building.reachable.names found member)).1, Except.ok.injEq]
  unfold Verifies Workspace.verdicts
  rw [Action.functionsOf_found found, List.forall_mem_map]
  simp only [Except.ok.injEq, exists_eq_left', List.forall_mem_map]
  exact forall₂_congr single

/-- The verdict on the module is that all functions verify, or there are reasons against it. -/
theorem verdict_cases :
    (building.Verifies ∧ building.verified.result = .ok .valid) ∨
      ¬ building.Verifies ∧ ∃ reasons, building.verified.result = .ok (.invalid reasons) := by
  obtain ⟨context, found⟩ := building.live
  have result := (building.reachable.verifyModule Engine.reference_ignoresRecords found).1
  have verdict := building.verifies_iff found
  rw [← Workspace.ofReasons_eq_valid] at verdict
  by_cases verifies : building.Verifies
  · rw [verdict.mp verifies] at result
    exact .inl ⟨verifies, result⟩
  · rw [Verdict.ofReasons_eq_invalid (mt verdict.mpr verifies)] at result
    exact .inr ⟨verifies, _, result⟩

/-- Verification records its verdicts on the module, which stays where it is. -/
theorem recorded {context : Context}
    (found : building.bench.store.context? building.id = some context) :
    building.verified.workspace.store.context? building.id =
      some (context.recordAll (building.bench.verdicts Engine.reference context)) := by
  have left := (building.reachable.verifyModule Engine.reference_ignoresRecords found).2
  unfold verified
  rw [left]
  exact (Store.context?_put found).trans (if_pos rfl)

theorem verified_reachable :
    Workspace.Reachable Engine.reference .start building.verified.workspace := by
  have later := building.reachable.after_command (.verifyModule building.id)
  rwa [Workspace.after_verifyModule] at later

theorem verified_unrecorded :
    building.verified.workspace.store.unrecorded = building.bench.store.unrecorded :=
  (Action.unrecorded_verifyModule building.id).1

/-- The overview shows the functions of the module in order, each under its name and with its
verdict. -/
def Summarizes (summary : ModuleSummary) : Prop :=
  (Query.summary building.id).answer building.verified.workspace.store =
      .ok (.summary summary) ∧
    ∃ functions, Action.functionsOf building.id building.bench.store = .ok functions ∧
      List.Forall₂ (fun function overview =>
        (Query.functionName function).answer building.bench.store = .ok (.text overview.name) ∧
          ∃ verdict, (Action.verify Engine.reference function building.bench).result =
            .ok verdict ∧ overview.state = verdict.state) functions summary.functions

/-- Functions keep their names when their module is verified. -/
theorem functionName_verified {function : FunctionId} {context : Context} {name : String}
    (found : building.verified.workspace.store.context? function.context = some context)
    (named : context.functionName function = .ok name) :
    (Query.functionName function).answer building.bench.store = .ok (.text name) := by
  have plain : ¬ (Query.functionName function).AsksVerdicts := fun asks => asks
  rw [← Store.answer_of_unrecorded_eq plain building.verified_unrecorded]
  exact bind_eq_ok.mpr ⟨context, Store.resolve_eq_ok.mpr found, bind_eq_ok.mpr ⟨name, named, rfl⟩⟩

/-- After verification there is such an overview. -/
theorem summarized : ∃ summary,
    (building.verified.workspace.store.read building.id Context.summarize) = .ok summary ∧
      building.Summarizes summary := by
  obtain ⟨context, found⟩ := building.live
  have later := building.verified_reachable
  have foundLater := building.recorded found
  obtain ⟨summary, made, _⟩ :=
    Context.summarize_succeeds (later.canonical foundLater) (later.coherent foundLater).2
  have read : building.verified.workspace.store.read building.id Context.summarize = .ok summary :=
    bind_eq_ok.mpr ⟨_, Store.resolve_eq_ok.mpr foundLater, made⟩
  refine ⟨summary, read, bind_eq_ok.mpr ⟨_, Store.resolve_eq_ok.mpr foundLater,
    bind_eq_ok.mpr ⟨summary, made, rfl⟩⟩, _, Action.functionsOf_found found, ?_⟩
  have shows := Context.summarize_shows made
  rw [Workspace.functions_recordAll, List.forall₂_map_left_iff] at shows
  rw [List.forall₂_map_left_iff]
  refine shows.imp fun entry overview ⟨named, state⟩ => ?_
  have home : building.verified.workspace.store.context? (context.functionId entry.self).context =
      some (context.recordAll (building.bench.verdicts Engine.reference context)) := by
    rw [← foundLater, ← (building.reachable.coherent found).1]
    rfl
  have answered := building.functionName_verified home named
  obtain ⟨other, foundHere, told⟩ := bind_eq_ok.mp answered
  obtain ⟨name, known, _⟩ := bind_eq_ok.mp told
  have names : building.bench.store.Names (context.functionId entry.self) :=
    ⟨name, bind_eq_ok.mpr ⟨other, foundHere, known⟩⟩
  exact ⟨answered, _, (Action.verify_named names).1, state⟩

/-- The document has the functions of the module in order, each under its name, and marks exactly
those that fail verification as invalid, with the reasons against them. -/
def Marks (document : Json) : Prop :=
  ∃ functions entries, Action.functionsOf building.id building.bench.store = .ok functions ∧
    document.field? "functions" = some (.array entries) ∧
    List.Forall₂ (fun function entry => ∃ name verdict,
      (Query.functionName function).answer building.bench.store = .ok (.text name) ∧
        (Action.verify Engine.reference function building.bench).result = .ok verdict ∧
        Json.field? entry "name" = some (.text name) ∧
        Json.field? entry "state" =
          some (.text (if verdict.isValid then "verified" else "invalid")) ∧
        (Json.field? entry "reasons").getD (.array []) =
          .array (verdict.reasons.map Json.text)) functions entries

theorem Summarizes.marks {summary : ModuleSummary} (summarizes : building.Summarizes summary) :
    building.Marks summary.toJson := by
  obtain ⟨_, functions, listed, overviews⟩ := summarizes
  refine ⟨functions, _, listed, summary.field?_functions, ?_⟩
  rw [List.forall₂_map_right_iff]
  refine overviews.imp fun function overview ⟨named, verdict, verified, state⟩ => ?_
  refine ⟨overview.name, verdict, named, verified, overview.field?_name, ?_, ?_⟩
  · rw [overview.field?_state, state]
    cases verdict <;> rfl
  · rw [overview.field?_reasons, state]
    cases verdict <;> rfl

theorem printed : ∃ text, building.bench.store.moduleText building.id = .ok text := by
  obtain ⟨context, found⟩ := building.live
  obtain ⟨text, shown⟩ := Context.moduleText_succeeds (building.reachable.canonical found)
    (building.reachable.coherent found).2
  exact ⟨text, bind_eq_ok.mpr ⟨context, Store.resolve_eq_ok.mpr found, shown⟩⟩

/-- What is emitted of a module that verifies is its text. -/
theorem emitted {text : String} (valid : building.verified.result = .ok .valid)
    (printed : building.bench.store.moduleText building.id = .ok text) :
    (Action.emitModule Engine.reference building.id building.verified.workspace).result =
      .ok text.toUTF8.toList := by
  obtain ⟨context, found⟩ := building.live
  have native : building.verified.workspace.native = building.bench.native :=
    (Action.unrecorded_verifyModule building.id).2
  have again := Workspace.verifyModule_again Engine.reference_ignoresRecords building.reachable
    found building.verified_reachable building.verified_unrecorded native
  apply Action.emitModule_of_printed (again.trans valid)
  rw [Action.moduleText_of_unrecorded_eq building.verified_unrecorded]
  exact printed

theorem destroyed : (Action.destroyContext Engine.reference building.id
    building.verified.workspace).result = .ok () := by
  obtain ⟨context, found⟩ := building.live
  exact Workspace.destroyContext_live (building.recorded found)

/-! ### Judging -/

/-- A verdict lets the run go on, unless it is to abort the run. -/
theorem passes_judge {verdict : Verdict} {abortOnInvalid : Bool}
    (done : building.verified.result = .ok verdict)
    (spared : abortOnInvalid = true → verdict = .valid) :
    Script.Passes building.bench directory (judge abortOnInvalid building.id)
      ⟨verdict, building.verified.workspace, directory, "",
        logged building.verified.events⟩ := by
  cases abortOnInvalid with
  | false => exact Script.passes_act done
  | true =>
      obtain rfl := spared rfl
      obtain ⟨context, found⟩ := building.live
      have ended := Action.verifyModuleOrAbort_of_valid found done
      have judged : Script.Passes building.bench directory
          (Script.act (Action.verifyModuleOrAbort Engine.reference building.id))
          ⟨.ok .valid, building.verified.workspace, directory, "",
            logged building.verified.events⟩ := by
        have passes := @Script.passes_act _ building.bench directory
          (Action.verifyModuleOrAbort Engine.reference building.id) (.ok .valid) (by rw [ended])
        rwa [ended] at passes
      unfold judge
      rw [if_pos rfl]
      refine (judged.bind (Script.passes_pure Verdict.valid)).of_eq ?_
      simp

/-- A verdict against the module aborts the run if it may. -/
theorem quits_judge {reasons : List String}
    (done : building.verified.result = .ok (.invalid reasons)) :
    Script.Quits building.bench directory .abort (judge true building.id) := by
  obtain ⟨context, found⟩ := building.live
  unfold judge
  rw [if_pos rfl]
  exact (Script.passes_act (Action.verifyModuleOrAbort_of_invalid found done)).bind_quits
    ((Script.passes_complain _).bind_quits Script.quits_stop)

/-! ### Delivering -/

/-- What is printed of the module and what becomes of the directory: the text of a valid module, or
the overview of any. -/
inductive Emits : Verdict → String → Directory → Prop where
  | text {text printed : String} {changed : Directory} (asked : options.emission = .text)
      (shown : building.bench.store.moduleText building.id = .ok text)
      (delivered : Delivered directory text options.output printed changed) :
      Emits .valid printed changed
  | withheld {reasons : List String} (asked : options.emission = .text) :
      Emits (.invalid reasons) "" directory
  | summary {verdict : Verdict} {summary : ModuleSummary} {printed : String}
      {changed : Directory} (asked : options.emission = .summary)
      (shown : building.Summarizes summary)
      (delivered : Delivered directory (libraries.writeJson summary.toJson) options.output printed
        changed) :
      Emits verdict printed changed

section Emits

variable {building} {verdict : Verdict} {reasons : List String} {printed : String}
  {changed : Directory}

theorem Emits.exists_text (emits : building.Emits .valid printed changed)
    (asked : options.emission = .text) :
    ∃ text, building.bench.store.moduleText building.id = .ok text ∧
      Delivered directory text options.output printed changed := by
  cases emits with
  | text _ shown delivered => exact ⟨_, shown, delivered⟩
  | summary other => cases asked.symm.trans other

theorem Emits.exists_summary (emits : building.Emits verdict printed changed)
    (asked : options.emission = .summary) :
    ∃ summary, building.Summarizes summary ∧ building.Marks summary.toJson ∧
      Delivered directory (libraries.writeJson summary.toJson) options.output printed changed := by
  cases emits with
  | text other | withheld other => cases asked.symm.trans other
  | summary _ shown delivered => exact ⟨_, shown, shown.marks, delivered⟩

theorem Emits.eq_of_invalid (emits : building.Emits (.invalid reasons) printed changed)
    (asked : options.emission = .text) : printed = "" ∧ changed = directory := by
  cases emits with
  | withheld => exact ⟨rfl, rfl⟩
  | summary other => cases asked.symm.trans other

end Emits

theorem passes_emit {verdict : Verdict} (writable : Writable directory options.output)
    (done : building.verified.result = .ok verdict) :
    ∃ printed changed later notices, building.Emits verdict printed changed ∧
      (verdict ≠ .valid → later = building.verified.workspace ∧ notices = []) ∧
      Script.Passes building.verified.workspace directory
        (libraries.emit options building.id verdict) ⟨(), later, changed, printed, notices⟩ := by
  unfold Libraries.emit
  cases asked : options.emission with
  | summary =>
      obtain ⟨summary, made, shown⟩ := building.summarized
      obtain ⟨printed, changed, delivered, passes⟩ :=
        @passes_deliver building.verified.workspace directory _ writable
          (libraries.writeJson summary.toJson)
      exact ⟨printed, changed, _, [], .summary asked shown delivered, fun _ => ⟨rfl, rfl⟩,
        Script.passes_inspect made passes⟩
  | text =>
      cases verdict with
      | valid =>
          obtain ⟨text, shown⟩ := building.printed
          have emitted := building.emitted done shown
          let emission := Action.emitModule Engine.reference building.id building.verified.workspace
          obtain ⟨printed, changed, delivered, passes⟩ :=
            @passes_deliver emission.workspace directory _ writable text
          refine ⟨printed, changed, emission.workspace, logged emission.events,
            .text asked shown delivered, fun against => absurd rfl against, ?_⟩
          exact ((passes_emitText emitted).bind passes).of_eq (by simp [emission])
      | invalid reasons =>
          exact ⟨"", directory, _, [], .withheld asked, fun _ => ⟨rfl, rfl⟩,
            Script.passes_pure ()⟩

/-! ### Ending -/

/-- The release of the module, at the end of a run with reasons against it. -/
def released : Outcome ReferenceState Unit :=
  Action.destroyContext Engine.reference building.id building.verified.workspace

/-- The report of a module with reasons against it. -/
def rejection (reasons : List String) : Notice :=
  .failure ["module '" ++ building.description.name ++ "' failed verification with " ++
    toString reasons.length ++ " error(s)"]

/-- The reasons against a module, each on a line of its own. -/
def reasonLines (reasons : List String) : List Notice :=
  reasons.map fun reason => .text ("  " ++ reason ++ "\n")

/-- All that a run with reasons against its module has for the error stream: between records for the
log the reasons, and at the end how many they are. -/
def complaint (reasons : List String) : List Notice :=
  logged (building.events ++ building.verified.events) ++ reasonLines reasons ++
    logged building.released.events ++ [building.rejection reasons]

theorem ends_requireValid (left : Directory) (reasons : List String) :
    Script.Ends building.verified.workspace left
      (requireValid building.description.name building.id (.invalid reasons))
      ⟨.code 1, "", reasonLines reasons ++
        (logged building.released.events ++ [building.rejection reasons]), left⟩ := by
  intro next
  unfold requireValid
  dsimp only
  rw [(Script.passes_complaints _ reasons).runIn_bind]
  dsimp only
  rw [(Script.passes_act building.destroyed).runIn_bind, Script.ends_fail]
  simp [Transcript.behind, released, rejection, reasonLines]

/-! ### The run -/

theorem runIn_valid (writable : Writable directory options.output)
    (valid : building.verified.result = .ok .valid) :
    ∃ printed changed notices, building.Emits .valid printed changed ∧
      (libraries.runTask path fun _ => libraries.build options).runIn directory =
        ⟨.code 0, printed, notices, changed⟩ := by
  obtain ⟨printed, changed, later, notices, emits, _, passes⟩ :=
    @passes_emit _ _ _ _ building .valid writable valid
  have judged := @passes_judge _ directory _ _ building .valid options.abortOnInvalid valid
    fun _ => rfl
  refine ⟨printed, changed, logged building.events ++
    (logged building.verified.events ++ notices), emits, ?_⟩
  rw [runIn_building building]
  unfold Libraries.conclude
  rw [judged.runIn_bind]
  dsimp only
  rw [passes.runIn_bind]
  dsimp only
  show (((⟨.code 0, "", [], changed⟩ : Transcript).behind printed notices).behind _ _).behind _ _ = _
  simp [Transcript.behind]

theorem runIn_invalid {reasons : List String} (writable : Writable directory options.output)
    (invalid : building.verified.result = .ok (.invalid reasons))
    (returns : options.abortOnInvalid = false) :
    ∃ printed changed, building.Emits (.invalid reasons) printed changed ∧
      (libraries.runTask path fun _ => libraries.build options).runIn directory =
        ⟨.code 1, printed, building.complaint reasons, changed⟩ := by
  obtain ⟨printed, changed, later, notices, emits, quiet, passes⟩ :=
    @passes_emit _ _ _ _ building _ writable invalid
  obtain ⟨rfl, rfl⟩ := quiet (by simp)
  have judged := @passes_judge _ directory _ _ building _ options.abortOnInvalid invalid
    fun aborts => absurd (returns.symm.trans aborts) (by decide)
  refine ⟨printed, changed, emits, ?_⟩
  rw [runIn_building building]
  unfold Libraries.conclude
  rw [judged.runIn_bind]
  dsimp only
  rw [passes.runIn_bind]
  dsimp only
  rw [building.ends_requireValid]
  simp [Transcript.behind, complaint, logged_append]

theorem runIn_abort {reasons : List String}
    (invalid : building.verified.result = .ok (.invalid reasons))
    (aborts : options.abortOnInvalid = true) :
    ∃ notices, (libraries.runTask path fun _ => libraries.build options).runIn directory =
      ⟨.abort, "", notices, directory⟩ := by
  obtain ⟨notices, ends⟩ : Script.Quits building.bench directory .abort
      (libraries.conclude options building.description.name building.id) := by
    unfold Libraries.conclude
    rw [aborts]
    exact (building.quits_judge invalid).bind
  rw [runIn_building building, ends]
  exact ⟨_, rfl⟩

/-- Without reasons against the module, the run is the one that never aborts. -/
theorem runIn_spared (valid : building.verified.result = .ok .valid) :
    (libraries.runTask path fun _ => libraries.build options).runIn directory =
      (libraries.runTask path fun _ =>
        libraries.build { options with abortOnInvalid := false }).runIn
        directory := by
  let sparing : Building libraries directory path { options with abortOnInvalid := false } :=
    { building with }
  have judged : ∀ abortOnInvalid : Bool, Script.Passes building.bench directory
      (judge abortOnInvalid building.id) ⟨.valid, building.verified.workspace, directory, "",
        logged building.verified.events⟩ :=
    fun _ => building.passes_judge valid fun _ => rfl
  have concluded : ∀ next,
      (libraries.conclude options building.description.name building.id building.bench next).runIn
          directory =
        (libraries.conclude { options with abortOnInvalid := false } building.description.name
          building.id building.bench next).runIn directory := by
    intro next
    unfold Libraries.conclude
    rw [(judged _).runIn_bind, (judged _).runIn_bind]
    rfl
  rw [runIn_building building, runIn_building sparing, concluded]
  rfl

end Building

end TypedIR.CommandLine
