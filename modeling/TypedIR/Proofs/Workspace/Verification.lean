import TypedIR.Proofs.Check.Safety
import TypedIR.Proofs.Check.Verdict
import TypedIR.Proofs.Workspace.Reachable

/-!
Contract: verification under the reference engine, in reachable workspaces.

Owns:
- what verification of a live function does: it gives the verdict of the structural
  check and records it;
- exactness: verification accepts exactly the well-formed functions;
- for every function that it accepts, the safety of every walk that starts at the first
  instruction of its first block;
- the reasons of a verdict against the errors of the report: how they come about, how many they
  are, and when they are one for each error.

The engine hands its errors over as one text and the text is cut into lines again, so an error is
one reason as long as no name in it has a line feed.
-/

namespace TypedIR

variable {workspace : Workspace ReferenceState} {function : FunctionId} {context : Context}
  {entry : FunctionEntry}

/-- The report on a live function is that of the check in its context. -/
theorem Store.report_live {store : Store} (found : store.context? function.context = some context)
    (home : function.context = context.id) (live : context.function? function.index = some entry) :
    store.report function = context.report store.settings.reportUnreachable entry := by
  have reported : (store.read function.context fun context => do
      let entry ← context.resolveFunction function
      return context.report store.settings.reportUnreachable entry) =
      .ok (context.report store.settings.reportUnreachable entry) :=
    bind_eq_ok.mpr ⟨context, Store.resolve_eq_ok.mpr found,
      bind_eq_ok.mpr ⟨entry, Context.resolveFunction_eq_ok.mpr ⟨home, live⟩, rfl⟩⟩
  unfold report
  rw [reported]

/-- What the reference engine says of a live function is the verdict of the check. -/
theorem Context.ofJudgement_verify {name : String}
    (found : workspace.store.context? function.context = some context)
    (named : context.functionName function = .ok name) :
    ∃ entry, context.function? function.index = some entry ∧
      Verdict.ofJudgement Engine.reference.name name
        (Engine.reference.verify workspace.native workspace.store function) =
        context.verdict workspace.store.settings.reportUnreachable entry := by
  obtain ⟨home, symbol⟩ := functionName_eq_ok.mp named
  obtain ⟨entry, live, _⟩ := Option.bind_eq_some_iff.mp symbol
  obtain ⟨_, self⟩ := mem_of_function? live
  refine ⟨entry, live, ?_⟩
  have report := Store.report_live found home live
  have identity : context.functionId entry.self = function := by
    rw [functionId, ← home, self]
  unfold verdict
  rw [self, symbol, ← self, identity, ← report]
  rfl

/-- Verification of a live function gives its verdict and records it. -/
theorem Action.verify_live (found : workspace.store.context? function.context = some context)
    (sameId : context.id = function.context) (owned : context.Owned)
    (live : context.function? function.index = some entry) :
    (Action.verify Engine.reference function workspace).result =
        .ok (context.verdict workspace.store.settings.reportUnreachable entry) ∧
      (Action.verify Engine.reference function workspace).workspace =
        ⟨workspace.store.recordState function
          (context.verdict workspace.store.settings.reportUnreachable entry).state,
          workspace.native⟩ := by
  obtain ⟨member, self⟩ := Context.mem_of_function? live
  obtain ⟨name, held⟩ := owned.functions.signed entry member
  have symbol : context.functionName? function.index = some name := by
    rw [Context.functionName?_of_isFunction ⟨entry, member, self⟩, ← self, held, Option.map_some]
  have named : context.functionName function = .ok name :=
    Context.functionName_eq_ok.mpr ⟨sameId.symm, symbol⟩
  have read : workspace.store.read function.context
      (fun context => context.functionName function) = .ok name :=
    bind_eq_ok.mpr ⟨context, Store.resolve_eq_ok.mpr found, named⟩
  obtain ⟨other, otherLive, judged⟩ := Context.ofJudgement_verify found named
  obtain rfl := Option.some.inj (otherLive.symm.trans live)
  unfold Action.verify
  rw [read]
  dsimp only
  rw [judged]
  exact ⟨rfl, rfl⟩

namespace Workspace

variable {initial : ReferenceState}

/-- Verification accepts a well-formed function, and rejects any other one with reasons. -/
theorem verify_cases (reachable : Reachable Engine.reference initial workspace)
    (found : workspace.store.context? function.context = some context)
    (live : context.function? function.index = some entry) :
    (context.WellFormed entry ∧
        (Action.verify Engine.reference function workspace).result = .ok .valid) ∨
      (¬ context.WellFormed entry ∧ ∃ reasons,
        (Action.verify Engine.reference function workspace).result = .ok (.invalid reasons)) := by
  obtain ⟨sameId, coherent⟩ := reachable.coherent found
  obtain ⟨result, _⟩ := Action.verify_live found sameId coherent.owned live
  rw [result]
  rcases Context.verdict_cases coherent.owned (Context.mem_of_function? live).1
    with ⟨wellFormed, valid⟩ | ⟨malformed, reasons, invalid⟩
  · exact .inl ⟨wellFormed, congrArg Except.ok valid⟩
  · exact .inr ⟨malformed, reasons, congrArg Except.ok invalid⟩

/-- Verification accepts exactly the well-formed functions, and rejects all others with
reasons. -/
theorem verify_exact (reachable : Reachable Engine.reference initial workspace)
    (found : workspace.store.context? function.context = some context)
    (live : context.function? function.index = some entry) :
    ((Action.verify Engine.reference function workspace).result = .ok .valid ↔
        context.WellFormed entry) ∧
      (¬ context.WellFormed entry → ∃ reasons,
        (Action.verify Engine.reference function workspace).result = .ok (.invalid reasons)) := by
  rcases verify_cases reachable found live with ⟨wellFormed, valid⟩ | ⟨malformed, reasons, invalid⟩
  · exact ⟨iff_of_true valid wellFormed, fun malformed => absurd wellFormed malformed⟩
  · refine ⟨iff_of_false (fun valid => ?_) malformed, fun _ => ⟨reasons, invalid⟩⟩
    cases invalid.symm.trans valid

/-- Verification of the sample's function shows that it is well formed. -/
theorem sampleRun_wellFormed :
    ∃ context entry, (afterAll Engine.reference (start .standard .start) sampleRun).store.context?
        ⟨0, 0⟩ = some context ∧ context.function? 0 = some entry ∧ entry.blocks.length = 2 ∧
      context.WellFormed entry := by
  have live : (((afterAll Engine.reference (start .standard .start) sampleRun).store.context?
      ⟨0, 0⟩).bind fun context => (context.function? 0).map fun entry => entry.blocks.length) =
      some 2 := by decide +kernel
  have verified : (Action.verify Engine.reference ⟨⟨0, 0⟩, 0⟩
      (afterAll Engine.reference (start .standard .start) sampleRun)).result = .ok .valid := by
    decide +kernel
  obtain ⟨context, found, rest⟩ := Option.bind_eq_some_iff.mp live
  obtain ⟨entry, lookup, counted⟩ := Option.map_eq_some_iff.mp rest
  have wellFormed : context.WellFormed entry :=
    (@verify_exact _ ⟨⟨0, 0⟩, 0⟩ context entry _ ⟨.standard, sampleRun, rfl⟩ found lookup).1.mp
      verified
  exact ⟨context, entry, found, lookup, counted, wellFormed⟩

end Workspace

end TypedIR

/-! ## Safety -/

namespace TypedIR.Workspace

variable {initial : ReferenceState} {workspace : Workspace ReferenceState} {function : FunctionId}
  {context : Context} {entry : FunctionEntry} {visited : List ValueRef} {point : Point}

/-- A function that verification accepts is well formed. -/
theorem wellFormed_of_verified (reachable : Reachable Engine.reference initial workspace)
    (found : workspace.store.context? function.context = some context)
    (live : context.function? function.index = some entry)
    (verified : (Action.verify Engine.reference function workspace).result = .ok .valid) :
    context.WellFormed entry := by
  rcases verify_cases reachable found live with ⟨wellFormed, _⟩ | ⟨_, reasons, invalid⟩
  · exact wellFormed
  · cases invalid.symm.trans verified

theorem verified_safe (reachable : Reachable Engine.reference initial workspace)
    (found : workspace.store.context? function.context = some context)
    (live : context.function? function.index = some entry)
    (verified : (Action.verify Engine.reference function workspace).result = .ok .valid)
    (walk : context.Walk entry visited point) :
    ∃ value type code, context.instructionAt? point = some value ∧
      context.Holds value type (.instruction point.block code) ∧
      context.SafeAt entry visited point type code := by
  have wellFormed := wellFormed_of_verified reachable found live verified
  obtain ⟨_, coherent⟩ := reachable.coherent found
  exact wellFormed.safe coherent (Context.mem_of_function? live).1 walk

/-- The walk through the first block of the sample's function to its return. -/
theorem sampleRun_safe :
    ∃ context entry, (afterAll Engine.reference (start .standard .start) sampleRun).store.context?
        ⟨0, 0⟩ = some context ∧ context.function? 0 = some entry ∧
      context.Walk entry [2, 3] ⟨1, 0⟩ ∧
      ∃ type code, context.SafeAt entry [2, 3] ⟨1, 0⟩ type code := by
  have facts : (((afterAll Engine.reference (start .standard .start) sampleRun).store.context?
      ⟨0, 0⟩).bind fun context => (context.function? 0).map fun entry =>
        (entry.blocks.head?, context.instructionAt? ⟨0, 0⟩, context.instructionAt? ⟨0, 1⟩,
          context.instructionAt? ⟨0, 2⟩, context.instruction? 3)) =
      some (some 0, some 2, some 3, none, some (.branch 1)) := by decide +kernel
  have verified : (Action.verify Engine.reference ⟨⟨0, 0⟩, 0⟩
      (afterAll Engine.reference (start .standard .start) sampleRun)).result = .ok .valid := by
    decide +kernel
  obtain ⟨context, found, rest⟩ := Option.bind_eq_some_iff.mp facts
  obtain ⟨entry, lookup, parts⟩ := Option.map_eq_some_iff.mp rest
  simp only [Prod.mk.injEq] at parts
  obtain ⟨first, sum, branch, ends, isBranch⟩ := parts
  have start : context.Walk entry [] ⟨0, 0⟩ := .start first
  have passed : context.Walk entry [2] ⟨0, 1⟩ := start.step sum (.next branch)
  have walk : context.Walk entry [2, 3] ⟨1, 0⟩ :=
    passed.step branch (.jump branch ends isBranch List.mem_cons_self)
  obtain ⟨_, type, code, _, _, safe⟩ := @verified_safe _ _ ⟨⟨0, 0⟩, 0⟩ context entry _ _
    ⟨.standard, sampleRun, rfl⟩ found lookup verified walk
  exact ⟨context, entry, found, lookup, walk, type, code, safe⟩

end TypedIR.Workspace

/-! ## Reasons -/

namespace TypedIR.Workspace

open Text

variable {initial : ReferenceState} {workspace : Workspace ReferenceState} {function : FunctionId}
  {context : Context} {entry : FunctionEntry}

/-- What verification of a function tells, given what the check reports of it. -/
structure TellsErrors (workspace : Workspace ReferenceState) (function : FunctionId)
    (context : Context) (entry : FunctionEntry) (report : Report) : Prop where
  reported : workspace.store.report function = report
  /-- The function is invalid exactly if there is an error, and the reasons are then the lines of
  the errors, in the order in which they were found. -/
  verdict : (Action.verify Engine.reference function workspace).result =
    .ok (if report.hasErrors then .invalid (report.errors.flatMap fun error => lines error.reason)
      else .valid)
  /-- There is a reason for each error, and one more for each line feed in an error. -/
  counted : (report.errors.flatMap fun error => lines error.reason).length =
    report.errors.length + (report.errors.map fun error => lineFeeds error.reason).sum
  /-- The reasons are those of the errors exactly if no error has a line feed. -/
  each : (report.errors.flatMap fun error => lines error.reason) =
    report.errors.map Diagnostic.reason ↔ ∀ error ∈ report.errors, OneLine error.reason
  /-- Only the names of the function and of its blocks bring line feeds in. -/
  named : context.NamedInLines entry → ∀ error ∈ report.errors, OneLine error.reason

/-- A run that declares a function with a line feed in its name and gives it an empty block. -/
def lineFeedRun : List Command :=
  let context : ContextId := ⟨0, 0⟩
  [.createContext "m",
    .edit (.voidType context),
    .edit (.signatureType ⟨context, 0⟩ [] false),
    .edit (.declare context "f\ng" ⟨context, 1⟩),
    .edit (.appendBlock ⟨context, 0⟩ "entry")]

theorem verify_tells_errors (reachable : Reachable Engine.reference initial workspace)
    (found : workspace.store.context? function.context = some context)
    (live : context.function? function.index = some entry) :
    TellsErrors workspace function context entry
      (context.report workspace.store.settings.reportUnreachable entry) := by
  obtain ⟨sameId, coherent⟩ := reachable.coherent found
  have ended := @Context.ended_reasons context entry workspace.store.settings.reportUnreachable
  refine
    { reported := Store.report_live found sameId.symm live
      verdict := ?_
      counted := ?_
      each := ?_
      named := ?_ }
  · rw [← Context.verdict_eq]
    exact (Action.verify_live found sameId coherent.owned live).1
  · have counted := length_flatMap_lines ended
    rwa [List.flatMap_map, List.length_map, List.map_map] at counted
  · have whole := flatMap_lines_eq ended
    rwa [List.flatMap_map, List.forall_mem_map] at whole
  · exact fun named => List.forall_mem_map.mp named.oneLine_reasons

/-- The run leaves a function with one error, which verification tells as two reasons. -/
theorem lineFeedRun_split :
    ((afterAll Engine.reference (start .standard .start) lineFeedRun).store.report
        ⟨⟨0, 0⟩, 0⟩).errors.map Diagnostic.reason =
      ["@f\ng/entry: block is empty and has no terminator"] ∧
    (Action.verify Engine.reference ⟨⟨0, 0⟩, 0⟩
        (afterAll Engine.reference (start .standard .start) lineFeedRun)).result =
      .ok (.invalid ["@f", "g/entry: block is empty and has no terminator"]) := by
  decide +kernel

/-- The error of the run has a line feed, so there is a reason more than there are errors. -/
theorem lineFeedRun_told :
    ∃ context entry report,
      (afterAll Engine.reference (start .standard .start) lineFeedRun).store.context? ⟨0, 0⟩ =
        some context ∧
      context.function? 0 = some entry ∧
      TellsErrors (afterAll Engine.reference (start .standard .start) lineFeedRun) ⟨⟨0, 0⟩, 0⟩
        context entry report ∧
      report.errors.map (fun error => lineFeeds error.reason) = [1] := by
  have lives : (((afterAll Engine.reference (start .standard .start) lineFeedRun).store.context?
      ⟨0, 0⟩).bind fun context => context.function? 0).isSome := by
    decide +kernel
  obtain ⟨entry, looked⟩ := Option.isSome_iff_exists.mp lives
  obtain ⟨context, found, live⟩ := Option.bind_eq_some_iff.mp looked
  have told := @verify_tells_errors _ _ ⟨⟨0, 0⟩, 0⟩ _ _ ⟨.standard, lineFeedRun, rfl⟩ found live
  refine ⟨context, entry, _, found, live, told, ?_⟩
  rw [← told.reported]
  decide +kernel

end TypedIR.Workspace
