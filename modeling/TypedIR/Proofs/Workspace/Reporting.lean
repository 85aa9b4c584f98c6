import TypedIR.Proofs.Check.Unreachable
import TypedIR.Proofs.Workspace.Isolation
import TypedIR.Proofs.Workspace.Verification

/-!
Contract: warnings about unreachable blocks, in workspaces with the switch for them on and off.

Owns:
- workspaces that differ in the switch alone, and actions that come to the same in both, which
  then differ in nothing else;
- that every request is such an action, for engines that pass over warnings;
- the warnings for a live function of a reachable workspace, and that they are harmless.

Does not own: what is logged, in which the warnings appear.
-/

namespace TypedIR

variable {σ α β : Type} {engine : Engine σ}

/-- The store with the switch for warnings turned on or off. -/
def Store.reporting (store : Store) (reportUnreachable : Bool) : Store :=
  { store with settings := { store.settings with reportUnreachable := reportUnreachable } }

def Workspace.reporting (workspace : Workspace σ) (reportUnreachable : Bool) : Workspace σ :=
  { workspace with store := workspace.store.reporting reportUnreachable }

/-! ### Reports -/

namespace Store

variable {store : Store} {function : FunctionId}

theorem report_of_found {context : Context} {entry : FunctionEntry}
    (found : store.resolve function.context = .ok context)
    (live : context.resolveFunction function = .ok entry) :
    store.report function = context.report store.settings.reportUnreachable entry := by
  unfold report read
  rw [found]
  dsimp only [bind, Except.bind]
  rw [live]
  rfl

theorem report_of_refused {fault : Fault}
    (refused : (store.resolve function.context >>= fun context =>
      context.resolveFunction function) = .error fault) :
    store.report function = ⟨[⟨.error, fault.message, function.text, []⟩]⟩ := by
  unfold report read
  cases found : store.resolve function.context with
  | error _ =>
      rw [found] at refused
      obtain rfl := Except.error.inj refused
      rfl
  | ok context =>
      rw [found] at refused
      dsimp only [bind, Except.bind] at refused ⊢
      rw [refused]

/-- A report is that of the check for a live function, and otherwise one error, whatever the
switch. -/
theorem report_reporting (store : Store) (function : FunctionId) :
    (∃ context entry, ∀ reportUnreachable, (store.reporting reportUnreachable).report function =
        Context.report context reportUnreachable entry) ∨
      ∃ message, ∀ reportUnreachable, (store.reporting reportUnreachable).report function =
        ⟨[⟨.error, message, function.text, []⟩]⟩ := by
  cases known : store.resolve function.context >>= fun context =>
      context.resolveFunction function with
  | error fault => exact .inr ⟨fault.message, fun _ => report_of_refused known⟩
  | ok entry =>
      obtain ⟨context, found, live⟩ := bind_eq_ok.mp known
      exact .inl ⟨context, entry, fun _ => report_of_found found live⟩

theorem errors_reporting (reportUnreachable : Bool) :
    ((store.reporting reportUnreachable).report function).errors =
      (store.report function).errors := by
  have own : store.report function =
      (store.reporting store.settings.reportUnreachable).report function := rfl
  rw [own]
  rcases store.report_reporting function with ⟨context, entry, reported⟩ | ⟨message, reported⟩
  · rw [reported, reported, (context.report_sorted reportUnreachable entry).2,
      (context.report_sorted store.settings.reportUnreachable entry).2]
  · rw [reported, reported]

theorem warnings_of_silent (silent : store.settings.reportUnreachable = false) :
    (store.report function).warnings = [] := by
  have own : store.report function = (store.reporting false).report function := by
    rw [← silent]
    rfl
  rw [own]
  rcases store.report_reporting function with ⟨context, entry, reported⟩ | ⟨message, reported⟩
  · rw [reported, (context.report_sorted false entry).1]
    rfl
  · rw [reported]
    rfl

end Store

/-- Judgements and written modules are the same whether the switch is on or off. What the engine
logs meanwhile may not be. -/
def Engine.PassesOverWarnings (engine : Engine σ) : Prop :=
  ∀ native (store : Store) reportUnreachable,
    (∀ context, engine.write native (store.reporting reportUnreachable) context =
      engine.write native store context) ∧
    ∀ function,
      (engine.verify native (store.reporting reportUnreachable) function).broken =
          (engine.verify native store function).broken ∧
        (engine.verify native (store.reporting reportUnreachable) function).message =
          (engine.verify native store function).message

theorem Engine.reference_passesOverWarnings : Engine.reference.PassesOverWarnings := by
  intro native store reportUnreachable
  refine ⟨fun context => rfl, fun function => ?_⟩
  have errors := @Store.errors_reporting store function reportUnreachable
  constructor
  · exact congrArg (fun errors : List Diagnostic => !errors.isEmpty) errors
  · exact congrArg (fun errors : List Diagnostic =>
      Text.joined "\n" (errors.map Diagnostic.reason)) errors

/-! ### Actions -/

namespace Action

/-- The action comes to the same result whether the switch is on or off, and to workspaces that
again differ in the switch alone. -/
def IgnoresSwitch (action : Action σ α) : Prop :=
  ∀ (workspace : Workspace σ) reportUnreachable,
    (action (workspace.reporting reportUnreachable)).result = (action workspace).result ∧
      (action (workspace.reporting reportUnreachable)).workspace =
        (action workspace).workspace.reporting reportUnreachable

theorem ignoresSwitch_pure (value : α) : IgnoresSwitch (pure value : Action σ α) :=
  fun _ _ => ⟨rfl, rfl⟩

theorem ignoresSwitch_fail (fault : Fault) : IgnoresSwitch (fail fault : Action σ α) :=
  fun _ _ => ⟨rfl, rfl⟩

theorem ignoresSwitch_emit (events : List Event) : IgnoresSwitch (emit events : Action σ Unit) :=
  fun _ _ => ⟨rfl, rfl⟩

theorem ignoresSwitch_inspect {query : Store → Except Fault α}
    (same : ∀ store reportUnreachable, query (store.reporting reportUnreachable) = query store) :
    IgnoresSwitch (inspect query : Action σ α) :=
  fun workspace reportUnreachable => ⟨same workspace.store reportUnreachable, rfl⟩

theorem IgnoresSwitch.bind {action : Action σ α} {next : α → Action σ β}
    (first : IgnoresSwitch action) (second : ∀ value, IgnoresSwitch (next value)) :
    IgnoresSwitch (action >>= next) := by
  intro workspace reportUnreachable
  obtain ⟨result, after⟩ := first workspace reportUnreachable
  cases done : (action workspace).result with
  | error fault =>
      have here : ((action >>= next) workspace).result = .error fault ∧
          ((action >>= next) workspace).workspace = (action workspace).workspace :=
        bind_of_error done
      have there : ((action >>= next) (workspace.reporting reportUnreachable)).result =
            .error fault ∧
          ((action >>= next) (workspace.reporting reportUnreachable)).workspace =
            (action (workspace.reporting reportUnreachable)).workspace :=
        bind_of_error (result.trans done)
      rw [here.1, here.2, there.1, there.2]
      exact ⟨rfl, after⟩
  | ok value =>
      rw [outcome_bind done, outcome_bind (result.trans done), after]
      exact second value _ reportUnreachable

theorem ignoresSwitch_perform (operation : Operation α) :
    IgnoresSwitch (perform operation : Action σ α) := by
  intro workspace reportUnreachable
  have same : (workspace.reporting reportUnreachable).store.context? operation.home =
      workspace.store.context? operation.home := rfl
  unfold perform
  rw [same]
  cases operation.screen with
  | error fault => exact ⟨rfl, rfl⟩
  | ok _ =>
      cases workspace.store.context? operation.home with
      | none => exact ⟨rfl, rfl⟩
      | some context =>
          dsimp only
          cases operation.effect context with
          | mk result events => cases result <;> exact ⟨rfl, rfl⟩

theorem ignoresSwitch_edit (change : Edit) :
    IgnoresSwitch fun workspace : Workspace σ =>
      perform (change.operation workspace.store.settings) workspace := by
  intro workspace reportUnreachable
  -- Of the settings, an edit reads the convention and the largest width.
  have same : change.operation (workspace.reporting reportUnreachable).store.settings =
      change.operation workspace.store.settings := by
    cases change <;> rfl
  dsimp only
  rw [same]
  exact ignoresSwitch_perform _ workspace reportUnreachable

theorem ignoresSwitch_createContext (name : String) :
    IgnoresSwitch (createContext engine name) := by
  intro workspace reportUnreachable
  unfold createContext Store.create
  cases free : workspace.store.free with
  | nil => simp [Workspace.reporting, Store.reporting, Store.nextId, free]
  | cons index rest => simp [Workspace.reporting, Store.reporting, Store.nextId, Store.put, free]

theorem ignoresSwitch_destroyContext (id : ContextId) :
    IgnoresSwitch (destroyContext engine id) := by
  intro workspace reportUnreachable
  have same : (workspace.reporting reportUnreachable).store.resolve id =
      workspace.store.resolve id := rfl
  unfold destroyContext Store.destroy
  rw [same]
  cases workspace.store.resolve id with
  | error fault => exact ⟨rfl, rfl⟩
  | ok context =>
      by_cases more : id.generation < maxGeneration
      · simp only [if_pos more]
        exact ⟨rfl, rfl⟩
      · simp only [if_neg more]
        exact ⟨rfl, rfl⟩

theorem ignoresSwitch_setConvention (function : FunctionId) (code : UInt32) :
    IgnoresSwitch (setConvention engine function code) :=
  fun workspace => ignoresSwitch_perform
    (.setConvention (engine.accepts workspace.native) engine.name function code) workspace

section Judging

variable (passesOver : engine.PassesOverWarnings)

include passesOver

theorem ignoresSwitch_verify (function : FunctionId) : IgnoresSwitch (verify engine function) := by
  intro workspace reportUnreachable
  obtain ⟨broken, message⟩ :=
    (passesOver workspace.native workspace.store reportUnreachable).2 function
  have same : (workspace.reporting reportUnreachable).store.read function.context
      (fun context => context.functionName function) =
      workspace.store.read function.context fun context => context.functionName function := rfl
  have verdict : ∀ name, Verdict.ofJudgement engine.name name (engine.verify workspace.native
      (workspace.store.reporting reportUnreachable) function) =
      Verdict.ofJudgement engine.name name
        (engine.verify workspace.native workspace.store function) := by
    intro name
    rw [Verdict.ofJudgement, Verdict.ofJudgement, broken, message]
  have recorded : ∀ state, (workspace.store.reporting reportUnreachable).recordState function
      state = (workspace.store.recordState function state).reporting reportUnreachable := by
    intro state
    have found : (workspace.store.reporting reportUnreachable).context? function.context =
        workspace.store.context? function.context := rfl
    unfold Store.recordState
    rw [found]
    cases workspace.store.context? function.context <;> rfl
  unfold verify
  rw [same]
  cases workspace.store.read function.context fun context => context.functionName function with
  | error fault => exact ⟨rfl, rfl⟩
  | ok name =>
      have agrees := verdict name
      simp only [Workspace.reporting] at agrees ⊢
      rw [agrees, recorded]
      exact ⟨rfl, rfl⟩

theorem ignoresSwitch_verifyEach (functions : List FunctionId) :
    IgnoresSwitch (verifyEach engine functions) := by
  induction functions with
  | nil => exact ignoresSwitch_pure []
  | cons function rest inductionHypothesis =>
      exact (ignoresSwitch_verify passesOver function).bind fun _ =>
        inductionHypothesis.bind fun _ => ignoresSwitch_pure _

theorem ignoresSwitch_verifyModule (id : ContextId) : IgnoresSwitch (verifyModule engine id) :=
  (ignoresSwitch_inspect fun _ _ => rfl).bind fun functions =>
    (ignoresSwitch_verifyEach passesOver functions).bind fun _ => ignoresSwitch_pure _

theorem ignoresSwitch_writeModule (id : ContextId) : IgnoresSwitch (writeModule engine id) :=
  fun workspace reportUnreachable =>
    ⟨(passesOver workspace.native workspace.store reportUnreachable).1 id, rfl⟩

/-- Of the settings, emission reads whether to verify first. -/
theorem ignoresSwitch_emitModule (id : ContextId) : IgnoresSwitch (emitModule engine id) := by
  intro workspace reportUnreachable
  have same : (workspace.reporting reportUnreachable).store.settings.verifyBeforeEmit =
      workspace.store.settings.verifyBeforeEmit := rfl
  unfold emitModule
  rw [bind_settings, bind_settings, same]
  by_cases gated : workspace.store.settings.verifyBeforeEmit = true
  · rw [if_pos gated]
    refine (ignoresSwitch_verifyModule passesOver id).bind (fun verdict => ?_) workspace
      reportUnreachable
    cases verdict with
    | valid => exact ignoresSwitch_writeModule passesOver id
    | invalid reasons => exact ignoresSwitch_fail _
  · rw [if_neg gated]
    exact ignoresSwitch_writeModule passesOver id workspace reportUnreachable

theorem ignoresSwitch_command (change : Command) : IgnoresSwitch (change.run engine) := by
  cases change with
  | createContext name =>
      exact (ignoresSwitch_createContext name).bind fun _ => ignoresSwitch_pure _
  | destroyContext id =>
      exact (ignoresSwitch_destroyContext id).bind fun _ => ignoresSwitch_pure _
  | edit change => exact ignoresSwitch_edit change
  | setConvention function code =>
      exact (ignoresSwitch_setConvention function code).bind fun _ => ignoresSwitch_pure _
  | verify function =>
      exact (ignoresSwitch_verify passesOver function).bind fun _ => ignoresSwitch_pure _
  | verifyModule id =>
      exact (ignoresSwitch_verifyModule passesOver id).bind fun _ => ignoresSwitch_pure _
  | emitModule id =>
      exact (ignoresSwitch_emitModule passesOver id).bind fun _ => ignoresSwitch_pure _

omit passesOver in
theorem ignoresSwitch_settle (subject : Subject) (verdict : Verdict) :
    IgnoresSwitch (settle subject verdict : Action σ (Except AbortNotice Verdict)) := by
  cases verdict with
  | valid => exact ignoresSwitch_pure _
  | invalid reasons => exact (ignoresSwitch_emit _).bind fun _ => ignoresSwitch_pure _

theorem ignoresSwitch_request (request : Request) : IgnoresSwitch (request.run engine) := by
  cases request with
  | command change =>
      exact (ignoresSwitch_command passesOver change).bind fun _ => ignoresSwitch_pure _
  | query question | describeType type | isAlive context =>
      exact (ignoresSwitch_inspect fun _ _ => rfl).bind fun _ => ignoresSwitch_pure _
  | verifyOrAbort function =>
      have settled : IgnoresSwitch (verifyOrAbort engine function) :=
        (ignoresSwitch_inspect fun _ _ => rfl).bind fun name =>
          (ignoresSwitch_verify passesOver function).bind fun verdict =>
            ignoresSwitch_settle _ verdict
      exact settled.bind fun _ => ignoresSwitch_pure _
  | verifyModuleOrAbort context =>
      have settled : IgnoresSwitch (verifyModuleOrAbort engine context) :=
        (ignoresSwitch_inspect fun _ _ => rfl).bind fun name =>
          (ignoresSwitch_verifyModule passesOver context).bind fun verdict =>
            ignoresSwitch_settle _ verdict
      exact settled.bind fun _ => ignoresSwitch_pure _

end Judging

end Action

/-! ### Runs -/

namespace Workspace

/-- By induction on the requests: a request gives the same result in both workspaces, and the two
that it leaves differ in the switch alone. -/
theorem serve_reporting (passesOver : engine.PassesOverWarnings) (reportUnreachable : Bool)
    (requests : List Request) (workspace : Workspace σ) :
    (workspace.reporting reportUnreachable).responses engine requests =
        workspace.responses engine requests ∧
      (workspace.reporting reportUnreachable).serve engine requests =
        (workspace.serve engine requests).reporting reportUnreachable := by
  induction requests generalizing workspace with
  | nil => exact ⟨rfl, rfl⟩
  | cons request rest inductionHypothesis =>
      obtain ⟨result, after⟩ :=
        Action.ignoresSwitch_request passesOver request workspace reportUnreachable
      obtain ⟨later, last⟩ := inductionHypothesis (request.run engine workspace).workspace
      rw [responses_cons, responses_cons, serve_cons, serve_cons, result, after]
      exact ⟨congrArg _ later, last⟩

/-! ### Live functions -/

variable {initial : ReferenceState} {workspace : Workspace ReferenceState} {function : FunctionId}
  {context : Context} {entry : FunctionEntry}

/-- What the warnings of a live function are, and that nothing else depends on them. -/
structure WarnsExactly (workspace : Workspace ReferenceState) (function : FunctionId)
    (context : Context) (entry : FunctionEntry) : Prop where
  /-- There is a warning for each block that no path from the first one reaches, in block order,
  and no other one. -/
  exact : workspace.store.settings.reportUnreachable = true →
    ∃ unreached : List BlockRef, unreached.Sublist entry.blocks ∧ unreached.Nodup ∧
      (∀ block, block ∈ unreached ↔ block ∈ entry.blocks ∧ ¬ context.Reached entry block) ∧
      (workspace.store.report function).warnings =
        unreached.map (context.unreachableWarning entry)
  silent : workspace.store.settings.reportUnreachable = false →
    ∀ other, (workspace.store.report other).warnings = []
  /-- The errors about every function, live or not, do not depend on the switch. -/
  errors : ∀ reportUnreachable other,
    ((workspace.store.reporting reportUnreachable).report other).errors =
      (workspace.store.report other).errors
  /-- Nor do the verdict on it, the reasons, and what is recorded. -/
  verdicts : ∀ reportUnreachable other,
    (Action.verify Engine.reference other (workspace.reporting reportUnreachable)).result =
        (Action.verify Engine.reference other workspace).result ∧
      (Action.verify Engine.reference other (workspace.reporting reportUnreachable)).workspace =
        (Action.verify Engine.reference other workspace).workspace.reporting reportUnreachable
  /-- Whatever else is asked, the same answers are given whether the switch is on or off. -/
  runs : ∀ reportUnreachable requests,
    (workspace.reporting reportUnreachable).responses Engine.reference requests =
        workspace.responses Engine.reference requests ∧
      (workspace.reporting reportUnreachable).serve Engine.reference requests =
        (workspace.serve Engine.reference requests).reporting reportUnreachable

theorem unreachable_warnings_exact (reachable : Reachable Engine.reference initial workspace)
    (found : workspace.store.context? function.context = some context)
    (live : context.function? function.index = some entry) :
    WarnsExactly workspace function context entry := by
  obtain ⟨sameId, coherent⟩ := reachable.coherent found
  obtain ⟨member, _⟩ := Context.mem_of_function? live
  obtain ⟨part, distinct, exact⟩ := Context.blocksOutside_exact coherent.owned member
  refine
    { exact := ?_
      silent := fun silent other => Store.warnings_of_silent silent
      errors := fun reportUnreachable other => Store.errors_reporting reportUnreachable
      verdicts := fun reportUnreachable other => Action.ignoresSwitch_verify
        Engine.reference_passesOverWarnings other workspace reportUnreachable
      runs := fun reportUnreachable requests => serve_reporting
        Engine.reference_passesOverWarnings reportUnreachable requests workspace }
  intro switched
  refine ⟨_, part, distinct, exact, ?_⟩
  rw [Store.report_live found sameId.symm live,
    (context.report_sorted workspace.store.settings.reportUnreachable entry).1, if_pos switched]

/-- A run that declares a function whose first block jumps to its last one. Of the blocks in
between, two jump to each other, the third one to itself, and the fourth one is empty. -/
def strandedRun : List Command :=
  let context : ContextId := ⟨0, 0⟩
  let function : FunctionId := ⟨context, 0⟩
  let block (index : Nat) : BlockId := ⟨context, index⟩
  [.createContext "m",
    .edit (.voidType context),
    .edit (.signatureType ⟨context, 0⟩ [] false),
    .edit (.declare context "f" ⟨context, 1⟩)] ++
  (["entry", "there", "back", "self", "void", "exit"].map fun name =>
    .edit (.appendBlock function name)) ++
  [.edit (.branch (block 0) (block 5)),
    .edit (.branch (block 1) (block 2)),
    .edit (.branch (block 2) (block 1)),
    .edit (.branch (block 3) (block 3)),
    .edit (.ret (block 5) none)]

/-- The four blocks in between are warned about, and the empty one is an error as well. -/
theorem strandedRun_warned :
    ∃ context entry,
      WarnsExactly (afterAll Engine.reference (start .standard .start) strandedRun)
        ⟨⟨0, 0⟩, 0⟩ context entry ∧
      (context.report true entry).warnings.map Diagnostic.reason =
        ["@f/there: block is unreachable from the entry block",
          "@f/back: block is unreachable from the entry block",
          "@f/self: block is unreachable from the entry block",
          "@f/void: block is unreachable from the entry block"] ∧
      (context.report false entry).errors.map Diagnostic.reason =
        ["@f/void: block is empty and has no terminator"] := by
  have told : ((afterAll Engine.reference (start .standard .start) strandedRun).store.context?
      ⟨0, 0⟩).bind (fun context => (context.function? 0).map fun entry =>
        ((context.report true entry).warnings.map Diagnostic.reason,
          (context.report false entry).errors.map Diagnostic.reason)) =
      some (["@f/there: block is unreachable from the entry block",
          "@f/back: block is unreachable from the entry block",
          "@f/self: block is unreachable from the entry block",
          "@f/void: block is unreachable from the entry block"],
        ["@f/void: block is empty and has no terminator"]) := by
    decide +kernel
  obtain ⟨context, found, looked⟩ := Option.bind_eq_some_iff.mp told
  obtain ⟨entry, live, reports⟩ := Option.map_eq_some_iff.mp looked
  obtain ⟨warnings, errors⟩ := Prod.mk.inj reports
  exact ⟨context, entry,
    @unreachable_warnings_exact _ _ ⟨⟨0, 0⟩, 0⟩ _ _ ⟨.standard, strandedRun, rfl⟩ found live,
    warnings, errors⟩

end Workspace

end TypedIR
