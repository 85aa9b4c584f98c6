import TypedIR.Proofs.Workspace.Store
import TypedIR.Workspace.Command

/-!
Contract: properties of workspaces that actions keep.

Owns:
- the notion, for single actions and for sequences of them;
- the workspace that a sequence of actions leaves behind;
- what an operation, a destruction and a verification can come to;
- the reduction of all commands to creation, destruction, an edit, a new convention
  and one verification;
- induction over a sequence of commands.

A property is kept whether or not an action succeeds.
-/

namespace TypedIR

variable {σ α β : Type}

namespace Action

def Preserves (holds : Workspace σ → Prop) (action : Action σ α) : Prop :=
  ∀ workspace, holds workspace → holds (action workspace).workspace

variable {holds : Workspace σ → Prop} {engine : Engine σ}

theorem preserves_pure (value : α) : Preserves holds (Action.pure value : Action σ α) :=
  fun _ held => held

theorem preserves_fail (fault : Fault) : Preserves holds (fail fault : Action σ α) :=
  fun _ held => held

theorem preserves_inspect (query : Store → Except Fault α) :
    Preserves holds (inspect query : Action σ α) :=
  fun _ held => held

theorem Preserves.bind {action : Action σ α} {next : α → Action σ β}
    (first : Preserves holds action) (second : ∀ value, Preserves holds (next value)) :
    Preserves holds (action >>= next) := by
  intro workspace held
  have kept := first workspace held
  show holds (Action.bind action next workspace).workspace
  unfold Action.bind
  cases result : (action workspace).result with
  | error fault => simpa only [result] using kept
  | ok value => simpa only [result] using second value _ kept

theorem preserves_verifyEach (each : ∀ function, Preserves holds (verify engine function)) :
    ∀ functions, Preserves holds (verifyEach engine functions) := by
  intro functions
  induction functions with
  | nil => exact preserves_pure []
  | cons function rest inductionHypothesis =>
      refine (each function).bind fun verdict => inductionHypothesis.bind fun reasons => ?_
      exact preserves_pure _

theorem preserves_verifyModule (each : ∀ function, Preserves holds (verify engine function))
    (context : ContextId) : Preserves holds (verifyModule engine context) :=
  (preserves_inspect _).bind fun functions =>
    (preserves_verifyEach each functions).bind fun _ => preserves_pure _

theorem preserves_emitModule (each : ∀ function, Preserves holds (verify engine function))
    (context : ContextId) : Preserves holds (emitModule engine context) := by
  refine (preserves_inspect _).bind fun settings => ?_
  have written : Preserves holds (writeModule engine context) := fun _ held => held
  split
  · apply (preserves_verifyModule each context).bind
    intro verdict
    cases verdict with
    | valid => exact written
    | invalid reasons => exact preserves_fail _
  · exact written

/-! ### Several actions -/

/-- What follows a success starts from the workspace that it left. -/
theorem outcome_bind {action : Action σ α} {next : α → Action σ β} {workspace : Workspace σ}
    {value : α} (done : (action workspace).result = .ok value) :
    (action >>= next) workspace =
      ⟨(next value (action workspace).workspace).result,
        (next value (action workspace).workspace).workspace,
        (action workspace).events ++ (next value (action workspace).workspace).events⟩ := by
  show Action.bind action next workspace = _
  unfold Action.bind
  simp only [done]

theorem workspace_bind {action : Action σ α} {next : α → Action σ β} {workspace : Workspace σ}
    {value : α} (done : (action workspace).result = .ok value) :
    ((action >>= next) workspace).workspace =
      (next value (action workspace).workspace).workspace := by
  rw [outcome_bind done]

/-- An action that changes nothing may follow unseen. -/
theorem workspace_bind_quiet {action : Action σ α} {next : α → Action σ β}
    (quiet : ∀ value workspace, (next value workspace).workspace = workspace)
    (workspace : Workspace σ) :
    ((action >>= next) workspace).workspace = (action workspace).workspace := by
  show (Action.bind action next workspace).workspace = _
  unfold Action.bind
  cases result : (action workspace).result with
  | error fault => simp only [result]
  | ok value => simp only [result, quiet]

theorem result_bind {action : Action σ α} {next : α → Action σ β} {workspace : Workspace σ}
    {value : α} (done : (action workspace).result = .ok value) :
    ((action >>= next) workspace).result = (next value (action workspace).workspace).result := by
  rw [outcome_bind done]

/-- A sequence of actions stops at the first fault. -/
theorem bind_of_error {action : Action σ α} {next : α → Action σ β} {workspace : Workspace σ}
    {fault : Fault} (failed : (action workspace).result = .error fault) :
    ((action >>= next) workspace).result = .error fault ∧
      ((action >>= next) workspace).workspace = (action workspace).workspace := by
  show (Action.bind action next workspace).result = _ ∧
    (Action.bind action next workspace).workspace = _
  unfold Action.bind
  simp only [failed, and_self]

theorem result_bind_pure (action : Action σ α) (view : α → β) (workspace : Workspace σ) :
    ((action >>= fun value => Action.pure (view value)) workspace).result =
      (action workspace).result.map view := by
  cases done : (action workspace).result with
  | error fault => exact (bind_of_error done).1
  | ok value => exact result_bind done

/-- How an answer is seen makes no difference to what is left and to what is reported. -/
theorem trace_bind_pure (action : Action σ α) (view : α → β) (workspace : Workspace σ) :
    ((action >>= fun value => Action.pure (view value)) workspace).workspace =
        (action workspace).workspace ∧
      ((action >>= fun value => Action.pure (view value)) workspace).events =
        (action workspace).events := by
  show (Action.bind action _ workspace).workspace = _ ∧
    (Action.bind action _ workspace).events = _
  unfold Action.bind
  cases done : (action workspace).result with
  | error fault => simp only [done, and_self]
  | ok value => simp only [done, Action.pure, List.append_nil, and_self]

theorem ok_of_bind {action : Action σ α} {next : α → Action σ β} {workspace : Workspace σ}
    {answer : β} (done : ((action >>= next) workspace).result = .ok answer) :
    ∃ value, (action workspace).result = .ok value := by
  cases first : (action workspace).result with
  | error fault =>
      rw [(bind_of_error first).1] at done
      cases done
  | ok value => exact ⟨value, rfl⟩

/-- If what follows is never refused, the action itself is, and nothing follows. -/
theorem bind_refused {action : Action σ α} {next : α → Action σ β} {workspace : Workspace σ}
    {fault : Fault}
    (never : ∀ value workspace, ∃ later, (next value workspace).result = .ok later)
    (refused : ((action >>= next) workspace).result = .error fault) :
    (action workspace).result = .error fault ∧
      ((action >>= next) workspace).workspace = (action workspace).workspace := by
  cases done : (action workspace).result with
  | error other =>
      have stopped := @bind_of_error _ _ _ _ next _ _ done
      rw [stopped.1] at refused
      exact ⟨congrArg _ (Except.error.inj refused), stopped.2⟩
  | ok value =>
      obtain ⟨later, finished⟩ := never value (action workspace).workspace
      rw [result_bind done, finished] at refused
      cases refused

/-! ### Verification and emission -/

section Verification

variable {workspace : Workspace σ} {id : ContextId} {functions : List FunctionId}

theorem workspace_verifyEach_cons {first : FunctionId} {rest : List FunctionId} {verdict : Verdict}
    (done : (verify engine first workspace).result = .ok verdict) :
    (verifyEach engine (first :: rest) workspace).workspace =
      (verifyEach engine rest (verify engine first workspace).workspace).workspace :=
  (workspace_bind done).trans (workspace_bind_quiet (fun _ _ => rfl) _)

/-- The functions of a live context, as verification of the module asks for them. -/
theorem functionsOf_found {store : Store} {context : Context}
    (found : store.context? id = some context) :
    functionsOf id store =
      .ok (context.functions.map fun entry => context.functionId entry.self) :=
  bind_eq_ok.mpr ⟨context, Store.resolve_eq_ok.mpr found, rfl⟩

theorem functionsOf_done {store : Store} (listed : functionsOf id store = .ok functions) :
    ∃ context, store.context? id = some context ∧
      functions = context.functions.map fun entry => context.functionId entry.self := by
  obtain ⟨context, found, done⟩ := Store.read_done listed
  exact ⟨context, found, (Except.ok.inj done).symm⟩

theorem workspace_verifyModule (listed : functionsOf id workspace.store = .ok functions) :
    (verifyModule engine id workspace).workspace =
      (verifyEach engine functions workspace).workspace := by
  have asked : (inspect (functionsOf id) workspace).result = .ok functions := listed
  exact (workspace_bind asked).trans (workspace_bind_quiet (fun _ _ => rfl) _)

/-- A look at the settings leaves no trace. -/
theorem bind_settings (next : Settings → Action σ β) :
    ((inspect fun store => .ok store.settings) >>= next) workspace =
      next workspace.store.settings workspace := rfl

/-- What emission changes, it changes by verification. -/
theorem workspace_emitModule (verifies : workspace.store.settings.verifyBeforeEmit = true) :
    (emitModule engine id workspace).workspace =
      (verifyModule engine id workspace).workspace := by
  unfold emitModule
  rw [bind_settings, if_pos verifies]
  refine workspace_bind_quiet (fun verdict later => ?_) workspace
  cases verdict <;> rfl

/-- Without the gate, emission is left to the engine. -/
theorem emitModule_ungated (ungated : workspace.store.settings.verifyBeforeEmit ≠ true) :
    emitModule engine id workspace = writeModule engine id workspace := by
  unfold emitModule
  rw [bind_settings, if_neg ungated]

end Verification

/-! ### Operations -/

/-- Performing an operation fails and changes nothing, or puts the changed home into the
store. -/
theorem perform_cases (operation : Operation α) (workspace : Workspace σ) :
    (∃ fault, (perform operation workspace).result = .error fault ∧
      (perform operation workspace).workspace = workspace) ∨
    ∃ home value changed, workspace.store.context? operation.home = some home ∧
      (operation.effect home).1 = .ok (value, changed) ∧
      (perform operation workspace).result = .ok value ∧
      (perform operation workspace).workspace =
        { workspace with store := workspace.store.put operation.home.index changed } := by
  unfold perform
  cases operation.screen with
  | error fault => exact .inl ⟨fault, rfl, rfl⟩
  | ok _ =>
      cases found : workspace.store.context? operation.home with
      | none => exact .inl ⟨_, rfl, rfl⟩
      | some home =>
          cases done : operation.effect home with
          | mk result events =>
              cases result with
              | error fault => exact .inl ⟨fault, by simp only [done], by simp only [done]⟩
              | ok changed =>
                  refine .inr ⟨home, changed.1, changed.2, rfl, by rw [done], ?_, ?_⟩
                  · simp only [done]
                  · simp only [done]

theorem perform_done {operation : Operation α} {workspace : Workspace σ} {value : α}
    (done : (perform operation workspace).result = .ok value) :
    ∃ home changed, workspace.store.context? operation.home = some home ∧
      (operation.effect home).1 = .ok (value, changed) := by
  rcases perform_cases operation workspace with ⟨fault, refused, _⟩ | performed
  · rw [refused] at done
    cases done
  · obtain ⟨home, given, changed, found, applied, succeeded, _⟩ := performed
    obtain rfl := Except.ok.inj (succeeded.symm.trans done)
    exact ⟨home, changed, found, applied⟩

/-- In a live home, an operation that nothing is held against beforehand is refused if its effect
is. -/
theorem perform_eq_error {operation : Operation α} {workspace : Workspace σ} {home : Context}
    {fault : Fault} (passed : operation.screen = .ok ())
    (found : workspace.store.context? operation.home = some home) :
    (perform operation workspace).result = .error fault ↔
      (operation.effect home).1 = .error fault := by
  unfold perform
  rw [passed, found]
  cases done : operation.effect home with
  | mk result events => cases result <;> simp [done]

/-- Destruction fails and changes nothing, or removes the context from the store and has its
native handle disposed of. -/
theorem destroyContext_cases (engine : Engine σ) (id : ContextId) (workspace : Workspace σ) :
    (∃ fault, (destroyContext engine id workspace).result = .error fault ∧
      (destroyContext engine id workspace).workspace = workspace) ∨
    ∃ context store, workspace.store.destroy id = .ok (context, store) ∧
      (destroyContext engine id workspace).result = .ok () ∧
      (destroyContext engine id workspace).workspace =
        ⟨store, (engine.dispose context.native workspace.native).1⟩ := by
  unfold destroyContext
  cases done : workspace.store.destroy id with
  | error fault => exact .inl ⟨fault, rfl, rfl⟩
  | ok result => exact .inr ⟨result.1, result.2, rfl, rfl, rfl⟩

/-- Verification fails and changes nothing, or records its verdict on a live function. -/
theorem verify_cases (engine : Engine σ) (function : FunctionId) (workspace : Workspace σ) :
    (∃ fault, (verify engine function workspace).result = .error fault ∧
      (verify engine function workspace).workspace = workspace) ∨
    ∃ context name verdict, workspace.store.context? function.context = some context ∧
      context.functionName function = .ok name ∧
      verdict = Verdict.ofJudgement engine.name name
        (engine.verify workspace.native workspace.store function) ∧
      (verify engine function workspace).result = .ok verdict ∧
      (verify engine function workspace).workspace =
        { workspace with
          store := workspace.store.put function.context.index
            (context.recordState function.index verdict.state) } := by
  unfold verify
  cases named : workspace.store.read function.context
      fun context => context.functionName function with
  | error fault => exact .inl ⟨fault, rfl, rfl⟩
  | ok name =>
      obtain ⟨context, found, known⟩ := Store.read_done named
      refine .inr ⟨context, name, _, found, known, rfl, rfl, ?_⟩
      rw [← Store.recordState_eq found]

end Action

/-! ### Commands -/

theorem Command.preserves {holds : Workspace σ → Prop} {engine : Engine σ} (command : Command)
    (created : ∀ name, Action.Preserves holds (Action.createContext engine name))
    (destroyed : ∀ id, Action.Preserves holds (Action.destroyContext engine id))
    (edited : ∀ change, command = .edit change → ∀ workspace, holds workspace →
      holds (Action.perform (change.operation workspace.store.settings) workspace).workspace)
    (convened : ∀ function code, command = .setConvention function code →
      Action.Preserves holds (Action.setConvention engine function code))
    (verified : ∀ function, Action.Preserves holds (Action.verify engine function)) :
    Action.Preserves holds (command.run engine) := by
  cases command with
  | createContext name => exact (created name).bind fun _ => Action.preserves_pure _
  | destroyContext id => exact (destroyed id).bind fun _ => Action.preserves_pure _
  | edit change => exact edited change rfl
  | setConvention function code =>
      exact (convened function code rfl).bind fun _ => Action.preserves_pure _
  | verify function => exact (verified function).bind fun _ => Action.preserves_pure _
  | verifyModule context =>
      exact (Action.preserves_verifyModule verified context).bind fun _ => Action.preserves_pure _
  | emitModule context =>
      exact (Action.preserves_emitModule verified context).bind fun _ => Action.preserves_pure _

namespace Workspace

variable {engine : Engine σ} {workspace : Workspace σ}

theorem after_destroyContext (id : ContextId) :
    workspace.after engine (.destroyContext id) =
      (Action.destroyContext engine id workspace).workspace :=
  Action.workspace_bind_quiet (fun _ _ => rfl) _

theorem after_setConvention (function : FunctionId) (code : UInt32) :
    workspace.after engine (.setConvention function code) =
      (Action.setConvention engine function code workspace).workspace :=
  Action.workspace_bind_quiet (fun _ _ => rfl) _

theorem after_verify (function : FunctionId) :
    workspace.after engine (.verify function) =
      (Action.verify engine function workspace).workspace :=
  Action.workspace_bind_quiet (fun _ _ => rfl) _

theorem after_verifyModule (id : ContextId) :
    workspace.after engine (.verifyModule id) =
      (Action.verifyModule engine id workspace).workspace :=
  Action.workspace_bind_quiet (fun _ _ => rfl) _

theorem after_emitModule (id : ContextId) :
    workspace.after engine (.emitModule id) = (Action.emitModule engine id workspace).workspace :=
  Action.workspace_bind_quiet (fun _ _ => rfl) _

theorem afterAll_append (commands later : List Command) :
    afterAll engine workspace (commands ++ later) =
      afterAll engine (afterAll engine workspace commands) later :=
  List.foldl_append

theorem afterAll_concat (commands : List Command) (command : Command) :
    afterAll engine workspace (commands ++ [command]) =
      after engine (afterAll engine workspace commands) command :=
  afterAll_append commands [command]

theorem afterAll_preserves {holds : Workspace σ → Prop}
    (each : ∀ command : Command, Action.Preserves holds (command.run engine))
    (start : holds workspace) (commands : List Command) :
    holds (afterAll engine workspace commands) := by
  induction commands generalizing workspace with
  | nil => exact start
  | cons command rest inductionHypothesis =>
      exact inductionHypothesis (each command workspace start)

end Workspace

end TypedIR
