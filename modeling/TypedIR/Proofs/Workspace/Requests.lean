import TypedIR.Proofs.Workspace.Dead
import TypedIR.Workspace.Abort
import TypedIR.Workspace.Query

/-!
Contract: everything that a client asks of a workspace, and runs of it.

Owns:
- requests: commands, queries, and verification that ends in a notice when it fails;
- runs, in which the engine may be another one at each step;
- that a request changes a workspace as a command does, or not at all;
- what runs keep: the invariants of stores, and that what was given out is live or dead.

Does not own: what requests find out.

An engine that answers from a state of its own, however that state changes between two
requests, is one engine at each step.
-/

namespace TypedIR

variable {σ : Type} {engine : Engine σ} {settings : Settings}

inductive Request where
  | command (command : Command)
  | query (query : Query)
  | describeType (type : TypeId)
  | isAlive (context : ContextId)
  | verifyOrAbort (function : FunctionId)
  | verifyModuleOrAbort (context : ContextId)
deriving DecidableEq, Repr

/-- What a request gives back. -/
inductive Response where
  | answer (answer : Answer)
  | fact (fact : Fact)
  | text (text : String)
  | flag (flag : Bool)
  | settled (outcome : Except AbortNotice Verdict)
deriving DecidableEq

namespace Request

def run (engine : Engine σ) : Request → Action σ Response
  | .command change => do return .answer (← change.run engine)
  | .query question => do return .fact (← Action.inspect question.answer)
  | .describeType type => do
      return .text (← Action.inspect fun store => .ok (store.describeType type))
  | .isAlive context => do
      return .flag (← Action.inspect fun store => .ok (store.isAlive context))
  | .verifyOrAbort function => do
      return .settled (← Action.verifyOrAbort engine function)
  | .verifyModuleOrAbort context => do
      return .settled (← Action.verifyModuleOrAbort engine context)

/-- The command that changes a workspace in the same way, unless nothing changes. -/
def command? : Request → Option Command
  | .command change => some change
  | .verifyOrAbort function => some (.verify function)
  | .verifyModuleOrAbort context => some (.verifyModule context)
  | _ => none

end Request

namespace Action

variable {workspace : Workspace σ}

theorem settle_quiet (subject : Subject) (verdict : Verdict) (workspace : Workspace σ) :
    (settle subject verdict workspace).workspace = workspace := by
  cases verdict <;> rfl

theorem workspace_verifyOrAbort (function : FunctionId) :
    (verifyOrAbort engine function workspace).workspace =
      (verify engine function workspace).workspace := by
  unfold verifyOrAbort
  cases named : workspace.store.read function.context
      fun context => context.functionName function with
  | error fault =>
      have refused : (verify engine function workspace).workspace = workspace := by
        unfold verify
        rw [named]
      rw [(bind_of_error named).2, refused]
      rfl
  | ok name =>
      rw [workspace_bind named]
      exact workspace_bind_quiet (settle_quiet _) workspace

theorem workspace_verifyModuleOrAbort (id : ContextId) :
    (verifyModuleOrAbort engine id workspace).workspace =
      (verifyModule engine id workspace).workspace := by
  unfold verifyModuleOrAbort
  cases found : workspace.store.resolve id with
  | error fault =>
      have named : (inspect (fun store => store.read id fun home => .ok home.moduleName)
          workspace : Outcome σ String).result = .error fault := by
        show workspace.store.resolve id >>= _ = _
        rw [found]
        rfl
      have asked : (inspect (functionsOf id) workspace : Outcome σ (List FunctionId)).result =
          .error fault := by
        show workspace.store.resolve id >>= _ = _
        rw [found]
        rfl
      rw [(bind_of_error named).2]
      exact (bind_of_error asked).2.symm
  | ok context =>
      have named : (inspect (fun store => store.read id fun home => .ok home.moduleName)
          workspace : Outcome σ String).result = .ok context.moduleName :=
        bind_eq_ok.mpr ⟨context, found, rfl⟩
      rw [workspace_bind named]
      exact workspace_bind_quiet (settle_quiet _) workspace

end Action

/-- A request leaves what its command leaves. -/
theorem Request.workspace_run (request : Request) (workspace : Workspace σ) :
    (request.run engine workspace).workspace =
      request.command?.elim workspace (workspace.after engine) := by
  cases request with
  | command command => exact Action.workspace_bind_quiet (fun _ _ => rfl) workspace
  | query query => exact Action.workspace_bind_quiet (fun _ _ => rfl) workspace
  | describeType type => exact Action.workspace_bind_quiet (fun _ _ => rfl) workspace
  | isAlive context => exact Action.workspace_bind_quiet (fun _ _ => rfl) workspace
  | verifyOrAbort function =>
      exact (Action.workspace_bind_quiet (fun _ _ => rfl) workspace).trans
        ((Action.workspace_verifyOrAbort function).trans (Workspace.after_verify function).symm)
  | verifyModuleOrAbort context =>
      exact (Action.workspace_bind_quiet (fun _ _ => rfl) workspace).trans
        ((Action.workspace_verifyModuleOrAbort context).trans
          (Workspace.after_verifyModule context).symm)

/-! ### Runs -/

/-- Requests one after the other, each with the engine as it is by then. -/
abbrev History (σ : Type) := List (Engine σ × Request)

/-- The workspace that a run leaves behind. -/
def Workspace.follow (workspace : Workspace σ) (run : History σ) : Workspace σ :=
  run.foldl (fun workspace step => (step.2.run step.1 workspace).workspace) workspace

namespace Store.Lasting

variable {holds : Store → Prop} (lasting : Lasting settings holds) {workspace : Workspace σ}

include lasting

theorem request (engine : Engine σ) (request : Request) :
    Action.Preserves (Within settings holds) (request.run engine) := by
  intro workspace within
  rw [request.workspace_run]
  cases request.command? with
  | none => exact within
  | some command => exact lasting.command command workspace within

theorem follow (within : Within settings holds workspace) (run : History σ) :
    Within settings holds (workspace.follow run) := by
  induction run generalizing workspace with
  | nil => exact within
  | cons step rest inductionHypothesis =>
      exact inductionHypothesis (lasting.request step.1 step.2 workspace within)

end Store.Lasting

/-! ### Handles that were given out -/

namespace Store

variable {store : Store} {handle : Handle}

/-- The handle was given out, and its context, if it is still there, has given out the entry. -/
structure GivenOut (store : Store) (handle : Handle) : Prop where
  issued : store.HasIssued handle.tag
  entry : ∀ context, store.context? handle.tag = some context → context.Issued handle

theorem Live.givenOut (live : store.Live handle) (sound : store.Sound)
    (owned : ∀ context, store.context? handle.tag = some context → context.Owned) :
    store.GivenOut handle := by
  obtain ⟨context, found, entry⟩ := live
  refine ⟨sound.hasIssued_of_live found, fun other lookup => ?_⟩
  obtain rfl := Option.some.inj (found.symm.trans lookup)
  exact entry.issued (owned context found)

/-- What was given out is live or dead. -/
theorem GivenOut.dead (given : store.GivenOut handle) (gone : ¬ store.Live handle) :
    store.Dead handle where
  issued := given.issued
  released := fun context found =>
    ⟨given.entry context found, fun live => gone ⟨context, found, live⟩⟩

theorem lasting_givenOut (handle : Handle) :
    Lasting settings fun store => store.Sound ∧ store.GivenOut handle := by
  have kept : Context.Invariant settings fun context => context.Issued handle :=
    fun _ _ _ _ issued change => issued.step change
  refine (lasting_on handle.tag kept).congr fun store => ?_
  exact ⟨fun ⟨⟨sound, issued⟩, entry⟩ => ⟨sound, issued, entry⟩,
    fun ⟨sound, given⟩ => ⟨⟨sound, given.issued⟩, given.entry⟩⟩

end Store

end TypedIR
