import TypedIR.Engine.Reference
import TypedIR.Operation

/-!
Contract: a store together with its engine, and actions on both.

Owns:
- the workspace, a store and the state of its engine;
- actions, which end in a result or a fault, leave a workspace in both cases, and
  leave events; a sequence of actions stops at the first fault;
- the actions that involve the engine: creation and destruction of contexts,
  verification, emission, and the release of everything at the end.

A refused operation leaves the workspace as it was. Emission is the one action
that can fail after a change: it has recorded the verdicts by then.
-/

namespace TypedIR

structure Workspace (σ : Type) where
  store : Store
  native : σ
deriving DecidableEq

structure Outcome (σ : Type) (α : Type) where
  result : Except Fault α
  workspace : Workspace σ
  events : List Event

def Action (σ : Type) (α : Type) : Type := Workspace σ → Outcome σ α

namespace Action

variable {σ : Type}

def pure (value : α) : Action σ α := fun workspace => ⟨.ok value, workspace, []⟩

def bind (action : Action σ α) (next : α → Action σ β) : Action σ β := fun workspace =>
  let first := action workspace
  match first.result with
  | .error fault => ⟨.error fault, first.workspace, first.events⟩
  | .ok value =>
      let second := next value first.workspace
      ⟨second.result, second.workspace, first.events ++ second.events⟩

instance : Monad (Action σ) where
  pure := Action.pure
  bind := Action.bind

def fail (fault : Fault) : Action σ α := fun workspace => ⟨.error fault, workspace, []⟩

/-- Leaves events and changes nothing. -/
def emit (events : List Event) : Action σ Unit := fun workspace => ⟨.ok (), workspace, events⟩

/-- Reads from the store. -/
def inspect (query : Store → Except Fault α) : Action σ α := fun workspace =>
  ⟨query workspace.store, workspace, []⟩

/-- Runs an operation in its home. -/
def perform (operation : Operation α) : Action σ α := fun workspace =>
  match operation.screen with
  | .error fault => ⟨.error fault, workspace, []⟩
  | .ok () =>
  match workspace.store.context? operation.home with
  | none => ⟨.error (.released (.context operation.home)), workspace, []⟩
  | some context =>
  match operation.effect context with
  | (.error fault, events) => ⟨.error fault, workspace, events⟩
  | (.ok (value, changed), events) =>
      ⟨.ok value, { workspace with store := workspace.store.put operation.home.index changed },
        events⟩

/-! ### Contexts -/

def createContext (engine : Engine σ) (moduleName : String) : Action σ ContextId :=
  fun workspace =>
    let (handle, native) := engine.create workspace.native
    let (id, store) := workspace.store.create handle moduleName
    ⟨.ok id, ⟨store, native⟩,
      [.engine (.create handle),
        .debug ("Created " ++ id.text ++ " backed by native handle " ++ nativeText handle)]⟩

/-- The record of a destruction: how many entries the tables had, released ones included. -/
def destructionText (context : Context) : String :=
  "Destroyed " ++ context.id.text ++ ": released " ++ toString context.types.size ++ " types, " ++
    toString context.values.size ++ " values, " ++ toString context.blocks.size ++ " blocks"

def destroyContext (engine : Engine σ) (id : ContextId) : Action σ Unit := fun workspace =>
  match workspace.store.destroy id with
  | .error fault => ⟨.error fault, workspace, []⟩
  | .ok (context, store) =>
      let (native, records) := engine.dispose context.native workspace.native
      ⟨.ok (), ⟨store, native⟩,
        .engine (.dispose context.native) :: records.map .log ++
          [.debug (destructionText context)]⟩

/-- Hands the native handles of all live contexts back, in the order of their slots. -/
def close (engine : Engine σ) : Action σ Unit := fun workspace =>
  let (native, events) := workspace.store.contexts.foldl
    (fun (native, events) context =>
      let (native, records) := engine.dispose context.native native
      (native, events ++ .engine (.dispose context.native) :: records.map .log))
    (workspace.native, [])
  let slots := workspace.store.slots.map fun slot => { slot with context := none }
  ⟨.ok (), ⟨{ workspace.store with slots := slots }, native⟩, events⟩

/-! ### Verification and emission -/

def verdictText (name : String) (verdict : Verdict) : String :=
  "Verified @" ++ name ++ ": " ++ if verdict.isValid then "ok" else "invalid"

/-- Asks the engine about a live function and records the verdict. -/
def verify (engine : Engine σ) (function : FunctionId) : Action σ Verdict := fun workspace =>
  match workspace.store.read function.context fun context => context.functionName function with
  | .error fault => ⟨.error fault, workspace, []⟩
  | .ok name =>
      let judgement := engine.verify workspace.native workspace.store function
      let verdict := Verdict.ofJudgement engine.name name judgement
      ⟨.ok verdict, { workspace with store := workspace.store.recordState function verdict.state },
        .engine (.verify function name) :: judgement.records.map .log ++
          [.debug (verdictText name verdict)]⟩

/-- The reasons against functions, one function after the other. -/
def verifyEach (engine : Engine σ) : List FunctionId → Action σ (List String)
  | [] => Action.pure []
  | function :: rest => do
      let verdict ← verify engine function
      let reasons ← verifyEach engine rest
      return verdict.reasons ++ reasons

def functionsOf (context : ContextId) (store : Store) : Except Fault (List FunctionId) :=
  store.read context fun home => .ok (home.functions.map fun entry => home.functionId entry.self)

def verifyModule (engine : Engine σ) (context : ContextId) : Action σ Verdict := do
  let functions ← inspect (functionsOf context)
  let reasons ← verifyEach engine functions
  return .ofReasons reasons

def writeModule (engine : Engine σ) (context : ContextId) : Action σ (List UInt8) :=
  fun workspace =>
    ⟨engine.write workspace.native workspace.store context, workspace, [.engine (.write context)]⟩

/-- The bytes of a module. With the setting on, an invalid module is refused. -/
def emitModule (engine : Engine σ) (context : ContextId) : Action σ (List UInt8) := do
  let settings ← inspect fun store => .ok store.settings
  if settings.verifyBeforeEmit then
    match ← verifyModule engine context with
    | .valid => writeModule engine context
    | .invalid reasons => fail (.invalid reasons)
  else writeModule engine context

/-- Sets a native code of a function, if the engine accepts it in its present state. -/
def setConvention (engine : Engine σ) (function : FunctionId) (code : UInt32) : Action σ Unit :=
  fun workspace =>
    perform (.setConvention (engine.accepts workspace.native) engine.name function code) workspace

/-- A workspace without contexts, and the record of its making. -/
def openingText (engine : Engine σ) : String :=
  "Creating handle arena on the " ++ engine.name ++ " engine"

end Action

def Workspace.start (settings : Settings) (native : σ) : Workspace σ := ⟨.empty settings, native⟩

end TypedIR
