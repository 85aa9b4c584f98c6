import TypedIR.Arena.Functions
import TypedIR.Arena.Instructions
import TypedIR.Workspace.Abort
import TypedIR.Workspace.Command

/-!
Contract: an arena together with its engine, and commands on both, carried out in place.

Owns:
- engines, which answer from their own state and from the arena that they are shown;
- every command, with its look-ups and writes in the order in which they are made;
- verification that does not return to its caller when it fails;
- runs, and the engine that needs no other program, which reads an arena as a store.

The commands are those that a client can ask of a workspace, and so are the answers.
-/

namespace TypedIR

namespace Arena

/-- What an arena needs of an engine. -/
structure Engine (σ : Type) where
  name : String
  create : σ → NativeHandle × σ
  dispose : NativeHandle → σ → σ × List LogRecord
  accepts : σ → UInt32 → Bool
  verify : σ → Arena → FunctionId → Judgement
  write : σ → Arena → ContextId → Except Fault (List UInt8)

/-! ### Slots -/

/-- Fresh contents in the slot freed last, or in a new one. -/
def create (arena : Arena) (native : NativeHandle) (moduleName : String) : ContextId × Arena :=
  match arena.free with
  | index :: rest =>
      let id : ContextId := ⟨index, ((arena.slots[index]?).map (·.generation)).getD 0⟩
      (id, { arena.put index (.empty id native moduleName) with free := rest })
  | [] =>
      let id : ContextId := ⟨arena.slots.size, 0⟩
      (id, { arena with
        slots := arena.slots.push ⟨0, some (.empty id native moduleName)⟩ })

/-- Takes the contents out of their slot. The slot is freed under the next generation, or retired
where there is none. -/
def destroy (id : ContextId) : InPlace Arena Contents := do
  let home ← .read fun arena => arena.contents id
  if id.generation < maxGeneration then
    .write fun arena => { arena with
      slots := arena.slots.setIfInBounds id.index ⟨id.generation + 1, none⟩
      free := id.index :: arena.free }
  else
    .write fun arena => { arena with
      slots := arena.slots.setIfInBounds id.index ⟨id.generation, none⟩ }
  return home

end Arena

/-- An arena and the state of its engine. -/
structure System (σ : Type) where
  arena : Arena
  native : σ

namespace System

variable {σ : Type}

def start (settings : Settings) (native : σ) : System σ := ⟨.empty settings, native⟩

/-- Works on the arena. -/
def onArena (work : InPlace Arena α) : InPlace (System σ) α := fun system =>
  ((work system.arena).1, { system with arena := (work system.arena).2 })

/-! ### Contexts -/

def createContext (engine : Arena.Engine σ) (moduleName : String) :
    InPlace (System σ) ContextId := do
  let handle ← .update fun system =>
    let (handle, native) := engine.create system.native
    (handle, { system with native := native })
  onArena <| .update fun arena => arena.create handle moduleName

def destroyContext (engine : Arena.Engine σ) (id : ContextId) : InPlace (System σ) Unit := do
  let home ← onArena (Arena.destroy id)
  .write fun system => { system with native := (engine.dispose home.native system.native).1 }

/-- Sets a native code of a function, if the engine accepts it in its present state. -/
def setConvention (engine : Arena.Engine σ) (function : FunctionId) (code : UInt32) :
    InPlace (System σ) Unit := fun system =>
  onArena (Arena.setConvention (engine.accepts system.native) engine.name function code) system

/-! ### Verification and emission -/

/-- Asks the engine about a live function and records the verdict. -/
def verify (engine : Arena.Engine σ) (function : FunctionId) : InPlace (System σ) Verdict := do
  let name ← .read fun system => system.arena.functionName function
  let verdict ← .look fun system => Verdict.ofJudgement engine.name name
    (engine.verify system.native system.arena function)
  onArena <| Arena.alterBody function fun body => { body with state := verdict.state }
  return verdict

/-- The reasons against functions, one function after the other. -/
def verifyEach (engine : Arena.Engine σ) : List FunctionId → InPlace (System σ) (List String)
  | [] => return []
  | function :: rest => do
      let verdict ← verify engine function
      let reasons ← verifyEach engine rest
      return verdict.reasons ++ reasons

def verifyModule (engine : Arena.Engine σ) (context : ContextId) :
    InPlace (System σ) Verdict := do
  let home ← .read fun system => system.arena.contents context
  let reasons ← verifyEach engine home.functions
  return .ofReasons reasons

/-- The bytes of a module. With the setting on, an invalid module is refused. -/
def emitModule (engine : Arena.Engine σ) (context : ContextId) :
    InPlace (System σ) (List UInt8) := do
  let gated ← .look fun system => system.arena.settings.verifyBeforeEmit
  if gated then
    match ← verifyModule engine context with
    | .valid => .read fun system => engine.write system.native system.arena context
    | .invalid reasons => .refuse (.invalid reasons)
  else .read fun system => engine.write system.native system.arena context

/-- A favourable verdict, or the notice that ends the process. -/
def settle (subject : Subject) : Verdict → Except AbortNotice Verdict
  | .valid => .ok .valid
  | .invalid reasons => .error ⟨subject, reasons⟩

def verifyOrAbort (engine : Arena.Engine σ) (function : FunctionId) :
    InPlace (System σ) (Except AbortNotice Verdict) := do
  let name ← .read fun system => system.arena.functionName function
  let verdict ← verify engine function
  return settle (.function name) verdict

def verifyModuleOrAbort (engine : Arena.Engine σ) (context : ContextId) :
    InPlace (System σ) (Except AbortNotice Verdict) := do
  let home ← .read fun system => system.arena.contents context
  let verdict ← verifyModule engine context
  return settle (.module home.moduleName) verdict

end System

/-! ### Commands -/

/-- The writes of an edit, in order. -/
def Edit.inPlace : Edit → InPlace Arena Answer
  | .setModuleName context name => unitAnswer <$>
      Arena.within context (.write fun home => { home with moduleName := name })
  | .voidType context => typeAnswer <$> Arena.voidType context
  | .labelType context => typeAnswer <$> Arena.labelType context
  | .integerType context bits => typeAnswer <$> Arena.integerType context bits
  | .arrayType element length => typeAnswer <$> Arena.arrayType element length
  | .structType context fields packed => typeAnswer <$> Arena.structType context fields packed
  | .signatureType result parameters variadic =>
      typeAnswer <$> Arena.signatureType result parameters variadic
  | .integerConstant type number => valueAnswer <$> Arena.integerConstant type number
  | .arrayConstant element values => valueAnswer <$> Arena.arrayConstant element values
  | .bytesConstant context content terminated =>
      valueAnswer <$> Arena.bytesConstant context content terminated
  | .structConstant context values packed =>
      valueAnswer <$> Arena.structConstant context values packed
  | .undefined type => valueAnswer <$> Arena.undefined type
  | .declare context name signature => functionAnswer <$> Arena.declare context name signature
  | .rename value name => unitAnswer <$> Arena.rename value name
  | .appendBlock function name => blockAnswer <$> Arena.appendBlock function name
  | .setPersonality function personality => unitAnswer <$> Arena.setPersonality function personality
  | .clearPersonality function => unitAnswer <$> Arena.clearPersonality function
  | .setCollector function strategy => unitAnswer <$> Arena.setCollector function strategy
  | .deleteFunction function => unitAnswer <$> Arena.deleteFunction function
  | .addAttribute function site value => unitAnswer <$> Arena.addAttribute function site value
  | .addTargetAttribute function key value =>
      unitAnswer <$> Arena.addAttribute function .function (.string key value)
  | .removeAttribute function site key => unitAnswer <$> Arena.removeAttribute function site key
  | .setAlignment value align => unitAnswer <$> Arena.setAlignment value align
  | .binary block operator left right name =>
      valueAnswer <$> Arena.binary block operator left right name
  | .compare block predicate left right name =>
      valueAnswer <$> Arena.compare block predicate left right name
  | .select block condition thenValue elseValue name =>
      valueAnswer <$> Arena.select block condition thenValue elseValue name
  | .call block callee arguments name => valueAnswer <$> Arena.call block callee arguments name
  | .ret block value => valueAnswer <$> Arena.ret block value
  | .branch block target => valueAnswer <$> Arena.branch block target
  | .condBranch block condition thenBlock elseBlock =>
      valueAnswer <$> Arena.condBranch block condition thenBlock elseBlock
  | .unreachable block => valueAnswer <$> Arena.unreachable block

/-- The effect of a command on a system. -/
def Command.inPlace {σ : Type} (engine : Arena.Engine σ) : Command → InPlace (System σ) Answer
  | .createContext moduleName => do
      return .handle (.context (← System.createContext engine moduleName))
  | .destroyContext context => do
      System.destroyContext engine context
      return .done
  | .edit change => System.onArena change.inPlace
  | .setConvention function code => do
      System.setConvention engine function code
      return .done
  | .verify function => do return .verdict (← System.verify engine function)
  | .verifyModule context => do return .verdict (← System.verifyModule engine context)
  | .emitModule context => do return .bytes (← System.emitModule engine context)

namespace System

variable {σ : Type}

/-- The system after a command, whether it succeeded or not. -/
def after (engine : Arena.Engine σ) (system : System σ) (command : Command) : System σ :=
  (command.inPlace engine system).2

def afterAll (engine : Arena.Engine σ) (system : System σ) (commands : List Command) :
    System σ :=
  commands.foldl (after engine) system

/-- Some sequence of commands leads from an empty arena to this system. -/
def Reachable (engine : Arena.Engine σ) (initial : σ) (system : System σ) : Prop :=
  ∃ settings commands, system = afterAll engine (start settings initial) commands

end System

end TypedIR
