import TypedIR.Description.Basic
import TypedIR.Description.Draft
import TypedIR.Workspace.Action

/-!
Contract: building the module that a description describes.

Owns:
- the phases: every function is declared, then personalities are set, then bodies
  are filled in, so that functions may refer to later ones;
- the scope of a body: locals by name, of which the latest definition counts, and
  the function's blocks;
- the build of a whole description in a context of its own, which does not
  outlive a fault.

The blocks of a body stand before its instructions, so branches may lead forward;
locals come in the order of the instructions.
-/

namespace TypedIR.Description

/-! ### Names -/

/-- A written name without the given mark, which may stand before it once. -/
def withoutMark (mark : Char) (text : String) : String :=
  match text.toList with
  | first :: rest => if first = mark then String.ofList rest else text
  | [] => text

/-- The function of a written name. -/
def findFunction (written : String) : Construction FunctionId := do
  let name := withoutMark '@' written
  let context ← Construction.context
  match context.functionNamed? name with
  | some function => return context.functionId function
  | none => Construction.fail (.unknownFunction name)

/-- The names that a body can refer to. -/
structure Scope where
  /-- The latest definition in front. -/
  locals : List (String × ValueId)
  blocks : List (String × BlockId)
deriving DecidableEq, Repr

namespace Scope

/-- The scope after a value got a name; anonymous values are not in it. -/
def define (scope : Scope) (name : String) (value : ValueId) : Scope :=
  if name = "" then scope else { scope with locals := (name, value) :: scope.locals }

def findLocal (scope : Scope) (name : String) : Construction ValueId :=
  match scope.locals.lookup name with
  | some value => return value
  | none => Construction.fail (.unknownLocal name)

/-- The block of a written name, with or without `%` before it. -/
def findBlock (scope : Scope) (written : String) : Construction BlockId :=
  let name := withoutMark '%' written
  match scope.blocks.lookup name with
  | some block => return block
  | none => Construction.fail (.unknownBlock name)

end Scope

/-! ### Declarations -/

/-- Names and aligns a parameter of a declared function. -/
def attachParameter (function : FunctionId) (position : Nat) (parameter : Parameter) :
    Construction Unit := do
  let value ← Construction.inspect fun context => context.parameterAt function position
  if parameter.name ≠ "" then
    Construction.perform (.rename value parameter.name)
  match parameter.align with
  | some align => Construction.perform (.setAlignment value align)
  | none => return ()

def attachParameters (function : FunctionId) : Nat → List Parameter → Construction Unit
  | _, [] => return ()
  | position, parameter :: rest => do
      attachParameter function position parameter
      attachParameters function (position + 1) rest

/-- Sets what a description gives a declared function besides its parameters. -/
def attach (terms : Terms) (function : FunctionId) (description : Function) :
    Construction Unit := do
  match description.convention with
  | some convention =>
      Construction.perform
        (.setConvention terms.accepts terms.engine function convention.code)
  | none => pure ()
  match description.collector with
  | some strategy => Construction.perform (.setCollector function strategy)
  | none => pure ()
  description.attributes.forM fun placed =>
    Construction.perform (.addAttribute function placed.site placed.value)

def declare (terms : Terms) (description : Function) : Construction FunctionId := do
  let result ← lowerType terms description.result
  let parameters ← lowerTypes terms (description.parameters.map (·.type))
  let signature ← Construction.perform
    (.signatureType result parameters description.variadic)
  let home := (← Construction.context).id
  let function ← Construction.perform
    (.declare terms.settings home description.name signature)
  attachParameters function 0 description.parameters
  attach terms function description
  return function

def setPersonality (function : FunctionId) (description : Function) : Construction Unit := do
  match description.personality with
  | some written =>
      let personality ← findFunction written
      Construction.perform (.setPersonality function personality)
  | none => return ()

/-! ### Bodies -/

def buildOperand (terms : Terms) (scope : Scope) : Operand → Construction ValueId
  | .reference text =>
      match text.toList with
      | '%' :: name => scope.findLocal (String.ofList name)
      | '@' :: _ => do return (← findFunction text).toValue
      | _ => Construction.fail (.malformedOperand text)
  | .integer number type => do
      let type ← lowerType terms type
      Construction.perform (.integerConstant type number)
  | .bytes text terminated => do
      let home := (← Construction.context).id
      Construction.perform
        (.bytesConstant terms.settings home text.toUTF8.toList terminated)

/-- Appends an instruction to a block, its operands first from the left to the right. -/
def buildInstruction (terms : Terms) (scope : Scope) (block : BlockId) :
    Instruction → Construction ValueId
  | .binary operator left right name => do
      let left ← buildOperand terms scope left
      let right ← buildOperand terms scope right
      Construction.perform (.binary block operator left right name)
  | .compare predicate left right name => do
      let left ← buildOperand terms scope left
      let right ← buildOperand terms scope right
      Construction.perform (.compare terms.settings block predicate left right name)
  | .select condition thenValue elseValue name => do
      let condition ← buildOperand terms scope condition
      let thenValue ← buildOperand terms scope thenValue
      let elseValue ← buildOperand terms scope elseValue
      Construction.perform (.select block condition thenValue elseValue name)
  | .call callee arguments name => do
      let callee ← findFunction callee
      let arguments ← arguments.mapM (buildOperand terms scope)
      Construction.perform (.call block callee arguments name)
  | .ret value => do
      let value ← value.mapM (buildOperand terms scope)
      Construction.perform (.ret block value)
  | .branch target => do
      let target ← scope.findBlock target
      Construction.perform (.branch block target)
  | .condBranch condition thenBlock elseBlock => do
      let condition ← buildOperand terms scope condition
      let thenBlock ← scope.findBlock thenBlock
      let elseBlock ← scope.findBlock elseBlock
      Construction.perform (.condBranch block condition thenBlock elseBlock)
  | .unreachable => Construction.perform (.unreachable block)

/-- The scope after the instructions of a block. -/
def buildInstructions (terms : Terms) (scope : Scope) (block : BlockId) :
    List Instruction → Construction Scope
  | [] => return scope
  | instruction :: rest => do
      let value ← buildInstruction terms scope block instruction
      let scope := scope.define (instruction.resultName?.getD "") value
      buildInstructions terms scope block rest

/-- The named parameters of a function, the last one in front. -/
def parameterLocals (function : FunctionId) : Construction (List (String × ValueId)) := do
  let named ← Construction.inspect fun context => do
    let entry ← context.resolveFunction function
    entry.parameters.mapM fun parameter => do
      let value := context.valueId parameter
      return ((← context.resolveValue value).name, value)
  return (named.filter fun parameter => parameter.1 ≠ "").reverse

/-- Appends the described blocks to a function, behind those appended before. -/
def appendBlocks (function : FunctionId) (before : List (String × BlockId)) :
    List Block → Construction (List (String × BlockId))
  | [] => return before
  | block :: rest => do
      let appended ← Construction.perform (.appendBlock function block.name)
      if (before.lookup block.name).isSome then
        Construction.fail (.duplicateBlock block.name)
      appendBlocks function (before ++ [(block.name, appended)]) rest

/-- Fills in the described blocks, each in the scope that the earlier ones leave. -/
def buildBlocks (terms : Terms) (scope : Scope) : List (BlockId × Block) → Construction Unit
  | [] => return ()
  | (home, block) :: rest => do
      let scope ← Construction.within (.block block.name)
        (buildInstructions terms scope home block.instructions)
      buildBlocks terms scope rest

def buildBody (terms : Terms) (function : FunctionId) (description : Function) :
    Construction Unit := do
  let locals ← parameterLocals function
  let blocks ← appendBlocks function [] description.blocks
  buildBlocks terms ⟨locals, blocks⟩ ((blocks.map (·.2)).zip description.blocks)

/-! ### Modules -/

def declareAll (terms : Terms) : List Function → Construction (List FunctionId)
  | [] => return []
  | description :: rest => do
      let function ← Construction.within (.function description.name)
        (declare terms description)
      let functions ← declareAll terms rest
      return function :: functions

def setPersonalities : List (FunctionId × Function) → Construction Unit
  | [] => return ()
  | (function, description) :: rest => do
      setPersonality function description
      setPersonalities rest

def buildBodies (terms : Terms) : List (FunctionId × Function) → Construction Unit
  | [] => return ()
  | (function, description) :: rest => do
      Construction.within (.function description.name) (buildBody terms function description)
      buildBodies terms rest

def builtText (description : Module) : String :=
  "Built module '" ++ description.name ++ "' with " ++ toString description.functions.length ++
    " functions"

/-- Builds the described functions in a fresh context. -/
def populate (terms : Terms) (description : Module) : Construction Unit := do
  let functions ← declareAll terms description.functions
  let declared := functions.zip description.functions
  setPersonalities declared
  buildBodies terms declared
  Construction.emit [.debug (builtText description)]

/-- Runs a construction in a live context, which keeps what was done before a fault. -/
def construct {σ : Type} (id : ContextId) (construction : Construction α) :
    Action σ (Except BuildFault α) := fun workspace =>
  match workspace.store.context? id with
  | none => ⟨.error (.released (.context id)), workspace, []⟩
  | some context =>
      let (result, draft) := construction ⟨context, []⟩
      ⟨.ok result, { workspace with store := workspace.store.put id.index draft.context },
        draft.events⟩

def termsOf {σ : Type} (engine : Engine σ) (workspace : Workspace σ) : Terms where
  settings := workspace.store.settings
  accepts := engine.accepts workspace.native
  engine := engine.name

/-- Builds a description in a context of its own. After a fault the context is gone. -/
def build {σ : Type} (engine : Engine σ) (description : Module) :
    Action σ (Except BuildFault ContextId) := do
  let id ← Action.createContext engine description.name
  let terms ← fun workspace => ⟨.ok (termsOf engine workspace), workspace, []⟩
  match ← construct id (populate terms description) with
  | .ok () => return .ok id
  | .error fault => do
      Action.destroyContext engine id
      return .error fault

end TypedIR.Description
