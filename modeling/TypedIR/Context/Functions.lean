import TypedIR.Context.Types
import TypedIR.Label

/-!
Contract: the functions of a context, their parameters and their blocks.

Owns:
- declaration, with one parameter for each parameter of the signature;
- names: at most one live function has a given name that is not empty;
- blocks, whose names are made unique within the function;
- conventions, personalities and collectors;
- deletion, which releases all that the function owns and marks every other
  function of the module as unverified.
-/

namespace TypedIR

namespace Context

def declare (context : Context) (settings : Settings) (name : String) (signature : TypeId) :
    Except Fault (FunctionId × Context) := do
  match ← context.resolveType signature with
  | .function _ parameters _ =>
      if (context.functionNamed? name).isSome then throw (.duplicateName name)
      let self := context.values.size
      let values := (context.values.push ⟨signature.index, .function, name⟩).pushAll
        (parameters.mapIdx fun position type => ⟨type, .parameter self position, ""⟩)
      let entry := FunctionEntry.declared self signature.index
        (List.range' (self + 1) parameters.length) settings.convention.code
      return (context.functionId self,
        { context with values := values, functions := context.functions ++ [entry] })
  | _ => throw (.mismatch .signature (context.typeExpectation signature.index))

/-- Gives a value a name. A function may not take the name of another one. -/
def rename (context : Context) (value : ValueId) (name : String) :
    Except Fault (Unit × Context) := do
  let entry ← context.resolveValue value
  let taken := (context.functionNamed? name).any fun holder => holder ≠ value.index
  if entry.kind = .function ∧ taken then throw (.duplicateName name)
  return ((), { context with
    values := context.values.modify value.index fun entry => { entry with name := name } })

/-- Appends a block at the end of a function. -/
def appendBlock (context : Context) (function : FunctionId) (name : String) :
    Except Fault (BlockId × Context) := do
  let entry ← context.resolveFunction function
  let taken := entry.blocks.filterMap fun block => (context.block? block).map (·.name)
  let block := context.blocks.size
  let context := { context with
    blocks := context.blocks.push ⟨function.index, Label.ofBlock taken name, []⟩ }
  return (context.blockId block, context.updateFunction function.index fun entry =>
    { entry with blocks := entry.blocks ++ [block] }.edited)

/-! ### Settings of one function -/

/-- Edits a live function. -/
def editFunction (context : Context) (function : FunctionId)
    (change : FunctionEntry → FunctionEntry) : Except Fault (Unit × Context) := do
  let _ ← context.resolveFunction function
  return ((), context.updateFunction function.index fun entry => (change entry).edited)

/-- Sets a native code, if the engine accepts it. -/
def setConvention (context : Context) (accepts : UInt32 → Bool) (engine : String)
    (function : FunctionId) (code : UInt32) : Except Fault (Unit × Context) := do
  let _ ← context.resolveFunction function
  if accepts code then
    context.editFunction function fun entry => { entry with convention := code }
  else throw (.unsupportedConvention code engine)

def setPersonality (context : Context) (function personality : FunctionId) :
    Except Fault (Unit × Context) := do
  let _ ← context.resolveFunction personality
  context.editFunction function fun entry => { entry with personality := some personality.index }

def clearPersonality (context : Context) (function : FunctionId) :
    Except Fault (Unit × Context) :=
  context.editFunction function fun entry => { entry with personality := none }

/-- Sets the strategy of garbage collection; an empty one unsets it. -/
def setCollector (context : Context) (function : FunctionId) (strategy : String) :
    Except Fault (Unit × Context) :=
  context.editFunction function fun entry =>
    { entry with collector := if strategy = "" then none else some strategy }

def recordState (context : Context) (function : ValueRef) (state : VerificationState) : Context :=
  context.updateFunction function fun entry => { entry with state := state }

/-! ### Deletion -/

/-- The instructions in the blocks of a function. -/
def instructionsOf (context : Context) (entry : FunctionEntry) : List ValueRef :=
  entry.blocks.flatMap fun block => ((context.block? block).map (·.instructions)).getD []

/-- A function without its personality if that is the deleted one, and unverified. -/
def forgetFunction (deleted : ValueRef) (entry : FunctionEntry) : FunctionEntry :=
  { entry with
    personality := if entry.personality = some deleted then none else entry.personality }.edited

def deleteFunction (context : Context) (function : FunctionId) :
    Except Fault (Unit × Context) := do
  let entry ← context.resolveFunction function
  let values := context.values.releaseAll
    (context.instructionsOf entry ++ entry.parameters ++ [entry.self])
  let others := context.functions.filter fun other => other.self ≠ function.index
  return ((), { context with
    values := values
    blocks := context.blocks.releaseAll entry.blocks
    functions := others.map (forgetFunction function.index) })

/-! ### Parts of one function -/

def parameterAt (context : Context) (function : FunctionId) (position : Nat) :
    Except Fault ValueId := do
  let entry ← context.resolveFunction function
  match entry.parameters[position]? with
  | some parameter => return context.valueId parameter
  | none => throw (.positionOutOfRange position entry.parameters.length)

def functionName (context : Context) (function : FunctionId) : Except Fault String := do
  let entry ← context.resolveFunction function
  let value ← context.resolveValue (context.valueId entry.self)
  return value.name

/-- The personality of a function that has one. -/
def personality (context : Context) (function : FunctionId) : Except Fault FunctionId := do
  let entry ← context.resolveFunction function
  match entry.personality with
  | some personality => return context.functionId personality
  | none =>
      throw (.noPersonality (((context.value? entry.self).map (·.name)).getD ""))

end Context

end TypedIR
