import TypedIR.Context.Types

/-!
Contract: instructions are appended at the end of a block, typed as they come.

Owns:
- the typing rule of each instruction, checked from its first operand to its last
  before anything changes;
- the effect, the same for all: one fresh value, at the end of one block, and the
  function of that block unverified.

Does not own: rules about a whole function, such as where terminators stand.
-/

namespace TypedIR

namespace Context

/-- Appends an instruction to a block of the given function. -/
def appendInstruction (context : Context) (function : ValueRef) (block : BlockRef)
    (type : TypeRef) (code : Instruction) (name : String) : ValueId × Context :=
  let value := context.values.size
  let context := { context with
    values := context.values.push ⟨type, .instruction block code, name⟩
    blocks := context.blocks.modify block fun entry =>
      { entry with instructions := entry.instructions ++ [value] } }
  (context.valueId value, context.updateFunction function FunctionEntry.edited)

/-- Appends an instruction of type void, without a name. -/
def appendTerminator (context : Context) (function : ValueRef) (block : BlockRef)
    (code : Instruction) : ValueId × Context :=
  let (type, context) := context.voidType
  context.appendInstruction function block type.index code ""

/-! ### Typing rules -/

def operandType (context : Context) (value : ValueId) : Except Fault TypeRef := do
  let entry ← context.resolveValue value
  return entry.type

def integerOperand (context : Context) (value : ValueId) : Except Fault TypeRef := do
  let type ← context.operandType value
  let shape ← context.resolveType (context.typeId type)
  if shape.isInteger then return type
  else throw (.mismatch .integer (context.typeExpectation type))

def requireCondition (context : Context) (value : ValueId) : Except Fault Unit := do
  let type ← context.operandType value
  let shape ← context.resolveType (context.typeId type)
  if shape = .integer 1 then return ()
  else throw (.mismatch .condition (context.typeExpectation type))

def requireSameType (context : Context) (expected found : TypeRef) : Except Fault Unit :=
  if expected = found then .ok ()
  else .error (.mismatch (context.typeExpectation expected) (context.typeExpectation found))

/-- Arguments of the parameters' types, and sized ones behind them. -/
def requireArguments (context : Context) : List TypeRef → List ValueId → Except Fault Unit
  | _, [] => return ()
  | parameter :: parameters, argument :: arguments => do
      let type ← context.operandType argument
      context.requireSameType parameter type
      context.requireArguments parameters arguments
  | [], argument :: arguments => do
      let type ← context.operandType argument
      context.requireSized (context.typeId type)
      context.requireArguments [] arguments

/-- The result, the parameters and the variadic mark of a function's signature. -/
def signatureOf (context : Context) (entry : FunctionEntry) :
    Except Fault (TypeRef × List TypeRef × Bool) := do
  match ← context.resolveType (context.typeId entry.signature) with
  | .function result parameters variadic => return (result, parameters, variadic)
  | _ => throw (.mismatch .signature (context.typeExpectation entry.signature))

/-! ### Instructions -/

def binary (context : Context) (block : BlockId) (operator : BinaryOperator)
    (left right : ValueId) (name : String) : Except Fault (ValueId × Context) := do
  let home ← context.resolveBlock block
  let leftType ← context.integerOperand left
  let rightType ← context.integerOperand right
  context.requireSameType leftType rightType
  return context.appendInstruction home.function block.index leftType
    (.binary operator left.index right.index) name

def compare (context : Context) (settings : Settings) (block : BlockId) (predicate : Predicate)
    (left right : ValueId) (name : String) : Except Fault (ValueId × Context) := do
  let home ← context.resolveBlock block
  let leftType ← context.integerOperand left
  let rightType ← context.integerOperand right
  context.requireSameType leftType rightType
  let (type, context) ← context.integerType settings 1
  return context.appendInstruction home.function block.index type.index
    (.compare predicate left.index right.index) name

def select (context : Context) (block : BlockId) (condition thenValue elseValue : ValueId)
    (name : String) : Except Fault (ValueId × Context) := do
  let home ← context.resolveBlock block
  context.requireCondition condition
  let thenType ← context.operandType thenValue
  let elseType ← context.operandType elseValue
  context.requireSized (context.typeId thenType)
  context.requireSameType thenType elseType
  return context.appendInstruction home.function block.index thenType
    (.select condition.index thenValue.index elseValue.index) name

def call (context : Context) (block : BlockId) (callee : FunctionId) (arguments : List ValueId)
    (name : String) : Except Fault (ValueId × Context) := do
  let home ← context.resolveBlock block
  let _ ← context.resolveValue callee.toValue
  let entry ← context.resolveFunction callee
  let (result, parameters, variadic) ← context.signatureOf entry
  if arguments.length < parameters.length ∨
      (parameters.length < arguments.length ∧ ¬ variadic) then
    throw (.mismatch (.arguments parameters.length) (.arguments arguments.length))
  context.requireArguments parameters arguments
  return context.appendInstruction home.function block.index result
    (.call callee.index (arguments.map (·.index))) name

/-- The value returned fits the function's result: none for void, else one of its type. -/
def requireReturn (context : Context) (result : TypeRef) (value : Option ValueId) :
    Except Fault Unit := do
  let shape ← context.resolveType (context.typeId result)
  match value with
  | some value =>
      let type ← context.operandType value
      if shape.isVoid then throw (.mismatch .noValue (context.typeExpectation type))
      else context.requireSameType result type
  | none =>
      if shape.isVoid then return ()
      else throw (.mismatch (context.typeExpectation result) .noValue)

def ret (context : Context) (block : BlockId) (value : Option ValueId) :
    Except Fault (ValueId × Context) := do
  let home ← context.resolveBlock block
  let entry ← context.resolveFunction (context.functionId home.function)
  let (result, _, _) ← context.signatureOf entry
  context.requireReturn result value
  return context.appendTerminator home.function block.index (.ret (value.map (·.index)))

def branch (context : Context) (block target : BlockId) : Except Fault (ValueId × Context) := do
  let home ← context.resolveBlock block
  let _ ← context.resolveBlock target
  return context.appendTerminator home.function block.index (.branch target.index)

def condBranch (context : Context) (block : BlockId) (condition : ValueId)
    (thenBlock elseBlock : BlockId) : Except Fault (ValueId × Context) := do
  let home ← context.resolveBlock block
  context.requireCondition condition
  let _ ← context.resolveBlock thenBlock
  let _ ← context.resolveBlock elseBlock
  return context.appendTerminator home.function block.index
    (.condBranch condition.index thenBlock.index elseBlock.index)

def unreachable (context : Context) (block : BlockId) : Except Fault (ValueId × Context) := do
  let home ← context.resolveBlock block
  return context.appendTerminator home.function block.index .unreachable

end Context

end TypedIR
