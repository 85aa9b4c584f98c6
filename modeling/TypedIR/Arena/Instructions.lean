import TypedIR.Arena.Values

/-!
Contract: instructions of an arena, appended in place.

Owns:
- the typing rule of each instruction, checked from its first operand to its last;
- the effect: a value is stored, then listed in its block, then the function of the
  block is marked, each behind a look-up of its own.

A result type that is not there yet is interned behind all checks.
-/

namespace TypedIR.Arena

/-! ### Typing rules -/

def operandType (arena : Arena) (context : ContextId) (value : ValueId) : Except Fault TypeId := do
  let entry ← arena.valueIn context value
  return entry.type

def integerOperand (arena : Arena) (context : ContextId) (value : ValueId) :
    Except Fault TypeId := do
  let type ← arena.operandType context value
  let kind ← arena.typeKind type
  if kind.isInteger then return type else throw (.mismatch .integer (arena.typeExpectation type))

def requireCondition (arena : Arena) (context : ContextId) (value : ValueId) :
    Except Fault Unit := do
  let type ← arena.operandType context value
  let kind ← arena.typeKind type
  if kind = .integer 1 then return ()
  else throw (.mismatch .condition (arena.typeExpectation type))

def requireSameType (arena : Arena) (expected found : TypeId) : Except Fault Unit :=
  if expected = found then .ok ()
  else .error (.mismatch (arena.typeExpectation expected) (arena.typeExpectation found))

/-- The type itself can be stored, in whatever context it is. -/
def requireStorable (arena : Arena) (type : TypeId) : Except Fault Unit := do
  let kind ← arena.typeKind type
  if kind.isSized then return () else throw (.mismatch .sized (arena.typeExpectation type))

/-- Arguments of the parameters' types, and sized ones behind them. -/
def requireArguments (arena : Arena) (context : ContextId) :
    List TypeId → List ValueId → Except Fault Unit
  | _, [] => return ()
  | parameter :: parameters, argument :: arguments => do
      let type ← arena.operandType context argument
      arena.requireSameType parameter type
      arena.requireArguments context parameters arguments
  | [], argument :: arguments => do
      let type ← arena.operandType context argument
      arena.requireStorable type
      arena.requireArguments context [] arguments

def requireBlock (arena : Arena) (context : ContextId) (target : BlockId) : Except Fault Unit :=
  if target.context ≠ context then .error (.foreignValue (.block target) context)
  else do
    let _ ← arena.block target
    return ()

/-- The result, the parameters and the variadic mark of a function's signature. -/
def signatureOf (arena : Arena) (function : FunctionId) :
    Except Fault (TypeId × List TypeId × Bool) := do
  let body ← arena.body function
  match ← arena.typeKind body.signature with
  | .function result parameters variadic => return (result, parameters, variadic)
  | _ => throw (.mismatch .signature (arena.typeExpectation body.signature))

/-! ### Appending -/

def append (block : BlockId) (type : TypeId) (code : Instruction) (name : String) :
    InPlace Arena ValueId := do
  let home ← .read fun arena => arena.block block
  let value ← within block.context <| .update fun contents =>
    contents.pushValue ⟨type, .instruction block code, name⟩
  alterBlock block fun home => { home with instructions := home.instructions ++ [value] }
  invalidate home.function
  return value

/-- Appends an instruction of type void, without a name. -/
def appendTerminator (block : BlockId) (code : Instruction) : InPlace Arena ValueId := do
  let type ← voidType block.context
  append block type code ""

/-! ### Instructions -/

def binary (block : BlockId) (operator : BinaryOperator) (left right : ValueId) (name : String) :
    InPlace Arena ValueId := do
  let _ ← .read fun arena => arena.block block
  let leftType ← .read fun arena => arena.integerOperand block.context left
  let rightType ← .read fun arena => arena.integerOperand block.context right
  .read fun arena => arena.requireSameType leftType rightType
  append block leftType (.binary operator left right) name

def compare (block : BlockId) (predicate : Predicate) (left right : ValueId) (name : String) :
    InPlace Arena ValueId := do
  let _ ← .read fun arena => arena.block block
  let leftType ← .read fun arena => arena.integerOperand block.context left
  let rightType ← .read fun arena => arena.integerOperand block.context right
  .read fun arena => arena.requireSameType leftType rightType
  let type ← integerType block.context 1
  append block type (.compare predicate left right) name

def select (block : BlockId) (condition thenValue elseValue : ValueId) (name : String) :
    InPlace Arena ValueId := do
  let _ ← .read fun arena => arena.block block
  .read fun arena => arena.requireCondition block.context condition
  let thenType ← .read fun arena => arena.operandType block.context thenValue
  let elseType ← .read fun arena => arena.operandType block.context elseValue
  .read fun arena => arena.requireStorable thenType
  .read fun arena => arena.requireSameType thenType elseType
  append block thenType (.select condition thenValue elseValue) name

def call (block : BlockId) (callee : FunctionId) (arguments : List ValueId) (name : String) :
    InPlace Arena ValueId := do
  let _ ← .read fun arena => arena.block block
  let _ ← .read fun arena => arena.valueIn block.context callee.toValue
  let (result, parameters, variadic) ← .read fun arena => arena.signatureOf callee
  if arguments.length < parameters.length ∨
      (parameters.length < arguments.length ∧ ¬ variadic) then
    .refuse (.mismatch (.arguments parameters.length) (.arguments arguments.length))
  else do
    .read fun arena => arena.requireArguments block.context parameters arguments
    append block result (.call callee arguments) name

/-- The value returned fits the function's result: none for void, else one of its type. -/
def requireReturn (arena : Arena) (context : ContextId) (result : TypeId)
    (value : Option ValueId) : Except Fault Unit := do
  let kind ← arena.typeKind result
  match value with
  | some value =>
      let type ← arena.operandType context value
      if kind.isVoid then throw (.mismatch .noValue (arena.typeExpectation type))
      else arena.requireSameType result type
  | none =>
      if kind.isVoid then return ()
      else throw (.mismatch (arena.typeExpectation result) .noValue)

def ret (block : BlockId) (value : Option ValueId) : InPlace Arena ValueId := do
  let home ← .read fun arena => arena.block block
  let (result, _, _) ← .read fun arena => arena.signatureOf home.function
  .read fun arena => arena.requireReturn block.context result value
  appendTerminator block (.ret value)

def branch (block target : BlockId) : InPlace Arena ValueId := do
  let _ ← .read fun arena => arena.block block
  .read fun arena => arena.requireBlock block.context target
  appendTerminator block (.branch target)

def condBranch (block : BlockId) (condition : ValueId) (thenBlock elseBlock : BlockId) :
    InPlace Arena ValueId := do
  let _ ← .read fun arena => arena.block block
  .read fun arena => arena.requireCondition block.context condition
  .read fun arena => arena.requireBlock block.context thenBlock
  .read fun arena => arena.requireBlock block.context elseBlock
  appendTerminator block (.condBranch condition thenBlock elseBlock)

def unreachable (block : BlockId) : InPlace Arena ValueId := do
  let _ ← .read fun arena => arena.block block
  appendTerminator block .unreachable

end TypedIR.Arena
