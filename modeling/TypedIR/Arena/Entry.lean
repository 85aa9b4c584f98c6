import TypedIR.Context.Basic
import TypedIR.Map

/-!
Contract: what an arena keeps of a context, entry by entry.

Owns:
- types, values, blocks and the bodies of functions, which refer to each other by
  handles that carry their contexts;
- the contents of a context: the tables, and next to them the stores that are looked
  up by something else: interned structures, bodies by function, functions by name,
  and the order of the functions.

What the stores say of each other is not stored anywhere; every operation keeps each
of them by hand.
-/

namespace TypedIR.Arena

/-! ### Entries -/

inductive TypeKind where
  | void
  | label
  | integer (bits : UInt32)
  | array (element : TypeId) (length : UInt32)
  | struct (fields : List TypeId) (packed : Bool)
  | function (result : TypeId) (parameters : List TypeId) (variadic : Bool)
deriving DecidableEq, Repr

namespace TypeKind

def isInteger : TypeKind → Bool
  | .integer _ => true
  | _ => false

def isSized : TypeKind → Bool
  | .integer _ | .array _ _ | .struct _ _ => true
  | _ => false

def isVoid : TypeKind → Bool
  | .void => true
  | _ => false

/-- The types that a structure is made of. -/
def components : TypeKind → List TypeId
  | .void | .label | .integer _ => []
  | .array element _ => [element]
  | .struct fields _ => fields
  | .function result parameters _ => result :: parameters

end TypeKind

inductive Instruction where
  | binary (operator : BinaryOperator) (left right : ValueId)
  | compare (predicate : Predicate) (left right : ValueId)
  | select (condition thenValue elseValue : ValueId)
  | call (callee : FunctionId) (arguments : List ValueId)
  | ret (value : Option ValueId)
  | branch (target : BlockId)
  | condBranch (condition : ValueId) (thenBlock elseBlock : BlockId)
  | unreachable
deriving DecidableEq, Repr

/-- The handles that an instruction is made of, a callee among them. -/
def Instruction.handles : Instruction → List Handle
  | .binary _ left right | .compare _ left right => [.value left, .value right]
  | .select condition thenValue elseValue =>
      [.value condition, .value thenValue, .value elseValue]
  | .call callee arguments => .function callee :: arguments.map .value
  | .ret value => value.toList.map .value
  | .branch target => [.block target]
  | .condBranch condition thenBlock elseBlock =>
      [.value condition, .block thenBlock, .block elseBlock]
  | .unreachable => []

inductive ValueKind where
  | integer (number : Int64)
  | array (elements : List ValueId)
  | bytes (content : List UInt8)
  | struct (fields : List ValueId)
  | undefined
  | function
  | parameter (function : FunctionId) (position : Nat)
  | instruction (block : BlockId) (code : Instruction)
deriving DecidableEq, Repr

namespace ValueKind

def isConstant : ValueKind → Bool
  | .integer _ | .array _ | .bytes _ | .struct _ | .undefined | .function => true
  | .parameter _ _ | .instruction _ _ => false

def handles : ValueKind → List Handle
  | .integer _ | .bytes _ | .undefined | .function => []
  | .array values | .struct values => values.map .value
  | .parameter owner _ => [.function owner]
  | .instruction block code => .block block :: code.handles

end ValueKind

structure Value where
  type : TypeId
  kind : ValueKind
  name : String
deriving DecidableEq, Repr

def Value.handles (value : Value) : List Handle := .type value.type :: value.kind.handles

structure Block where
  function : FunctionId
  name : String
  instructions : List ValueId
deriving DecidableEq, Repr

def Block.handles (block : Block) : List Handle :=
  .function block.function :: block.instructions.map .value

/-- Body and configuration of a function. -/
structure Body where
  signature : TypeId
  parameters : List ValueId
  blocks : List BlockId
  convention : UInt32
  personality : Option FunctionId
  collector : Option String
  attributes : AttributeTable
  state : VerificationState
deriving DecidableEq

namespace Body

def declared (signature : TypeId) (parameters : List ValueId) (convention : UInt32) : Body where
  signature := signature
  parameters := parameters
  blocks := []
  convention := convention
  personality := none
  collector := none
  attributes := .empty
  state := .unverified

def edited (body : Body) : Body := { body with state := .unverified }

/-- The body without its personality if that is the deleted function, and unverified. -/
def forget (deleted : FunctionId) (body : Body) : Body :=
  { body with
    personality := if body.personality = some deleted then none else body.personality }.edited

def handles (body : Body) : List Handle :=
  .type body.signature :: body.parameters.map .value ++ body.blocks.map .block ++
    body.personality.toList.map .function

end Body

/-! ### Contexts -/

@[ext] structure Contents where
  id : ContextId
  native : NativeHandle
  moduleName : String
  types : Array TypeKind
  /-- The index of each structure in the table of types. -/
  interned : Map TypeKind Nat
  values : Table Value
  blocks : Table Block
  /-- The bodies of the functions, by the indices of these. -/
  bodies : Map Nat Body
  /-- The functions in the order of their declaration. -/
  functions : List FunctionId
  names : Map String FunctionId

namespace Contents

def empty (id : ContextId) (native : NativeHandle) (moduleName : String) : Contents where
  id := id
  native := native
  moduleName := moduleName
  types := #[]
  interned := .empty
  values := .empty
  blocks := .empty
  bodies := .empty
  functions := []
  names := .empty

/-- The index of a structure, which is stored if it is not there yet. -/
def intern (contents : Contents) (kind : TypeKind) : Nat × Contents :=
  match contents.interned.get? kind with
  | some index => (index, contents)
  | none =>
      let index := contents.types.size
      let contents := { contents with types := contents.types.push kind }
      (index, { contents with interned := contents.interned.insert kind index })

def pushValue (contents : Contents) (entry : Value) : ValueId × Contents :=
  (⟨contents.id, contents.values.size⟩, { contents with values := contents.values.push entry })

/-- Pushes values one after the other. -/
def pushValues (contents : Contents) : List Value → List ValueId × Contents
  | [] => ([], contents)
  | entry :: entries =>
      let (value, contents) := contents.pushValue entry
      let (values, contents) := contents.pushValues entries
      (value :: values, contents)

def pushBlock (contents : Contents) (home : Block) : BlockId × Contents :=
  (⟨contents.id, contents.blocks.size⟩, { contents with blocks := contents.blocks.push home })

def releaseValue (contents : Contents) (value : ValueId) : Contents :=
  { contents with values := contents.values.release value.index }

/-- Takes a block out, and releases the instructions that it lists. -/
def releaseBlock (contents : Contents) (block : BlockId) : Contents :=
  match contents.blocks.get? block.index with
  | none => contents
  | some home =>
      let contents := { contents with blocks := contents.blocks.release block.index }
      home.instructions.foldl releaseValue contents

end Contents

end TypedIR.Arena
