import TypedIR.Entry
import TypedIR.Fault
import TypedIR.Table
import TypedIR.Types.Tree

/-!
Contract: one context, the tables of a module, and the resolution of handles.

Owns:
- the tables of types, values, blocks and functions;
- look-up by position, and the expansion of a type into its tree;
- resolution of a handle, which refuses handles of other contexts first and
  released entries next.

Does not own: whether the context itself is live.

A type is expanded on a budget of its own position plus one: its components
stand before it in the table.
-/

namespace TypedIR

/-- A handle that an engine gave out for a context. -/
abbrev NativeHandle := Nat

structure Context where
  id : ContextId
  native : NativeHandle
  moduleName : String
  types : Array TypeShape
  values : Table Value
  blocks : Table Block
  /-- The functions of the module in the order of their declaration. -/
  functions : List FunctionEntry
deriving DecidableEq

namespace Context

def empty (id : ContextId) (native : NativeHandle) (moduleName : String) : Context where
  id := id
  native := native
  moduleName := moduleName
  types := #[]
  values := .empty
  blocks := .empty
  functions := []

/-! ### Handles of entries -/

def typeId (context : Context) (type : TypeRef) : TypeId := ⟨context.id, type⟩

def valueId (context : Context) (value : ValueRef) : ValueId := ⟨context.id, value⟩

def functionId (context : Context) (function : ValueRef) : FunctionId := ⟨context.id, function⟩

def blockId (context : Context) (block : BlockRef) : BlockId := ⟨context.id, block⟩

/-! ### Look-up by position -/

def shape? (context : Context) (type : TypeRef) : Option TypeShape := context.types[type]?

def value? (context : Context) (value : ValueRef) : Option Value := context.values.get? value

def block? (context : Context) (block : BlockRef) : Option Block := context.blocks.get? block

def function? (context : Context) (function : ValueRef) : Option FunctionEntry :=
  context.functions.find? fun entry => entry.self = function

/-- The code of a value that is an instruction. -/
def instruction? (context : Context) (value : ValueRef) : Option Instruction :=
  match context.value? value with
  | some ⟨_, .instruction _ code, _⟩ => some code
  | _ => none

/-- The name of a function, if it is live. -/
def functionName? (context : Context) (function : ValueRef) : Option String := do
  let entry ← context.function? function
  let value ← context.value? entry.self
  return value.name

/-- The live function of a name. No function is found under the empty name. -/
def functionNamed? (context : Context) (name : String) : Option ValueRef :=
  if name = "" then none
  else
    (context.functions.find? fun entry =>
      (context.value? entry.self).map (·.name) = some name).map (·.self)

/-! ### Types in full -/

def treeWithin (types : Array TypeShape) : Nat → TypeRef → Option TypeTree
  | 0, _ => none
  | budget + 1, type =>
      match types[type]? with
      | none => none
      | some .void => some .void
      | some .label => some .label
      | some (.integer bits) => some (.integer bits)
      | some (.array element length) =>
          (treeWithin types budget element).map (.array · length)
      | some (.struct fields packed) =>
          (fields.mapM (treeWithin types budget)).map (.struct · packed)
      | some (.function result parameters variadic) => do
          let result ← treeWithin types budget result
          let parameters ← parameters.mapM (treeWithin types budget)
          return .function result parameters variadic

def tree? (context : Context) (type : TypeRef) : Option TypeTree :=
  treeWithin context.types (type + 1) type

def typeText? (context : Context) (type : TypeRef) : Option String :=
  (context.tree? type).map TypeTree.text

/-- The text of a type in messages, which is there even for a type that is not. -/
def describeType (context : Context) (type : TypeRef) : String :=
  (context.typeText? type).getD ("<released " ++ (context.typeId type).text ++ ">")

/-- What a typing rule met, or wanted, when it is one type of the context. -/
def typeExpectation (context : Context) (type : TypeRef) : Expectation :=
  .type (context.describeType type)

/-! ### Resolution of handles -/

def resolveType (context : Context) (type : TypeId) : Except Fault TypeShape :=
  if type.context ≠ context.id then .error (.foreignType type context.id)
  else
    match context.shape? type.index with
    | none => .error (.released (.type type))
    | some shape => .ok shape

def resolveValue (context : Context) (value : ValueId) : Except Fault Value :=
  if value.context ≠ context.id then .error (.foreignValue (.value value) context.id)
  else
    match context.value? value.index with
    | none => .error (.released (.value value))
    | some entry => .ok entry

def resolveFunction (context : Context) (function : FunctionId) : Except Fault FunctionEntry :=
  if function.context ≠ context.id then .error (.foreignValue (.function function) context.id)
  else
    match context.function? function.index with
    | none => .error (.released (.function function))
    | some entry => .ok entry

def resolveBlock (context : Context) (block : BlockId) : Except Fault Block :=
  if block.context ≠ context.id then .error (.foreignValue (.block block) context.id)
  else
    match context.block? block.index with
    | none => .error (.released (.block block))
    | some entry => .ok entry

/-! ### Changes of single entries -/

/-- A fresh value at the end of the table. -/
def pushValue (context : Context) (value : Value) : ValueId × Context :=
  (context.valueId context.values.size, { context with values := context.values.push value })

def updateFunction (context : Context) (function : ValueRef)
    (change : FunctionEntry → FunctionEntry) : Context :=
  { context with
    functions := context.functions.map fun entry =>
      if entry.self = function then change entry else entry }

end Context

end TypedIR
