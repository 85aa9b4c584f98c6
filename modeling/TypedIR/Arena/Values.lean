import TypedIR.Arena.Basic
import TypedIR.Context.Constants

/-!
Contract: types and constants of an arena, made in place.

Owns:
- interning, which reads the index of structures and keeps it in step with the table;
- the constructors of types and of constants, with their checks, look-ups and writes
  in the order in which they are made.

A constant that needs a type of its own has it interned before it is stored.
-/

namespace TypedIR.Arena

/-! ### Types -/

def intern (context : ContextId) (kind : TypeKind) : InPlace Arena TypeId := do
  let index ← within context <| .update fun home => home.intern kind
  return ⟨context, index⟩

/-- The type belongs to the context, is live and can be stored. -/
def requireSized (arena : Arena) (context : ContextId) (type : TypeId) : Except Fault Unit := do
  let kind ← arena.typeIn context type
  if kind.isSized then return () else throw (.mismatch .sized (arena.typeExpectation type))

def voidType (context : ContextId) : InPlace Arena TypeId := intern context .void

def labelType (context : ContextId) : InPlace Arena TypeId := intern context .label

def integerType (context : ContextId) (bits : UInt32) : InPlace Arena TypeId := do
  .read fun arena => arena.settings.checkWidth bits
  intern context (.integer bits)

def arrayType (element : TypeId) (length : UInt32) : InPlace Arena TypeId := do
  .read fun arena => arena.requireSized element.context element
  intern element.context (.array element length)

def structType (context : ContextId) (fields : List TypeId) (packed : Bool) :
    InPlace Arena TypeId := do
  .read fun arena => fields.forM (arena.requireSized context)
  intern context (.struct fields packed)

def signatureType (result : TypeId) (parameters : List TypeId) (variadic : Bool) :
    InPlace Arena TypeId := do
  let kind ← .read fun arena => arena.typeIn result.context result
  if kind.isSized || kind.isVoid then do
    .read fun arena => parameters.forM (arena.requireSized result.context)
    intern result.context (.function result parameters variadic)
  else .read fun arena => throw (.mismatch .returnable (arena.typeExpectation result))

/-! ### Constants -/

def pushConstant (context : ContextId) (type : TypeId) (kind : ValueKind) :
    InPlace Arena ValueId :=
  within context <| .update fun home => home.pushValue ⟨type, kind, ""⟩

/-- The number whose upper bits are those of the width's sign bit, by two shifts. -/
def narrowed (bits : UInt32) (number : Int64) : Int64 :=
  if 64 ≤ bits then number
  else
    let shift := Int64.ofNat (64 - bits.toNat)
    (number <<< shift) >>> shift

def integerConstant (type : TypeId) (number : Int64) : InPlace Arena ValueId := do
  match ← .read fun arena => arena.typeKind type with
  | .integer bits => pushConstant type.context type (.integer (narrowed bits number))
  | _ => .read fun arena => throw (.mismatch .integer (arena.typeExpectation type))

/-- The value belongs to the context, is live, and is a constant. -/
def requireConstant (arena : Arena) (context : ContextId) (value : ValueId) :
    Except Fault Value := do
  let entry ← arena.valueIn context value
  if entry.kind.isConstant then return entry else throw (.notConstant value)

def requireConstantOf (arena : Arena) (context : ContextId) (type : TypeId) (value : ValueId) :
    Except Fault Unit := do
  let entry ← arena.requireConstant context value
  if entry.type = type then return ()
  else throw (.mismatch (arena.typeExpectation type) (arena.typeExpectation entry.type))

def arrayConstant (element : TypeId) (values : List ValueId) : InPlace Arena ValueId := do
  let length ← .read fun _ => lengthOf values.length
  let _ ← .read fun arena => arena.typeKind element
  .read fun arena => values.forM (arena.requireConstantOf element.context element)
  let type ← arrayType element length
  pushConstant element.context type (.array values)

def bytesConstant (context : ContextId) (content : List UInt8) (terminated : Bool) :
    InPlace Arena ValueId := do
  let length ← .read fun _ => lengthOf (content.length + if terminated then 1 else 0)
  let byte ← integerType context 8
  let type ← arrayType byte length
  pushConstant context type (.bytes (if terminated then content ++ [0] else content))

def structConstant (context : ContextId) (values : List ValueId) (packed : Bool) :
    InPlace Arena ValueId := do
  let entries ← .read fun arena => values.mapM (arena.requireConstant context)
  let type ← structType context (entries.map fun entry => entry.type) packed
  pushConstant context type (.struct values)

def undefined (type : TypeId) : InPlace Arena ValueId := do
  let kind ← .read fun arena => arena.typeKind type
  if kind.isSized then pushConstant type.context type .undefined
  else .read fun arena => throw (.mismatch .sized (arena.typeExpectation type))

end TypedIR.Arena
