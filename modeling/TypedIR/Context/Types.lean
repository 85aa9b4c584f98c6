import TypedIR.Context.Basic
import TypedIR.Settings

/-!
Contract: the types of a context, each structure stored once.

Owns:
- interning: a structure that is in the table keeps its position, a new one is
  appended;
- the constructors of types with their rules: widths within the settings, sized
  elements, fields and parameters, a sized or void result;
- the components of a type.
-/

namespace TypedIR

def Settings.checkWidth (settings : Settings) (bits : UInt32) : Except Fault Unit :=
  if bits = 0 ∨ settings.maxIntegerWidth < bits then .error (.width bits) else .ok ()

namespace Context

/-- The position of a structure in the table of types. -/
def findType? (context : Context) (shape : TypeShape) : Option TypeRef :=
  context.types.findIdx? fun stored => stored = shape

def intern (context : Context) (shape : TypeShape) : TypeId × Context :=
  match context.findType? shape with
  | some type => (context.typeId type, context)
  | none => (context.typeId context.types.size, { context with types := context.types.push shape })

/-- The type belongs to the context, is live and can be stored. -/
def requireSized (context : Context) (type : TypeId) : Except Fault Unit := do
  let shape ← context.resolveType type
  if shape.isSized then return ()
  else throw (.mismatch .sized (context.typeExpectation type.index))

def voidType (context : Context) : TypeId × Context := context.intern .void

def labelType (context : Context) : TypeId × Context := context.intern .label

def integerType (context : Context) (settings : Settings) (bits : UInt32) :
    Except Fault (TypeId × Context) := do
  settings.checkWidth bits
  return context.intern (.integer bits)

def arrayType (context : Context) (element : TypeId) (length : UInt32) :
    Except Fault (TypeId × Context) := do
  context.requireSized element
  return context.intern (.array element.index length)

def structType (context : Context) (fields : List TypeId) (packed : Bool) :
    Except Fault (TypeId × Context) := do
  fields.forM context.requireSized
  return context.intern (.struct (fields.map (·.index)) packed)

def signatureType (context : Context) (result : TypeId) (parameters : List TypeId)
    (variadic : Bool) : Except Fault (TypeId × Context) := do
  let shape ← context.resolveType result
  if shape.isSized || shape.isVoid then
    parameters.forM context.requireSized
    return context.intern (.function result.index (parameters.map (·.index)) variadic)
  else throw (.mismatch .returnable (context.typeExpectation result.index))

/-! ### Components -/

def elementType (context : Context) (type : TypeId) : Except Fault TypeId := do
  match ← context.resolveType type with
  | .array element _ => return context.typeId element
  | _ => throw (.mismatch .array (context.typeExpectation type.index))

def arrayLength (context : Context) (type : TypeId) : Except Fault UInt32 := do
  match ← context.resolveType type with
  | .array _ length => return length
  | _ => throw (.mismatch .array (context.typeExpectation type.index))

def structFields (context : Context) (type : TypeId) : Except Fault (List TypeId) := do
  match ← context.resolveType type with
  | .struct fields _ => return fields.map context.typeId
  | _ => throw (.mismatch .struct (context.typeExpectation type.index))

/-- The result, the parameters and whether more arguments may follow. -/
def signatureParts (context : Context) (type : TypeId) :
    Except Fault (TypeId × List TypeId × Bool) := do
  match ← context.resolveType type with
  | .function result parameters variadic =>
      return (context.typeId result, parameters.map context.typeId, variadic)
  | _ => throw (.mismatch .signature (context.typeExpectation type.index))

/-- The text of a live type. -/
def formatType (context : Context) (type : TypeId) : Except Fault String := do
  let _ ← context.resolveType type
  match context.typeText? type.index with
  | some text => return text
  | none => throw (.released (.type type))

end Context

end TypedIR
