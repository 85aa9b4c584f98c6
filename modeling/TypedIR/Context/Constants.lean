import TypedIR.Context.Types

/-!
Contract: the constants of a context.

Owns:
- integers, reduced to the width of their type;
- arrays and strings of bytes, whose length has to fit 32 bits;
- structs, whose type is that of their fields;
- undefined values of sized types.

A composite constant is made of constants of its own context, and an array of
constants of exactly its element type. Functions are constants, but of no sized
type, so none stands inside another constant.
-/

namespace TypedIR

/-- The number that a type of the given width stores for a number: below 64 bits the residue
nearest to zero, negative if two are as near, and the number itself from 64 bits on. -/
def truncate (bits : UInt32) (number : Int64) : Int64 :=
  if 64 ≤ bits then number else Int64.ofInt (number.toInt.bmod (Nat.pow 2 bits.toNat))

/-- A count of elements as an array length. -/
def lengthOf (count : Nat) : Except Fault UInt32 :=
  if count < UInt32.size then .ok (UInt32.ofNat count) else .error (.length count)

namespace Context

def pushConstant (context : Context) (type : TypeId) (kind : ValueKind) : ValueId × Context :=
  context.pushValue ⟨type.index, kind, ""⟩

def integerConstant (context : Context) (type : TypeId) (number : Int64) :
    Except Fault (ValueId × Context) := do
  match ← context.resolveType type with
  | .integer bits => return context.pushConstant type (.integer (truncate bits number))
  | _ => throw (.mismatch .integer (context.typeExpectation type.index))

/-- The value belongs to the context, is live, and is a constant. -/
def requireConstant (context : Context) (value : ValueId) : Except Fault Value := do
  let entry ← context.resolveValue value
  if entry.kind.isConstant then return entry else throw (.notConstant value)

def requireConstantOf (context : Context) (type : TypeId) (value : ValueId) :
    Except Fault Unit := do
  let entry ← context.requireConstant value
  if entry.type = type.index then return ()
  else
    throw (.mismatch (context.typeExpectation type.index) (context.typeExpectation entry.type))

def arrayConstant (context : Context) (element : TypeId) (values : List ValueId) :
    Except Fault (ValueId × Context) := do
  let length ← lengthOf values.length
  let _ ← context.resolveType element
  values.forM (context.requireConstantOf element)
  let (type, context) ← context.arrayType element length
  return context.pushConstant type (.array (values.map (·.index)))

/-- Bytes, and a zero byte behind them when `terminated`. -/
def bytesConstant (context : Context) (settings : Settings) (content : List UInt8)
    (terminated : Bool) : Except Fault (ValueId × Context) := do
  let content := if terminated then content ++ [0] else content
  let length ← lengthOf content.length
  let (byte, context) ← context.integerType settings 8
  let (type, context) ← context.arrayType byte length
  return context.pushConstant type (.bytes content)

def structConstant (context : Context) (values : List ValueId) (packed : Bool) :
    Except Fault (ValueId × Context) := do
  let entries ← values.mapM context.requireConstant
  let (type, context) ← context.structType (entries.map fun entry => context.typeId entry.type) packed
  return context.pushConstant type (.struct (values.map (·.index)))

def undefined (context : Context) (type : TypeId) : Except Fault (ValueId × Context) := do
  context.requireSized type
  return context.pushConstant type .undefined

end Context

end TypedIR
