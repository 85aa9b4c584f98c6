import TypedIR.Print.Names
import TypedIR.Text.ByteEscape

/-!
Contract: values as operands of printed code.

Owns:
- locals of the function by their names, others by a mark that cannot be a name;
- constants: numbers in decimal, one-bit integers as `true` and `false`, strings
  of bytes escaped, composites with the types of their parts;
- the mark of a released value.

A constant is printed on a budget of its own position plus one: its parts stand
before it in the table.
-/

namespace TypedIR

def releasedMark : String := "<released>"

namespace Context

def integerText (context : Context) (type : TypeRef) (number : Int64) : Except Fault String := do
  let shape ← context.resolveType (context.typeId type)
  return if shape = .integer 1 then (if number = 0 then "false" else "true")
    else toString number.toInt

/-- The name of a local that belongs to another function. -/
def foreignLocalText (context : Context) (value : ValueRef) (name : String) : String :=
  if name = "" then "%<" ++ (context.valueId value).text ++ ">" else "%" ++ name

/-- A struct constant is packed as its type is. -/
def isPacked (context : Context) (type : TypeRef) : Except Fault Bool := do
  match ← context.resolveType (context.typeId type) with
  | .struct _ packed => return packed
  | _ => return false

def operandWithin (context : Context) (names : LocalNames) : Nat → ValueRef → Except Fault String
  | 0, value => throw (.released (.value (context.valueId value)))
  | budget + 1, value =>
      match names.name? (.value value) with
      | some name => return "%" ++ name
      | none =>
      match context.value? value with
      | none => return releasedMark
      | some entry =>
          let typed (part : ValueRef) : Except Fault String := do
            match context.value? part with
            | none => return releasedMark
            | some partEntry =>
                let type ← context.requireTypeText partEntry.type
                let text ← context.operandWithin names budget part
                return type ++ " " ++ text
          match entry.kind with
          | .integer number => context.integerText entry.type number
          | .array elements => do
              let parts ← elements.mapM typed
              return "[" ++ Text.joined ", " parts ++ "]"
          | .bytes content => return "c\"" ++ String.ofList (Text.escapeBytes content) ++ "\""
          | .struct fields => do
              let parts ← fields.mapM typed
              let packed ← context.isPacked entry.type
              return TypeTree.structText packed parts
          | .undefined => return "undef"
          | .function => return context.symbol value
          | .parameter _ _ => return context.foreignLocalText value entry.name
          | .instruction _ _ => return context.foreignLocalText value entry.name

def operandText (context : Context) (names : LocalNames) (value : ValueRef) :
    Except Fault String :=
  context.operandWithin names (value + 1) value

/-- An operand behind its type. -/
def typedOperand (context : Context) (names : LocalNames) (value : ValueRef) :
    Except Fault String :=
  match context.value? value with
  | none => return releasedMark
  | some entry => do
      let type ← context.requireTypeText entry.type
      let text ← context.operandText names value
      return type ++ " " ++ text

/-- A branch target: the name of a block of the function, or a mark for any other block. -/
def targetText (context : Context) (names : LocalNames) (block : BlockRef) : String :=
  match names.name? (.block block) with
  | some name => "%" ++ name
  | none => "%<" ++ (context.blockId block).text ++ ">"

end Context

end TypedIR
