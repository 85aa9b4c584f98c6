import TypedIR.Attribute.Basic
import TypedIR.Convention
import TypedIR.Instruction
import TypedIR.Types.Tree

/-!
Contract: modules as a client describes them, before any context holds them.

Owns:
- the parts of a description: functions with parameters, placed attributes and
  blocks of instructions;
- operands, which refer to a local or a function by its written name, or write a
  constant in place.

Does not own: scopes and typing, which decide whether a description can be built.
-/

namespace TypedIR.Description

inductive Operand where
  /-- A written name: `%` before a local, `@` before a function. -/
  | reference (text : String)
  | integer (number : Int64) (type : TypeTerm)
  /-- The bytes of a text, and a zero byte behind them when `terminated`. -/
  | bytes (text : String) (terminated : Bool)
deriving Repr

/-- An instruction; an empty name makes its result anonymous. -/
inductive Instruction where
  | binary (operator : BinaryOperator) (left right : Operand) (name : String)
  | compare (predicate : Predicate) (left right : Operand) (name : String)
  | select (condition thenValue elseValue : Operand) (name : String)
  | call (callee : String) (arguments : List Operand) (name : String)
  | ret (value : Option Operand)
  | branch (target : String)
  | condBranch (condition : Operand) (thenBlock elseBlock : String)
  | unreachable
deriving Repr

structure Block where
  name : String
  instructions : List Instruction
deriving Repr

structure Parameter where
  /-- Empty for an anonymous parameter. -/
  name : String
  type : TypeTerm
  align : Option UInt32
deriving Repr

structure PlacedAttribute where
  site : Site
  value : Attribute
deriving DecidableEq, Repr

structure Function where
  name : String
  result : TypeTerm
  parameters : List Parameter
  variadic : Bool
  convention : Option CallConvention
  collector : Option String
  /-- The written name of a function, with or without `@` before it. -/
  personality : Option String
  attributes : List PlacedAttribute
  /-- A function without blocks is a declaration. -/
  blocks : List Block
deriving Repr

structure Module where
  name : String
  functions : List Function
deriving Repr

/-- The name that an instruction gives its result, if it has a result to name. -/
def Instruction.resultName? : Instruction → Option String
  | .binary _ _ _ name | .compare _ _ _ name | .select _ _ _ name | .call _ _ name =>
      if name = "" then none else some name
  | .ret _ | .branch _ | .condBranch _ _ _ | .unreachable => none

end TypedIR.Description
