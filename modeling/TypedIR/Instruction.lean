/-!
Contract: instructions over the values and blocks of one context.

Owns:
- the operators and predicates with their names;
- the instructions, their operands, successors and opcodes;
- which of them end a block.

Does not own: typing, which a context decides when an instruction is appended.
-/

namespace TypedIR

/-- The position of a value in its context. -/
abbrev ValueRef := Nat

/-- The position of a block in its context. -/
abbrev BlockRef := Nat

inductive BinaryOperator where
  | add
  | sub
  | mul
  | udiv
  | sdiv
  | urem
  | srem
  | and
  | or
  | xor
  | shl
  | lshr
  | ashr
deriving DecidableEq, Repr

namespace BinaryOperator

def all : List BinaryOperator :=
  [.add, .sub, .mul, .udiv, .sdiv, .urem, .srem, .and, .or, .xor, .shl, .lshr, .ashr]

def word : BinaryOperator → String
  | .add => "add"
  | .sub => "sub"
  | .mul => "mul"
  | .udiv => "udiv"
  | .sdiv => "sdiv"
  | .urem => "urem"
  | .srem => "srem"
  | .and => "and"
  | .or => "or"
  | .xor => "xor"
  | .shl => "shl"
  | .lshr => "lshr"
  | .ashr => "ashr"

def ofWord? (word : String) : Option BinaryOperator :=
  all.find? fun operator => operator.word == word

end BinaryOperator

/-- Comparisons of integers: equality, then unsigned, then signed order. -/
inductive Predicate where
  | eq
  | ne
  | ugt
  | uge
  | ult
  | ule
  | sgt
  | sge
  | slt
  | sle
deriving DecidableEq, Repr

namespace Predicate

def all : List Predicate := [.eq, .ne, .ugt, .uge, .ult, .ule, .sgt, .sge, .slt, .sle]

def word : Predicate → String
  | .eq => "eq"
  | .ne => "ne"
  | .ugt => "ugt"
  | .uge => "uge"
  | .ult => "ult"
  | .ule => "ule"
  | .sgt => "sgt"
  | .sge => "sge"
  | .slt => "slt"
  | .sle => "sle"

def ofWord? (word : String) : Option Predicate :=
  all.find? fun predicate => predicate.word == word

end Predicate

inductive Instruction where
  | binary (operator : BinaryOperator) (left right : ValueRef)
  | compare (predicate : Predicate) (left right : ValueRef)
  | select (condition thenValue elseValue : ValueRef)
  | call (callee : ValueRef) (arguments : List ValueRef)
  | ret (value : Option ValueRef)
  | branch (target : BlockRef)
  | condBranch (condition : ValueRef) (thenBlock elseBlock : BlockRef)
  | unreachable
deriving DecidableEq, Repr

namespace Instruction

/-- The instructions that end a block. -/
def isTerminator : Instruction → Bool
  | .ret _ | .branch _ | .condBranch _ _ _ | .unreachable => true
  | _ => false

/-- The operands in order; the callee of a call is not one of them. -/
def operands : Instruction → List ValueRef
  | .binary _ left right => [left, right]
  | .compare _ left right => [left, right]
  | .select condition thenValue elseValue => [condition, thenValue, elseValue]
  | .call _ arguments => arguments
  | .ret value => value.toList
  | .condBranch condition _ _ => [condition]
  | .branch _ | .unreachable => []

def callee? : Instruction → Option ValueRef
  | .call callee _ => some callee
  | _ => none

def successors : Instruction → List BlockRef
  | .branch target => [target]
  | .condBranch _ thenBlock elseBlock => [thenBlock, elseBlock]
  | _ => []

def opcode : Instruction → String
  | .binary operator _ _ => operator.word
  | .compare _ _ _ => "icmp"
  | .select _ _ _ => "select"
  | .call _ _ => "call"
  | .ret _ => "ret"
  | .branch _ | .condBranch _ _ _ => "br"
  | .unreachable => "unreachable"

end Instruction

end TypedIR
