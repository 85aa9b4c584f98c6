import TypedIR.Context.Attributes
import TypedIR.Proofs.Context.Views

/-!
Contract: well-formed functions, without reference to any check.

Owns:
- points in the code of a function, the steps between them, and walks from the
  first instruction of a function;
- the rules of a well-formed function: its attachments, its blocks one by one, and
  that on every walk an instruction comes before its uses.

Blocks that no walk reaches are free of the last rule.
-/

namespace TypedIR

/-- A point in the code: before the instruction at an offset of a block. -/
structure Point where
  block : BlockRef
  offset : Nat
deriving DecidableEq, Repr

namespace Context

variable (context : Context)

def instructionAt? (point : Point) : Option ValueRef :=
  (context.block? point.block).bind fun home => home.instructions[point.offset]?

/-- From an instruction to the one behind it, and from the last one of a block to the first one
of each successor. -/
inductive Step : Point → Point → Prop where
  | next {block : BlockRef} {offset : Nat} {value : ValueRef}
      (behind : context.instructionAt? ⟨block, offset + 1⟩ = some value) :
      Step ⟨block, offset⟩ ⟨block, offset + 1⟩
  | jump {block target : BlockRef} {offset : Nat} {value : ValueRef} {code : Instruction}
      (here : context.instructionAt? ⟨block, offset⟩ = some value)
      (last : context.instructionAt? ⟨block, offset + 1⟩ = none)
      (isCode : context.instruction? value = some code) (successor : target ∈ code.successors) :
      Step ⟨block, offset⟩ ⟨target, 0⟩

/-- A walk from the first instruction of the first block of a function to a point, with the
instructions that it has passed. -/
inductive Walk (entry : FunctionEntry) : List ValueRef → Point → Prop where
  | start {block : BlockRef} (first : entry.blocks.head? = some block) : Walk entry [] ⟨block, 0⟩
  | step {visited : List ValueRef} {point next : Point} {value : ValueRef}
      (walk : Walk entry visited point) (here : context.instructionAt? point = some value)
      (step : context.Step point next) : Walk entry (visited ++ [value]) next

/-- The operand is live, and it is a constant or belongs to the function. -/
def Usable (entry : FunctionEntry) (operand : ValueRef) : Prop :=
  ∃ type kind, context.Holds operand type kind ∧
    (kind.isConstant = true ∨ (∃ position, kind = .parameter entry.self position) ∨
      ∃ block ∈ entry.blocks, ∃ code, kind = .instruction block code)

/-- The rules of one instruction, given whether it is the last of its block. -/
structure InstructionFits (entry : FunctionEntry) (isLast : Bool) (code : Instruction) : Prop where
  terminator : code.isTerminator = isLast
  callee : ∀ callee, code.callee? = some callee → context.IsFunction callee
  operands : ∀ operand ∈ code.operands, context.Usable entry operand
  /-- Targets are blocks of the function, but never the first one. -/
  targets : ∀ target ∈ code.successors,
    target ∈ entry.blocks ∧ entry.blocks.head? ≠ some target

/-- A block is not empty, and its last instruction and no other one is a terminator. -/
def BlockFits (entry : FunctionEntry) (block : BlockRef) : Prop :=
  ∃ home, context.block? block = some home ∧ home.instructions ≠ [] ∧
    ∀ (offset : Nat) value, home.instructions[offset]? = some value →
      ∃ code, context.instruction? value = some code ∧
        context.InstructionFits entry (offset + 1 == home.instructions.length) code

/-- Enumerated attributes stand where their kind may, and alignments are powers of two. -/
def AttributeFits (attached : AttributeEntry) : Prop :=
  ∀ kind number, attached.value = .enumerated kind number →
    kind.isValidAt attached.site = true ∧
      (kind.isAlignment = true → ∃ exponent, number.toNat = Nat.pow 2 exponent)

structure WellFormed (entry : FunctionEntry) : Prop where
  attributes : ∀ attached ∈ entry.attributes.entries, AttributeFits attached
  personality : ∀ personality, entry.personality = some personality →
    context.IsFunction personality
  blocks : ∀ block ∈ entry.blocks, context.BlockFits entry block
  /-- Whatever way leads to a use, the used instruction was passed on it. -/
  dominance : ∀ visited point value code operand, context.Walk entry visited point →
    context.instructionAt? point = some value → context.instruction? value = some code →
    operand ∈ code.operands → (context.instruction? operand).isSome → operand ∈ visited

end Context

end TypedIR
