import TypedIR.Check.Finding
import TypedIR.Context.Attributes
import TypedIR.Flow.Dominators

/-!
Contract: the structural check of one function.

Owns:
- the checks in the order of their findings: attributes, personality, then for a
  definition the blocks one by one, the blocks that no path reaches, and
  dominance;
- the flow graph of a function, whose edges are those of the last instruction of
  each block to blocks of the function other than the entry.

Uses in blocks that no path reaches are exempt from dominance. The check changes
nothing.
-/

namespace TypedIR

namespace Context

/-! ### Attachments -/

def attributeFindings (entry : AttributeEntry) : List Finding :=
  match entry.value with
  | .enumerated kind number =>
      (if kind.isValidAt entry.site then []
        else [⟨.misplacedAttribute kind entry.site, .function⟩]) ++
      (if kind.isAlignment && !isPowerOfTwo number.toNat then
        [⟨.unevenAlignment entry.value, .function⟩] else [])
  | .string _ _ => []

def personalityFindings (context : Context) (entry : FunctionEntry) : List Finding :=
  match entry.personality with
  | some personality =>
      if (context.function? personality).isSome then []
      else [⟨.releasedPersonality (context.functionId personality), .function⟩]
  | none => []

/-! ### Blocks -/

/-- The function that a value belongs to, for parameters and instructions. -/
def owner? (context : Context) (value : Value) : Option ValueRef :=
  match value.kind with
  | .parameter function _ => some function
  | .instruction block _ => (context.block? block).map (·.function)
  | _ => none

def operandViolations (context : Context) (entry : FunctionEntry) (opcode : String)
    (operand : ValueRef) : List Violation :=
  match context.value? operand with
  | none => [.releasedOperand (context.valueId operand) opcode]
  | some value =>
      match context.owner? value with
      | some owner =>
          if owner = entry.self then []
          else [.foreignOperand (context.valueId operand) opcode]
      | none => []

def targetViolations (context : Context) (entry : FunctionEntry) (target : BlockRef) :
    List Violation :=
  match entry.blocks.idxOf? target with
  | none => [.foreignTarget (context.blockId target)]
  | some 0 => [.entryTarget]
  | some _ => []

def calleeViolations (context : Context) (code : Instruction) : List Violation :=
  match code.callee? with
  | some callee =>
      if (context.function? callee).isSome then []
      else [.releasedCallee (context.functionId callee)]
  | none => []

/-- What is wrong with one instruction, given whether it is the last of its block. -/
def instructionViolations (context : Context) (entry : FunctionEntry) (isLast : Bool)
    (value : ValueRef) : List Violation :=
  match context.instruction? value with
  | none => [.releasedInstruction (context.valueId value)]
  | some code =>
      (if code.isTerminator && !isLast then [.innerTerminator code.opcode] else []) ++
      (if isLast && !code.isTerminator then [.missingTerminator code.opcode] else []) ++
      context.calleeViolations code ++
      code.operands.flatMap (context.operandViolations entry code.opcode) ++
      code.successors.flatMap (context.targetViolations entry)

/-- The violations of instructions in order; the last one has none behind it. -/
def sequenceViolations (context : Context) (entry : FunctionEntry) :
    List ValueRef → List Violation
  | [] => []
  | value :: rest =>
      context.instructionViolations entry rest.isEmpty value ++
        context.sequenceViolations entry rest

def blockViolations (context : Context) (entry : FunctionEntry) (block : BlockRef) :
    List Violation :=
  match context.block? block with
  | none => [.releasedBlock (context.blockId block)]
  | some ⟨_, _, []⟩ => [.emptyBlock]
  | some ⟨_, _, instructions⟩ => context.sequenceViolations entry instructions

def blockFindings (context : Context) (entry : FunctionEntry) (block : BlockRef) :
    List Finding :=
  (context.blockViolations entry block).map fun violation => ⟨violation, .block block⟩

/-! ### Flow -/

/-- The targets of a block's last instruction, by their positions in the function. -/
def blockEdges (context : Context) (entry : FunctionEntry) (block : BlockRef) : List Nat :=
  match (context.block? block).bind fun block => block.instructions.getLast? with
  | none => []
  | some last =>
      match context.instruction? last with
      | none => []
      | some code => (code.successors.filterMap entry.blocks.idxOf?).filter fun target => target ≠ 0

def flowGraph (context : Context) (entry : FunctionEntry) : Flow.Graph :=
  .ofLists (entry.blocks.map (context.blockEdges entry)).toArray

def unreachableFindings (entry : FunctionEntry) (order : List Nat) : List Finding :=
  ((List.range entry.blocks.length).filter fun position => position ∉ order).filterMap
    fun position => (entry.blocks[position]?).map fun block => ⟨.unreachableBlock, .block block⟩

/-! ### Dominance -/

/-- The block that an instruction stands in, for a value that is one. -/
def definingBlock? (context : Context) (value : ValueRef) : Option BlockRef :=
  match context.value? value with
  | some ⟨_, .instruction block _, _⟩ => some block
  | _ => none

/-- Uses of one operand, given the instructions before the use in its block. -/
def useFindings (context : Context) (entry : FunctionEntry) (parents : Flow.Parents)
    (position : Nat) (block : BlockRef) (earlier : List ValueRef) (opcode : String)
    (operand : ValueRef) : List Finding :=
  match context.definingBlock? operand with
  | none => []
  | some home =>
      match entry.blocks.idxOf? home with
      | none => []
      | some definition =>
          let dominated :=
            if definition = position then decide (operand ∈ earlier)
            else parents.dominates definition position
          if dominated then []
          else [⟨.undominatedUse (context.valueId operand) opcode (.block home), .block block⟩]

/-- Uses in a run of instructions, given those before it in the block. -/
def sequenceUseFindings (context : Context) (entry : FunctionEntry) (parents : Flow.Parents)
    (position : Nat) (block : BlockRef) (earlier : List ValueRef) :
    List ValueRef → List Finding
  | [] => []
  | value :: rest =>
      (match context.instruction? value with
        | none => []
        | some code =>
            code.operands.flatMap
              (context.useFindings entry parents position block earlier code.opcode)) ++
        context.sequenceUseFindings entry parents position block (earlier ++ [value]) rest

def dominanceFindings (context : Context) (entry : FunctionEntry) (parents : Flow.Parents)
    (position : Nat) : List Finding :=
  match entry.blocks[position]? with
  | none => []
  | some block =>
      match context.block? block with
      | none => []
      | some ⟨_, _, instructions⟩ =>
          context.sequenceUseFindings entry parents position block [] instructions

/-! ### The whole check -/

def bodyFindings (context : Context) (reportUnreachable : Bool) (entry : FunctionEntry) :
    List Finding :=
  let graph := context.flowGraph entry
  let order := graph.reversePostorder
  let parents := graph.dominators
  entry.blocks.flatMap (context.blockFindings entry) ++
    (if reportUnreachable then unreachableFindings entry order else []) ++
    order.flatMap (context.dominanceFindings entry parents)

def findings (context : Context) (reportUnreachable : Bool) (entry : FunctionEntry) :
    List Finding :=
  entry.attributes.entries.flatMap attributeFindings ++
    context.personalityFindings entry ++
    (if entry.isDefinition then context.bodyFindings reportUnreachable entry else [])

def report (context : Context) (reportUnreachable : Bool) (entry : FunctionEntry) : Report :=
  ⟨(context.findings reportUnreachable entry).map (context.diagnostic entry)⟩

end Context

end TypedIR
