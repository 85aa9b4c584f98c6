import TypedIR.Context.Basic
import TypedIR.Diagnostic

/-!
Contract: what can be wrong with a function, and where.

Owns:
- the violations of structure, each with what it is about;
- their severity: only a block that no path reaches is a mere warning;
- their messages, and the texts of places in a function.

Does not own: looking for violations.
-/

namespace TypedIR

/-- A place in a function that is known from the surroundings. -/
inductive Place where
  | function
  | block (block : BlockRef)
deriving DecidableEq, Repr

inductive Violation where
  | misplacedAttribute (kind : AttributeKind) (site : Site)
  | unevenAlignment (value : Attribute)
  | releasedPersonality (personality : FunctionId)
  | releasedBlock (block : BlockId)
  | emptyBlock
  | releasedInstruction (value : ValueId)
  | innerTerminator (opcode : String)
  | missingTerminator (opcode : String)
  | releasedCallee (callee : FunctionId)
  | releasedOperand (value : ValueId) (opcode : String)
  | foreignOperand (value : ValueId) (opcode : String)
  | entryTarget
  | foreignTarget (target : BlockId)
  | undominatedUse (value : ValueId) (opcode : String) (definedIn : Place)
  | unreachableBlock
deriving DecidableEq, Repr

namespace Violation

def severity : Violation → Severity
  | .unreachableBlock => .warning
  | _ => .error

def message : Violation → String
  | .misplacedAttribute kind site =>
      "attribute '" ++ kind.word ++ "' does not apply to " ++ site.text
  | .unevenAlignment value => "attribute '" ++ value.text ++ "' is not a power of two"
  | .releasedPersonality personality =>
      "personality function " ++ personality.text ++ " has been released"
  | .releasedBlock block => block.text ++ " has been released"
  | .emptyBlock => "block is empty and has no terminator"
  | .releasedInstruction value => "instruction " ++ value.text ++ " has been released"
  | .innerTerminator opcode => "terminator '" ++ opcode ++ "' in the middle of the block"
  | .missingTerminator opcode =>
      "block does not end with a terminator (last instruction is '" ++ opcode ++ "')"
  | .releasedCallee callee => "call to released function " ++ callee.text
  | .releasedOperand value opcode =>
      "operand " ++ value.text ++ " of '" ++ opcode ++ "' has been released"
  | .foreignOperand value opcode =>
      "operand " ++ value.text ++ " of '" ++ opcode ++ "' belongs to another function"
  | .entryTarget => "entry block cannot be a branch target"
  | .foreignTarget target =>
      "branch target " ++ target.text ++ " is not a block of this function"
  | .undominatedUse value opcode _ =>
      "instruction " ++ value.text ++ " does not dominate its use in '" ++ opcode ++ "'"
  | .unreachableBlock => "block is unreachable from the entry block"

/-- The place that a note names. -/
def relatedPlace? : Violation → Option Place
  | .undominatedUse _ _ definedIn => some definedIn
  | _ => none

end Violation

structure Finding where
  violation : Violation
  place : Place
deriving DecidableEq, Repr

def Finding.isError (finding : Finding) : Bool := finding.violation.severity = .error

namespace Context

/-- The function's symbol in messages: its name, or its handle if it has none. -/
def symbolInMessages (context : Context) (entry : FunctionEntry) : String :=
  match context.value? entry.self with
  | some ⟨_, _, name⟩ =>
      if name = "" then "@" ++ (context.functionId entry.self).text else "@" ++ name
  | none => "@" ++ (context.functionId entry.self).text

def blockText (context : Context) (block : BlockRef) : String :=
  match context.block? block with
  | some ⟨_, name, _⟩ => if name = "" then (context.blockId block).text else name
  | none => (context.blockId block).text

def placeText (context : Context) (entry : FunctionEntry) : Place → String
  | .function => context.symbolInMessages entry
  | .block block => context.symbolInMessages entry ++ "/" ++ context.blockText block

def diagnostic (context : Context) (entry : FunctionEntry) (finding : Finding) : Diagnostic where
  severity := finding.violation.severity
  message := finding.violation.message
  location := context.placeText entry finding.place
  notes := (finding.violation.relatedPlace?.map fun place =>
    "defined in " ++ context.placeText entry place).toList

end Context

end TypedIR
