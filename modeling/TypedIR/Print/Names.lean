import TypedIR.Context.Types
import TypedIR.Label

/-!
Contract: the names under which printed code refers to functions and locals.

Owns:
- the symbol of a function;
- one name space for the parameters, blocks and results of a function, filled in
  the order in which they are printed;
- the prefix of a calling convention.
-/

namespace TypedIR

/-- What has a name of its own inside a function. -/
inductive Local where
  | value (value : ValueRef)
  | block (block : BlockRef)
deriving DecidableEq, Repr

/-- Locals with their names, which are printed behind a percent sign. -/
abbrev LocalNames := List (Local × String)

def LocalNames.name? (names : LocalNames) (item : Local) : Option String := names.lookup item

/-- Nothing for the standard convention, the word of a named one, else the code. -/
def conventionPrefix (code : UInt32) : String :=
  match CallConvention.ofCode? code with
  | some .c => ""
  | some convention => convention.word ++ " "
  | none => "cc " ++ toString code.toNat ++ " "

namespace Context

/-- The name of a function, or its position if it has none. -/
def symbol (context : Context) (function : ValueRef) : String :=
  match context.functionName? function with
  | some name => if name = "" then "@" ++ toString function else "@" ++ name
  | none => "@<released>"

def requireTypeText (context : Context) (type : TypeRef) : Except Fault String :=
  context.formatType (context.typeId type)

/-- The instruction with its own name, unless it has no result. -/
def wantedByInstruction (context : Context) (value : ValueRef) :
    Except Fault (List (Local × String)) := do
  let entry ← context.resolveValue (context.valueId value)
  let shape ← context.resolveType (context.typeId entry.type)
  return if shape.isVoid then [] else [(.value value, entry.name)]

def wantedByBlock (context : Context) (block : BlockRef) :
    Except Fault (List (Local × String)) := do
  let entry ← context.resolveBlock (context.blockId block)
  let results ← entry.instructions.mapM context.wantedByInstruction
  return (.block block, entry.name) :: results.flatten

def wantedByParameter (context : Context) (parameter : ValueRef) :
    Except Fault (Local × String) := do
  let entry ← context.resolveValue (context.valueId parameter)
  return (.value parameter, entry.name)

/-- The locals of a function in printing order, with the names they were given. -/
def wantedNames (context : Context) (entry : FunctionEntry) :
    Except Fault (List (Local × String)) := do
  let parameters ← entry.parameters.mapM context.wantedByParameter
  let blocks ← entry.blocks.mapM context.wantedByBlock
  return parameters ++ blocks.flatten

def localNames (context : Context) (entry : FunctionEntry) : Except Fault LocalNames := do
  let wanted ← context.wantedNames entry
  return (wanted.map (·.1)).zip (Label.assign (wanted.map (·.2)))

end Context

end TypedIR
