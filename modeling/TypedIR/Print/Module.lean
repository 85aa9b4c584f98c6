import TypedIR.Print.Operand

/-!
Contract: functions and modules as text.

Owns:
- one line for each instruction;
- a function: its head with convention, types, attributes, collector and
  personality, and for a definition its blocks between braces, an empty line
  between two of them;
- a module: two lines with its name, then each function behind an empty line.

Printing reads every entry that a function refers to, and fails only where a
part of the function itself is missing.
-/

namespace TypedIR

namespace Context

/-! ### Instructions -/

def callText (context : Context) (names : LocalNames) (type : TypeRef) (callee : ValueRef)
    (arguments : List ValueRef) : Except Fault String := do
  let arguments ← arguments.mapM (context.typedOperand names)
  let convention := ((context.function? callee).map (·.convention)).getD 0
  let result ← context.requireTypeText type
  return "call " ++ conventionPrefix convention ++ result ++ " " ++ context.symbol callee ++
    "(" ++ Text.joined ", " arguments ++ ")"

/-- An instruction of the given type, without the name of its result. -/
def codeText (context : Context) (names : LocalNames) (type : TypeRef) :
    Instruction → Except Fault String
  | .binary operator left right => do
      let left ← context.typedOperand names left
      let right ← context.operandText names right
      return operator.word ++ " " ++ left ++ ", " ++ right
  | .compare predicate left right => do
      let left ← context.typedOperand names left
      let right ← context.operandText names right
      return "icmp " ++ predicate.word ++ " " ++ left ++ ", " ++ right
  | .select condition thenValue elseValue => do
      let condition ← context.typedOperand names condition
      let thenValue ← context.typedOperand names thenValue
      let elseValue ← context.typedOperand names elseValue
      return "select " ++ condition ++ ", " ++ thenValue ++ ", " ++ elseValue
  | .call callee arguments => context.callText names type callee arguments
  | .ret (some value) => do
      let value ← context.typedOperand names value
      return "ret " ++ value
  | .ret none => return "ret void"
  | .branch target => return "br label " ++ context.targetText names target
  | .condBranch condition thenBlock elseBlock => do
      let condition ← context.typedOperand names condition
      return "br " ++ condition ++ ", label " ++ context.targetText names thenBlock ++
        ", label " ++ context.targetText names elseBlock
  | .unreachable => return "unreachable"

/-- An instruction behind the name of its result, if it has one. -/
def instructionText (context : Context) (names : LocalNames) (value : ValueRef) :
    Except Fault String := do
  let entry ← context.resolveValue (context.valueId value)
  match entry.kind with
  | .instruction _ code =>
      let text ← context.codeText names entry.type code
      match names.name? (.value value) with
      | some name => return "%" ++ name ++ " = " ++ text
      | none => return text
  | _ => context.operandText names value

/-! ### Functions -/

/-- The attributes at a site, each behind a blank. -/
def attributeSuffix (entry : FunctionEntry) (site : Site) : String :=
  (entry.attributes.listAt site).foldl (fun text value => text ++ " " ++ value.text) ""

/-- The attributes at a site, each before a blank. -/
def attributePrefix (entry : FunctionEntry) (site : Site) : String :=
  (entry.attributes.listAt site).foldl (fun text value => text ++ value.text ++ " ") ""

/-- A parameter: its type and attributes, and in a definition its name. -/
def parameterText (context : Context) (entry : FunctionEntry) (names : LocalNames)
    (position : Nat) (parameter : ValueRef) : Except Fault String := do
  let value ← context.resolveValue (context.valueId parameter)
  let type ← context.requireTypeText value.type
  let text := type ++ attributeSuffix entry (.parameter position)
  if entry.isDefinition then
    match names.name? (.value parameter) with
    | some name => return text ++ " %" ++ name
    | none => throw (.released (.value (context.valueId parameter)))
  else return text

/-- Parameters in order, the first at the given position. -/
def parameterTexts (context : Context) (entry : FunctionEntry) (names : LocalNames) :
    Nat → List ValueRef → Except Fault (List String)
  | _, [] => return []
  | position, parameter :: parameters => do
      let text ← context.parameterText entry names position parameter
      let texts ← context.parameterTexts entry names (position + 1) parameters
      return text :: texts

/-- The result type and the variadic mark. -/
def resultOf (context : Context) (entry : FunctionEntry) : Except Fault (TypeRef × Bool) := do
  match ← context.resolveType (context.typeId entry.signature) with
  | .function result _ variadic => return (result, variadic)
  | _ => return (entry.signature, false)

/-- The head of a function, up to but without its body. -/
def headText (context : Context) (entry : FunctionEntry) (names : LocalNames) :
    Except Fault String := do
  let (result, variadic) ← context.resultOf entry
  let parameters ← context.parameterTexts entry names 0 entry.parameters
  let parameters := if variadic then parameters ++ ["..."] else parameters
  let result ← context.requireTypeText result
  let keyword := if entry.isDefinition then "define " else "declare "
  let collector := match entry.collector with
    | some strategy => " gc \"" ++ strategy ++ "\""
    | none => ""
  let personality := match entry.personality with
    | some personality => " personality " ++ context.symbol personality
    | none => ""
  return keyword ++ conventionPrefix entry.convention ++ attributePrefix entry .ret ++ result ++
    " " ++ context.symbol entry.self ++ "(" ++ Text.joined ", " parameters ++ ")" ++
    attributeSuffix entry .function ++ collector ++ personality

/-- The line of the label and a line for each instruction. -/
def blockLines (context : Context) (names : LocalNames) (block : BlockRef) :
    Except Fault String := do
  let entry ← context.resolveBlock (context.blockId block)
  match names.name? (.block block) with
  | none => throw (.released (.block (context.blockId block)))
  | some name =>
      let lines ← entry.instructions.mapM (context.instructionText names)
      return lines.foldl (fun text line => text ++ "  " ++ line ++ "\n") (name ++ ":\n")

def functionText (context : Context) (entry : FunctionEntry) : Except Fault String := do
  let names ← context.localNames entry
  let head ← context.headText entry names
  if entry.isDefinition then
    let blocks ← entry.blocks.mapM (context.blockLines names)
    return head ++ " \x7b\n" ++ Text.joined "\n" blocks ++ "\x7d\n"
  else return head ++ "\n"

/-! ### Modules -/

def moduleText (context : Context) : Except Fault String := do
  let functions ← context.functions.mapM context.functionText
  return functions.foldl (fun text function => text ++ "\n" ++ function)
    ("; ModuleID = '" ++ context.moduleName ++ "'\nsource_filename = \"" ++ context.moduleName ++
      "\"\n")

end Context

end TypedIR
