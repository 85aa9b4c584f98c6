import TypedIR.Attribute.Json
import TypedIR.Description.Basic
import TypedIR.Json.Reader
import TypedIR.Settings
import TypedIR.Types.Reader

/-!
Contract: module descriptions as JSON documents.

Owns:
- the fields of each part of a description and their defaults;
- the choice among the forms of an operand, the first that fits: a written name,
  an integer with its type, a text; operands are never written as arrays;
- the choice among instructions by their `op`.

Instructions and the attributes of functions are taken into memory as a whole
before they are read, so they have to be sound and not too deeply nested, fields
that nobody asks for included. Elsewhere such fields are passed over unseen.
-/

namespace TypedIR

def TypeTerm.ofJson? (json : Json) : Option TypeTerm := do
  (read (← json.text?)).toOption

def BinaryOperator.ofJson? (json : Json) : Option BinaryOperator := do
  ofWord? (← json.name? .buffered)

def Predicate.ofJson? (json : Json) : Option Predicate := do
  ofWord? (← json.name? .buffered)

namespace Description

/-! ### Operands -/

def Operand.ofReference? (json : Json) : Option Operand :=
  json.text?.map .reference

def Operand.ofInteger? (json : Json) : Option Operand := do
  let fields ← json.objectFields? ["const", "type"]
  let number ← fields.required "const" Json.int64?
  let type ← fields.required "type" TypeTerm.ofJson?
  return .integer number type

def Operand.ofText? (json : Json) : Option Operand := do
  let fields ← json.objectFields? ["string", "null_terminate"]
  let text ← fields.required "string" Json.text?
  let terminated ← fields.withDefault "null_terminate" true Json.bool?
  return .bytes text terminated

def Operand.ofJson? (json : Json) : Option Operand :=
  ofReference? json <|> ofInteger? json <|> ofText? json

/-! ### Instructions -/

namespace Instruction

def nameOf? (fields : Fields) : Option String := fields.withDefault "name" "" Json.text?

def binaryOf? (body : Json) : Option Instruction := do
  let fields ← body.recordFields? ["operator", "lhs", "rhs", "name"] 3
  let operator ← fields.required "operator" BinaryOperator.ofJson?
  let left ← fields.required "lhs" Operand.ofJson?
  let right ← fields.required "rhs" Operand.ofJson?
  return .binary operator left right (← nameOf? fields)

def compareOf? (body : Json) : Option Instruction := do
  let fields ← body.recordFields? ["predicate", "lhs", "rhs", "name"] 3
  let predicate ← fields.required "predicate" Predicate.ofJson?
  let left ← fields.required "lhs" Operand.ofJson?
  let right ← fields.required "rhs" Operand.ofJson?
  return .compare predicate left right (← nameOf? fields)

def selectOf? (body : Json) : Option Instruction := do
  let fields ← body.recordFields? ["condition", "then_value", "else_value", "name"] 3
  let condition ← fields.required "condition" Operand.ofJson?
  let thenValue ← fields.required "then_value" Operand.ofJson?
  let elseValue ← fields.required "else_value" Operand.ofJson?
  return .select condition thenValue elseValue (← nameOf? fields)

def callOf? (body : Json) : Option Instruction := do
  let fields ← body.recordFields? ["callee", "args", "name"] 1
  let callee ← fields.required "callee" Json.text?
  let arguments ← fields.withDefault "args" [] (Json.list? Operand.ofJson?)
  return .call callee arguments (← nameOf? fields)

def retOf? (body : Json) : Option Instruction := do
  let fields ← body.recordFields? ["value"] 0
  return .ret (← fields.nullable "value" Operand.ofJson?)

def branchOf? (body : Json) : Option Instruction := do
  let fields ← body.recordFields? ["target"] 1
  return .branch (← fields.required "target" Json.text?)

def condBranchOf? (body : Json) : Option Instruction := do
  let fields ← body.recordFields? ["condition", "then_block", "else_block"] 3
  let condition ← fields.required "condition" Operand.ofJson?
  let thenBlock ← fields.required "then_block" Json.text?
  let elseBlock ← fields.required "else_block" Json.text?
  return .condBranch condition thenBlock elseBlock

def unreachableOf? (body : Json) : Option Instruction := do
  let _ ← body.recordFields? [] 0
  return .unreachable

def ofVariant? (tag body : Json) : Option Instruction := do
  match ← tag.text? with
  | "binary" => binaryOf? body
  | "icmp" => compareOf? body
  | "select" => selectOf? body
  | "call" => callOf? body
  | "ret" => retOf? body
  | "br" => branchOf? body
  | "cond_br" => condBranchOf? body
  | "unreachable" => unreachableOf? body
  | _ => none

/-- The number of arrays and objects around an instruction in the document of a module. -/
def level : Nat := 6

def ofJson? (json : Json) : Option Instruction := do
  let (tag, body) ← json.variant? "op"
  if json.readable level then ofVariant? tag body else none

end Instruction

/-! ### Parts of functions -/

def Block.ofJson? (json : Json) : Option Block := do
  let fields ← json.recordFields? ["name", "instructions"] 1
  let name ← fields.required "name" Json.text?
  let instructions ← fields.withDefault "instructions" [] (Json.list? Instruction.ofJson?)
  return ⟨name, instructions⟩

def Parameter.ofJson? (json : Json) : Option Parameter := do
  let fields ← json.recordFields? ["name", "type", "align"] 3
  let name ← fields.withDefault "name" "" Json.text?
  let type ← fields.required "type" TypeTerm.ofJson?
  let align ← fields.nullable "align" Json.uint32?
  return ⟨name, type, align⟩

/-- The number of arrays and objects around an attribute's field in the document of a module. -/
def PlacedAttribute.level : Nat := 5

def PlacedAttribute.ofJson? (json : Json) : Option PlacedAttribute := do
  let fields ← json.objectFields? ["index", "type"]
  let site ← fields.required "index" Site.ofJson?
  let rest : Fields := fields.filter fun field => field.1 ≠ "index"
  let form ← rest.required "type" Attribute.Form.ofWordOrPosition?
  if rest.areSingle form.fieldNames && rest.all fun field => field.2.readable level then
    return ⟨site, ← Attribute.ofFields? form rest⟩
  else none

/-- The fields of a function; an array has all up to the personality. -/
def Function.fieldNames : List String :=
  ["name", "returns", "params", "var_arg", "call_convention", "gc", "personality", "attributes",
    "blocks"]

def Function.ofJson? (json : Json) : Option Function := do
  let fields ← json.recordFields? fieldNames 7
  return {
    name := ← fields.required "name" Json.text?
    result := ← fields.required "returns" TypeTerm.ofJson?
    parameters := ← fields.withDefault "params" [] (Json.list? Parameter.ofJson?)
    variadic := ← fields.withDefault "var_arg" false Json.bool?
    convention := ← fields.nullable "call_convention" (CallConvention.ofJson? .direct)
    collector := ← fields.nullable "gc" Json.text?
    personality := ← fields.nullable "personality" Json.text?
    attributes := ← fields.withDefault "attributes" [] (Json.list? PlacedAttribute.ofJson?)
    blocks := ← fields.withDefault "blocks" [] (Json.list? Block.ofJson?) }

namespace Module

def ofJson? (json : Json) : Option Module := do
  let fields ← json.recordFields? ["module", "functions"] 0
  let name ← fields.withDefault "module" "module" Json.text?
  let functions ← fields.withDefault "functions" [] (Json.list? Function.ofJson?)
  return ⟨name, functions⟩

/-- A description from its text. -/
def read? (text : String) : Option Module := do
  ofJson? (← Json.read? text)

end Module

end Description

end TypedIR
