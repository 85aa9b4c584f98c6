import TypedIR.Context.Functions
import TypedIR.Json.Basic

/-!
Contract: an overview of a module as data.

Owns:
- the parts of a function that the overview shows, its recorded verification
  among them;
- the form of the overview as a JSON document, where an unset collector, an unset
  personality and an empty list of reasons are left out.
-/

namespace TypedIR

structure BlockSummary where
  name : String
  instructions : Nat
deriving DecidableEq, Repr

structure FunctionSummary where
  name : String
  signature : String
  convention : UInt32
  parameters : Nat
  blocks : List BlockSummary
  attributes : List String
  collector : Option String
  personality : Option String
  state : VerificationState
deriving DecidableEq, Repr

structure ModuleSummary where
  name : String
  functions : List FunctionSummary
deriving DecidableEq, Repr

/-- Every function was verified and none of them is invalid. -/
def ModuleSummary.isVerified (summary : ModuleSummary) : Bool :=
  summary.functions.all fun function => function.state = .verified

namespace Context

def summarizeBlock (context : Context) (block : BlockRef) : Except Fault BlockSummary := do
  let entry ← context.resolveBlock (context.blockId block)
  return ⟨entry.name, entry.instructions.length⟩

def summarizeFunction (context : Context) (entry : FunctionEntry) :
    Except Fault FunctionSummary := do
  let blocks ← entry.blocks.mapM context.summarizeBlock
  let personality ← entry.personality.mapM fun personality =>
    context.functionName (context.functionId personality)
  let name ← context.functionName (context.functionId entry.self)
  let signature ← context.formatType (context.typeId entry.signature)
  return {
    name := name
    signature := signature
    convention := entry.convention
    parameters := entry.parameters.length
    blocks := blocks
    attributes := (entry.attributes.listAt .function).map Attribute.text
    collector := entry.collector
    personality := personality
    state := entry.state }

def summarize (context : Context) : Except Fault ModuleSummary := do
  let functions ← context.functions.mapM context.summarizeFunction
  return ⟨context.moduleName, functions⟩

end Context

def BlockSummary.toJson (summary : BlockSummary) : Json :=
  .record [("name", .text summary.name), ("instructions", .natural summary.instructions)]

/-- A field, if there is a value for it. -/
def optionalField (name : String) (value : Option Json) : List (String × Json) :=
  (value.map fun value => (name, value)).toList

def FunctionSummary.toJson (summary : FunctionSummary) : Json :=
  .record (
    [("name", .text summary.name),
      ("signature", .text summary.signature),
      ("call_convention", .natural summary.convention.toNat),
      ("parameters", .natural summary.parameters),
      ("blocks", .array (summary.blocks.map BlockSummary.toJson)),
      ("function_attributes", .array (summary.attributes.map Json.text))] ++
    optionalField "gc" (summary.collector.map Json.text) ++
    optionalField "personality" (summary.personality.map Json.text) ++
    [("state", .text summary.state.word)] ++
    optionalField "reasons"
      (if summary.state.reasons.isEmpty then none
        else some (.array (summary.state.reasons.map Json.text))))

def ModuleSummary.toJson (summary : ModuleSummary) : Json :=
  .record [("module", .text summary.name),
    ("functions", .array (summary.functions.map FunctionSummary.toJson))]

end TypedIR
