import TypedIR.Context.Attributes
import TypedIR.Print.Module
import TypedIR.Store
import TypedIR.Summary

/-!
Contract: the questions that a client can ask of a store, as data.

Owns:
- one query for each question that can fail, with its arguments;
- the context that a query is about, and its answer there.

A query about a released context fails like every other use of it.
-/

namespace TypedIR

inductive Query where
  | owner (handle : Handle)
  | moduleName (context : ContextId)
  | functions (context : ContextId)
  | functionNamed (context : ContextId) (name : String)
  | moduleText (context : ContextId)
  | summary (context : ContextId)
  | typeShape (type : TypeId)
  | elementType (type : TypeId)
  | arrayLength (type : TypeId)
  | structFields (type : TypeId)
  | signatureParts (type : TypeId)
  | typeText (type : TypeId)
  | typeOf (value : ValueId)
  | valueName (value : ValueId)
  | valueKind (value : ValueId)
  | alignment (value : ValueId)
  | functionName (function : FunctionId)
  | signature (function : FunctionId)
  | functionText (function : FunctionId)
  | blocks (function : FunctionId)
  | entryBlock (function : FunctionId)
  | parameterAt (function : FunctionId) (position : Nat)
  | parameterCount (function : FunctionId)
  | parameters (function : FunctionId)
  | convention (function : FunctionId)
  | conventionCode (function : FunctionId)
  | personality (function : FunctionId)
  | hasPersonality (function : FunctionId)
  | collector (function : FunctionId)
  | attributes (function : FunctionId) (site : Site)
  | attributeOf (function : FunctionId) (site : Site) (key : AttributeKey)
  | attributeCount (function : FunctionId) (site : Site)
  | state (function : FunctionId)
  | blockName (block : BlockId)
  | blockParent (block : BlockId)
  | instructions (block : BlockId)
deriving DecidableEq, Repr

/-- What a query finds out. Shapes and kinds refer to entries of the given context. -/
inductive Fact where
  | handle (handle : Handle)
  | maybeHandle (handle : Option Handle)
  | handles (handles : List Handle)
  | text (text : String)
  | count (count : Nat)
  | maybeCount (count : Option Nat)
  | flag (flag : Bool)
  | parts (result : TypeId) (parameters : List TypeId) (variadic : Bool)
  | shape (context : ContextId) (shape : TypeShape)
  | kind (context : ContextId) (kind : ValueKind)
  | convention (convention : CallConvention)
  | attributes (values : List Attribute)
  | maybeAttribute (value : Option Attribute)
  | state (state : VerificationState)
  | summary (summary : ModuleSummary)
deriving DecidableEq, Repr

namespace Query

def home : Query → ContextId
  | .owner handle => handle.tag
  | .moduleName context | .functions context | .functionNamed context _ | .moduleText context
  | .summary context => context
  | .typeShape type | .elementType type | .arrayLength type | .structFields type
  | .signatureParts type | .typeText type => type.context
  | .typeOf value | .valueName value | .valueKind value | .alignment value => value.context
  | .functionName function | .signature function | .functionText function | .blocks function
  | .entryBlock function | .parameterAt function _ | .parameterCount function
  | .parameters function | .convention function | .conventionCode function
  | .personality function | .hasPersonality function | .collector function
  | .attributes function _ | .attributeOf function _ _ | .attributeCount function _
  | .state function => function.context
  | .blockName block | .blockParent block | .instructions block => block.context

/-- The context of a live handle. -/
def ownerIn (context : Context) : Handle → Except Fault ContextId
  | .context _ => return context.id
  | .type type => do
      let _ ← context.resolveType type
      return type.context
  | .value value => do
      let _ ← context.resolveValue value
      return value.context
  | .function function => do
      let _ ← context.resolveFunction function
      return function.context
  | .block block => do
      let _ ← context.resolveBlock block
      return block.context

def conventionOf (entry : FunctionEntry) : Except Fault CallConvention :=
  match CallConvention.ofCode? entry.convention with
  | some named => .ok named
  | none => .error (.unknownCode .callConvention entry.convention)

/-- The answer, within the context that the query is about. -/
def answerIn (context : Context) : Query → Except Fault Fact
  | .owner handle => do return .handle (.context (← ownerIn context handle))
  | .moduleName _ => return .text context.moduleName
  | .functions _ =>
      return .handles (context.functions.map fun entry => .function (context.functionId entry.self))
  | .functionNamed _ name =>
      return .maybeHandle ((context.functionNamed? name).map fun function =>
        .function (context.functionId function))
  | .moduleText _ => do return .text (← context.moduleText)
  | .summary _ => do return .summary (← context.summarize)
  | .typeShape type => do return .shape context.id (← context.resolveType type)
  | .elementType type => do return .handle (.type (← context.elementType type))
  | .arrayLength type => do return .count (← context.arrayLength type).toNat
  | .structFields type => do return .handles ((← context.structFields type).map .type)
  | .signatureParts type => do
      let (result, operands, variadic) ← context.signatureParts type
      return .parts result operands variadic
  | .typeText type => do return .text (← context.formatType type)
  | .typeOf value => do
      let entry ← context.resolveValue value
      return .handle (.type (context.typeId entry.type))
  | .valueName value => do
      let entry ← context.resolveValue value
      return .text entry.name
  | .valueKind value => do
      let entry ← context.resolveValue value
      return .kind context.id entry.kind
  | .alignment value => do
      return .maybeCount ((← context.alignment? value).map UInt32.toNat)
  | .functionName function => do return .text (← context.functionName function)
  | .signature function => do
      let entry ← context.resolveFunction function
      return .handle (.type (context.typeId entry.signature))
  | .functionText function => do
      let entry ← context.resolveFunction function
      return .text (← context.functionText entry)
  | .blocks function => do
      let entry ← context.resolveFunction function
      return .handles (entry.blocks.map fun block => .block (context.blockId block))
  | .entryBlock function => do
      let entry ← context.resolveFunction function
      return .maybeHandle (entry.blocks.head?.map fun block => .block (context.blockId block))
  | .parameterAt function position => do
      return .handle (.value (← context.parameterAt function position))
  | .parameterCount function => do
      let entry ← context.resolveFunction function
      return .count entry.parameters.length
  | .parameters function => do
      let entry ← context.resolveFunction function
      return .handles (entry.parameters.map fun value => .value (context.valueId value))
  | .convention function => do
      let entry ← context.resolveFunction function
      return .convention (← conventionOf entry)
  | .conventionCode function => do
      let entry ← context.resolveFunction function
      return .count entry.convention.toNat
  | .personality function => do return .handle (.function (← context.personality function))
  | .hasPersonality function => do
      let entry ← context.resolveFunction function
      return .flag entry.personality.isSome
  | .collector function => do
      let entry ← context.resolveFunction function
      return .text (entry.collector.getD "")
  | .attributes function site => do return .attributes (← context.attributesAt function site)
  | .attributeOf function site key => do
      return .maybeAttribute (← context.attribute? function site key)
  | .attributeCount function site => do
      return .count (← context.attributesAt function site).length
  | .state function => do
      let entry ← context.resolveFunction function
      return .state entry.state
  | .blockName block => do
      let entry ← context.resolveBlock block
      return .text entry.name
  | .blockParent block => do
      let entry ← context.resolveBlock block
      return .handle (.function (context.functionId entry.function))
  | .instructions block => do
      let entry ← context.resolveBlock block
      return .handles (entry.instructions.map fun value => .value (context.valueId value))

def answer (query : Query) (store : Store) : Except Fault Fact :=
  store.read query.home fun context => query.answerIn context

end Query

/-- The text of a type for messages, which every handle of a type has. -/
def Store.describeType (store : Store) (type : TypeId) : String :=
  match (Query.typeText type).answer store with
  | .ok (.text text) => text
  | _ => "<released " ++ type.text ++ ">"

end TypedIR
