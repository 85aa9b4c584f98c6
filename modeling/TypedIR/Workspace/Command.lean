import TypedIR.Workspace.Action

/-!
Contract: the changes that a client can ask of a workspace, as data, and runs of
them.

Owns:
- one edit for each change inside a context, with its arguments;
- one command for each change that involves the engine, and one for edits;
- the effect of both with an answer;
- runs: what a sequence of commands leaves behind, refused ones included.

Does not own: queries, which change nothing.
-/

namespace TypedIR

/-- A change inside one context that needs no engine. -/
inductive Edit where
  | setModuleName (context : ContextId) (name : String)
  | voidType (context : ContextId)
  | labelType (context : ContextId)
  | integerType (context : ContextId) (bits : UInt32)
  | arrayType (element : TypeId) (length : UInt32)
  | structType (context : ContextId) (fields : List TypeId) (packed : Bool)
  | signatureType (result : TypeId) (parameters : List TypeId) (variadic : Bool)
  | integerConstant (type : TypeId) (number : Int64)
  | arrayConstant (element : TypeId) (values : List ValueId)
  | bytesConstant (context : ContextId) (content : List UInt8) (terminated : Bool)
  | structConstant (context : ContextId) (values : List ValueId) (packed : Bool)
  | undefined (type : TypeId)
  | declare (context : ContextId) (name : String) (signature : TypeId)
  | rename (value : ValueId) (name : String)
  | appendBlock (function : FunctionId) (name : String)
  | setPersonality (function personality : FunctionId)
  | clearPersonality (function : FunctionId)
  | setCollector (function : FunctionId) (strategy : String)
  | deleteFunction (function : FunctionId)
  | addAttribute (function : FunctionId) (site : Site) (value : Attribute)
  | addTargetAttribute (function : FunctionId) (key value : String)
  | removeAttribute (function : FunctionId) (site : Site) (key : AttributeKey)
  | setAlignment (value : ValueId) (align : UInt32)
  | binary (block : BlockId) (operator : BinaryOperator) (left right : ValueId) (name : String)
  | compare (block : BlockId) (predicate : Predicate) (left right : ValueId) (name : String)
  | select (block : BlockId) (condition thenValue elseValue : ValueId) (name : String)
  | call (block : BlockId) (callee : FunctionId) (arguments : List ValueId) (name : String)
  | ret (block : BlockId) (value : Option ValueId)
  | branch (block target : BlockId)
  | condBranch (block : BlockId) (condition : ValueId) (thenBlock elseBlock : BlockId)
  | unreachable (block : BlockId)
deriving DecidableEq, Repr

inductive Command where
  | createContext (moduleName : String)
  | destroyContext (context : ContextId)
  | edit (change : Edit)
  | setConvention (function : FunctionId) (code : UInt32)
  | verify (function : FunctionId)
  | verifyModule (context : ContextId)
  | emitModule (context : ContextId)
deriving DecidableEq, Repr

/-- What a command gives back. -/
inductive Answer where
  | done
  | handle (handle : Handle)
  | verdict (verdict : Verdict)
  | bytes (content : List UInt8)
deriving DecidableEq, Repr

namespace Edit

def typeAnswer (type : TypeId) : Answer := .handle (.type type)

def valueAnswer (value : ValueId) : Answer := .handle (.value value)

def functionAnswer (function : FunctionId) : Answer := .handle (.function function)

def blockAnswer (block : BlockId) : Answer := .handle (.block block)

def unitAnswer (_ : Unit) : Answer := .done

def operation (settings : Settings) : Edit → Operation Answer
  | .setModuleName context name => (Operation.setModuleName context name).map unitAnswer
  | .voidType context => (Operation.voidType context).map typeAnswer
  | .labelType context => (Operation.labelType context).map typeAnswer
  | .integerType context bits =>
      (Operation.integerType settings context bits).map typeAnswer
  | .arrayType element length => (Operation.arrayType element length).map typeAnswer
  | .structType context fields packed =>
      (Operation.structType context fields packed).map typeAnswer
  | .signatureType result parameters variadic =>
      (Operation.signatureType result parameters variadic).map typeAnswer
  | .integerConstant type number =>
      (Operation.integerConstant type number).map valueAnswer
  | .arrayConstant element values =>
      (Operation.arrayConstant element values).map valueAnswer
  | .bytesConstant context content terminated =>
      (Operation.bytesConstant settings context content terminated).map valueAnswer
  | .structConstant context values packed =>
      (Operation.structConstant context values packed).map valueAnswer
  | .undefined type => (Operation.undefined type).map valueAnswer
  | .declare context name signature =>
      (Operation.declare settings context name signature).map functionAnswer
  | .rename value name => (Operation.rename value name).map unitAnswer
  | .appendBlock function name => (Operation.appendBlock function name).map blockAnswer
  | .setPersonality function personality =>
      (Operation.setPersonality function personality).map unitAnswer
  | .clearPersonality function => (Operation.clearPersonality function).map unitAnswer
  | .setCollector function strategy =>
      (Operation.setCollector function strategy).map unitAnswer
  | .deleteFunction function => (Operation.deleteFunction function).map unitAnswer
  | .addAttribute function site value =>
      (Operation.addAttribute function site value).map unitAnswer
  | .addTargetAttribute function key value =>
      (Operation.addTargetAttribute function key value).map unitAnswer
  | .removeAttribute function site key =>
      (Operation.removeAttribute function site key).map unitAnswer
  | .setAlignment value align => (Operation.setAlignment value align).map unitAnswer
  | .binary block operator left right name =>
      (Operation.binary block operator left right name).map valueAnswer
  | .compare block predicate left right name =>
      (Operation.compare settings block predicate left right name).map valueAnswer
  | .select block condition thenValue elseValue name =>
      (Operation.select block condition thenValue elseValue name).map valueAnswer
  | .call block callee arguments name =>
      (Operation.call block callee arguments name).map valueAnswer
  | .ret block value => (Operation.ret block value).map valueAnswer
  | .branch block target => (Operation.branch block target).map valueAnswer
  | .condBranch block condition thenBlock elseBlock =>
      (Operation.condBranch block condition thenBlock elseBlock).map valueAnswer
  | .unreachable block => (Operation.unreachable block).map valueAnswer

end Edit

namespace Command

variable {σ : Type}

/-- The effect of a command. -/
def run (engine : Engine σ) : Command → Action σ Answer
  | .createContext moduleName => do
      return .handle (.context (← Action.createContext engine moduleName))
  | .destroyContext context => do
      Action.destroyContext engine context
      return .done
  | .edit change => fun workspace =>
      Action.perform (change.operation workspace.store.settings) workspace
  | .setConvention function code => do
      Action.setConvention engine function code
      return .done
  | .verify function => do return .verdict (← Action.verify engine function)
  | .verifyModule context => do return .verdict (← Action.verifyModule engine context)
  | .emitModule context => do return .bytes (← Action.emitModule engine context)

end Command

namespace Workspace

variable {σ : Type}

/-- The workspace after a command, whether it succeeded or not. -/
def after (engine : Engine σ) (workspace : Workspace σ) (command : Command) : Workspace σ :=
  (command.run engine workspace).workspace

/-- The workspace after a sequence of commands. -/
def afterAll (engine : Engine σ) (workspace : Workspace σ) (commands : List Command) :
    Workspace σ :=
  commands.foldl (after engine) workspace

/-- Some sequence of commands leads from an empty workspace to this one. -/
def Reachable (engine : Engine σ) (initial : σ) (workspace : Workspace σ) : Prop :=
  ∃ settings commands, workspace = afterAll engine (start settings initial) commands

end Workspace

end TypedIR
