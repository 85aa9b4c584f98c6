import TypedIR.Context.Attributes
import TypedIR.Context.Constants
import TypedIR.Context.Instructions
import TypedIR.Event

/-!
Contract: the operations that change one context, ready to run.

Owns:
- the home of an operation, the context it runs in;
- the faults that are reported even when the home is released: numbers out of
  range, and a first handle of another context;
- the effect on the home, and the events it leaves, among them one for each structure
  that it has interned.
-/

namespace TypedIR

structure Operation (α : Type) where
  home : ContextId
  /-- What is refused without a look at the home. -/
  screen : Except Fault Unit
  /-- The result with the changed home, or a refusal; in both cases what an observer sees. -/
  effect : Context → Except Fault (α × Context) × List Event

namespace Operation

/-- The structures that came to the table of types, in order. -/
def internedEvents (before after : Context) : List Event :=
  (after.types.toList.drop before.types.size).mapIdx fun offset shape =>
    .interned (after.typeId (before.types.size + offset)) shape

/-- An operation that reports its success, from the home before it and the result. Whatever it
interns comes first. -/
def reported (home : ContextId) (apply : Context → Except Fault (α × Context))
    (report : Context → α → List Event) : Operation α where
  home := home
  screen := .ok ()
  effect context :=
    let outcome := apply context
    (outcome, match outcome with
      | .ok (result, changed) => internedEvents context changed ++ report context result
      | .error _ => [])

/-- An operation that reports nothing but what it interns. -/
def quiet (home : ContextId) (apply : Context → Except Fault (α × Context)) : Operation α :=
  reported home apply fun _ _ => []

/-- An operation whose report needs the result alone. -/
def noted (home : ContextId) (apply : Context → Except Fault (α × Context))
    (note : α → List Event) : Operation α :=
  reported home apply fun _ result => note result

/-- The operation with a further ground for refusal ahead of all others. -/
def guarded (operation : Operation α) (screen : Except Fault Unit) : Operation α :=
  { operation with screen := do screen; operation.screen }

/-- The operation with its result seen another way. -/
def map (view : α → β) (operation : Operation α) : Operation β where
  home := operation.home
  screen := operation.screen
  effect context :=
    let (result, events) := operation.effect context
    (result.map fun (result, changed) => (view result, changed), events)

/-- A first type of another context is refused even if the home is released. -/
def requireHomeType (home : ContextId) : Option TypeId → Except Fault Unit
  | some type => if type.context ≠ home then .error (.foreignType type home) else .ok ()
  | none => .ok ()

/-- As for types, for a value or a function. -/
def requireHomeValue (home : ContextId) : Option Handle → Except Fault Unit
  | some handle => if handle.tag ≠ home then .error (.foreignValue handle home) else .ok ()
  | none => .ok ()

def setModuleName (context : ContextId) (name : String) : Operation Unit :=
  quiet context fun home => .ok ((), { home with moduleName := name })

/-! ### Types -/

def voidType (context : ContextId) : Operation TypeId := quiet context fun home => .ok home.voidType

def labelType (context : ContextId) : Operation TypeId :=
  quiet context fun home => .ok home.labelType

def integerType (settings : Settings) (context : ContextId) (bits : UInt32) : Operation TypeId :=
  (quiet context fun home => home.integerType settings bits).guarded (settings.checkWidth bits)

def arrayType (element : TypeId) (length : UInt32) : Operation TypeId :=
  quiet element.context fun home => home.arrayType element length

def structType (context : ContextId) (fields : List TypeId) (packed : Bool) : Operation TypeId :=
  (quiet context fun home => home.structType fields packed).guarded
    (requireHomeType context fields.head?)

def signatureType (result : TypeId) (parameters : List TypeId) (variadic : Bool) :
    Operation TypeId :=
  quiet result.context fun home => home.signatureType result parameters variadic

/-! ### Constants -/

def noteConstant (value : ValueId) : List Event := [.trace ("Built constant " ++ value.text)]

def integerConstant (type : TypeId) (number : Int64) : Operation ValueId :=
  noted type.context (fun home => home.integerConstant type number) noteConstant

def arrayConstant (element : TypeId) (values : List ValueId) : Operation ValueId :=
  (noted element.context (fun home => home.arrayConstant element values) noteConstant).guarded
    ((lengthOf values.length).map fun _ => ())

def bytesConstant (settings : Settings) (context : ContextId) (content : List UInt8)
    (terminated : Bool) : Operation ValueId :=
  (noted context (fun home => home.bytesConstant settings content terminated)
    noteConstant).guarded do
      let _ ← lengthOf (content.length + if terminated then 1 else 0)
      settings.checkWidth 8

def structConstant (context : ContextId) (values : List ValueId) (packed : Bool) :
    Operation ValueId :=
  (noted context (fun home => home.structConstant values packed) noteConstant).guarded
    (requireHomeValue context (values.head?.map .value))

def undefined (type : TypeId) : Operation ValueId :=
  noted type.context (fun home => home.undefined type) noteConstant

/-! ### Functions -/

def declare (settings : Settings) (context : ContextId) (name : String) (signature : TypeId) :
    Operation FunctionId :=
  (noted context (fun home => home.declare settings name signature) fun function =>
    [.debug ("Declared function '" ++ name ++ "' as " ++ function.text)]).guarded
      (requireHomeType context (some signature))

/-- The record of a rename, for a value that is a function. -/
def renameEvents (value : ValueId) (name : String) (home : Context) : List Event :=
  match home.value? value.index with
  | some ⟨_, .function, old⟩ =>
      [.trace ("Renamed " ++ (home.functionId value.index).text ++ " from '" ++ old ++ "' to '" ++
        name ++ "'")]
  | _ => []

def rename (value : ValueId) (name : String) : Operation Unit :=
  reported value.context (fun home => home.rename value name) fun home _ =>
    renameEvents value name home

def appendBlock (function : FunctionId) (name : String) : Operation BlockId :=
  noted function.context (fun home => home.appendBlock function name) fun block =>
    [.trace ("Appended " ++ block.text ++ " to " ++ function.text)]

/-- The engine is asked about the code once the function is known to be live. -/
def setConvention (accepts : UInt32 → Bool) (engine : String) (function : FunctionId)
    (code : UInt32) : Operation Unit where
  home := function.context
  screen := .ok ()
  effect home :=
    (home.setConvention accepts engine function code,
      if (home.function? function.index).isSome then [.engine (.accepts code)] else [])

def setPersonality (function personality : FunctionId) : Operation Unit :=
  (quiet function.context fun home => home.setPersonality function personality).guarded
    (requireHomeValue function.context (some (.function personality)))

def clearPersonality (function : FunctionId) : Operation Unit :=
  quiet function.context fun home => home.clearPersonality function

def setCollector (function : FunctionId) (strategy : String) : Operation Unit :=
  quiet function.context fun home => home.setCollector function strategy

/-- The record of a deletion: the name, and how much went with the function. -/
def deletionEvents (function : FunctionId) (home : Context) : List Event :=
  match home.function? function.index with
  | some entry =>
      [.debug ("Deleted function '" ++ (home.functionName? entry.self).getD "" ++ "' (" ++
        function.text ++ "): " ++ toString entry.blocks.length ++ " blocks, " ++
        toString (home.instructionsOf entry).length ++ " instructions")]
  | none => []

def deleteFunction (function : FunctionId) : Operation Unit :=
  reported function.context (fun home => home.deleteFunction function) fun home _ =>
    deletionEvents function home

/-! ### Attributes -/

def noteAttribute (function : FunctionId) (site : Site) (value : Attribute) : List Event :=
  [.trace ("Adding attribute " ++ value.text ++ " at " ++ site.text ++ " of " ++ function.text)]

def addAttribute (function : FunctionId) (site : Site) (value : Attribute) : Operation Unit :=
  noted function.context (fun home => home.addAttribute function site value) fun _ =>
    noteAttribute function site value

/-- A string attribute of the function that only the target understands. -/
def addTargetAttribute (function : FunctionId) (key value : String) : Operation Unit :=
  addAttribute function .function (.string key value)

def removeAttribute (function : FunctionId) (site : Site) (key : AttributeKey) : Operation Unit :=
  quiet function.context fun home => home.removeAttribute function site key

/-- An alignment is recorded as the attribute that it is. -/
def alignmentEvents (value : ValueId) (align : UInt32) (home : Context) : List Event :=
  match home.parameterPlace value with
  | .ok (function, position) =>
      noteAttribute function (.parameter position) (.enumerated .alignment align.toUInt64)
  | .error _ => []

def setAlignment (value : ValueId) (align : UInt32) : Operation Unit :=
  reported value.context (fun home => home.setAlignment value align) fun home _ =>
    alignmentEvents value align home

/-! ### Instructions -/

/-- An operation that appends an instruction to a block. -/
def appending (block : BlockId) (opcode : String)
    (apply : Context → Except Fault (ValueId × Context)) : Operation ValueId :=
  noted block.context apply fun value =>
    [.trace ("Appended '" ++ opcode ++ "' as " ++ value.text ++ " to " ++ block.text)]

def binary (block : BlockId) (operator : BinaryOperator) (left right : ValueId) (name : String) :
    Operation ValueId :=
  appending block operator.word fun home => home.binary block operator left right name

def compare (settings : Settings) (block : BlockId) (predicate : Predicate)
    (left right : ValueId) (name : String) : Operation ValueId :=
  appending block "icmp" fun home => home.compare settings block predicate left right name

def select (block : BlockId) (condition thenValue elseValue : ValueId) (name : String) :
    Operation ValueId :=
  appending block "select" fun home => home.select block condition thenValue elseValue name

def call (block : BlockId) (callee : FunctionId) (arguments : List ValueId) (name : String) :
    Operation ValueId :=
  appending block "call" fun home => home.call block callee arguments name

def ret (block : BlockId) (value : Option ValueId) : Operation ValueId :=
  appending block "ret" fun home => home.ret block value

def branch (block target : BlockId) : Operation ValueId :=
  appending block "br" fun home => home.branch block target

def condBranch (block : BlockId) (condition : ValueId) (thenBlock elseBlock : BlockId) :
    Operation ValueId :=
  appending block "br" fun home => home.condBranch block condition thenBlock elseBlock

def unreachable (block : BlockId) : Operation ValueId :=
  appending block "unreachable" fun home => home.unreachable block

end Operation

end TypedIR
