import TypedIR.Proofs.Description.Typing

/-!
Contract: what it means that a context holds the module of a description.

Owns:
- the values that operands stand for, and the code of instructions;
- bodies read instruction by instruction, a name standing for the parameter or
  instruction that got it last;
- declared functions, and functions with personality and body;
- that all of this stays while functions keep what they were declared with and values
  and types only come.

Does not own: typing, and how the context is made.
-/

namespace TypedIR

namespace Description

/-! ### Operands and instructions -/

/-- The value that an operand stands for, by the values of the names before it. -/
inductive Operand.Denotes (context : Context) (locals : Locals ValueRef) :
    Operand → ValueRef → Prop where
  | named {name : String} {value : ValueRef} (latest : locals.lookup name = some value) :
      Denotes context locals (.reference ("%" ++ name)) value
  | function {name : String} {value : ValueRef} (found : context.functionNamed? name = some value) :
      Denotes context locals (.reference ("@" ++ name)) value
  | integer {number : Int64} {bits : UInt32} {value : ValueRef} {type : TypeRef}
      (held : context.value? value = some ⟨type, .integer (truncate bits number), ""⟩)
      (known : context.tree? type = some (.integer bits)) :
      Denotes context locals (.integer number (.integer bits)) value
  | bytes {text : String} {terminated : Bool} {value : ValueRef} {type : TypeRef}
      (held : context.value? value =
        some ⟨type, .bytes (storedBytes text.toUTF8.toList terminated), ""⟩)
      (known : context.tree? type =
        some (.array (.integer 8) (.ofNat (storedBytes text.toUTF8.toList terminated).length))) :
      Denotes context locals (.bytes text terminated) value

/-- The code of an instruction. `blocks` holds the blocks of the function with their names. -/
inductive Instruction.Denotes (context : Context) (locals : Locals ValueRef)
    (blocks : List (String × BlockRef)) : Instruction → TypedIR.Instruction → Prop where
  | binary {operator : BinaryOperator} {left right : Operand} {name : String}
      {leftValue rightValue : ValueRef} (leftDenotes : left.Denotes context locals leftValue)
      (rightDenotes : right.Denotes context locals rightValue) :
      Denotes context locals blocks (.binary operator left right name)
        (.binary operator leftValue rightValue)
  | compare {predicate : Predicate} {left right : Operand} {name : String}
      {leftValue rightValue : ValueRef} (leftDenotes : left.Denotes context locals leftValue)
      (rightDenotes : right.Denotes context locals rightValue) :
      Denotes context locals blocks (.compare predicate left right name)
        (.compare predicate leftValue rightValue)
  | select {condition thenValue elseValue : Operand} {name : String}
      {test first second : ValueRef} (conditionDenotes : condition.Denotes context locals test)
      (thenDenotes : thenValue.Denotes context locals first)
      (elseDenotes : elseValue.Denotes context locals second) :
      Denotes context locals blocks (.select condition thenValue elseValue name)
        (.select test first second)
  | call {callee : String} {arguments : List Operand} {name : String} {function : ValueRef}
      {values : List ValueRef}
      (found : context.functionNamed? (withoutMark '@' callee) = some function)
      (argumentsDenote : List.Forall₂ (Operand.Denotes context locals) arguments values) :
      Denotes context locals blocks (.call callee arguments name) (.call function values)
  | retVoid : Denotes context locals blocks (.ret none) (.ret none)
  | ret {operand : Operand} {value : ValueRef} (denotes : operand.Denotes context locals value) :
      Denotes context locals blocks (.ret (some operand)) (.ret (some value))
  | branch {target : String} {block : BlockRef}
      (found : blocks.lookup (withoutMark '%' target) = some block) :
      Denotes context locals blocks (.branch target) (.branch block)
  | condBranch {condition : Operand} {thenBlock elseBlock : String} {test : ValueRef}
      {first second : BlockRef} (conditionDenotes : condition.Denotes context locals test)
      (thenFound : blocks.lookup (withoutMark '%' thenBlock) = some first)
      (elseFound : blocks.lookup (withoutMark '%' elseBlock) = some second) :
      Denotes context locals blocks (.condBranch condition thenBlock elseBlock)
        (.condBranch test first second)
  | unreachable : Denotes context locals blocks .unreachable .unreachable

/-! ### Bodies -/

/-- The values are the described instructions of a block in order, each with its name and its code
under the names that those before it leave. -/
inductive InstructionsBuilt (context : Context) (blocks : List (String × BlockRef))
    (block : BlockRef) : Locals ValueRef → List Instruction → List ValueRef → Locals ValueRef → Prop
    where
  | nil {locals : Locals ValueRef} : InstructionsBuilt context blocks block locals [] [] locals
  | cons {locals after : Locals ValueRef} {instruction : Instruction} {rest : List Instruction}
      {value : ValueRef} {values : List ValueRef} {type : TypeRef} {code : TypedIR.Instruction}
      (held : context.value? value =
        some ⟨type, .instruction block code, instruction.resultName?.getD ""⟩)
      (denotes : instruction.Denotes context locals blocks code)
      (restBuilt : InstructionsBuilt context blocks block
        (locals.define (instruction.resultName?.getD "") value) rest values after) :
      InstructionsBuilt context blocks block locals (instruction :: rest) (value :: values) after

/-- The blocks of the function at `home` are the described ones in order. -/
inductive BlocksBuilt (context : Context) (blocks : List (String × BlockRef)) (home : ValueRef) :
    Locals ValueRef → List Block → List BlockRef → Prop where
  | nil {locals : Locals ValueRef} : BlocksBuilt context blocks home locals [] []
  | cons {locals between : Locals ValueRef} {block : Block} {rest : List Block} {position : BlockRef}
      {positions : List BlockRef} {values : List ValueRef}
      (found : context.block? position = some ⟨home, block.name, values⟩)
      (built : InstructionsBuilt context blocks position locals block.instructions values between)
      (restBuilt : BlocksBuilt context blocks home between rest positions) :
      BlocksBuilt context blocks home locals (block :: rest) (position :: positions)

/-! ### Functions -/

/-- The alignments of parameters as the attributes that they are, from a position on. -/
def alignmentsFrom (position : Nat) (parameters : List Parameter) : List AttributeEntry :=
  (parameters.zipIdx position).filterMap fun (parameter, position) =>
    parameter.align.map fun align =>
      ⟨.parameter position, .enumerated .alignment align.toUInt64⟩

/-- All attributes of a function, those of its parameters' alignments first. -/
def Function.placed (function : Function) : List AttributeEntry :=
  alignmentsFrom 0 function.parameters ++
    function.attributes.map fun placed => ⟨placed.site, placed.value⟩

/-- The value has the name and the type of the parameter. -/
def Parameter.Declared (context : Context) (parameter : Parameter) (value : ValueRef) : Prop :=
  ∃ type kind, context.value? value = some ⟨type, kind, parameter.name⟩ ∧
    context.tree? type = some parameter.type.tree

/-- The function is what its description says, apart from personality and body. -/
structure Function.Declared (settings : Settings) (context : Context) (function : Function)
    (entry : FunctionEntry) : Prop where
  named : context.functionName? entry.self = some function.name
  signature : context.tree? entry.signature = some function.signature
  parameters : List.Forall₂ (Parameter.Declared context) function.parameters entry.parameters
  convention : entry.convention = (function.convention.getD settings.convention).code
  /-- An empty strategy is none. -/
  collector : entry.collector = function.collector.filter fun strategy => strategy ≠ ""
  /-- The last attribute of a site and key counts. -/
  attributes : ∀ site key, entry.attributes.get? site key =
    (function.placed.reverse.find? fun placed => placed.Sits site key).map fun placed => placed.value

/-- The values of the names in front of a body. -/
def Function.parameterValues (function : Function) (entry : FunctionEntry) : Locals ValueRef :=
  .ofList ((function.parameters.map fun parameter => parameter.name).zip entry.parameters)

def Function.HasPersonality (context : Context) (function : Function) (entry : FunctionEntry) :
    Prop :=
  Option.Rel (fun written personality =>
    context.functionNamed? (withoutMark '@' written) = some personality)
    function.personality entry.personality

structure Function.Built (settings : Settings) (context : Context) (function : Function)
    (entry : FunctionEntry) : Prop extends Function.Declared settings context function entry where
  personality : function.HasPersonality context entry
  blocks : BlocksBuilt context (function.blockNames.zip entry.blocks) entry.self
    (function.parameterValues entry) function.blocks entry.blocks

/-- The context holds exactly the described functions in order. -/
structure Module.Built (settings : Settings) (description : Module) (context : Context) :
    Prop where
  moduleName : context.moduleName = description.name
  functions : List.Forall₂ (Function.Built settings context) description.functions
    context.functions

end Description

/-! ### What stays -/

/-- A function with what it was declared with alone. -/
def FunctionEntry.bare (entry : FunctionEntry) : FunctionEntry :=
  { entry with blocks := [], personality := none, state := .unverified }

/-- What is named, valued or typed stays so. -/
structure Context.Retains (before after : Context) : Prop where
  names : ∀ function name, before.functionName? function = some name →
    after.functionName? function = some name
  values : ∀ value entry, before.value? value = some entry → after.value? value = some entry
  trees : ∀ type tree, before.tree? type = some tree → after.tree? type = some tree

/-- Functions keep what they were declared with, and values and types only come. -/
structure Context.Onward (before after : Context) : Prop where
  id : after.id = before.id
  moduleName : after.moduleName = before.moduleName
  heads : after.functions.map FunctionEntry.bare = before.functions.map FunctionEntry.bare
  names : after.functionName? = before.functionName?
  named : after.functionNamed? = before.functionNamed?
  values : ∀ value entry, before.value? value = some entry → after.value? value = some entry
  trees : ∀ type tree, before.tree? type = some tree → after.tree? type = some tree

namespace Context.Retains

variable {before between after : Context}

theorem refl (context : Context) : context.Retains context :=
  ⟨fun _ _ named => named, fun _ _ found => found, fun _ _ known => known⟩

theorem trans (first : before.Retains between) (second : between.Retains after) :
    before.Retains after where
  names function name named := second.names function name (first.names function name named)
  values value entry found := second.values value entry (first.values value entry found)
  trees type tree known := second.trees type tree (first.trees type tree known)

end Context.Retains

namespace Context.Onward

variable {before between after : Context}

theorem refl (context : Context) : context.Onward context :=
  ⟨rfl, rfl, rfl, rfl, rfl, fun _ _ found => found, fun _ _ known => known⟩

theorem trans (first : before.Onward between) (second : between.Onward after) :
    before.Onward after where
  id := second.id.trans first.id
  moduleName := second.moduleName.trans first.moduleName
  heads := second.heads.trans first.heads
  names := second.names.trans first.names
  named := second.named.trans first.named
  values value entry found := second.values value entry (first.values value entry found)
  trees type tree known := second.trees type tree (first.trees type tree known)

theorem retains (goes : before.Onward after) : before.Retains after :=
  ⟨fun _ _ named => goes.names ▸ named, goes.values, goes.trees⟩

end Context.Onward

namespace Description

variable {settings : Settings} {before after : Context} (goes : before.Onward after)

include goes

theorem Operand.Denotes.onward {locals : Locals ValueRef} {operand : Operand} {value : ValueRef}
    (denotes : operand.Denotes before locals value) : operand.Denotes after locals value := by
  cases denotes with
  | named latest => exact .named latest
  | function found => exact .function (goes.named ▸ found)
  | integer held known => exact .integer (goes.values _ _ held) (goes.trees _ _ known)
  | bytes held known => exact .bytes (goes.values _ _ held) (goes.trees _ _ known)

theorem Instruction.Denotes.onward {locals : Locals ValueRef} {blocks : List (String × BlockRef)}
    {instruction : Instruction} {code : TypedIR.Instruction}
    (denotes : instruction.Denotes before locals blocks code) :
    instruction.Denotes after locals blocks code := by
  cases denotes with
  | binary left right => exact .binary (left.onward goes) (right.onward goes)
  | compare left right => exact .compare (left.onward goes) (right.onward goes)
  | select condition first second =>
      exact .select (condition.onward goes) (first.onward goes) (second.onward goes)
  | call found arguments =>
      exact .call (goes.named ▸ found) (arguments.imp fun _ _ denotes => denotes.onward goes)
  | retVoid => exact .retVoid
  | ret value => exact .ret (value.onward goes)
  | branch found => exact .branch found
  | condBranch condition first second => exact .condBranch (condition.onward goes) first second
  | unreachable => exact .unreachable

theorem InstructionsBuilt.onward {blocks : List (String × BlockRef)} {block : BlockRef}
    {locals last : Locals ValueRef} {instructions : List Instruction} {values : List ValueRef}
    (built : InstructionsBuilt before blocks block locals instructions values last) :
    InstructionsBuilt after blocks block locals instructions values last := by
  induction built with
  | nil => exact .nil
  | cons held denotes _ inductionHypothesis =>
      exact .cons (goes.values _ _ held) (denotes.onward goes) inductionHypothesis

theorem BlocksBuilt.onward {blocks : List (String × BlockRef)} {home : ValueRef}
    {locals : Locals ValueRef} {list : List Block} {positions : List BlockRef}
    (built : BlocksBuilt before blocks home locals list positions)
    (kept : ∀ position block, before.block? position = some block → block.function = home →
      after.block? position = some block) :
    BlocksBuilt after blocks home locals list positions := by
  induction built with
  | nil => exact .nil
  | cons found built _ inductionHypothesis =>
      exact .cons (kept _ _ found rfl) (built.onward goes) inductionHypothesis

omit goes in
theorem Parameter.Declared.retained {parameter : Parameter} {value : ValueRef}
    (declared : parameter.Declared before value) (retains : before.Retains after) :
    parameter.Declared after value := by
  obtain ⟨type, kind, held, known⟩ := declared
  exact ⟨type, kind, retains.values _ _ held, retains.trees _ _ known⟩

omit goes in
/-- A function stays as described where names, values and types stay. -/
theorem Function.Declared.retained {function : Function} {entry : FunctionEntry}
    (declared : function.Declared settings before entry) (retains : before.Retains after) :
    function.Declared settings after entry where
  named := retains.names _ _ declared.named
  signature := retains.trees _ _ declared.signature
  parameters := declared.parameters.imp fun _ _ each => each.retained retains
  convention := declared.convention
  collector := declared.collector
  attributes := declared.attributes

theorem Function.Declared.onward {function : Function} {entry : FunctionEntry}
    (declared : function.Declared settings before entry) :
    function.Declared settings after entry :=
  declared.retained goes.retains

theorem Function.HasPersonality.onward {function : Function} {entry : FunctionEntry}
    (personality : function.HasPersonality before entry) :
    function.HasPersonality after entry := by
  unfold Function.HasPersonality
  rw [goes.named]
  exact personality

theorem Function.Built.onward {function : Function} {entry : FunctionEntry}
    (built : function.Built settings before entry)
    (kept : ∀ position block, before.block? position = some block → block.function = entry.self →
      after.block? position = some block) : function.Built settings after entry :=
  ⟨built.toDeclared.onward goes, built.personality.onward goes, built.blocks.onward goes kept⟩

omit goes in
/-- What a function was declared with says whether it is as described. -/
theorem Function.declared_bare {context : Context} {function : Function} {entry : FunctionEntry} :
    function.Declared settings context entry.bare ↔ function.Declared settings context entry :=
  ⟨fun ⟨named, signature, parameters, convention, collector, attributes⟩ =>
      ⟨named, signature, parameters, convention, collector, attributes⟩,
    fun ⟨named, signature, parameters, convention, collector, attributes⟩ =>
      ⟨named, signature, parameters, convention, collector, attributes⟩⟩

/-- Functions keep what they were declared with. -/
theorem declared_onward {list : List Function}
    (declared : List.Forall₂ (Function.Declared settings before) list before.functions) :
    List.Forall₂ (Function.Declared settings after) list after.functions := by
  have bare : List.Forall₂ (Function.Declared settings after) list
      (before.functions.map FunctionEntry.bare) :=
    List.forall₂_map_right_iff.mpr
      (declared.imp fun _ _ each => Function.declared_bare.mpr (each.onward goes))
  rw [← goes.heads] at bare
  exact (List.forall₂_map_right_iff.mp bare).imp fun _ _ each => Function.declared_bare.mp each

end Description

end TypedIR
