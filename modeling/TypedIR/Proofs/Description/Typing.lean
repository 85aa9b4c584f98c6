import Mathlib.Data.List.Forall2
import Mathlib.Data.List.Nodup
import TypedIR.Attribute.Basic
import TypedIR.Description.Build
import TypedIR.Proofs.Description.Types

/-!
Contract: which descriptions are well scoped and well typed, said of descriptions alone.

Owns:
- names with their meanings, the latest in front;
- the typing rules of operands and instructions, and bodies typed instruction by
  instruction;
- the conditions that make up an accepted description;
- that operands and instructions have one type at most, and bodies leave the names of
  one typing.

Does not own: contexts. No rule here mentions a table or a handle.
-/

namespace TypedIR.Description

/-! ### Names with meanings -/

/-- Names with what they stand for, the latest in front. The empty name stands for nothing and
is not among them. -/
abbrev Locals (α : Type) := List (String × α)

namespace Locals

variable {α : Type}

def define (locals : Locals α) (name : String) (meaning : α) : Locals α :=
  if name = "" then locals else (name, meaning) :: locals

/-- The names of a list in the order of the list. -/
def ofList (list : List (String × α)) : Locals α :=
  (list.filter fun entry => entry.1 ≠ "").reverse

end Locals

/-! ### Signatures -/

def Function.parameterTypes (function : Function) : List TypeTree :=
  function.parameters.map fun parameter => parameter.type.tree

def Function.signature (function : Function) : TypeTree :=
  .function function.result.tree function.parameterTypes function.variadic

/-- The types of the names in front of a body. -/
def Function.parameterLocals (function : Function) : Locals TypeTree :=
  .ofList (function.parameters.map fun parameter => (parameter.name, parameter.type.tree))

def Function.blockNames (function : Function) : List String :=
  function.blocks.map fun block => block.name

/-- All instructions of a function in order. -/
def Function.body (function : Function) : List Instruction :=
  function.blocks.flatMap fun block => block.instructions

/-- The written name, with or without `@` before it, is the name of the function. -/
structure Module.Names (description : Module) (written : String) (function : Function) : Prop where
  listed : function ∈ description.functions
  named : function.name = withoutMark '@' written
  proper : function.name ≠ ""

/-- No two functions share a name, unless it is empty. -/
def Module.DistinctNames (description : Module) : Prop :=
  ((description.functions.map fun function => function.name).filter fun name => name ≠ "").Nodup

/-! ### Typing -/

/-- The type of an operand, by the types of the names before it. -/
inductive Operand.HasType (limit : UInt32) (description : Module) (locals : Locals TypeTree) :
    Operand → TypeTree → Prop where
  | named {name : String} {type : TypeTree} (latest : locals.lookup name = some type) :
      HasType limit description locals (.reference ("%" ++ name)) type
  | function {name : String} {function : Function}
      (names : description.Names ("@" ++ name) function) :
      HasType limit description locals (.reference ("@" ++ name)) function.signature
  | integer {number : Int64} {bits : UInt32} (positive : 0 < bits) (fits : bits ≤ limit) :
      HasType limit description locals (.integer number (.integer bits)) (.integer bits)
  | bytes {text : String} {terminated : Bool} (wide : 8 ≤ limit)
      (fits : (storedBytes text.toUTF8.toList terminated).length < UInt32.size) :
      HasType limit description locals (.bytes text terminated)
        (.array (.integer 8) (.ofNat (storedBytes text.toUTF8.toList terminated).length))

/-- The type of an instruction's result in the body of the function `home`; that of instructions
without a result is `void`. -/
inductive Instruction.HasType (limit : UInt32) (description : Module) (home : Function)
    (locals : Locals TypeTree) : Instruction → TypeTree → Prop where
  | binary {operator : BinaryOperator} {left right : Operand} {name : String} {bits : UInt32}
      (leftTyped : left.HasType limit description locals (.integer bits))
      (rightTyped : right.HasType limit description locals (.integer bits)) :
      HasType limit description home locals (.binary operator left right name) (.integer bits)
  | compare {predicate : Predicate} {left right : Operand} {name : String} {bits : UInt32}
      (leftTyped : left.HasType limit description locals (.integer bits))
      (rightTyped : right.HasType limit description locals (.integer bits)) :
      HasType limit description home locals (.compare predicate left right name) (.integer 1)
  | select {condition thenValue elseValue : Operand} {name : String} {type : TypeTree}
      (conditionTyped : condition.HasType limit description locals (.integer 1))
      (thenTyped : thenValue.HasType limit description locals type)
      (elseTyped : elseValue.HasType limit description locals type)
      (sized : type.isSized = true) :
      HasType limit description home locals (.select condition thenValue elseValue name) type
  /-- Arguments of the parameters' types, and sized ones behind them if the callee is variadic. -/
  | call {callee : String} {function : Function} {arguments : List Operand} {name : String}
      {extra : List TypeTree} (names : description.Names callee function)
      (argumentsTyped : List.Forall₂ (Operand.HasType limit description locals) arguments
        (function.parameterTypes ++ extra))
      (sized : ∀ type ∈ extra, type.isSized = true)
      (surplus : extra = [] ∨ function.variadic = true) :
      HasType limit description home locals (.call callee arguments name) function.result.tree
  | retVoid (isVoid : home.result = .void) :
      HasType limit description home locals (.ret none) .void
  | ret {value : Operand} (notVoid : home.result ≠ .void)
      (typed : value.HasType limit description locals home.result.tree) :
      HasType limit description home locals (.ret (some value)) .void
  | branch {target : String} (found : withoutMark '%' target ∈ home.blockNames) :
      HasType limit description home locals (.branch target) .void
  | condBranch {condition : Operand} {thenBlock elseBlock : String}
      (conditionTyped : condition.HasType limit description locals (.integer 1))
      (thenFound : withoutMark '%' thenBlock ∈ home.blockNames)
      (elseFound : withoutMark '%' elseBlock ∈ home.blockNames) :
      HasType limit description home locals (.condBranch condition thenBlock elseBlock) .void
  | unreachable : HasType limit description home locals .unreachable .void

/-- Each instruction is typed under the names that those before it leave. The last argument holds
the names that all of them leave. -/
inductive BodyTyped (limit : UInt32) (description : Module) (home : Function) :
    Locals TypeTree → List Instruction → Locals TypeTree → Prop where
  | nil {locals : Locals TypeTree} : BodyTyped limit description home locals [] locals
  | cons {locals after : Locals TypeTree} {instruction : Instruction} {rest : List Instruction}
      {type : TypeTree} (typed : instruction.HasType limit description home locals type)
      (restTyped : BodyTyped limit description home
        (locals.define (instruction.resultName?.getD "") type) rest after) :
      BodyTyped limit description home locals (instruction :: rest) after

/-! ### Accepted descriptions -/

/-- What can be declared without a look at the other functions. -/
structure Function.Declarable (limit : UInt32) (function : Function) : Prop where
  result : function.result.Returnable limit
  parameters : ∀ parameter ∈ function.parameters, parameter.type.Sized limit
  alignments : ∀ parameter ∈ function.parameters, ∀ align ∈ parameter.align,
    ∃ exponent, align.toNat = Nat.pow 2 exponent
  positions : ∀ placed ∈ function.attributes, ∀ position, placed.site = .parameter position →
    position < function.parameters.length

structure Function.BodyAccepted (limit : UInt32) (description : Module) (function : Function) :
    Prop where
  blocks : function.blockNames.Nodup
  typed : ∃ after, BodyTyped limit description function function.parameterLocals function.body after

/-- The personality is a function of the description. -/
def Function.PersonalityNamed (description : Module) (function : Function) : Prop :=
  ∀ written ∈ function.personality, ∃ other, description.Names written other

/-- The description is well scoped and well typed, under the largest width of integers. -/
structure Module.Accepted (limit : UInt32) (description : Module) : Prop where
  names : description.DistinctNames
  declarable : ∀ function ∈ description.functions, function.Declarable limit
  personalities : ∀ function ∈ description.functions, function.PersonalityNamed description
  bodies : ∀ function ∈ description.functions, function.BodyAccepted limit description

/-! ### One function at most -/

section Names

variable {description : Module} {written : String} {first second : Function}

theorem Module.DistinctNames.unique (distinct : description.DistinctNames)
    (firstListed : first ∈ description.functions) (secondListed : second ∈ description.functions)
    (same : first.name = second.name) (proper : first.name ≠ "") : first = second := by
  unfold Module.DistinctNames at distinct
  rw [List.filter_map] at distinct
  refine List.inj_on_of_nodup_map distinct ?_ ?_ same
  · simpa [firstListed] using proper
  · simpa [secondListed, ← same] using proper

theorem Module.Names.unique (distinct : description.DistinctNames)
    (firstNames : description.Names written first)
    (secondNames : description.Names written second) : first = second :=
  distinct.unique firstNames.listed secondNames.listed
    (firstNames.named.trans secondNames.named.symm) firstNames.proper

end Names

/-! ### The rules of operands read backwards -/

section Operands

variable {limit : UInt32} {description : Module} {locals : Locals TypeTree} {type : TypeTree}

/-- A written name has a mark in front if it has a type. -/
theorem Operand.HasType.marked {text : String}
    (typed : Operand.HasType limit description locals (.reference text) type) :
    (∃ name, text = "%" ++ name) ∨ ∃ name, text = "@" ++ name := by
  cases typed with
  | named => exact .inl ⟨_, rfl⟩
  | function => exact .inr ⟨_, rfl⟩

theorem Operand.hasType_named_iff {name : String} :
    Operand.HasType limit description locals (.reference ("%" ++ name)) type ↔
      locals.lookup name = some type := by
  refine ⟨fun typed => ?_, .named⟩
  generalize written : "%" ++ name = text at typed
  cases typed with
  | named latest =>
      rw [(String.append_right_inj "%").mp written]
      exact latest
  | function => exact absurd (congrArg String.toList written) (by simp)

theorem Operand.hasType_function_iff {name : String} :
    Operand.HasType limit description locals (.reference ("@" ++ name)) type ↔
      ∃ function, description.Names ("@" ++ name) function ∧ function.signature = type := by
  constructor
  · intro typed
    generalize written : "@" ++ name = text at typed
    cases typed with
    | named => exact absurd (congrArg String.toList written) (by simp)
    | function names => exact ⟨_, names, rfl⟩
  · rintro ⟨function, names, rfl⟩
    exact .function names

theorem Operand.hasType_integer_iff {number : Int64} {term : TypeTerm} :
    Operand.HasType limit description locals (.integer number term) type ↔
      ∃ bits, term = .integer bits ∧ term.Sized limit ∧ type = .integer bits := by
  constructor
  · intro typed
    cases typed with
    | integer positive fits => exact ⟨_, rfl, .integer positive fits, rfl⟩
  · rintro ⟨bits, rfl, sized, rfl⟩
    obtain ⟨positive, fits⟩ := TypeTerm.sized_integer_iff.mp sized
    exact .integer positive fits

theorem Operand.hasType_bytes_iff {text : String} {terminated : Bool} :
    Operand.HasType limit description locals (.bytes text terminated) type ↔
      8 ≤ limit ∧ (storedBytes text.toUTF8.toList terminated).length < UInt32.size ∧
        type = .array (.integer 8) (.ofNat (storedBytes text.toUTF8.toList terminated).length) := by
  constructor
  · intro typed
    cases typed with
    | bytes wide fits => exact ⟨wide, fits, rfl⟩
  · rintro ⟨wide, fits, rfl⟩
    exact .bytes wide fits

end Operands

/-! ### One type at most -/

section Unique

variable {limit : UInt32} {description : Module} {home : Function} {locals : Locals TypeTree}
  (distinct : description.DistinctNames)

include distinct

theorem Operand.hasType_unique :
    Relator.RightUnique (Operand.HasType limit description locals) := by
  intro operand first second firstTyped secondTyped
  cases firstTyped with
  | named latest =>
      exact Option.some.inj (latest.symm.trans (hasType_named_iff.mp secondTyped))
  | function names =>
      obtain ⟨other, otherNames, rfl⟩ := hasType_function_iff.mp secondTyped
      rw [names.unique distinct otherNames]
  | integer =>
      obtain ⟨_, equal, _, rfl⟩ := hasType_integer_iff.mp secondTyped
      rw [TypeTerm.integer.inj equal]
  | bytes => exact (hasType_bytes_iff.mp secondTyped).2.2.symm

theorem Instruction.hasType_unique :
    Relator.RightUnique (Instruction.HasType limit description home locals) := by
  intro instruction first second firstTyped secondTyped
  cases firstTyped with
  | binary left _ =>
      cases secondTyped with
      | binary other _ => exact Operand.hasType_unique distinct left other
  | select _ thenTyped _ _ =>
      cases secondTyped with
      | select _ other _ _ => exact Operand.hasType_unique distinct thenTyped other
  | call names _ _ _ =>
      cases secondTyped with
      | call otherNames _ _ _ => rw [names.unique distinct otherNames]
  | _ =>
      cases secondTyped
      rfl

/-! ### Bodies -/

/-- Two typings of a body leave the same names. -/
theorem BodyTyped.unique {body : List Instruction} {first second : Locals TypeTree}
    (firstTyped : BodyTyped limit description home locals body first)
    (secondTyped : BodyTyped limit description home locals body second) : first = second := by
  induction firstTyped with
  | nil =>
      cases secondTyped
      rfl
  | cons typed _ inductionHypothesis =>
      cases secondTyped with
      | cons otherTyped otherRest =>
          obtain rfl := Instruction.hasType_unique distinct typed otherTyped
          exact inductionHypothesis otherRest

end Unique

theorem bodyTyped_append {limit : UInt32} {description : Module} {home : Function}
    {locals after : Locals TypeTree} {first second : List Instruction} :
    BodyTyped limit description home locals (first ++ second) after ↔
      ∃ between, BodyTyped limit description home locals first between ∧
        BodyTyped limit description home between second after := by
  induction first generalizing locals with
  | nil =>
      refine ⟨fun typed => ⟨locals, .nil, typed⟩, ?_⟩
      rintro ⟨_, ⟨⟩, typed⟩
      exact typed
  | cons instruction first inductionHypothesis =>
      rw [List.cons_append]
      constructor
      · rintro (_ | ⟨typed, restTyped⟩)
        obtain ⟨between, firstTyped, secondTyped⟩ := inductionHypothesis.mp restTyped
        exact ⟨between, .cons typed firstTyped, secondTyped⟩
      · rintro ⟨between, _ | ⟨typed, firstTyped⟩, secondTyped⟩
        exact .cons typed (inductionHypothesis.mpr ⟨between, firstTyped, secondTyped⟩)

/-- Behind instructions of a typing, the rest is typed under the names that they leave. -/
theorem BodyTyped.append_iff {limit : UInt32} {description : Module} {home : Function}
    {locals between after : Locals TypeTree} {first second : List Instruction}
    (distinct : description.DistinctNames)
    (firstTyped : BodyTyped limit description home locals first between) :
    BodyTyped limit description home locals (first ++ second) after ↔
      BodyTyped limit description home between second after := by
  rw [bodyTyped_append]
  constructor
  · rintro ⟨other, otherTyped, typed⟩
    rwa [firstTyped.unique distinct otherTyped]
  · exact fun typed => ⟨between, firstTyped, typed⟩

end TypedIR.Description
