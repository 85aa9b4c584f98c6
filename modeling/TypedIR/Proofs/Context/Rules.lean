import TypedIR.Context.Constants
import TypedIR.Context.Functions
import TypedIR.Proofs.Context.Lookup

/-!
Contract: the rules for new entries of a context, as relations.

Owns:
- the structures that may be added to the table of types;
- the constants;
- the typing of instructions, stated once over what is known of operands and
  callees, so that the same rule serves when an instruction is built and when
  some of its operands are gone.

Does not own: the checks that decide these rules.
-/

namespace TypedIR

/-! ### Types by a look-up -/

section Lookup

variable (shape? : TypeRef → Option TypeShape)

def IntegerBy (type : TypeRef) : Prop := ∃ bits, shape? type = some (.integer bits)

def SizedBy (type : TypeRef) : Prop := ∃ shape, shape? type = some shape ∧ shape.isSized = true

/-- A result type of functions that return a value. -/
def ReturnedBy (type : TypeRef) : Prop := ∃ shape, shape? type = some shape ∧ shape.isVoid = false

variable {shape?}

theorem IntegerBy.mono {later? : TypeRef → Option TypeShape}
    (types : ∀ type shape, shape? type = some shape → later? type = some shape) {type : TypeRef}
    (integer : IntegerBy shape? type) : IntegerBy later? type := by
  obtain ⟨bits, known⟩ := integer
  exact ⟨bits, types _ _ known⟩

theorem SizedBy.mono {later? : TypeRef → Option TypeShape}
    (types : ∀ type shape, shape? type = some shape → later? type = some shape) {type : TypeRef}
    (sized : SizedBy shape? type) : SizedBy later? type := by
  obtain ⟨shape, known, isSized⟩ := sized
  exact ⟨shape, types _ _ known, isSized⟩

theorem ReturnedBy.mono {later? : TypeRef → Option TypeShape}
    (types : ∀ type shape, shape? type = some shape → later? type = some shape) {type : TypeRef}
    (returned : ReturnedBy shape? type) : ReturnedBy later? type := by
  obtain ⟨shape, known, notVoid⟩ := returned
  exact ⟨shape, types _ _ known, notVoid⟩

end Lookup

theorem SizedBy.live {context : Context} {type : TypeId} (sized : SizedBy context.shape? type.index)
    (home : type.context = context.id) : context.Live (.type type) := by
  obtain ⟨shape, known, _⟩ := sized
  exact ⟨home, shape, known⟩

/-! ### Instructions -/

/-- Arguments of the parameters' types, and sized ones behind them if the callee is variadic. -/
structure ArgumentsFit (shape? : TypeRef → Option TypeShape) (has : ValueRef → TypeRef → Prop)
    (parameters : List TypeRef) (variadic : Bool) (arguments : List ValueRef) : Prop where
  enough : parameters.length ≤ arguments.length
  surplus : parameters.length < arguments.length → variadic = true
  fixed : ∀ (position : Nat) argument parameter, arguments[position]? = some argument →
    parameters[position]? = some parameter → has argument parameter
  extra : ∀ (position : Nat) argument, arguments[position]? = some argument →
    parameters.length ≤ position → ∃ type, has argument type ∧ SizedBy shape? type

/-- The typing rule of an instruction of the function `home`. `has` says which type a value has,
`signed` which signature a function has. -/
def Instruction.Typed (shape? : TypeRef → Option TypeShape) (has signed : ValueRef → TypeRef → Prop)
    (home : ValueRef) (type : TypeRef) : Instruction → Prop
  | .binary _ left right => IntegerBy shape? type ∧ has left type ∧ has right type
  | .compare _ left right =>
      shape? type = some (.integer 1) ∧
        ∃ operand, IntegerBy shape? operand ∧ has left operand ∧ has right operand
  | .select condition thenValue elseValue =>
      (∃ truth, shape? truth = some (.integer 1) ∧ has condition truth) ∧
        SizedBy shape? type ∧ has thenValue type ∧ has elseValue type
  | .call callee arguments =>
      ∃ signature parameters variadic, signed callee signature ∧
        shape? signature = some (.function type parameters variadic) ∧
        ArgumentsFit shape? has parameters variadic arguments
  | .ret none =>
      shape? type = some .void ∧ ∃ signature result parameters variadic, signed home signature ∧
        shape? signature = some (.function result parameters variadic) ∧
        shape? result = some .void
  | .ret (some value) =>
      shape? type = some .void ∧ ∃ signature result parameters variadic, signed home signature ∧
        shape? signature = some (.function result parameters variadic) ∧
        ReturnedBy shape? result ∧ has value result
  | .condBranch condition _ _ =>
      shape? type = some .void ∧ ∃ truth, shape? truth = some (.integer 1) ∧ has condition truth
  | .branch _ | .unreachable => shape? type = some .void

section Mono

variable {shape? later? : TypeRef → Option TypeShape}
  {has weaker signed weakerSigned : ValueRef → TypeRef → Prop}
  (types : ∀ type shape, shape? type = some shape → later? type = some shape)

include types

theorem ArgumentsFit.mono {parameters : List TypeRef} {variadic : Bool} {arguments : List ValueRef}
    (values : ∀ value ∈ arguments, ∀ type, has value type → weaker value type)
    (fit : ArgumentsFit shape? has parameters variadic arguments) :
    ArgumentsFit later? weaker parameters variadic arguments where
  enough := fit.enough
  surplus := fit.surplus
  fixed := by
    intro position argument parameter atArgument atParameter
    have argumentHas := fit.fixed position argument parameter atArgument atParameter
    exact values argument (List.mem_of_getElem? atArgument) parameter argumentHas
  extra := by
    intro position argument atArgument beyond
    obtain ⟨type, argumentHas, sized⟩ := fit.extra position argument atArgument beyond
    exact ⟨type, values argument (List.mem_of_getElem? atArgument) type argumentHas,
      sized.mono types⟩

/-- The rule carries over to other knowledge of types, of the operands, of the callee and of the
function around, if it is implied. -/
theorem Instruction.Typed.mono {home : ValueRef} {type : TypeRef} {code : Instruction}
    (values : ∀ value ∈ code.operands, ∀ type, has value type → weaker value type)
    (callees : ∀ callee, code.callee? = some callee →
      ∀ signature, signed callee signature → weakerSigned callee signature)
    (homes : ∀ signature, signed home signature → weakerSigned home signature)
    (typed : code.Typed shape? has signed home type) :
    code.Typed later? weaker weakerSigned home type := by
  cases code with
  | binary operator left right =>
      obtain ⟨integer, leftHas, rightHas⟩ := typed
      exact ⟨integer.mono types, values left (by simp [operands]) _ leftHas,
        values right (by simp [operands]) _ rightHas⟩
  | compare predicate left right =>
      obtain ⟨truth, operand, integer, leftHas, rightHas⟩ := typed
      exact ⟨types _ _ truth, operand, integer.mono types,
        values left (by simp [operands]) _ leftHas, values right (by simp [operands]) _ rightHas⟩
  | select condition thenValue elseValue =>
      obtain ⟨⟨truth, isTruth, conditionHas⟩, sized, thenHas, elseHas⟩ := typed
      exact ⟨⟨truth, types _ _ isTruth, values condition (by simp [operands]) _ conditionHas⟩,
        sized.mono types, values thenValue (by simp [operands]) _ thenHas,
        values elseValue (by simp [operands]) _ elseHas⟩
  | call callee arguments =>
      obtain ⟨signature, parameters, variadic, isSigned, known, fit⟩ := typed
      exact ⟨signature, parameters, variadic, callees callee rfl _ isSigned, types _ _ known,
        fit.mono types values⟩
  | ret value =>
      cases value with
      | none =>
          obtain ⟨isVoid, signature, result, parameters, variadic, isSigned, known, void⟩ := typed
          exact ⟨types _ _ isVoid, signature, result, parameters, variadic,
            homes _ isSigned, types _ _ known, types _ _ void⟩
      | some value =>
          obtain ⟨isVoid, signature, result, parameters, variadic, isSigned, known, returned,
            valueHas⟩ := typed
          exact ⟨types _ _ isVoid, signature, result, parameters, variadic,
            homes _ isSigned, types _ _ known, returned.mono types,
            values value (by simp [operands]) _ valueHas⟩
  | branch target => exact types _ _ typed
  | condBranch condition thenBlock elseBlock =>
      obtain ⟨isVoid, truth, isTruth, conditionHas⟩ := typed
      exact ⟨types _ _ isVoid, truth, types _ _ isTruth,
        values condition (by simp [operands]) _ conditionHas⟩
  | unreachable => exact types _ _ typed

end Mono

/-- Every operand of a typed instruction has a type. -/
theorem Instruction.Typed.operand_has {shape? : TypeRef → Option TypeShape}
    {has signed : ValueRef → TypeRef → Prop} {home operand : ValueRef} {type : TypeRef}
    {code : Instruction} (typed : code.Typed shape? has signed home type)
    (member : operand ∈ code.operands) : ∃ type, has operand type := by
  cases code with
  | binary operator left right =>
      obtain ⟨_, leftHas, rightHas⟩ := typed
      simp only [operands, List.mem_cons, List.not_mem_nil, or_false] at member
      rcases member with rfl | rfl
      · exact ⟨_, leftHas⟩
      · exact ⟨_, rightHas⟩
  | compare predicate left right =>
      obtain ⟨_, operandType, _, leftHas, rightHas⟩ := typed
      simp only [operands, List.mem_cons, List.not_mem_nil, or_false] at member
      rcases member with rfl | rfl
      · exact ⟨_, leftHas⟩
      · exact ⟨_, rightHas⟩
  | select condition thenValue elseValue =>
      obtain ⟨⟨_, _, conditionHas⟩, _, thenHas, elseHas⟩ := typed
      simp only [operands, List.mem_cons, List.not_mem_nil, or_false] at member
      rcases member with rfl | rfl | rfl
      · exact ⟨_, conditionHas⟩
      · exact ⟨_, thenHas⟩
      · exact ⟨_, elseHas⟩
  | call callee arguments =>
      obtain ⟨_, parameters, _, _, _, fit⟩ := typed
      obtain ⟨position, atArgument⟩ := List.mem_iff_getElem?.mp member
      by_cases beyond : parameters.length ≤ position
      · obtain ⟨type, argumentHas, _⟩ := fit.extra position operand atArgument beyond
        exact ⟨type, argumentHas⟩
      · have atParameter := List.getElem?_eq_getElem (Nat.lt_of_not_le beyond)
        exact ⟨_, fit.fixed position operand _ atArgument atParameter⟩
  | ret value =>
      cases value with
      | none => simp [operands] at member
      | some value =>
          obtain ⟨_, _, result, _, _, _, _, _, valueHas⟩ := typed
          obtain rfl : operand = value := by simpa [operands] using member
          exact ⟨result, valueHas⟩
  | branch target => simp [operands] at member
  | condBranch condition thenBlock elseBlock =>
      obtain ⟨_, truth, _, conditionHas⟩ := typed
      obtain rfl : operand = condition := by simpa [operands] using member
      exact ⟨truth, conditionHas⟩
  | unreachable => simp [operands] at member

namespace Context

/-! ### What a context knows -/

def HasType (context : Context) (value : ValueRef) (type : TypeRef) : Prop :=
  ∃ entry, context.value? value = some entry ∧ entry.type = type

theorem HasType.live {context : Context} {value : ValueId} {type : TypeRef}
    (typed : context.HasType value.index type) (home : value.context = context.id) :
    context.Live (.value value) := by
  obtain ⟨entry, found, _⟩ := typed
  exact ⟨home, entry, found⟩

def HasSignature (context : Context) (function : ValueRef) (signature : TypeRef) : Prop :=
  ∃ entry, context.function? function = some entry ∧ entry.signature = signature

/-- The typing rule of a new instruction: all operands and the callee are live. -/
def Types (context : Context) (home : ValueRef) (type : TypeRef) (code : Instruction) : Prop :=
  code.Typed context.shape? context.HasType context.HasSignature home type

/-- The rules of the type constructors. -/
def Forms (settings : Settings) (context : Context) : TypeShape → Prop
  | .void | .label => True
  | .integer bits => settings.checkWidth bits = .ok ()
  | .array element _ => SizedBy context.shape? element
  | .struct fields _ => ∀ field ∈ fields, SizedBy context.shape? field
  | .function result parameters _ =>
      (SizedBy context.shape? result ∨ context.shape? result = some .void) ∧
        ∀ parameter ∈ parameters, SizedBy context.shape? parameter

/-- A live constant of the given type. -/
def IsConstantOf (context : Context) (value : ValueRef) (type : TypeRef) : Prop :=
  ∃ entry, context.value? value = some entry ∧ entry.type = type ∧ entry.kind.isConstant = true

/-- The rules of the constants other than functions. -/
def FormsConstant (context : Context) (type : TypeRef) : ValueKind → Prop
  | .integer number => ∃ bits, context.shape? type = some (.integer bits) ∧
      ∃ source, number = truncate bits source
  | .array elements => ∃ element length, context.shape? type = some (.array element length) ∧
      elements.length = length.toNat ∧ SizedBy context.shape? element ∧
      ∀ part ∈ elements, context.IsConstantOf part element
  | .bytes content => ∃ byte length, context.shape? type = some (.array byte length) ∧
      content.length = length.toNat ∧ context.shape? byte = some (.integer 8)
  | .struct fields => ∃ types packed, context.shape? type = some (.struct types packed) ∧
      (∀ type ∈ types, SizedBy context.shape? type) ∧
      List.Forall₂ context.IsConstantOf fields types
  | .undefined => SizedBy context.shape? type
  | .function | .parameter _ _ | .instruction _ _ => False

end Context

end TypedIR
