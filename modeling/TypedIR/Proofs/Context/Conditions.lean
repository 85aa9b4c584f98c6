import TypedIR.Proofs.Context.Instructions

/-!
Contract: exactly when an operation inside a context succeeds, and with which result.

Owns: one equivalence for each operation that building a module needs. It names all
that the operation checks and the result that it then gives.

Does not own: what the checks mean for types in full.
-/

namespace TypedIR

/-- The bytes that a constant of the given content stores. -/
def storedBytes (content : List UInt8) (terminated : Bool) : List UInt8 :=
  if terminated then content ++ [0] else content

theorem length_storedBytes (content : List UInt8) (terminated : Bool) :
    (storedBytes content terminated).length = content.length + if terminated then 1 else 0 := by
  cases terminated <;> simp [storedBytes]

namespace Context

variable {settings : Settings} {context : Context}

/-! ### Types -/

theorem integerType_eq_ok {bits : UInt32} {result : TypeId × Context} :
    context.integerType settings bits = .ok result ↔
      settings.checkWidth bits = .ok () ∧ context.intern (.integer bits) = result := by
  unfold integerType
  simp only [bind_eq_ok, pure_eq_ok]
  exact ⟨fun ⟨_, fits, equal⟩ => ⟨fits, equal⟩, fun ⟨fits, equal⟩ => ⟨(), fits, equal⟩⟩

theorem arrayType_eq_ok {element : TypeId} {length : UInt32} {result : TypeId × Context} :
    context.arrayType element length = .ok result ↔
      (element.context = context.id ∧ SizedBy context.shape? element.index) ∧
        context.intern (.array element.index length) = result := by
  unfold arrayType
  simp only [bind_eq_ok, pure_eq_ok, requireSized_eq_ok]
  exact ⟨fun ⟨_, sized, equal⟩ => ⟨sized, equal⟩, fun ⟨sized, equal⟩ => ⟨(), sized, equal⟩⟩

theorem structType_eq_ok {fields : List TypeId} {packed : Bool} {result : TypeId × Context} :
    context.structType fields packed = .ok result ↔
      (∀ field ∈ fields, field.context = context.id ∧ SizedBy context.shape? field.index) ∧
        context.intern (.struct (fields.map (·.index)) packed) = result := by
  unfold structType
  simp only [bind_eq_ok, pure_eq_ok, forM_requireSized_eq_ok]
  exact ⟨fun ⟨_, sized, equal⟩ => ⟨sized, equal⟩, fun ⟨sized, equal⟩ => ⟨(), sized, equal⟩⟩

theorem signatureType_eq_ok {returned : TypeId} {parameters : List TypeId} {variadic : Bool}
    {result : TypeId × Context} :
    context.signatureType returned parameters variadic = .ok result ↔
      returned.context = context.id ∧
        (SizedBy context.shape? returned.index ∨ context.shape? returned.index = some .void) ∧
        (∀ parameter ∈ parameters,
          parameter.context = context.id ∧ SizedBy context.shape? parameter.index) ∧
        context.intern (.function returned.index (parameters.map (·.index)) variadic) = result := by
  unfold signatureType
  simp only [bind_eq_ok, resolveType_eq_ok, ite_throw_eq_ok, pure_eq_ok, forM_requireSized_eq_ok,
    Bool.or_eq_true]
  constructor
  · rintro ⟨shape, ⟨home, known⟩, returnable, _, sized, equal⟩
    refine ⟨home, returnable.imp (fun isSized => ⟨shape, known, isSized⟩) fun isVoid => ?_, sized,
      equal⟩
    cases shape with
    | void => exact known
    | _ => cases isVoid
  · rintro ⟨home, ⟨shape, known, isSized⟩ | known, sized, equal⟩
    · exact ⟨shape, ⟨home, known⟩, .inl isSized, (), sized, equal⟩
    · exact ⟨.void, ⟨home, known⟩, .inr rfl, (), sized, equal⟩

/-! ### Constants -/

theorem integerConstant_eq_ok {type : TypeId} {number : Int64} {result : ValueId × Context} :
    context.integerConstant type number = .ok result ↔
      type.context = context.id ∧ ∃ bits, context.shape? type.index = some (.integer bits) ∧
        context.pushConstant type (.integer (truncate bits number)) = result := by
  unfold integerConstant
  simp only [bind_eq_ok, resolveType_eq_ok]
  constructor
  · rintro ⟨shape, ⟨home, known⟩, done⟩
    cases shape with
    | integer bits => exact ⟨home, bits, known, pure_eq_ok.mp done⟩
    | _ => exact (throw_eq_ok.mp done).elim
  · rintro ⟨home, bits, known, equal⟩
    exact ⟨.integer bits, ⟨home, known⟩, pure_eq_ok.mpr equal⟩

theorem lengthOf_eq_ok_iff {count : Nat} {length : UInt32} :
    lengthOf count = .ok length ↔ count < UInt32.size ∧ UInt32.ofNat count = length := by
  unfold lengthOf
  by_cases fits : count < UInt32.size
  · simp [fits]
  · simp [fits]

theorem bytesConstant_eq_ok {content : List UInt8} {terminated : Bool}
    {result : ValueId × Context} :
    context.bytesConstant settings content terminated = .ok result ↔
      (storedBytes content terminated).length < UInt32.size ∧ settings.checkWidth 8 = .ok () ∧
        ∃ byte between type last, context.intern (.integer 8) = (byte, between) ∧
          between.intern (.array byte.index (.ofNat (storedBytes content terminated).length)) =
            (type, last) ∧
          last.pushConstant type (.bytes (storedBytes content terminated)) = result := by
  have unfolded : context.bytesConstant settings content terminated = (do
      let length ← lengthOf (storedBytes content terminated).length
      let byte ← context.integerType settings 8
      let type ← byte.2.arrayType byte.1 length
      return type.2.pushConstant type.1 (.bytes (storedBytes content terminated))) := rfl
  rw [unfolded]
  simp only [bind_eq_ok, pure_eq_ok, lengthOf_eq_ok_iff, integerType_eq_ok, arrayType_eq_ok,
    Prod.exists]
  constructor
  · rintro ⟨_, ⟨fits, rfl⟩, byte, between, ⟨wide, isByte⟩, type, last, ⟨_, isArray⟩, equal⟩
    exact ⟨fits, wide, byte, between, type, last, isByte, isArray, equal⟩
  · rintro ⟨fits, wide, byte, between, type, last, isByte, isArray, equal⟩
    have interned := intern_interned (show context.Forms settings (.integer 8) from wide)
    rw [isByte] at interned
    have sized : SizedBy between.shape? byte.index := ⟨_, interned.known, rfl⟩
    exact ⟨_, ⟨fits, rfl⟩, byte, between, ⟨wide, isByte⟩, type, last,
      ⟨⟨interned.tagged.trans interned.changes.id_eq.symm, sized⟩, isArray⟩, equal⟩

/-! ### Functions -/

theorem declare_eq_ok {name : String} {signature : TypeId} {result : FunctionId × Context} :
    context.declare settings name signature = .ok result ↔
      signature.context = context.id ∧ ∃ returned parameters variadic,
        context.shape? signature.index = some (.function returned parameters variadic) ∧
        context.functionNamed? name = none ∧
        (context.functionId context.values.size,
          context.withFunction settings.convention.code name signature.index parameters) =
            result := by
  unfold declare
  simp only [bind_eq_ok, resolveType_eq_ok]
  constructor
  · rintro ⟨shape, ⟨home, known⟩, done⟩
    cases shape with
    | function returned parameters variadic =>
        simp only [ite_throw_bind_eq_ok, pure_eq_ok, Bool.not_eq_true,
          Option.isSome_eq_false_iff, Option.isNone_iff_eq_none] at done
        exact ⟨home, returned, parameters, variadic, known, done.1, done.2⟩
    | _ => exact (throw_eq_ok.mp done).elim
  · rintro ⟨home, returned, parameters, variadic, known, free, equal⟩
    refine ⟨.function returned parameters variadic, ⟨home, known⟩, ?_⟩
    simp only [ite_throw_bind_eq_ok, pure_eq_ok, Bool.not_eq_true,
      Option.isSome_eq_false_iff, Option.isNone_iff_eq_none]
    exact ⟨free, equal⟩

theorem editFunction_eq_ok {function : FunctionId} {change : FunctionEntry → FunctionEntry}
    {result : Unit × Context} :
    context.editFunction function change = .ok result ↔
      context.Live (.function function) ∧
        ((), context.updateFunction function.index fun entry => (change entry).edited) =
          result := by
  unfold editFunction
  simp only [bind_eq_ok, resolveFunction_eq_ok, pure_eq_ok]
  exact ⟨fun ⟨entry, ⟨home, found⟩, equal⟩ => ⟨⟨home, entry, found⟩, equal⟩,
    fun ⟨⟨home, entry, found⟩, equal⟩ => ⟨entry, ⟨home, found⟩, equal⟩⟩

theorem rename_eq_ok {value : ValueId} {name : String} {result : Unit × Context} :
    context.rename value name = .ok result ↔
      value.context = context.id ∧ ∃ entry, context.value? value.index = some entry ∧
        ¬ (entry.kind = .function ∧
          (context.functionNamed? name).any (fun holder => holder ≠ value.index) = true) ∧
        ((), context.withName value.index name) = result := by
  unfold rename
  simp only [bind_eq_ok, resolveValue_eq_ok, ite_throw_bind_eq_ok, pure_eq_ok]
  exact ⟨fun ⟨entry, ⟨home, found⟩, rest⟩ => ⟨home, entry, found, rest⟩,
    fun ⟨home, entry, found, rest⟩ => ⟨entry, ⟨home, found⟩, rest⟩⟩

theorem appendBlock_eq_ok {function : FunctionId} {name : String} {result : BlockId × Context} :
    context.appendBlock function name = .ok result ↔
      function.context = context.id ∧ ∃ entry, context.function? function.index = some entry ∧
        (context.blockId context.blocks.size, context.withBlock function.index
          (Label.ofBlock (entry.blocks.filterMap fun block => (context.block? block).map (·.name))
            name)) = result := by
  unfold appendBlock
  simp only [bind_eq_ok, resolveFunction_eq_ok, pure_eq_ok]
  exact ⟨fun ⟨entry, ⟨home, found⟩, equal⟩ => ⟨home, entry, found, equal⟩,
    fun ⟨home, entry, found, equal⟩ => ⟨entry, ⟨home, found⟩, equal⟩⟩

theorem setConvention_eq_ok {accepts : UInt32 → Bool} {engine : String} {function : FunctionId}
    {code : UInt32} {result : Unit × Context} :
    context.setConvention accepts engine function code = .ok result ↔
      context.Live (.function function) ∧ accepts code = true ∧
        ((), context.updateFunction function.index fun entry =>
          { entry with convention := code }.edited) = result := by
  unfold setConvention
  simp only [bind_eq_ok, resolveFunction_eq_ok, ite_throw_eq_ok, editFunction_eq_ok]
  exact ⟨fun ⟨_, _, accepted, live, equal⟩ => ⟨live, accepted, equal⟩,
    fun ⟨⟨home, entry, found⟩, accepted, equal⟩ =>
      ⟨entry, ⟨home, found⟩, accepted, ⟨home, entry, found⟩, equal⟩⟩

theorem setPersonality_eq_ok {function personality : FunctionId} {result : Unit × Context} :
    context.setPersonality function personality = .ok result ↔
      context.Live (.function personality) ∧ context.Live (.function function) ∧
        ((), context.updateFunction function.index fun entry =>
          { entry with personality := some personality.index }.edited) = result := by
  unfold setPersonality
  simp only [bind_eq_ok, resolveFunction_eq_ok, editFunction_eq_ok]
  exact ⟨fun ⟨other, ⟨home, found⟩, rest⟩ => ⟨⟨home, other, found⟩, rest⟩,
    fun ⟨⟨home, other, found⟩, rest⟩ => ⟨other, ⟨home, found⟩, rest⟩⟩

/-! ### Attributes -/

theorem parameterAt_eq_ok {function : FunctionId} {position : Nat} {result : ValueId} :
    context.parameterAt function position = .ok result ↔
      function.context = context.id ∧ ∃ entry parameter,
        context.function? function.index = some entry ∧
        entry.parameters[position]? = some parameter ∧ context.valueId parameter = result := by
  unfold parameterAt
  simp only [bind_eq_ok, resolveFunction_eq_ok]
  constructor
  · rintro ⟨entry, ⟨home, found⟩, done⟩
    cases listed : entry.parameters[position]? with
    | none =>
        rw [listed] at done
        exact (throw_eq_ok.mp done).elim
    | some parameter =>
        rw [listed] at done
        exact ⟨home, entry, parameter, found, listed, pure_eq_ok.mp done⟩
  · rintro ⟨home, entry, parameter, found, listed, equal⟩
    refine ⟨entry, ⟨home, found⟩, ?_⟩
    rw [listed]
    exact pure_eq_ok.mpr equal

theorem requireSite_eq_ok {entry : FunctionEntry} {site : Site} {result : Unit} :
    requireSite entry site = .ok result ↔
      ∀ position, site = .parameter position → position < entry.parameters.length := by
  unfold requireSite
  cases site with
  | parameter position => simp
  | _ => simp

theorem addAttribute_eq_ok {function : FunctionId} {site : Site} {value : Attribute}
    {result : Unit × Context} :
    context.addAttribute function site value = .ok result ↔
      function.context = context.id ∧ ∃ entry, context.function? function.index = some entry ∧
        (∀ position, site = .parameter position → position < entry.parameters.length) ∧
        ((), context.updateFunction function.index fun entry =>
          { entry with attributes := entry.attributes.insert site value }.edited) = result := by
  unfold addAttribute resolveSite
  simp only [bind_eq_ok, resolveFunction_eq_ok, pure_eq_ok, editFunction_eq_ok, requireSite_eq_ok]
  constructor
  · rintro ⟨_, ⟨entry, ⟨home, found⟩, _, inside, _⟩, _, equal⟩
    exact ⟨home, entry, found, inside, equal⟩
  · rintro ⟨home, entry, found, inside, equal⟩
    exact ⟨entry, ⟨entry, ⟨home, found⟩, (), inside, rfl⟩, ⟨home, entry, found⟩, equal⟩

theorem setAlignment_eq_ok {value : ValueId} {align : UInt32} {result : Unit × Context} :
    context.setAlignment value align = .ok result ↔
      ∃ function position, context.parameterPlace value = .ok (function, position) ∧
        isPowerOfTwo align.toNat = true ∧
        context.addAttribute function (.parameter position)
          (.enumerated .alignment align.toUInt64) = .ok result := by
  unfold setAlignment
  simp only [bind_eq_ok, Prod.exists, ite_throw_eq_ok]

theorem parameterPlace_of_value {value : ValueId} {type : TypeRef} {function : ValueRef}
    {position : Nat} {name : String} (home : value.context = context.id)
    (found : context.value? value.index = some ⟨type, .parameter function position, name⟩) :
    context.parameterPlace value = .ok (context.functionId function, position) := by
  unfold parameterPlace
  rw [resolveValue_eq_ok.mpr ⟨home, found⟩]
  rfl

/-! ### Operands -/

theorem resolveType_typeId {type : TypeRef} {shape : TypeShape} :
    context.resolveType (context.typeId type) = .ok shape ↔ context.shape? type = some shape :=
  resolveType_eq_ok.trans (and_iff_right rfl)

theorem integerOperand_eq_ok {value : ValueId} {type : TypeRef} :
    context.integerOperand value = .ok type ↔
      value.context = context.id ∧ context.HasType value.index type ∧
        IntegerBy context.shape? type := by
  refine ⟨integerOperand_ok, ?_⟩
  rintro ⟨home, typed, bits, known⟩
  unfold integerOperand
  simp only [bind_eq_ok, operandType_eq_ok, resolveType_typeId, ite_throw_eq_ok, pure_eq_ok]
  exact ⟨type, ⟨home, typed⟩, _, known, rfl, rfl⟩

theorem requireCondition_eq_ok {value : ValueId} {result : Unit} :
    context.requireCondition value = .ok result ↔
      value.context = context.id ∧
        ∃ truth, context.shape? truth = some (.integer 1) ∧ context.HasType value.index truth := by
  refine ⟨requireCondition_ok, ?_⟩
  rintro ⟨home, truth, known, typed⟩
  unfold requireCondition
  simp only [bind_eq_ok, operandType_eq_ok, resolveType_typeId, ite_throw_eq_ok, pure_eq_ok]
  exact ⟨truth, ⟨home, typed⟩, _, known, rfl, trivial⟩

theorem requireSameType_eq_ok {expected found : TypeRef} {result : Unit} :
    context.requireSameType expected found = .ok result ↔ expected = found := by
  refine ⟨requireSameType_ok, ?_⟩
  rintro rfl
  exact if_pos rfl

theorem requireSized_typeId {type : TypeRef} {result : Unit} :
    context.requireSized (context.typeId type) = .ok result ↔ SizedBy context.shape? type :=
  requireSized_eq_ok.trans (and_iff_right rfl)

/-- A value of the context of the given type. -/
def Own (context : Context) (value : ValueId) (type : TypeRef) : Prop :=
  value.context = context.id ∧ context.HasType value.index type

/-- Enough arguments are of the parameters' types, and of sized types behind them. -/
theorem requireArguments_eq_ok {parameters : List TypeRef} {arguments : List ValueId}
    {result : Unit} (enough : parameters.length ≤ arguments.length) :
    context.requireArguments parameters arguments = .ok result ↔
      ∃ extra, List.Forall₂ context.Own arguments (parameters ++ extra) ∧
        ∀ type ∈ extra, SizedBy context.shape? type := by
  induction arguments generalizing parameters with
  | nil =>
      obtain rfl := List.length_eq_zero_iff.mp (Nat.le_zero.mp enough)
      rw [requireArguments]
      exact iff_of_true rfl ⟨[], .nil, by simp⟩
  | cons argument arguments inductionHypothesis =>
      cases parameters with
      | nil =>
          have others := @inductionHypothesis [] (Nat.zero_le _)
          rw [requireArguments]
          simp only [bind_eq_ok, operandType_eq_ok, requireSized_typeId, others, List.nil_append]
          constructor
          · rintro ⟨type, own, _, sized, extra, each, others⟩
            exact ⟨type :: extra, .cons own each, List.forall_mem_cons.mpr ⟨sized, others⟩⟩
          · rintro ⟨_, _ | ⟨own, each⟩, all⟩
            obtain ⟨sized, others⟩ := List.forall_mem_cons.mp all
            exact ⟨_, own, (), sized, _, each, others⟩
      | cons parameter parameters =>
          rw [requireArguments]
          simp only [bind_eq_ok, operandType_eq_ok, requireSameType_eq_ok,
            inductionHypothesis (Nat.le_of_succ_le_succ enough), List.cons_append]
          constructor
          · rintro ⟨_, own, _, rfl, extra, each, sized⟩
            exact ⟨extra, .cons own each, sized⟩
          · rintro ⟨extra, _ | ⟨own, each⟩, sized⟩
            exact ⟨parameter, own, (), rfl, extra, each, sized⟩

theorem signatureOf_eq_ok {entry : FunctionEntry} {result : TypeRef} {parameters : List TypeRef}
    {variadic : Bool} :
    context.signatureOf entry = .ok (result, parameters, variadic) ↔
      context.shape? entry.signature = some (.function result parameters variadic) := by
  refine ⟨signatureOf_ok, fun known => ?_⟩
  unfold signatureOf
  rw [resolveType_typeId.mpr known]
  rfl

/-! ### Instructions -/

variable {block : BlockId} {result : ValueId × Context}

theorem binary_eq_ok {operator : BinaryOperator} {left right : ValueId} {name : String} :
    context.binary block operator left right name = .ok result ↔
      ∃ home type, context.resolveBlock block = .ok home ∧ context.Own left type ∧
        context.Own right type ∧ IntegerBy context.shape? type ∧
        context.appendInstruction home.function block.index type
          (.binary operator left.index right.index) name = result := by
  unfold binary
  simp only [bind_eq_ok, integerOperand_eq_ok, requireSameType_eq_ok, pure_eq_ok]
  constructor
  · rintro ⟨home, found, type, ⟨leftHome, leftTyped, integer⟩, _, ⟨rightHome, rightTyped, _⟩, _, rfl,
      equal⟩
    exact ⟨home, type, found, ⟨leftHome, leftTyped⟩, ⟨rightHome, rightTyped⟩, integer, equal⟩
  · rintro ⟨home, type, found, ⟨leftHome, leftTyped⟩, ⟨rightHome, rightTyped⟩, integer, equal⟩
    exact ⟨home, found, type, ⟨leftHome, leftTyped, integer⟩, type,
      ⟨rightHome, rightTyped, integer⟩, (), rfl, equal⟩

theorem compare_eq_ok {predicate : Predicate} {left right : ValueId} {name : String} :
    context.compare settings block predicate left right name = .ok result ↔
      ∃ home type, context.resolveBlock block = .ok home ∧ context.Own left type ∧
        context.Own right type ∧ IntegerBy context.shape? type ∧
        settings.checkWidth 1 = .ok () ∧
        (context.intern (.integer 1)).2.appendInstruction home.function block.index
          (context.intern (.integer 1)).1.index (.compare predicate left.index right.index) name =
            result := by
  unfold compare
  simp only [bind_eq_ok, integerOperand_eq_ok, requireSameType_eq_ok, integerType_eq_ok,
    pure_eq_ok]
  constructor
  · rintro ⟨home, found, type, ⟨leftHome, leftTyped, integer⟩, _, ⟨rightHome, rightTyped, _⟩, _, rfl,
      _, ⟨fits, rfl⟩, equal⟩
    exact ⟨home, type, found, ⟨leftHome, leftTyped⟩, ⟨rightHome, rightTyped⟩, integer, fits, equal⟩
  · rintro ⟨home, type, found, ⟨leftHome, leftTyped⟩, ⟨rightHome, rightTyped⟩, integer, fits, equal⟩
    exact ⟨home, found, type, ⟨leftHome, leftTyped, integer⟩, type,
      ⟨rightHome, rightTyped, integer⟩, (), rfl, _, ⟨fits, rfl⟩, equal⟩

theorem select_eq_ok {condition thenValue elseValue : ValueId} {name : String} :
    context.select block condition thenValue elseValue name = .ok result ↔
      ∃ home type truth, context.resolveBlock block = .ok home ∧ context.Own condition truth ∧
        context.shape? truth = some (.integer 1) ∧ context.Own thenValue type ∧
        context.Own elseValue type ∧ SizedBy context.shape? type ∧
        context.appendInstruction home.function block.index type
          (.select condition.index thenValue.index elseValue.index) name = result := by
  unfold select
  simp only [bind_eq_ok, requireCondition_eq_ok, operandType_eq_ok, requireSized_typeId,
    requireSameType_eq_ok, pure_eq_ok]
  constructor
  · rintro ⟨home, found, _, ⟨conditionHome, truth, isTruth, conditionTyped⟩, type, thenOwn, _,
      elseOwn, _, sized, _, rfl, equal⟩
    exact ⟨home, type, truth, found, ⟨conditionHome, conditionTyped⟩, isTruth, thenOwn, elseOwn,
      sized, equal⟩
  · rintro ⟨home, type, truth, found, ⟨conditionHome, conditionTyped⟩, isTruth, thenOwn, elseOwn,
      sized, equal⟩
    exact ⟨home, found, (), ⟨conditionHome, truth, isTruth, conditionTyped⟩, type, thenOwn, type,
      elseOwn, (), sized, (), rfl, equal⟩

theorem call_eq_ok {callee : FunctionId} {arguments : List ValueId} {name : String} :
    context.call block callee arguments name = .ok result ↔
      ∃ home entry returned parameters variadic extra, context.resolveBlock block = .ok home ∧
        context.Live (.value callee.toValue) ∧ context.resolveFunction callee = .ok entry ∧
        context.shape? entry.signature = some (.function returned parameters variadic) ∧
        List.Forall₂ context.Own arguments (parameters ++ extra) ∧
        (∀ type ∈ extra, SizedBy context.shape? type) ∧ (extra = [] ∨ variadic = true) ∧
        context.appendInstruction home.function block.index returned
          (.call callee.index (arguments.map (·.index))) name = result := by
  unfold call
  simp only [bind_eq_ok, Prod.exists, signatureOf_eq_ok, ite_throw_bind_eq_ok, pure_eq_ok]
  constructor
  · rintro ⟨home, found, value, live, entry, resolved, returned, parameters, variadic, signed,
      counted, _, checked, equal⟩
    obtain ⟨enough, surplus⟩ := not_or.mp counted
    obtain ⟨extra, each, sized⟩ := (requireArguments_eq_ok (Nat.le_of_not_lt enough)).mp checked
    refine ⟨home, entry, returned, parameters, variadic, extra, found, live_of_resolveValue live,
      resolved, signed, each, sized, ?_, equal⟩
    cases extra with
    | nil => exact .inl rfl
    | cons type extra =>
        refine .inr (Decidable.byContradiction fun notVariadic => surplus ⟨?_, notVariadic⟩)
        rw [each.length_eq, List.length_append, List.length_cons]
        omega
  · rintro ⟨home, entry, returned, parameters, variadic, extra, found, ⟨valueHome, value, live⟩,
      resolved, signed, each, sized, surplus, equal⟩
    have counted := each.length_eq
    rw [List.length_append] at counted
    refine ⟨home, found, value, resolveValue_eq_ok.mpr ⟨valueHome, live⟩, entry, resolved, returned,
      parameters, variadic, signed, ?_, (), ?_, equal⟩
    · rintro (few | ⟨many, notVariadic⟩)
      · omega
      · rcases surplus with rfl | isVariadic
        · simp at counted
          omega
        · exact notVariadic isVariadic
    · exact (requireArguments_eq_ok (by omega)).mpr ⟨extra, each, sized⟩

theorem requireReturn_none_eq_ok {returned : TypeRef} {done : Unit} :
    context.requireReturn returned none = .ok done ↔ context.shape? returned = some .void := by
  refine ⟨fun checked => (requireReturn_ok checked).2, fun known => ?_⟩
  unfold requireReturn
  rw [resolveType_typeId.mpr known]
  rfl

theorem requireReturn_some_eq_ok {returned : TypeRef} {value : ValueId} {done : Unit} :
    context.requireReturn returned (some value) = .ok done ↔
      ReturnedBy context.shape? returned ∧ context.Own value returned := by
  constructor
  · intro checked
    obtain ⟨live, shape, typed⟩ := requireReturn_ok checked
    exact ⟨shape, (live value rfl).1, typed⟩
  · rintro ⟨⟨shape, known, notVoid⟩, own⟩
    unfold requireReturn
    simp only [bind_eq_ok, resolveType_typeId, operandType_eq_ok]
    refine ⟨shape, known, returned, own, ?_⟩
    rw [if_neg (Bool.eq_false_iff.mp notVoid)]
    exact requireSameType_eq_ok.mpr rfl

theorem ret_eq_ok {value : Option ValueId} :
    context.ret block value = .ok result ↔
      ∃ home entry returned parameters variadic, context.resolveBlock block = .ok home ∧
        context.function? home.function = some entry ∧
        context.shape? entry.signature = some (.function returned parameters variadic) ∧
        context.requireReturn returned value = .ok () ∧
        context.appendTerminator home.function block.index (.ret (value.map (·.index))) =
          result := by
  unfold ret
  simp only [bind_eq_ok, Prod.exists, signatureOf_eq_ok, pure_eq_ok, resolveFunction_eq_ok]
  constructor
  · rintro ⟨home, found, entry, ⟨_, live⟩, returned, parameters, variadic, signed, _, checked,
      equal⟩
    exact ⟨home, entry, returned, parameters, variadic, found, live, signed, checked, equal⟩
  · rintro ⟨home, entry, returned, parameters, variadic, found, live, signed, checked, equal⟩
    exact ⟨home, found, entry, ⟨rfl, live⟩, returned, parameters, variadic, signed, (), checked,
      equal⟩

theorem branch_eq_ok {target : BlockId} :
    context.branch block target = .ok result ↔
      ∃ home, context.resolveBlock block = .ok home ∧ context.Live (.block target) ∧
        context.appendTerminator home.function block.index (.branch target.index) = result := by
  unfold branch
  simp only [bind_eq_ok, @resolveBlock_eq_ok _ target, pure_eq_ok]
  exact ⟨fun ⟨home, found, other, live, equal⟩ => ⟨home, found, ⟨live.1, other, live.2⟩, equal⟩,
    fun ⟨home, found, ⟨targetHome, other, live⟩, equal⟩ =>
      ⟨home, found, other, ⟨targetHome, live⟩, equal⟩⟩

theorem condBranch_eq_ok {condition : ValueId} {thenBlock elseBlock : BlockId} :
    context.condBranch block condition thenBlock elseBlock = .ok result ↔
      ∃ home truth, context.resolveBlock block = .ok home ∧ context.Own condition truth ∧
        context.shape? truth = some (.integer 1) ∧ context.Live (.block thenBlock) ∧
        context.Live (.block elseBlock) ∧
        context.appendTerminator home.function block.index
          (.condBranch condition.index thenBlock.index elseBlock.index) = result := by
  unfold condBranch
  simp only [bind_eq_ok, requireCondition_eq_ok, pure_eq_ok]
  constructor
  · rintro ⟨home, found, _, ⟨conditionHome, truth, isTruth, typed⟩, first, firstLive, second,
      secondLive, equal⟩
    exact ⟨home, truth, found, ⟨conditionHome, typed⟩, isTruth, live_of_resolveBlock firstLive,
      live_of_resolveBlock secondLive, equal⟩
  · rintro ⟨home, truth, found, ⟨conditionHome, typed⟩, isTruth, ⟨thenHome, first, firstLive⟩,
      ⟨elseHome, second, secondLive⟩, equal⟩
    exact ⟨home, found, (), ⟨conditionHome, truth, isTruth, typed⟩, first,
      resolveBlock_eq_ok.mpr ⟨thenHome, firstLive⟩, second,
      resolveBlock_eq_ok.mpr ⟨elseHome, secondLive⟩, equal⟩

theorem unreachable_eq_ok :
    context.unreachable block = .ok result ↔
      ∃ home, context.resolveBlock block = .ok home ∧
        context.appendTerminator home.function block.index .unreachable = result := by
  unfold unreachable
  simp only [bind_eq_ok, pure_eq_ok]

end Context

end TypedIR
