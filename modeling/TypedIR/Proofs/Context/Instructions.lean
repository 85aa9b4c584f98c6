import TypedIR.Proofs.Context.Operations

/-!
Contract: what building an instruction does when it succeeds.

Owns: one lemma for each check of an operand, and one for each instruction. It
says that all handles are live in the context and that the instruction obeys the
typing rule when it is appended.
-/

namespace TypedIR.Context

variable {settings : Settings} {context after : Context}

/-! ### Operands -/

theorem operandType_eq_ok {value : ValueId} {type : TypeRef} :
    context.operandType value = .ok type ↔
      value.context = context.id ∧ context.HasType value.index type := by
  unfold operandType HasType
  simp only [bind_eq_ok, resolveValue_eq_ok, pure_eq_ok]
  constructor
  · rintro ⟨entry, ⟨home, found⟩, same⟩
    exact ⟨home, entry, found, same⟩
  · rintro ⟨home, entry, found, same⟩
    exact ⟨entry, ⟨home, found⟩, same⟩

theorem integerOperand_ok {value : ValueId} {type : TypeRef}
    (done : context.integerOperand value = .ok type) :
    value.context = context.id ∧ context.HasType value.index type ∧
      IntegerBy context.shape? type := by
  unfold integerOperand at done
  simp only [bind_eq_ok, operandType_eq_ok, resolveType_eq_ok, ite_throw_eq_ok,
    pure_eq_ok] at done
  obtain ⟨_, ⟨home, typed⟩, shape, ⟨_, known⟩, integer, rfl⟩ := done
  refine ⟨home, typed, ?_⟩
  cases shape with
  | integer bits => exact ⟨bits, known⟩
  | _ => exact absurd integer Bool.false_ne_true

theorem requireCondition_ok {value : ValueId} {result : Unit}
    (done : context.requireCondition value = .ok result) :
    value.context = context.id ∧
      ∃ truth, context.shape? truth = some (.integer 1) ∧ context.HasType value.index truth := by
  unfold requireCondition at done
  simp only [bind_eq_ok, operandType_eq_ok, resolveType_eq_ok, ite_throw_eq_ok] at done
  obtain ⟨truth, ⟨home, typed⟩, shape, ⟨_, known⟩, rfl, _⟩ := done
  exact ⟨home, truth, known, typed⟩

theorem requireSameType_ok {expected found : TypeRef} {result : Unit}
    (done : context.requireSameType expected found = .ok result) : expected = found := by
  unfold requireSameType at done
  by_cases same : expected = found
  · exact same
  · rw [if_neg same] at done
    cases done

theorem requireArguments_ok {parameters : List TypeRef} {arguments : List ValueId} {result : Unit}
    (done : context.requireArguments parameters arguments = .ok result) :
    (∀ argument ∈ arguments, context.Live (.value argument)) ∧
      (∀ (position : Nat) argument parameter,
        (arguments.map (·.index))[position]? = some argument →
        parameters[position]? = some parameter → context.HasType argument parameter) ∧
      ∀ (position : Nat) argument, (arguments.map (·.index))[position]? = some argument →
        parameters.length ≤ position →
        ∃ type, context.HasType argument type ∧ SizedBy context.shape? type := by
  induction arguments generalizing parameters with
  | nil => simp
  | cons argument arguments inductionHypothesis =>
      cases parameters with
      | nil =>
          rw [requireArguments] at done
          simp only [bind_eq_ok, operandType_eq_ok, requireSized_eq_ok] at done
          obtain ⟨type, ⟨home, typed⟩, _, ⟨_, sized⟩, done⟩ := done
          obtain ⟨live, _, extra⟩ := inductionHypothesis done
          refine ⟨List.forall_mem_cons.mpr ⟨typed.live home, live⟩, by simp, ?_⟩
          intro position other atOther _
          cases position with
          | zero =>
              obtain rfl : argument.index = other := by simpa using atOther
              exact ⟨type, typed, sized⟩
          | succ position => exact extra position other (by simpa using atOther) (Nat.zero_le _)
      | cons parameter parameters =>
          rw [requireArguments] at done
          simp only [bind_eq_ok, operandType_eq_ok] at done
          obtain ⟨type, ⟨home, typed⟩, _, same, done⟩ := done
          obtain rfl := requireSameType_ok same
          obtain ⟨live, fixed, extra⟩ := inductionHypothesis done
          refine ⟨List.forall_mem_cons.mpr ⟨typed.live home, live⟩, ?_, ?_⟩
          · intro position other expected atOther atExpected
            cases position with
            | zero =>
                obtain rfl : argument.index = other := by simpa using atOther
                obtain rfl : parameter = expected := by simpa using atExpected
                exact typed
            | succ position =>
                exact fixed position other expected (by simpa using atOther)
                  (by simpa using atExpected)
          · intro position other atOther beyond
            cases position with
            | zero => simp at beyond
            | succ position =>
                exact extra position other (by simpa using atOther) (by simpa using beyond)

theorem signatureOf_ok {entry : FunctionEntry} {result : TypeRef} {parameters : List TypeRef}
    {variadic : Bool} (done : context.signatureOf entry = .ok (result, parameters, variadic)) :
    context.shape? entry.signature = some (.function result parameters variadic) := by
  unfold signatureOf at done
  simp only [bind_eq_ok, resolveType_eq_ok] at done
  obtain ⟨shape, ⟨_, known⟩, done⟩ := done
  cases shape with
  | function returned expected more =>
      have parts := pure_eq_ok.mp done
      simp only [Prod.mk.injEq] at parts
      obtain ⟨rfl, rfl, rfl⟩ := parts
      exact known
  | _ => exact (throw_eq_ok.mp done).elim

/-! ### Appending -/

variable {block : BlockId} {home : Block} {value : ValueId}

theorem appendInstruction_ok {type : TypeRef} {code : Instruction} {name : String}
    (found : context.block? block.index = some home)
    (typed : context.Types home.function type code)
    (targets : ∀ target ∈ code.successors, (context.block? target).isSome)
    (equal : context.appendInstruction home.function block.index type code name = (value, after)) :
    Changes settings .plain context after := by
  have change : Change settings .plain context
      (context.appendInstruction home.function block.index type code name).2 :=
    .append name found typed targets
  rw [equal] at change
  exact .single change

/-- A terminator is typed once the type void is there. -/
theorem appendTerminator_ok {code : Instruction}
    (found : context.block? block.index = some home)
    (typed : ∀ type between, Interned settings context .void type between →
      between.Types home.function type.index code)
    (targets : ∀ target ∈ code.successors, (context.block? target).isSome)
    (equal : context.appendTerminator home.function block.index code = (value, after)) :
    Changes settings .plain context after := by
  have interned : Interned settings context .void context.voidType.1 context.voidType.2 :=
    intern_interned trivial
  refine interned.changes.trans (appendInstruction_ok ?_ (typed _ _ interned) ?_ equal)
  · rwa [interned.blocks]
  · intro target member
    rw [interned.blocks]
    exact targets target member

/-! ### Instructions -/

theorem binary_ok {operator : BinaryOperator} {left right : ValueId} {name : String}
    (done : context.binary block operator left right name = .ok (value, after)) :
    context.Live (.block block) ∧ context.Live (.value left) ∧ context.Live (.value right) ∧
      Changes settings .plain context after := by
  unfold binary at done
  simp only [bind_eq_ok, resolveBlock_eq_ok, pure_eq_ok] at done
  obtain ⟨home, ⟨blockHome, found⟩, type, leftDone, _, rightDone, _, same, equal⟩ := done
  obtain ⟨leftHome, leftHas, integer⟩ := integerOperand_ok leftDone
  obtain ⟨rightHome, rightHas, _⟩ := integerOperand_ok rightDone
  obtain rfl := requireSameType_ok same
  refine ⟨⟨blockHome, home, found⟩, leftHas.live leftHome, rightHas.live rightHome,
    appendInstruction_ok found ?_ ?_ equal⟩
  · exact ⟨integer, leftHas, rightHas⟩
  · simp [Instruction.successors]

theorem compare_ok {predicate : Predicate} {left right : ValueId} {name : String}
    (done : context.compare settings block predicate left right name = .ok (value, after)) :
    context.Live (.block block) ∧ context.Live (.value left) ∧ context.Live (.value right) ∧
      Changes settings .plain context after := by
  unfold compare at done
  simp only [bind_eq_ok, resolveBlock_eq_ok, pure_eq_ok, Prod.exists] at done
  obtain ⟨home, ⟨blockHome, found⟩, operand, leftDone, _, rightDone, _, same, truth, between,
    isTruth, equal⟩ := done
  obtain ⟨leftHome, leftHas, integer⟩ := integerOperand_ok leftDone
  obtain ⟨rightHome, rightHas, _⟩ := integerOperand_ok rightDone
  obtain rfl := requireSameType_ok same
  have interned := integerType_ok isTruth
  refine ⟨⟨blockHome, home, found⟩, leftHas.live leftHome, rightHas.live rightHome,
    interned.changes.trans (appendInstruction_ok ?_ ?_ ?_ equal)⟩
  · rwa [interned.blocks]
  · exact ⟨interned.known, operand, integer.mono interned.kept, interned.hasType leftHas,
      interned.hasType rightHas⟩
  · simp [Instruction.successors]

theorem select_ok {condition thenValue elseValue : ValueId} {name : String}
    (done : context.select block condition thenValue elseValue name = .ok (value, after)) :
    context.Live (.block block) ∧ context.Live (.value condition) ∧
      context.Live (.value thenValue) ∧ context.Live (.value elseValue) ∧
      Changes settings .plain context after := by
  unfold select at done
  simp only [bind_eq_ok, resolveBlock_eq_ok, operandType_eq_ok, requireSized_eq_ok,
    pure_eq_ok] at done
  obtain ⟨home, ⟨blockHome, found⟩, _, tested, type, ⟨thenHome, thenHas⟩, _,
    ⟨elseHome, elseHas⟩, _, ⟨_, sized⟩, _, same, equal⟩ := done
  obtain ⟨conditionHome, truth, isTruth, conditionHas⟩ := requireCondition_ok tested
  obtain rfl := requireSameType_ok same
  refine ⟨⟨blockHome, home, found⟩, conditionHas.live conditionHome, thenHas.live thenHome,
    elseHas.live elseHome, appendInstruction_ok found ?_ ?_ equal⟩
  · exact ⟨⟨truth, isTruth, conditionHas⟩, sized, thenHas, elseHas⟩
  · simp [Instruction.successors]

theorem call_ok {callee : FunctionId} {arguments : List ValueId} {name : String}
    (done : context.call block callee arguments name = .ok (value, after)) :
    context.Live (.block block) ∧ context.Live (.function callee) ∧
      (∀ argument ∈ arguments, context.Live (.value argument)) ∧
      Changes settings .plain context after := by
  unfold call at done
  simp only [bind_eq_ok, resolveBlock_eq_ok, resolveFunction_eq_ok, ite_throw_bind_eq_ok,
    pure_eq_ok, Prod.exists] at done
  obtain ⟨home, ⟨blockHome, found⟩, _, _, entry, ⟨calleeHome, live⟩, result, parameters, variadic,
    signed, counted, _, checked, equal⟩ := done
  obtain ⟨argumentsLive, fixed, extra⟩ := requireArguments_ok checked
  refine ⟨⟨blockHome, home, found⟩, ⟨calleeHome, entry, live⟩, argumentsLive,
    appendInstruction_ok found ?_ ?_ equal⟩
  · refine ⟨entry.signature, parameters, variadic, ⟨entry, live, rfl⟩, signatureOf_ok signed, ?_⟩
    obtain ⟨enough, surplus⟩ := not_or.mp counted
    refine ⟨?_, ?_, fixed, extra⟩
    · rw [List.length_map]
      omega
    · intro more
      rw [List.length_map] at more
      simpa using fun notVariadic => surplus ⟨more, notVariadic⟩
  · simp [Instruction.successors]

theorem requireReturn_ok {result : TypeRef} {value : Option ValueId} {done : Unit}
    (checked : context.requireReturn result value = .ok done) :
    (∀ returned ∈ value, context.Live (.value returned)) ∧
      match value with
      | none => context.shape? result = some .void
      | some returned =>
          ReturnedBy context.shape? result ∧ context.HasType returned.index result := by
  unfold requireReturn at checked
  simp only [bind_eq_ok, resolveType_eq_ok] at checked
  obtain ⟨shape, ⟨_, known⟩, checked⟩ := checked
  cases value with
  | none =>
      simp only [ite_throw_eq_ok] at checked
      refine ⟨by simp, ?_⟩
      cases shape with
      | void => exact known
      | _ => exact absurd checked.1 Bool.false_ne_true
  | some returned =>
      simp only [bind_eq_ok, operandType_eq_ok] at checked
      obtain ⟨type, ⟨home, typed⟩, checked⟩ := checked
      by_cases isVoid : shape.isVoid = true
      · rw [if_pos isVoid] at checked
        exact (throw_eq_ok.mp checked).elim
      · rw [if_neg isVoid] at checked
        obtain rfl := requireSameType_ok checked
        refine ⟨?_, ⟨shape, known, Bool.eq_false_iff.mpr isVoid⟩, typed⟩
        intro other member
        obtain rfl : returned = other := by simpa using member
        exact typed.live home

theorem ret_ok {returned : Option ValueId}
    (done : context.ret block returned = .ok (value, after)) :
    context.Live (.block block) ∧ (∀ value ∈ returned, context.Live (.value value)) ∧
      Changes settings .plain context after := by
  unfold ret at done
  simp only [bind_eq_ok, resolveBlock_eq_ok, resolveFunction_eq_ok, pure_eq_ok,
    Prod.exists] at done
  obtain ⟨home, ⟨blockHome, found⟩, entry, ⟨_, live⟩, result, parameters, variadic, signed, _,
    checked, equal⟩ := done
  obtain ⟨returnedLive, fits⟩ := requireReturn_ok checked
  refine ⟨⟨blockHome, home, found⟩, returnedLive, appendTerminator_ok found ?_ ?_ equal⟩
  · intro type between interned
    have isSigned : between.HasSignature home.function entry.signature :=
      interned.hasSignature ⟨entry, live, rfl⟩
    have shape := interned.kept _ _ (signatureOf_ok signed)
    cases returned with
    | none =>
        exact ⟨interned.known, entry.signature, result, parameters, variadic, isSigned, shape,
          interned.kept _ _ fits⟩
    | some value =>
        exact ⟨interned.known, entry.signature, result, parameters, variadic, isSigned, shape,
          fits.1.mono interned.kept, interned.hasType fits.2⟩
  · simp [Instruction.successors]

theorem branch_ok {target : BlockId} (done : context.branch block target = .ok (value, after)) :
    context.Live (.block block) ∧ context.Live (.block target) ∧
      Changes settings .plain context after := by
  unfold branch at done
  simp only [bind_eq_ok, resolveBlock_eq_ok, pure_eq_ok] at done
  obtain ⟨home, ⟨blockHome, found⟩, other, ⟨targetHome, live⟩, equal⟩ := done
  refine ⟨⟨blockHome, home, found⟩, ⟨targetHome, other, live⟩,
    appendTerminator_ok found ?_ ?_ equal⟩
  · exact fun type between interned => interned.known
  · simp [Instruction.successors, live]

theorem condBranch_ok {condition : ValueId} {thenBlock elseBlock : BlockId}
    (done : context.condBranch block condition thenBlock elseBlock = .ok (value, after)) :
    context.Live (.block block) ∧ context.Live (.value condition) ∧
      context.Live (.block thenBlock) ∧ context.Live (.block elseBlock) ∧
      Changes settings .plain context after := by
  unfold condBranch at done
  simp only [bind_eq_ok, resolveBlock_eq_ok, pure_eq_ok] at done
  obtain ⟨home, ⟨blockHome, found⟩, _, tested, first, ⟨thenHome, thenLive⟩, second,
    ⟨elseHome, elseLive⟩, equal⟩ := done
  obtain ⟨conditionHome, truth, isTruth, conditionHas⟩ := requireCondition_ok tested
  refine ⟨⟨blockHome, home, found⟩, conditionHas.live conditionHome, ⟨thenHome, first, thenLive⟩,
    ⟨elseHome, second, elseLive⟩, appendTerminator_ok found ?_ ?_ equal⟩
  · intro type between interned
    exact ⟨interned.known, truth, interned.kept _ _ isTruth, interned.hasType conditionHas⟩
  · simp [Instruction.successors, thenLive, elseLive]

theorem unreachable_ok (done : context.unreachable block = .ok (value, after)) :
    context.Live (.block block) ∧ Changes settings .plain context after := by
  unfold unreachable at done
  simp only [bind_eq_ok, resolveBlock_eq_ok, pure_eq_ok] at done
  obtain ⟨home, ⟨blockHome, found⟩, equal⟩ := done
  refine ⟨⟨blockHome, home, found⟩, appendTerminator_ok found ?_ ?_ equal⟩
  · exact fun type between interned => interned.known
  · simp [Instruction.successors]

end TypedIR.Context
