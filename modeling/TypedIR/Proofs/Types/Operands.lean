import TypedIR.Proofs.Types.Canonical

/-!
Contract: instructions and the operands of theirs that are still live.

Owns:
- the typing rule read for live operands and callees only, from the rule for the
  types they had when the instruction was appended;
- operands are sized, so none of them has the type of a function, a block or of
  nothing;
- terminators have the type void.

A released operand has no type any more, and the rule then asks nothing of it.
-/

namespace TypedIR

/-! ### What the rule asks of all operands -/

section Rule

variable {shape? : TypeRef → Option TypeShape} {has signed : ValueRef → TypeRef → Prop}
  {home operand : ValueRef} {type : TypeRef} {code : Instruction}

theorem IntegerBy.sized (integer : IntegerBy shape? type) : SizedBy shape? type := by
  obtain ⟨bits, known⟩ := integer
  exact ⟨.integer bits, known, rfl⟩

/-- Where signatures have sized parameters and a sized result, or none, all operands are sized. -/
theorem Instruction.Typed.operand_sized
    (results : ∀ signature result parameters variadic,
      shape? signature = some (.function result parameters variadic) →
        SizedBy shape? result ∨ shape? result = some .void)
    (taken : ∀ signature result parameters variadic,
      shape? signature = some (.function result parameters variadic) →
        ∀ parameter ∈ parameters, SizedBy shape? parameter)
    (typed : code.Typed shape? has signed home type) (member : operand ∈ code.operands) :
    ∃ operandType, has operand operandType ∧ SizedBy shape? operandType := by
  cases code with
  | binary operator left right =>
      obtain ⟨integer, leftHas, rightHas⟩ := typed
      rcases List.mem_pair.mp member with rfl | rfl
      · exact ⟨type, leftHas, integer.sized⟩
      · exact ⟨type, rightHas, integer.sized⟩
  | compare predicate left right =>
      obtain ⟨_, common, integer, leftHas, rightHas⟩ := typed
      rcases List.mem_pair.mp member with rfl | rfl
      · exact ⟨common, leftHas, integer.sized⟩
      · exact ⟨common, rightHas, integer.sized⟩
  | select condition thenValue elseValue =>
      obtain ⟨⟨truth, isTruth, conditionHas⟩, sized, thenHas, elseHas⟩ := typed
      rcases List.mem_cons.mp member with rfl | arm
      · exact ⟨truth, conditionHas, .integer 1, isTruth, rfl⟩
      · rcases List.mem_pair.mp arm with rfl | rfl
        · exact ⟨type, thenHas, sized⟩
        · exact ⟨type, elseHas, sized⟩
  | call callee arguments =>
      obtain ⟨signature, parameters, variadic, _, known, fit⟩ := typed
      obtain ⟨position, atArgument⟩ := List.mem_iff_getElem?.mp member
      by_cases beyond : parameters.length ≤ position
      · exact fit.extra position operand atArgument beyond
      · have atParameter := List.getElem?_eq_getElem (Nat.lt_of_not_le beyond)
        refine ⟨_, fit.fixed position operand _ atArgument atParameter, ?_⟩
        exact taken signature type parameters variadic known _ (List.mem_of_getElem? atParameter)
  | ret value =>
      cases value with
      | none => cases member
      | some value =>
          obtain ⟨_, signature, result, parameters, variadic, _, known, returned, valueHas⟩ := typed
          obtain rfl : operand = value := List.mem_singleton.mp member
          refine ⟨result, valueHas, (results _ _ _ _ known).resolve_right fun isVoid => ?_⟩
          obtain ⟨shape, resultShape, notVoid⟩ := returned
          rw [isVoid] at resultShape
          obtain rfl := Option.some.inj resultShape
          cases notVoid
  | branch target => cases member
  | condBranch condition thenBlock elseBlock =>
      obtain ⟨_, truth, isTruth, conditionHas⟩ := typed
      obtain rfl : operand = condition := List.mem_singleton.mp member
      exact ⟨truth, conditionHas, .integer 1, isTruth, rfl⟩
  | unreachable => cases member

theorem Instruction.Typed.terminator_void (typed : code.Typed shape? has signed home type)
    (ends : code.isTerminator = true) : shape? type = some .void := by
  cases code with
  | ret value =>
      cases value with
      | none => exact typed.1
      | some value => exact typed.1
  | branch target => exact typed
  | condBranch condition thenBlock elseBlock => exact typed.1
  | unreachable => exact typed
  | _ => cases ends

end Rule

namespace Context

variable {settings : Settings} {context : Context}

/-! ### Live operands and callees -/

/-- As long as the value is live, it has the type. -/
def TypedWhileLive (context : Context) (value : ValueRef) (type : TypeRef) : Prop :=
  ∀ entry, context.value? value = some entry → entry.type = type

/-- As long as the function is live, it has the signature. -/
def SignedWhileLive (context : Context) (function : ValueRef) (signature : TypeRef) : Prop :=
  ∀ entry, context.function? function = some entry → entry.signature = signature

theorem HadType.whileLive {value : ValueRef} {type : TypeRef} (typed : context.HadType value type) :
    context.TypedWhileLive value type :=
  fun _ live => typed.2 _ _ (.of_value? live)

theorem HadType.signedWhileLive (owned : context.Owned) {function : ValueRef}
    {signature : TypeRef} (typed : context.HadType function signature) :
    context.SignedWhileLive function signature := by
  intro entry live
  obtain ⟨member, rfl⟩ := mem_of_function? live
  exact typed.2 _ _ (owned.functions.signed entry member)

/-- The instruction obeys its typing rule for all of its operands and callees that are live, and
these operands are sized. -/
structure TypedLive (context : Context) (home : ValueRef) (type : TypeRef) (code : Instruction) :
    Prop where
  rule : code.Typed context.shape? context.TypedWhileLive context.SignedWhileLive home type
  terminator : code.isTerminator = true → context.shape? type = some .void
  operands : ∀ operand ∈ code.operands, ∀ entry, context.value? operand = some entry →
    SizedBy context.shape? entry.type

theorem WellTyped.typedLive (wellTyped : context.WellTyped) (owned : context.Owned)
    (canonical : context.Canonical settings) {value home : ValueRef} {type : TypeRef}
    {block : BlockRef} {code : Instruction}
    (held : context.Holds value type (.instruction block code))
    (named : context.parent? block = some home) : context.TypedLive home type code := by
  have typed := wellTyped value type block code home held named
  have rule : code.Typed context.shape? context.TypedWhileLive context.SignedWhileLive home type :=
    Instruction.Typed.mono (fun _ _ known => known) (fun _ _ _ had => had.whileLive)
      (fun _ _ _ had => had.signedWhileLive owned) (fun _ had => had.signedWhileLive owned) typed
  refine ⟨rule, rule.terminator_void, ?_⟩
  intro operand member entry live
  have sized := rule.operand_sized
    (fun signature _ _ _ known => (canonical.formed signature _ known).1)
    (fun signature _ _ _ known => (canonical.formed signature _ known).2) member
  obtain ⟨operandType, operandTyped, operandSized⟩ := sized
  rw [operandTyped entry live]
  exact operandSized

end Context

end TypedIR
