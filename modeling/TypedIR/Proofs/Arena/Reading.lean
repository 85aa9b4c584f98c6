import TypedIR.Arena.Instructions
import TypedIR.Arena.Functions
import TypedIR.Proofs.Arena.Contents

/-!
Contract: what is read in the arena of a store.

Owns:
- look-ups under handles of a live context, which find what the context finds, with handles in it,
  or fail as the context does;
- the text of a type, which the arena writes from the texts of its components and the context reads
  off a tree;
- the checks that operations begin with.

Handles of other contexts are refused alike, whether these are live or not.
-/

namespace TypedIR

/-! ### Results without their faults -/

section Results

variable {Failure α β γ : Type}

theorem map_bind {view : α → β} {action : Except Failure α} {next : β → Except Failure γ} :
    (action.map view >>= next) = action >>= fun value => next (view value) := by
  cases action <;> rfl

theorem bind_map {view : β → γ} {action : Except Failure α} {next : α → Except Failure β} :
    (action >>= next).map view = action >>= fun value => (next value).map view := by
  cases action <;> rfl

theorem toOption_bind {action : Except Failure α} {next : α → Except Failure β} :
    (action >>= next).toOption = action.toOption.bind fun value => (next value).toOption := by
  cases action <;> rfl

theorem toOption_mapM {action : α → Except Failure β} {items : List α} :
    (items.mapM action).toOption = items.mapM fun item => (action item).toOption := by
  induction items with
  | nil => rfl
  | cons first rest inductionHypothesis =>
      rw [List.mapM_cons, List.mapM_cons, toOption_bind]
      simp only [toOption_bind, inductionHypothesis]
      rfl

theorem mapM_text {tree? : α → Option TypeTree} {items : List α} :
    (items.mapM fun item => (tree? item).map TypeTree.text) =
      (items.mapM tree?).map TypeTree.texts := by
  induction items with
  | nil => rfl
  | cons first rest inductionHypothesis =>
      rw [List.mapM_cons, List.mapM_cons, inductionHypothesis]
      cases tree? first <;> cases rest.mapM tree? <;> rfl

end Results

namespace Store

/-- The context is live in the store, under its own identity. -/
def Holds (store : Store) (context : Context) : Prop := store.context? context.id = some context

namespace Holds

variable {store : Store} {context : Context} (holds : store.Holds context)

include holds

/-! ### Look-ups -/

theorem contents : store.arena.contents context.id = .ok context.contents := by
  have found : store.context? context.id = some context := holds
  rw [arena_contents, resolve, found]
  rfl

theorem typeKind {type : TypeId} (home : type.context = context.id) :
    store.arena.typeKind type = (context.resolveType type).map (TypeShape.tagged context.id) := by
  unfold Arena.typeKind Context.resolveType
  rw [home, holds.contents, if_neg (not_not_intro rfl), ok_bind, context.contents_types]
  cases context.shape? type.index <;> rfl

theorem value {value : ValueId} (home : value.context = context.id) :
    store.arena.value value = (context.resolveValue value).map (Value.tagged context.id) := by
  unfold Arena.value Context.resolveValue
  rw [home, holds.contents, if_neg (not_not_intro rfl), ok_bind, context.contents_values]
  cases context.value? value.index <;> rfl

theorem block {block : BlockId} (home : block.context = context.id) :
    store.arena.block block = (context.resolveBlock block).map (Block.tagged context.id) := by
  unfold Arena.block Context.resolveBlock
  rw [home, holds.contents, if_neg (not_not_intro rfl), ok_bind, context.contents_blocks]
  cases context.block? block.index <;> rfl

theorem body {function : FunctionId} (home : function.context = context.id) :
    store.arena.body function =
      (context.resolveFunction function).map (FunctionEntry.body context.id) := by
  unfold Arena.body Context.resolveFunction
  rw [home, holds.contents, if_neg (not_not_intro rfl), ok_bind, context.contents_bodies]
  cases context.function? function.index <;> rfl

theorem typeIn (type : TypeId) : store.arena.typeIn context.id type =
    (context.resolveType type).map (TypeShape.tagged context.id) := by
  unfold Arena.typeIn
  by_cases home : type.context = context.id
  · rw [if_neg (not_not_intro home), holds.typeKind home]
  · rw [if_pos home, Context.resolveType, if_pos home]
    rfl

theorem valueIn (value : ValueId) : store.arena.valueIn context.id value =
    (context.resolveValue value).map (Value.tagged context.id) := by
  unfold Arena.valueIn
  by_cases home : value.context = context.id
  · rw [if_neg (not_not_intro home), holds.value home]
  · rw [if_pos home, Context.resolveValue, if_pos home]
    rfl

theorem functionName {function : FunctionId} (home : function.context = context.id) :
    store.arena.functionName function = context.functionName function := by
  unfold Arena.functionName Context.functionName
  rw [holds.body home]
  cases resolved : context.resolveFunction function with
  | error fault => rfl
  | ok entry =>
      have self := (Context.mem_of_function? (Context.resolveFunction_eq_ok.mp resolved).2).2
      have same : function.toValue = context.valueId entry.self := by
        rw [FunctionId.toValue, home, self]
        rfl
      show (store.arena.value function.toValue >>= fun entry => pure entry.name) = _
      rw [same, holds.value rfl]
      show _ = (context.resolveValue (context.valueId entry.self) >>= fun value => pure value.name)
      cases context.resolveValue (context.valueId entry.self) <;> rfl

/-! ### Texts of types -/

/-- A type is written exactly if its tree is found within as many levels, and as its tree is. -/
theorem formatWithin (budget : Nat) (type : TypeRef) :
    (store.arena.formatWithin budget ⟨context.id, type⟩).toOption =
      (Context.treeWithin context.types budget type).map TypeTree.text := by
  induction budget generalizing type with
  | zero => rfl
  | succ budget inductionHypothesis =>
      have each : ∀ types : List TypeRef,
          ((types.map (TypeId.mk context.id)).mapM (store.arena.formatWithin budget)).toOption =
            (types.mapM (Context.treeWithin context.types budget)).map TypeTree.texts := by
        intro types
        rw [List.mapM_map, toOption_mapM, ← mapM_text]
        exact congrArg (List.mapM · types) (funext inductionHypothesis)
      have known : store.arena.typeKind ⟨context.id, type⟩ =
          (context.resolveType ⟨context.id, type⟩).map (TypeShape.tagged context.id) :=
        holds.typeKind rfl
      unfold Arena.formatWithin Context.treeWithin
      rw [known, Context.resolveType, if_neg (not_not_intro rfl), Context.shape?]
      cases context.types[type]? with
      | none => rfl
      | some shape =>
          cases shape with
          | void | label | integer => rfl
          | array element length =>
              show (store.arena.formatWithin budget ⟨context.id, element⟩ >>= _).toOption =
                ((Context.treeWithin context.types budget element).map _).map _
              rw [toOption_bind, inductionHypothesis element]
              cases Context.treeWithin context.types budget element <;> rfl
          | struct fields packed =>
              show ((fields.map _).mapM (store.arena.formatWithin budget) >>= _).toOption =
                ((fields.mapM (Context.treeWithin context.types budget)).map _).map _
              rw [toOption_bind, each fields]
              cases fields.mapM (Context.treeWithin context.types budget) <;> rfl
          | function result parameters variadic =>
              show ((parameters.map _).mapM (store.arena.formatWithin budget) >>= _).toOption =
                (Context.treeWithin context.types budget result >>= fun tree =>
                  parameters.mapM (Context.treeWithin context.types budget) >>= fun trees =>
                    pure (TypeTree.function tree trees variadic)).map _
              rw [toOption_bind, each parameters]
              simp only [toOption_bind, inductionHypothesis result]
              cases parameters.mapM (Context.treeWithin context.types budget) <;>
                cases Context.treeWithin context.types budget result <;> rfl

theorem typeExpectation {type : TypeId} (home : type.context = context.id) :
    store.arena.typeExpectation type = context.typeExpectation type.index := by
  have same : type = context.typeId type.index := by
    rw [Context.typeId, ← home]
  have text : (store.arena.formatType type).toOption = context.typeText? type.index := by
    rw [Arena.formatType, same]
    exact holds.formatWithin _ _
  unfold Arena.typeExpectation Context.typeExpectation Context.describeType
  rw [← text, ← same]
  cases store.arena.formatType type <;> rfl

/-! ### Checks -/

theorem requireSized (type : TypeId) :
    store.arena.requireSized context.id type = context.requireSized type := by
  unfold Arena.requireSized Context.requireSized
  rw [holds.typeIn]
  cases resolved : context.resolveType type with
  | error fault => rfl
  | ok shape =>
      rw [← holds.typeExpectation (Context.resolveType_eq_ok.mp resolved).1]
      show (if (shape.tagged context.id).isSized then _ else _) = _
      rw [TypeShape.isSized_tagged]
      rfl

theorem requireStorable (type : TypeRef) : store.arena.requireStorable (context.typeId type) =
    context.requireSized (context.typeId type) := by
  have home : ¬ (context.typeId type).context ≠ context.id := not_not_intro rfl
  rw [← holds.requireSized, Arena.requireSized, Arena.typeIn, if_neg home]
  rfl

theorem requireConstant (value : ValueId) : store.arena.requireConstant context.id value =
    (context.requireConstant value).map (Value.tagged context.id) := by
  unfold Arena.requireConstant Context.requireConstant
  rw [holds.valueIn, map_bind, bind_map]
  refine bind_congr fun entry => ?_
  show (if (entry.kind.tagged context.id).isConstant then _ else _) = _
  rw [ValueKind.isConstant_tagged]
  cases entry.kind.isConstant <;> rfl

theorem requireConstantOf (type : TypeRef) (value : ValueId) :
    store.arena.requireConstantOf context.id (context.typeId type) value =
      context.requireConstantOf (context.typeId type) value := by
  unfold Arena.requireConstantOf Context.requireConstantOf
  rw [holds.requireConstant, map_bind]
  refine bind_congr fun entry => ?_
  have same : (entry.tagged context.id).type = context.typeId type ↔ entry.type = type := by
    simp [Value.tagged, Context.typeId]
  rw [holds.typeExpectation rfl, holds.typeExpectation rfl]
  simp only [same]
  rfl

theorem requireSite {function : FunctionId} (home : function.context = context.id) (site : Site) :
    store.arena.requireSite function site =
      (context.resolveSite function site).map fun _ => () := by
  unfold Arena.requireSite Context.resolveSite
  rw [holds.body home]
  cases context.resolveFunction function with
  | error fault => rfl
  | ok entry =>
      cases site with
      | parameter position =>
          have counted : (entry.body context.id).parameters.length = entry.parameters.length :=
            List.length_map _
          show (if position < (entry.body context.id).parameters.length then _ else _) =
            ((if position < entry.parameters.length then _ else _ : Except Fault Unit) >>= _).map _
          rw [counted]
          by_cases inside : position < entry.parameters.length
          · rw [if_pos inside, if_pos inside]
            rfl
          · rw [if_neg inside, if_neg inside]
            rfl
      | _ => rfl

theorem parameterPlace {value : ValueId} (home : value.context = context.id) :
    store.arena.parameterPlace value = context.parameterPlace value := by
  unfold Arena.parameterPlace Context.parameterPlace
  rw [holds.value home]
  cases context.resolveValue value with
  | error fault => rfl
  | ok entry =>
      obtain ⟨type, kind, name⟩ := entry
      cases kind <;> rfl

theorem operandType (value : ValueId) : store.arena.operandType context.id value =
    (context.operandType value).map context.typeId := by
  unfold Arena.operandType Context.operandType
  rw [holds.valueIn, map_bind, bind_map]
  rfl

theorem integerOperand (value : ValueId) : store.arena.integerOperand context.id value =
    (context.integerOperand value).map context.typeId := by
  unfold Arena.integerOperand Context.integerOperand
  rw [holds.operandType, map_bind, bind_map]
  refine bind_congr fun type => ?_
  rw [holds.typeKind rfl, map_bind, bind_map]
  refine bind_congr fun shape => ?_
  rw [TypeShape.isInteger_tagged, holds.typeExpectation rfl]
  cases shape.isInteger <;> rfl

theorem requireCondition (value : ValueId) : store.arena.requireCondition context.id value =
    context.requireCondition value := by
  unfold Arena.requireCondition Context.requireCondition
  rw [holds.operandType, map_bind]
  refine bind_congr fun type => ?_
  rw [holds.typeKind rfl, map_bind]
  refine bind_congr fun shape => ?_
  have same : shape.tagged context.id = .integer 1 ↔ shape = .integer 1 := by
    cases shape <;> simp [TypeShape.tagged]
  rw [holds.typeExpectation rfl]
  simp only [same]
  rfl

theorem requireSameType (expected found : TypeRef) :
    store.arena.requireSameType (context.typeId expected) (context.typeId found) =
      context.requireSameType expected found := by
  unfold Arena.requireSameType Context.requireSameType
  rw [holds.typeExpectation rfl, holds.typeExpectation rfl]
  simp [Context.typeId]

theorem requireArguments (parameters : List TypeRef) (arguments : List ValueId) :
    store.arena.requireArguments context.id (parameters.map context.typeId) arguments =
      context.requireArguments parameters arguments := by
  induction arguments generalizing parameters with
  | nil => cases parameters <;> rfl
  | cons argument arguments inductionHypothesis =>
      cases parameters with
      | nil =>
          show (store.arena.operandType context.id argument >>= _) =
            (context.operandType argument >>= _)
          rw [holds.operandType, map_bind]
          refine bind_congr fun type => ?_
          rw [holds.requireStorable]
          exact bind_congr fun _ => inductionHypothesis []
      | cons parameter parameters =>
          show (store.arena.operandType context.id argument >>= _) =
            (context.operandType argument >>= _)
          rw [holds.operandType, map_bind]
          refine bind_congr fun type => ?_
          rw [holds.requireSameType]
          exact bind_congr fun _ => inductionHypothesis parameters

theorem signatureOf {function : FunctionId} (home : function.context = context.id) :
    store.arena.signatureOf function =
      (context.resolveFunction function >>= context.signatureOf).map fun signature =>
        (context.typeId signature.1, signature.2.1.map context.typeId, signature.2.2) := by
  unfold Arena.signatureOf Context.signatureOf
  rw [holds.body home, map_bind, bind_map]
  refine bind_congr fun entry => ?_
  show (store.arena.typeKind (context.typeId entry.signature) >>= _) = _
  rw [holds.typeKind rfl, map_bind, bind_map]
  refine bind_congr fun shape => ?_
  have written : store.arena.typeExpectation (entry.body context.id).signature =
      context.typeExpectation entry.signature := holds.typeExpectation rfl
  rw [written]
  cases shape <;> rfl

theorem requireReturn (result : TypeRef) (value : Option ValueId) :
    store.arena.requireReturn context.id (context.typeId result) value =
      context.requireReturn result value := by
  unfold Arena.requireReturn Context.requireReturn
  rw [holds.typeKind rfl, map_bind]
  refine bind_congr fun shape => ?_
  rw [TypeShape.isVoid_tagged]
  cases value with
  | none =>
      rw [holds.typeExpectation rfl]
      rfl
  | some value =>
      show (store.arena.operandType context.id value >>= _) = (context.operandType value >>= _)
      rw [holds.operandType, map_bind]
      refine bind_congr fun type => ?_
      rw [holds.typeExpectation rfl, holds.requireSameType]
      rfl

theorem requireBlock (target : BlockId) : store.arena.requireBlock context.id target =
    (context.resolveBlock target).map fun _ => () := by
  unfold Arena.requireBlock
  by_cases home : target.context = context.id
  · rw [if_neg (not_not_intro home), holds.block home]
    cases context.resolveBlock target <;> rfl
  · rw [if_pos home, Context.resolveBlock, if_pos home]
    rfl

end Holds

end Store

end TypedIR
