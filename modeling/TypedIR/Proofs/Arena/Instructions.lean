import TypedIR.Proofs.Arena.Values
import TypedIR.Proofs.Context.Instructions

/-!
Contract: instructions appended in place.

Owns:
- appending, which stores a value, lists it in its block and marks the function of the block;
- each instruction, which is appended behind its checks.

The block and its function are looked up anew between the writes. They are found, since the block
was and its function is live.
-/

namespace TypedIR

open InPlace

namespace Store.Holds

variable {store : Store} {context : Context} (holds : store.Holds context)

include holds

/-! ### Appending -/

section Appending

variable (inside : context.FunctionsInside)

include inside

theorem append {block : BlockId} {home : Block} (type : TypeRef) (code : Instruction)
    (name : String) (found : context.resolveBlock block = .ok home)
    (live : context.IsFunction home.function) :
    (Arena.append block (context.typeId type) (code.tagged context.id) name).Completes
      (context.appendInstruction home.function block.index type code name) store context := by
  obtain ⟨tag, position⟩ := block
  obtain rfl : tag = context.id := (Context.resolveBlock_eq_ok.mp found).1
  have looked : store.arena.block ⟨context.id, position⟩ = .ok (home.tagged context.id) := by
    rw [holds.block rfl, found]
    rfl
  let entry : Value := ⟨type, .instruction position code, name⟩
  let pushed : Context := (context.pushValue entry).2
  let listed : Context := { pushed with
    blocks := pushed.blocks.modify position fun home =>
      { home with instructions := home.instructions ++ [context.values.size] } }
  have holdsPushed : (store.put context.id.index pushed).Holds pushed := holds.put rfl
  have holdsListed : ((store.put context.id.index pushed).put pushed.id.index listed).Holds
      listed := holdsPushed.put rfl
  have first := holds.pushValue inside entry
  have second : (Arena.alterBlock ⟨context.id, position⟩ fun home =>
      { home with
        instructions := home.instructions ++ [context.valueId context.values.size] }).Completes
      ((), listed) (store.put context.id.index pushed) pushed := by
    apply holdsPushed.alterBlock _ found
    intro home
    simp [Block.tagged, pushed, Context.pushValue, Context.valueId]
  have third : (Arena.invalidate (context.functionId home.function)).Completes
      ((), listed.updateFunction home.function FunctionEntry.edited)
      ((store.put context.id.index pushed).put pushed.id.index listed) listed := by
    apply holdsListed.alterBody_completes _ _ live
    · exact fun _ => rfl
    · exact fun _ => rfl
  have last := third.map fun _ => context.valueId context.values.size
  exact .read looked (first.bind (second.bind last))

/-- Interning takes neither blocks nor functions away. -/
theorem appendInterned {block : BlockId} {home : Block} {shape : TypeShape} {type : TypeId}
    {middle : Context} (code : Instruction) (name : String)
    (found : context.resolveBlock block = .ok home) (live : context.IsFunction home.function)
    (typed : Interned store.settings context shape type middle) :
    (Arena.append block type (code.tagged context.id) name).Completes
      (middle.appendInstruction home.function block.index type.index code name)
      (store.put context.id.index middle) middle := by
  have same := typed.changes.id_eq
  have tag : type = middle.typeId type.index := by
    rw [Context.typeId, same, ← typed.tagged]
  have stays : middle.FunctionsInside := by
    rw [typed.frame]
    exact inside
  have kept : middle.resolveBlock block = .ok home := by
    rw [Context.resolveBlock_eq_ok, typed.blocks, same]
    exact Context.resolveBlock_eq_ok.mp found
  have alive : middle.IsFunction home.function := by
    rw [← Context.isSome_function?, typed.functions, Context.isSome_function?]
    exact live
  have appended := (holds.put same).append stays type.index code name kept alive
  rw [← tag, same] at appended
  exact appended

theorem appendTerminator {block : BlockId} {home : Block} (code : Instruction)
    (found : context.resolveBlock block = .ok home) (live : context.IsFunction home.function) :
    (Arena.appendTerminator block (code.tagged context.id)).Completes
      (context.appendTerminator home.function block.index code) store context := by
  have tag := (Context.resolveBlock_eq_ok.mp found).1
  have formed : context.Forms store.settings .void := trivial
  have interned := holds.intern .void
  have appended := holds.appendInterned inside code "" found live (Context.intern_interned formed)
  rw [← tag] at interned
  exact interned.bind appended

end Appending

end Store.Holds

/-- The function of a live block is live. -/
theorem Context.Owned.live_home {context : Context} (owned : context.Owned) {block : BlockId}
    {home : Block} (found : context.resolveBlock block = .ok home) :
    context.IsFunction home.function := by
  apply owned.blocks.owners block.index
  rw [Context.parent?, (Context.resolveBlock_eq_ok.mp found).2, Option.map_some]

theorem Context.FunctionsOwned.inside {context : Context} (owned : context.FunctionsOwned) :
    context.FunctionsInside := fun _ => owned.lt_size

/-! ### Instructions -/

namespace Store.Holds

variable {store : Store} {context : Context} (holds : store.Holds context) (owned : context.Owned)

include holds owned

theorem binary (block : BlockRef) (operator : BinaryOperator) (left right : ValueId)
    (name : String) :
    (Arena.binary (context.blockId block) operator left right name).Realizes
      (context.binary (context.blockId block) operator left right name) store context := by
  apply realizes_read (holds.block rfl)
  intro home found
  apply realizes_read (holds.integerOperand left)
  intro leftType leftDone
  apply realizes_read (holds.integerOperand right)
  intro rightType rightDone
  apply realizes_check (holds.requireSameType leftType rightType)
  intro _ _
  obtain ⟨_, left⟩ := left
  obtain ⟨_, right⟩ := right
  obtain rfl := (Context.integerOperand_ok leftDone).1
  obtain rfl := (Context.integerOperand_ok rightDone).1
  exact (holds.append owned.functions.inside leftType (.binary operator left right) name found
    (owned.live_home found)).realizes

theorem compare (block : BlockRef) (predicate : Predicate) (left right : ValueId)
    (name : String) :
    (Arena.compare (context.blockId block) predicate left right name).Realizes
      (context.compare store.settings (context.blockId block) predicate left right name) store
      context := by
  apply realizes_read (holds.block rfl)
  intro home found
  apply realizes_read (holds.integerOperand left)
  intro leftType leftDone
  apply realizes_read (holds.integerOperand right)
  intro rightType rightDone
  apply realizes_check (holds.requireSameType leftType rightType)
  intro _ _
  obtain ⟨_, left⟩ := left
  obtain ⟨_, right⟩ := right
  obtain rfl := (Context.integerOperand_ok leftDone).1
  obtain rfl := (Context.integerOperand_ok rightDone).1
  apply (holds.integerType 1).bind
  rintro ⟨type, middle⟩ interned
  have typed := Context.integerType_ok interned
  exact ⟨typed.changes.id_eq, _, rfl, holds.appendInterned owned.functions.inside
    (.compare predicate left right) name found (owned.live_home found) typed⟩

theorem select (block : BlockRef) (condition thenValue elseValue : ValueId) (name : String) :
    (Arena.select (context.blockId block) condition thenValue elseValue name).Realizes
      (context.select (context.blockId block) condition thenValue elseValue name) store
      context := by
  apply realizes_read (holds.block rfl)
  intro home found
  apply realizes_check (holds.requireCondition condition)
  intro _ conditionDone
  apply realizes_read (holds.operandType thenValue)
  intro thenType thenDone
  apply realizes_read (holds.operandType elseValue)
  intro elseType elseDone
  apply realizes_check (holds.requireStorable thenType)
  intro _ _
  apply realizes_check (holds.requireSameType thenType elseType)
  intro _ _
  obtain ⟨_, condition⟩ := condition
  obtain ⟨_, thenValue⟩ := thenValue
  obtain ⟨_, elseValue⟩ := elseValue
  obtain rfl := (Context.requireCondition_ok conditionDone).1
  obtain rfl := (Context.operandType_eq_ok.mp thenDone).1
  obtain rfl := (Context.operandType_eq_ok.mp elseDone).1
  exact (holds.append owned.functions.inside thenType (.select condition thenValue elseValue) name
    found (owned.live_home found)).realizes

theorem call (block : BlockRef) (callee : FunctionId) (arguments : List ValueId)
    (name : String) :
    (Arena.call (context.blockId block) callee arguments name).Realizes
      (context.call (context.blockId block) callee arguments name) store context := by
  apply realizes_read (holds.block rfl)
  intro home found
  apply realizes_read (holds.valueIn callee.toValue)
  intro _ known
  have calleeHome : callee.context = context.id := (Context.resolveValue_eq_ok.mp known).1
  apply realizes_read_both (holds.signatureOf calleeHome)
  rintro ⟨result, parameters, variadic⟩ _
  have counted : (parameters.map context.typeId).length = parameters.length := List.length_map _
  show InPlace.Realizes (if arguments.length < (parameters.map context.typeId).length ∨
      ((parameters.map context.typeId).length < arguments.length ∧ ¬ variadic) then _ else _)
    (if arguments.length < parameters.length ∨
      (parameters.length < arguments.length ∧ ¬ variadic) then _ else _) _ _
  rw [counted]
  apply realizes_ite
  · intro _
    exact realizes_refuse _
  · intro _
    apply realizes_check (holds.requireArguments parameters arguments)
    intro _ fit
    have tags : ∀ argument ∈ arguments, argument.context = context.id :=
      fun argument listed => ((Context.requireArguments_ok fit).1 argument listed).1
    have appended := holds.append owned.functions.inside result
      (.call callee.index (arguments.map (·.index))) name found (owned.live_home found)
    rw [Instruction.tagged, ← eq_map_valueId tags, ← calleeHome] at appended
    exact appended.realizes

theorem ret (block : BlockRef) (value : Option ValueId) :
    (Arena.ret (context.blockId block) value).Realizes
      (context.ret (context.blockId block) value) store context := by
  apply realizes_read (holds.block rfl)
  intro home found
  apply realizes_read_both (holds.signatureOf rfl)
  rintro ⟨result, parameters, variadic⟩ _
  apply realizes_check (holds.requireReturn result value)
  intro _ fits
  have tags := (Context.requireReturn_ok fits).1
  have appended := holds.appendTerminator owned.functions.inside
    (.ret (value.map (·.index))) found (owned.live_home found)
  cases value with
  | none => exact appended.realizes
  | some value =>
      obtain ⟨_, value⟩ := value
      obtain rfl := (tags _ rfl).1
      exact appended.realizes

theorem branch (block : BlockRef) (target : BlockId) :
    (Arena.branch (context.blockId block) target).Realizes
      (context.branch (context.blockId block) target) store context := by
  apply realizes_read (holds.block rfl)
  intro home found
  apply realizes_read (holds.requireBlock target)
  intro _ known
  obtain ⟨_, target⟩ := target
  obtain rfl := (Context.resolveBlock_eq_ok.mp known).1
  exact (holds.appendTerminator owned.functions.inside (.branch target) found
    (owned.live_home found)).realizes

theorem condBranch (block : BlockRef) (condition : ValueId) (thenBlock elseBlock : BlockId) :
    (Arena.condBranch (context.blockId block) condition thenBlock elseBlock).Realizes
      (context.condBranch (context.blockId block) condition thenBlock elseBlock) store
      context := by
  apply realizes_read (holds.block rfl)
  intro home found
  apply realizes_check (holds.requireCondition condition)
  intro _ conditionDone
  apply realizes_read (holds.requireBlock thenBlock)
  intro _ thenKnown
  apply realizes_read (holds.requireBlock elseBlock)
  intro _ elseKnown
  obtain ⟨_, condition⟩ := condition
  obtain ⟨_, thenBlock⟩ := thenBlock
  obtain ⟨_, elseBlock⟩ := elseBlock
  obtain rfl := (Context.requireCondition_ok conditionDone).1
  obtain rfl := (Context.resolveBlock_eq_ok.mp thenKnown).1
  obtain rfl := (Context.resolveBlock_eq_ok.mp elseKnown).1
  exact (holds.appendTerminator owned.functions.inside (.condBranch condition thenBlock elseBlock)
    found (owned.live_home found)).realizes

theorem unreachable (block : BlockRef) : (Arena.unreachable (context.blockId block)).Realizes
    (context.unreachable (context.blockId block)) store context := by
  apply realizes_read (holds.block rfl)
  intro home found
  exact (holds.appendTerminator owned.functions.inside .unreachable found
    (owned.live_home found)).realizes

end Store.Holds

end TypedIR
