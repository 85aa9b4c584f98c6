import TypedIR.Proofs.Description.Instructions

/-!
Contract: what filling in blocks comes to.

Owns:
- the instructions of a block one after the other, with the names that they leave;
- the blocks of a function one after the other, each under the names that those before
  it leave;
- that both can be built exactly if they are typed in order.

Does not own: how the blocks come to be there.
-/

namespace TypedIR.Description

open Construction

variable {terms : Terms} {description : Module} {home : Function} {scope : Scope}
  {types : Locals TypeTree} {context before between after : Context} {function : ValueRef}

/-! ### Names that instructions leave -/

theorem Scope.values_define (scope : Scope) (name : String) (value : ValueId) :
    (scope.define name value).values = scope.values.define name value.index := by
  unfold Scope.define Locals.define Scope.values
  split
  · rfl
  · rfl

theorem Scope.blocks_define (scope : Scope) (name : String) (value : ValueId) :
    (scope.define name value).blocks = scope.blocks := by
  unfold Scope.define
  split
  · rfl
  · rfl

theorem Scope.Fits.define {settings : Settings}
    (fits : scope.Fits settings description home function types context) (name : String)
    {value : ValueId} {type : TypeTree} (carries : context.Carries value type) :
    (scope.define name value).Fits settings description home function (types.define name type)
      context := by
  refine ⟨⟨fits.functions, ?_⟩, fits.owner, ?_, ?_⟩
  · unfold Scope.define Locals.define
    split
    · exact fits.locals
    · exact .cons ⟨rfl, carries⟩ fits.locals
  · rw [Scope.blocks_define]
    exact fits.names
  · rw [Scope.blocks_define]
    exact fits.live

/-! ### The instructions of a block -/

/-- The instructions stand behind those that were in the block, and the scope is the one that they
leave. -/
structure InstructionsDone (settings : Settings) (description : Module) (home : Function)
    (function : ValueRef) (types : Locals TypeTree) (scope : Scope) (before : Context)
    (block : BlockId) (current : TypedIR.Block) (instructions : List Instruction) (last : Scope)
    (after : Context) : Prop where
  grown : before.Grown after
  targets : last.targets = scope.targets
  typed : ∃ left, BodyTyped settings.maxIntegerWidth description home types instructions left ∧
    last.Fits settings description home function left after
  built : ∃ values, after.block? = Function.update before.block? block.index
      (some { current with instructions := current.instructions ++ values }) ∧
    InstructionsBuilt after scope.targets block.index scope.values instructions values last.values

/-- Instructions can be built in order exactly if they are typed in order. -/
theorem buildInstructions_meets (distinct : description.DistinctNames) {block : BlockId}
    (instructions : List Instruction) {current : TypedIR.Block}
    (drafted : context.Drafted terms.settings)
    (fits : scope.Fits terms.settings description home function types context)
    (resolved : context.resolveBlock block = .ok current) (owned : current.function = function) :
    Meets terms (buildInstructions terms scope block instructions) context
      (∃ left, BodyTyped terms.settings.maxIntegerWidth description home types instructions left)
      (InstructionsDone terms.settings description home function types scope context block current
        instructions) := by
  induction instructions generalizing scope types context current with
  | nil =>
      have found := (Context.resolveBlock_eq_ok.mp resolved).2
      refine meets_pure ⟨types, .nil⟩ ⟨.refl context, rfl, ⟨types, .nil, fits⟩, [], ?_, .nil⟩
      rw [List.append_nil, ← found, Function.update_eq_self]
  | cons instruction rest inductionHypothesis =>
      rw [buildInstructions]
      apply (buildInstruction_meets drafted fits distinct resolved owned instruction).bind
      · rintro ⟨_, _ | ⟨typed, _⟩⟩
        exact ⟨_, typed⟩
      rintro value between steps _
        ⟨grown, blocks, ⟨type, typed, carries⟩, valueType, code, held, denotes⟩
      have here : between.block? block.index = some
          { current with instructions := current.instructions ++ [value.index] } := by
        rw [blocks, Function.update_self]
      have tagged := (Context.resolveBlock_eq_ok.mp resolved).1
      have fitsBetween := (fits.onward grown fun other entry found => by
        rw [blocks, Function.update_apply]
        split
        · exact ⟨_, rfl⟩
        · exact ⟨entry, found⟩).define (instruction.resultName?.getD "") carries
      have later := inductionHypothesis (steps.drafted drafted) fitsBetween
        (Context.resolveBlock_eq_ok.mpr ⟨tagged.trans grown.id.symm, here⟩) owned
      refine later.weaken ?_ ?_
      · constructor
        · rintro ⟨left, _ | ⟨otherTyped, restTyped⟩⟩
          rw [Instruction.hasType_unique distinct typed otherTyped]
          exact ⟨left, restTyped⟩
        · rintro ⟨left, restTyped⟩
          exact ⟨left, .cons typed restTyped⟩
      · rintro last after _ _ ⟨goes, targets, ⟨left, restTyped, fitsLast⟩, values, restBlocks, built⟩
        have sameTargets : (scope.define (instruction.resultName?.getD "") value).targets =
            scope.targets := by
          rw [Scope.targets, Scope.blocks_define, Scope.targets]
        rw [sameTargets] at targets built
        rw [Scope.values_define] at built
        refine ⟨grown.trans goes, targets, ⟨left, .cons typed restTyped, fitsLast⟩,
          value.index :: values, ?_, ?_⟩
        · rw [restBlocks, blocks, Function.update_idem, List.append_assoc]
          rfl
        · exact .cons (goes.values _ _ held) (denotes.onward goes.toOnward) built

/-! ### Blocks -/

/-- The blocks have been filled in, and the others are as they were. -/
structure BlocksDone (before : Context) (scope : Scope) (function : ValueRef)
    (list : List (BlockId × Block)) (after : Context) : Prop where
  grown : before.Grown after
  others : ∀ block, block ∉ list.map (fun entry => entry.1.index) →
    after.block? block = before.block? block
  built : BlocksBuilt after scope.targets function scope.values (list.map (·.2))
    (list.map fun entry => entry.1.index)

theorem buildBlocks_meets (distinct : description.DistinctNames) (list : List (BlockId × Block))
    (drafted : context.Drafted terms.settings)
    (fits : scope.Fits terms.settings description home function types context)
    (empty : ∀ entry ∈ list, context.resolveBlock entry.1 = .ok ⟨function, entry.2.name, []⟩)
    (apart : (list.map fun entry => entry.1.index).Nodup) :
    Meets terms (buildBlocks terms scope list) context
      (∃ left, BodyTyped terms.settings.maxIntegerWidth description home types
        (list.flatMap fun entry => entry.2.instructions) left)
      fun _ after => BlocksDone context scope function list after := by
  induction list generalizing scope types context with
  | nil => exact meets_pure ⟨types, .nil⟩ ⟨.refl context, fun _ _ => rfl, .nil⟩
  | cons entry rest inductionHypothesis =>
      obtain ⟨block, described⟩ := entry
      obtain ⟨first, others⟩ := List.forall_mem_cons.mp empty
      obtain ⟨fresh, apart⟩ := List.nodup_cons.mp apart
      rw [buildBlocks, List.flatMap_cons]
      apply ((buildInstructions_meets distinct described.instructions drafted fits first
        rfl).within _).bind
      · rintro ⟨left, typed⟩
        obtain ⟨between, typed, _⟩ := bodyTyped_append.mp typed
        exact ⟨between, typed⟩
      rintro last between steps _ ⟨grown, targets, ⟨left, typed, fitsLast⟩, values, blocks, built⟩
      -- The blocks behind this one are still empty.
      have untouched : ∀ entry ∈ rest,
          between.resolveBlock entry.1 = .ok ⟨function, entry.2.name, []⟩ := by
        intro entry listed
        obtain ⟨tagged, found⟩ := Context.resolveBlock_eq_ok.mp (others entry listed)
        have different : entry.1.index ≠ block.index := by
          intro same
          exact fresh (List.mem_map.mpr ⟨entry, listed, same⟩)
        refine Context.resolveBlock_eq_ok.mpr ⟨tagged.trans grown.id.symm, ?_⟩
        rw [blocks, Function.update_of_ne different]
        exact found
      refine (inductionHypothesis (steps.drafted drafted) fitsLast untouched apart).weaken ?_ ?_
      · exact exists_congr fun last => typed.append_iff distinct
      · rintro _ after _ _ ⟨goes, kept, restBuilt⟩
        rw [targets] at restBuilt
        have filled : after.block? block.index = some ⟨function, described.name, values⟩ := by
          rw [kept _ fresh, blocks, Function.update_self]
          rfl
        refine ⟨grown.trans goes, fun other notListed => ?_,
          .cons filled (built.onward goes.toOnward) restBuilt⟩
        rw [List.map_cons, List.mem_cons, not_or] at notListed
        rw [kept other notListed.2, blocks, Function.update_of_ne notListed.1]

end TypedIR.Description
