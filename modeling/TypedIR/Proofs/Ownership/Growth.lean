import TypedIR.Proofs.Ownership.Invariant

/-!
Contract: ownership when a context grows.

Owns: the invariant after a declaration, after a new block, after a new
instruction, and after a change of the settings of a function.
-/

namespace TypedIR.Context

variable {context before after : Context}

/-! ### Declaration -/

section Declare

variable {convention : UInt32} {name : String} {signature result : TypeRef}
  {parameters : List TypeRef} {variadic : Bool}

theorem isFunction_withFunction {function : ValueRef} :
    (context.withFunction convention name signature parameters).IsFunction function ↔
      context.IsFunction function ∨ function = context.values.size := by
  unfold IsFunction
  simp only [mem_withFunction]
  constructor
  · rintro ⟨entry, member | rfl, rfl⟩
    · exact .inl ⟨entry, member, rfl⟩
    · exact .inr rfl
  · rintro (⟨entry, member, rfl⟩ | rfl)
    · exact ⟨entry, .inl member, rfl⟩
    · exact ⟨_, .inr rfl, rfl⟩

theorem holds_function_withFunction {value : ValueRef} {type : TypeRef} :
    (context.withFunction convention name signature parameters).Holds value type .function ↔
      context.Holds value type .function ∨ (value = context.values.size ∧ type = signature) := by
  rw [holds_withFunction]
  simp

theorem holds_parameter_withFunction {value function : ValueRef} {type : TypeRef}
    {position : Nat} :
    (context.withFunction convention name signature parameters).Holds value type
        (.parameter function position) ↔
      context.Holds value type (.parameter function position) ∨
      (parameters[position]? = some type ∧ function = context.values.size ∧
        value = context.values.size + 1 + position) := by
  rw [holds_withFunction]
  refine or_congr_right ⟨?_, ?_⟩
  · rintro (⟨_, _, other⟩ | ⟨index, typed, same, place⟩)
    · cases other
    · obtain ⟨rfl, rfl⟩ := ValueKind.parameter.inj same
      exact ⟨typed, rfl, place⟩
  · rintro ⟨typed, rfl, place⟩
    exact .inr ⟨position, typed, rfl, place⟩

theorem holds_instruction_withFunction {value : ValueRef} {type : TypeRef} {kind : ValueKind}
    (isInstruction : kind.isInstruction = true) :
    (context.withFunction convention name signature parameters).Holds value type kind ↔
      context.Holds value type kind := by
  rw [holds_withFunction]
  apply or_iff_left
  rintro (⟨_, _, rfl⟩ | ⟨_, _, rfl, _⟩)
  · cases isInstruction
  · cases isInstruction

theorem FunctionsOwned.declare (owned : context.FunctionsOwned)
    (shape : context.shape? signature = some (.function result parameters variadic)) :
    (context.withFunction convention name signature parameters).FunctionsOwned := by
  have fresh : ¬ context.IsFunction context.values.size :=
    fun live => Nat.lt_irrefl _ (owned.lt_size live)
  refine ⟨?_, ?_, ?_, ?_, ?_, ?_⟩
  · unfold withFunction
    rw [List.map_append, List.nodup_append']
    refine ⟨owned.distinct, List.nodup_singleton _, ?_⟩
    intro function listed new
    obtain ⟨entry, member, rfl⟩ := List.mem_map.mp listed
    have same : entry.self = context.values.size := List.mem_singleton.mp new
    exact fresh ⟨entry, member, same⟩
  · intro value
    simp only [isFunction_withFunction, holds_function_withFunction, owned.values]
    constructor
    · rintro (⟨type, held⟩ | rfl)
      · exact ⟨type, .inl held⟩
      · exact ⟨signature, .inr ⟨rfl, rfl⟩⟩
    · rintro ⟨type, held | ⟨rfl, _⟩⟩
      · exact .inl ⟨type, held⟩
      · exact .inr rfl
  · intro entry member
    rw [holds_function_withFunction]
    rcases mem_withFunction.mp member with old | rfl
    · exact .inl (owned.signed entry old)
    · exact .inr ⟨rfl, rfl⟩
  · intro entry member
    simp only [holds_parameter_withFunction]
    rcases mem_withFunction.mp member with old | rfl
    · obtain ⟨returned, types, more, signed, counted, each⟩ := owned.parameters entry old
      refine ⟨returned, types, more, signed, counted, ?_⟩
      intro position value type atPosition typed
      exact .inl (each position value type atPosition typed)
    · refine ⟨result, parameters, variadic, shape, List.length_range', ?_⟩
      intro position value type atPosition typed
      refine .inr ⟨typed, rfl, ?_⟩
      obtain ⟨inside, place⟩ := List.getElem?_eq_some_iff.mp atPosition
      rw [← place]
      simp [FunctionEntry.declared]
  · intro value type function position held
    simp only [mem_withFunction]
    rcases holds_parameter_withFunction.mp held with old | ⟨typed, rfl, rfl⟩
    · obtain ⟨entry, member, same, listed⟩ :=
        owned.parameterOwners value type function position old
      exact ⟨entry, .inl member, same, listed⟩
    · refine ⟨_, .inr rfl, rfl, ?_⟩
      obtain ⟨inside, _⟩ := List.getElem?_eq_some_iff.mp typed
      simp [FunctionEntry.declared, inside]
  · intro entry member target named
    rw [isFunction_withFunction]
    rcases mem_withFunction.mp member with old | rfl
    · exact .inl (owned.personalities entry old target named)
    · cases named

theorem BlocksOwned.declare (owned : context.BlocksOwned) (functions : context.FunctionsOwned) :
    (context.withFunction convention name signature parameters).BlocksOwned := by
  constructor
  · intro entry member
    rcases mem_withFunction.mp member with old | rfl
    · exact owned.lists entry old
    · refine ⟨.nil, fun block => iff_of_false List.not_mem_nil fun named => ?_⟩
      exact Nat.lt_irrefl _ (functions.lt_size (owned.owners block _ named))
  · intro block function named
    exact isFunction_withFunction.mpr (.inl (owned.owners block function named))

theorem Owned.declare (owned : context.Owned)
    (shape : context.shape? signature = some (.function result parameters variadic)) :
    (context.withFunction convention name signature parameters).Owned where
  functions := owned.functions.declare shape
  blocks := owned.blocks.declare owned.functions
  instructions := owned.instructions.transfer (fun _ => rfl)
    fun _ _ _ isInstruction => holds_instruction_withFunction isInstruction

end Declare

/-! ### Changes of one function -/

section Update

variable {change : FunctionEntry → FunctionEntry} {function : ValueRef}

/-- A function is updated where it stands, and the values and blocks stay. -/
theorem Owned.update (owned : before.Owned)
    (functions : after.functions = (before.updateFunction function change).functions)
    (frame : ∀ entry : FunctionEntry, entry.SameFrame (change entry))
    (personality : ∀ (entry : FunctionEntry) personality,
      (change entry).personality = some personality →
        entry.personality = some personality ∨ before.IsFunction personality)
    (types : after.types = before.types) (values : after.values = before.values)
    (blocks : after.blocks = before.blocks) : after.Owned := by
  have updated : ∀ entry : FunctionEntry,
      entry.SameFrame (if entry.self = function then change entry else entry) := by
    intro entry
    split
    · exact frame entry
    · exact ⟨⟨rfl, rfl, rfl⟩, rfl⟩
  have shapes : after.shape? = before.shape? := by
    funext type
    rw [shape?, shape?, types]
  have found : after.block? = before.block? := by
    funext block
    rw [block?, block?, blocks]
  constructor
  · refine owned.functions.transfer functions (fun entry => (updated entry).toSameHead) ?_
      (fun _ _ known => shapes ▸ known) fun _ _ _ _ => holds_congr values
    intro entry target
    split
    · exact personality entry target
    · exact .inl
  · apply owned.blocks.transfer functions updated
    intro block
    rw [parent?, parent?, found]
  · exact owned.instructions.transfer (fun block => congrFun found block)
      fun _ _ _ _ => holds_congr values

theorem parent?_withBlock {name : String} {block : BlockRef} :
    (context.withBlock function name).parent? block =
      if block = context.blocks.size then some function else context.parent? block := by
  rw [parent?, block?_withBlock_eq_ite, parent?]
  by_cases last : block = context.blocks.size
  · rw [if_pos last, if_pos last, Option.map_some]
  · rw [if_neg last, if_neg last]

theorem BlocksOwned.block (owned : context.BlocksOwned) (live : context.IsFunction function)
    (name : String) : (context.withBlock function name).BlocksOwned := by
  have absent : context.parent? context.blocks.size = none := by
    rw [parent?, block?, Table.get?_eq_none_of_size_le (Nat.le_refl _), Option.map_none]
  constructor
  · intro entry member
    obtain ⟨old, oldMember, rfl⟩ := mem_updateFunction.mp member
    obtain ⟨distinct, listed⟩ := owned.lists old oldMember
    simp only [parent?_withBlock]
    by_cases same : old.self = function
    · rw [if_pos same]
      refine ⟨?_, fun block => ?_⟩
      · show (old.blocks ++ [context.blocks.size]).Nodup
        refine List.nodup_append'.mpr ⟨distinct, List.nodup_singleton _, ?_⟩
        intro block inside last
        rw [List.mem_singleton.mp last, listed, absent] at inside
        cases inside
      · have unfolded : block ∈ ({ old with
            blocks := old.blocks ++ [context.blocks.size] } : FunctionEntry).edited.blocks ↔
            block ∈ old.blocks ∨ block = context.blocks.size := by
          simp [FunctionEntry.edited]
        rw [unfolded, listed]
        by_cases last : block = context.blocks.size
        · rw [if_pos last]
          exact iff_of_true (.inr last) (congrArg some same.symm)
        · rw [if_neg last, or_iff_left last]
          exact Iff.rfl
    · rw [if_neg same]
      refine ⟨distinct, fun block => ?_⟩
      rw [listed]
      by_cases last : block = context.blocks.size
      · rw [if_pos last, last, absent]
        exact iff_of_false (fun none => by cases none) fun named =>
          same (Option.some.inj named).symm
      · rw [if_neg last]
  · intro block home named
    have kept : ∀ other, context.IsFunction other →
        (context.withBlock function name).IsFunction other := by
      refine fun other => (isFunction_map rfl fun entry => ?_).mpr
      split <;> rfl
    rw [parent?_withBlock] at named
    by_cases last : block = context.blocks.size
    · rw [if_pos last] at named
      exact Option.some.inj named ▸ kept function live
    · rw [if_neg last] at named
      exact kept home (owned.owners block home named)

theorem InstructionsOwned.block (owned : context.InstructionsOwned) (name : String) :
    (context.withBlock function name).InstructionsOwned := by
  have values : ∀ value type kind, (context.withBlock function name).Holds value type kind ↔
      context.Holds value type kind := fun _ _ _ => holds_congr rfl
  constructor
  · intro block home found
    simp only [values]
    rcases block?_withBlock.mp found with old | ⟨rfl, rfl⟩
    · exact owned.lists block home old
    · refine ⟨.nil, fun value => iff_of_false List.not_mem_nil ?_⟩
      rintro ⟨type, code, held⟩
      obtain ⟨other, live⟩ := owned.owners value type _ code held
      exact Nat.lt_irrefl _ (lt_size_of_block? live)
  · intro value type block code held
    obtain ⟨home, live⟩ := owned.owners value type block code ((values _ _ _).mp held)
    exact ⟨home, block?_withBlock.mpr (.inl live)⟩

theorem Owned.block (owned : context.Owned) (live : context.IsFunction function) (name : String) :
    (context.withBlock function name).Owned where
  functions := by
    refine owned.functions.transfer rfl (fun entry => ?_) (fun entry target => ?_)
      (fun _ _ known => known) fun _ _ _ _ => holds_congr rfl
    · split <;> exact ⟨rfl, rfl, rfl⟩
    · split <;> exact .inl
  blocks := owned.blocks.block live name
  instructions := owned.instructions.block name

/-! ### Instructions -/

section Append

variable {block : BlockRef} {type : TypeRef} {code : Instruction} {name : String}

theorem parent?_appendInstruction {other : BlockRef} :
    (context.appendInstruction function block type code name).2.parent? other =
      context.parent? other := by
  rw [parent?, block?_appendInstruction, parent?]
  by_cases same : other = block
  · rw [if_pos same, Option.map_map]
    rfl
  · rw [if_neg same]

theorem InstructionsOwned.append (owned : context.InstructionsOwned) {home : Block}
    (found : context.block? block = some home) :
    (context.appendInstruction function block type code name).2.InstructionsOwned := by
  have fresh : ∀ type kind, ¬ context.Holds context.values.size type kind :=
    fun _ _ held => Nat.lt_irrefl _ held.lt_size
  constructor
  · intro other home lookup
    rw [block?_appendInstruction] at lookup
    simp only [holds_appendInstruction, ValueKind.instruction.injEq]
    by_cases same : other = block
    · rw [if_pos same] at lookup
      obtain ⟨old, oldFound, rfl⟩ := Option.map_eq_some_iff.mp lookup
      obtain ⟨distinct, listed⟩ := owned.lists other old oldFound
      constructor
      · refine List.nodup_append'.mpr ⟨distinct, List.nodup_singleton _, ?_⟩
        intro value inside last
        obtain ⟨_, _, held⟩ := (listed value).mp inside
        rw [List.mem_singleton.mp last] at held
        exact fresh _ _ held
      · intro value
        rw [List.mem_append, List.mem_singleton, listed]
        constructor
        · rintro (⟨valueType, valueCode, held⟩ | rfl)
          · exact ⟨valueType, valueCode, .inl held⟩
          · exact ⟨type, code, .inr ⟨rfl, rfl, same, rfl⟩⟩
        · rintro ⟨valueType, valueCode, held | ⟨rfl, _⟩⟩
          · exact .inl ⟨valueType, valueCode, held⟩
          · exact .inr rfl
    · rw [if_neg same] at lookup
      obtain ⟨distinct, listed⟩ := owned.lists other home lookup
      refine ⟨distinct, fun value => ?_⟩
      rw [listed]
      refine exists_congr fun _ => exists_congr fun _ => (or_iff_left ?_).symm
      exact fun new => same new.2.2.1
  · intro value valueType other valueCode held
    have live : ∃ home, context.block? other = some home := by
      rcases holds_appendInstruction.mp held with old | ⟨_, _, same⟩
      · exact owned.owners value valueType other valueCode old
      · obtain ⟨rfl, _⟩ := ValueKind.instruction.inj same
        exact ⟨home, found⟩
    obtain ⟨old, oldFound⟩ := live
    rw [block?_appendInstruction, oldFound]
    by_cases same : other = block
    · exact ⟨_, if_pos same⟩
    · exact ⟨_, if_neg same⟩

theorem Owned.append (owned : context.Owned) {home : Block}
    (found : context.block? block = some home) :
    (context.appendInstruction function block type code name).2.Owned where
  functions := by
    refine owned.functions.transfer rfl (fun entry => ?_) (fun entry target => ?_)
      (fun _ _ known => known) fun value valueType kind ofFunction => ?_
    · split <;> exact ⟨rfl, rfl, rfl⟩
    · split <;> exact .inl
    · rw [holds_appendInstruction]
      apply or_iff_left
      rintro ⟨_, _, rfl⟩
      cases ofFunction
  blocks := by
    refine owned.blocks.transfer rfl (fun entry => ?_) fun _ => parent?_appendInstruction
    split <;> exact ⟨⟨rfl, rfl, rfl⟩, rfl⟩
  instructions := owned.instructions.append found

end Append

end Update

end TypedIR.Context
