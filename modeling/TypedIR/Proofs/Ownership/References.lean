import TypedIR.Proofs.Ownership.Deletion

/-!
Contract: the references that a context stores.

Owns:
- the invariant that entries refer backwards: a type to types before it, a value
  to values before it and to blocks of the table;
- its preservation by every change of a context;
- the places where a context stores a handle, and that each such handle was issued
  by the context.

A position is never handed out twice, so a reference that was issued before a
change means the same entry, or none, after it.
-/

namespace TypedIR

/-- All values that a kind refers to stand before one position, all blocks before another. -/
def ValueKind.Below (values blocks : Nat) : ValueKind → Prop
  | .array elements => ∀ element ∈ elements, element < values
  | .struct fields => ∀ field ∈ fields, field < values
  | .parameter owner _ => owner < values
  | .instruction block code =>
      block < blocks ∧ (∀ operand ∈ code.operands, operand < values) ∧
        (∀ callee, code.callee? = some callee → callee < values) ∧
        ∀ target ∈ code.successors, target < blocks
  | .integer _ | .bytes _ | .undefined | .function => True

theorem ValueKind.Below.mono {values blocks larger : Nat} {kind : ValueKind}
    (below : kind.Below values blocks) (blocksLe : blocks ≤ larger) : kind.Below values larger := by
  cases kind with
  | instruction block code =>
      obtain ⟨home, operands, callee, targets⟩ := below
      exact ⟨Nat.lt_of_lt_of_le home blocksLe, operands, callee,
        fun target member => Nat.lt_of_lt_of_le (targets target member) blocksLe⟩
  | _ => exact below

theorem ValueKind.Below.parts {values blocks : Nat} {kind : ValueKind}
    (below : kind.Below values blocks) : ∀ part ∈ kind.parts, part < values := by
  intro part member
  cases kind with
  | array elements => exact below part member
  | struct fields => exact below part member
  | _ => cases member

theorem Context.lt_size_of_shape? {context : Context} {type : TypeRef} {shape : TypeShape}
    (known : context.shape? type = some shape) : type < context.types.size :=
  (Array.getElem?_eq_some_iff.mp known).1

theorem SizedBy.lt_size {context : Context} {type : TypeRef}
    (sized : SizedBy context.shape? type) : type < context.types.size := by
  obtain ⟨_, known, _⟩ := sized
  exact Context.lt_size_of_shape? known

namespace Context

variable {settings : Settings} {effect : Effect} {context before after : Context}

structure Grounded (context : Context) : Prop where
  components : ∀ type shape, context.shape? type = some shape →
    ∀ component ∈ shape.components, component < type
  values : ∀ value type kind, context.Holds value type kind →
    type < context.types.size ∧ kind.Below value context.blocks.size

theorem grounded_empty (id : ContextId) (native : NativeHandle) (moduleName : String) :
    (empty id native moduleName).Grounded where
  components := by simp [empty, shape?]
  values := by simp [Holds, empty, value?]

theorem Grounded.type_lt_size (grounded : context.Grounded) {value : ValueRef} {entry : Value}
    (live : context.value? value = some entry) : entry.type < context.types.size :=
  (grounded.values _ _ _ (.of_value? live)).1

theorem HasType.lt_size {value : ValueRef} {type : TypeRef} (typed : context.HasType value type) :
    value < context.values.size := by
  obtain ⟨_, found, _⟩ := typed
  exact Table.lt_size_of_get? found

/-! ### What the rules refer to -/

theorem Forms.component_lt_size {shape : TypeShape} (formed : context.Forms settings shape) :
    ∀ component ∈ shape.components, component < context.types.size := by
  intro component member
  cases shape with
  | array element length =>
      obtain rfl := List.mem_singleton.mp member
      exact formed.lt_size
  | struct fields packed => exact (formed component member).lt_size
  | function result parameters variadic =>
      rcases List.mem_cons.mp member with rfl | listed
      · rcases formed.1 with sized | known
        · exact sized.lt_size
        · exact lt_size_of_shape? known
      · exact (formed.2 component listed).lt_size
  | _ => cases member

theorem IsConstantOf.lt_size {value : ValueRef} {type : TypeRef}
    (constant : context.IsConstantOf value type) : value < context.values.size := by
  obtain ⟨_, found, _⟩ := constant
  exact Table.lt_size_of_get? found

theorem FormsConstant.grounded {type : TypeRef} {kind : ValueKind}
    (formed : context.FormsConstant type kind) :
    type < context.types.size ∧ kind.Below context.values.size context.blocks.size := by
  cases kind with
  | integer number =>
      obtain ⟨_, known, _⟩ := formed
      exact ⟨lt_size_of_shape? known, trivial⟩
  | array elements =>
      obtain ⟨_, _, known, _, _, parts⟩ := formed
      exact ⟨lt_size_of_shape? known, fun part member => (parts part member).lt_size⟩
  | bytes content =>
      obtain ⟨_, _, known, _⟩ := formed
      exact ⟨lt_size_of_shape? known, trivial⟩
  | struct fields =>
      obtain ⟨_, _, known, _, parts⟩ := formed
      have sized : List.Forall₂ (fun field type => field < context.values.size ∧
          context.IsConstantOf field type) fields _ :=
        parts.imp fun field type constant => ⟨constant.lt_size, constant⟩
      exact ⟨lt_size_of_shape? known, ((List.forall₂_and_left _ _).mp sized).1⟩
  | undefined => exact ⟨formed.lt_size, trivial⟩
  | function => exact formed.elim
  | parameter function position => exact formed.elim
  | instruction block code => exact formed.elim

theorem Types.type_lt_size (grounded : context.Grounded) {home : ValueRef} {type : TypeRef}
    {code : Instruction} (typed : context.Types home type code) : type < context.types.size := by
  cases code with
  | binary operator left right =>
      obtain ⟨⟨_, known⟩, _⟩ := typed
      exact lt_size_of_shape? known
  | compare predicate left right => exact lt_size_of_shape? typed.1
  | select condition thenValue elseValue => exact typed.2.1.lt_size
  | call callee arguments =>
      obtain ⟨signature, parameters, variadic, _, known, _⟩ := typed
      have earlier := grounded.components signature _ known type List.mem_cons_self
      exact Nat.lt_trans earlier (lt_size_of_shape? known)
  | ret value => cases value <;> exact lt_size_of_shape? typed.1
  | condBranch condition thenBlock elseBlock => exact lt_size_of_shape? typed.1
  | branch target => exact lt_size_of_shape? typed
  | unreachable => exact lt_size_of_shape? typed

theorem Types.callee_lt_size (owned : context.Owned) {home callee : ValueRef} {type : TypeRef}
    {code : Instruction} (typed : context.Types home type code)
    (calls : code.callee? = some callee) :
    callee < context.values.size := by
  cases code with
  | call function arguments =>
      obtain rfl : function = callee := Option.some.inj calls
      obtain ⟨_, _, _, ⟨entry, found, _⟩, _⟩ := typed
      exact owned.functions.lt_size ⟨entry, mem_of_function? found⟩
  | _ => cases calls

theorem Types.below (owned : context.Owned) {block : BlockRef} {home : Block} {type : TypeRef}
    {code : Instruction} (found : context.block? block = some home)
    (typed : context.Types home.function type code)
    (targets : ∀ target ∈ code.successors, (context.block? target).isSome) :
    (ValueKind.instruction block code).Below context.values.size context.blocks.size := by
  refine ⟨lt_size_of_block? found, ?_, ?_, ?_⟩
  · intro operand member
    obtain ⟨_, operandHas⟩ := typed.operand_has member
    exact operandHas.lt_size
  · exact fun callee calls => typed.callee_lt_size owned calls
  · intro target member
    obtain ⟨_, live⟩ := Option.isSome_iff_exists.mp (targets target member)
    exact lt_size_of_block? live

/-! ### Every change -/

/-- Tables only grow, so it is enough to look at what is new. -/
theorem Grounded.grow (grounded : before.Grounded) (shapes : after.shape? = before.shape?)
    (types : before.types.size ≤ after.types.size) (blocks : before.blocks.size ≤ after.blocks.size)
    (values : ∀ value type kind, after.Holds value type kind →
      before.Holds value type kind ∨
        (type < after.types.size ∧ kind.Below value after.blocks.size)) : after.Grounded where
  components := shapes ▸ grounded.components
  values := by
    intro value type kind held
    rcases values value type kind held with old | new
    · obtain ⟨typeLt, below⟩ := grounded.values value type kind old
      exact ⟨Nat.lt_of_lt_of_le typeLt types, below.mono blocks⟩
    · exact new

theorem Grounded.step (grounded : before.Grounded) (owned : before.Owned)
    (change : Change settings effect before after) : after.Grounded := by
  have reflexive : before.types.size ≤ before.types.size := Nat.le_refl _
  have blocksLe : before.blocks.size ≤ before.blocks.size := Nat.le_refl _
  cases change with
  | moduleName name => exact grounded.grow rfl reflexive blocksLe fun _ _ _ => .inl
  | type shape fresh formed =>
      constructor
      · intro type other known
        rcases Nat.lt_or_ge type before.types.size with old | new
        · rw [shape?, Array.getElem?_push_lt old] at known
          apply grounded.components type other
          rw [shape?, Array.getElem?_eq_getElem old, known]
        · have last : type = before.types.size := by
            have inside := lt_size_of_shape? known
            rw [Array.size_push] at inside
            exact Nat.le_antisymm (Nat.le_of_lt_succ inside) new
          subst last
          rw [shape?, Array.getElem?_push_size] at known
          obtain rfl := Option.some.inj known
          exact formed.component_lt_size
      · intro value type kind held
        obtain ⟨typeLt, below⟩ := grounded.values value type kind held
        refine ⟨?_, below⟩
        rw [Array.size_push]
        exact Nat.lt_succ_of_lt typeLt
  | constant type kind formed =>
      refine grounded.grow rfl reflexive blocksLe fun value other otherKind held => ?_
      rcases holds_pushValue.mp held with old | ⟨rfl, rfl, rfl⟩
      · exact .inl old
      · exact .inr formed.grounded
  | declare name shape free =>
      refine grounded.grow rfl reflexive blocksLe fun value type kind held => ?_
      rcases holds_withFunction.mp held with old | ⟨rfl, rfl, rfl⟩ | ⟨position, typed, rfl, rfl⟩
      · exact .inl old
      · exact .inr ⟨lt_size_of_shape? shape, trivial⟩
      · have earlier := grounded.components _ _ shape type
          (List.mem_cons_of_mem _ (List.mem_of_getElem? typed))
        refine .inr ⟨Nat.lt_trans earlier (lt_size_of_shape? shape), ?_⟩
        show before.values.size < before.values.size + 1 + position
        omega
  | rename name found free =>
      exact grounded.grow rfl reflexive blocksLe fun _ _ _ held => .inl (holds_withName.mp held)
  | block name found =>
      refine grounded.grow rfl reflexive ?_ fun _ _ _ => .inl
      exact Nat.le_of_lt (Nat.lt_of_lt_of_eq (Nat.lt_succ_self _) (Table.size_push _ _).symm)
  | configure change found frame personality =>
      exact grounded.grow rfl reflexive blocksLe fun _ _ _ => .inl
  | delete found =>
      refine grounded.grow rfl reflexive ?_ fun _ _ _ held => .inl (holds_withoutFunction.mp held).1
      exact Nat.le_of_eq (Table.size_releaseAll _ _).symm
  | append name found typed targets =>
      have kept := Table.size_modify before.blocks
      refine grounded.grow rfl reflexive (Nat.le_of_eq (kept _ _).symm) ?_
      intro value type kind held
      rcases holds_appendInstruction.mp held with old | ⟨rfl, rfl, rfl⟩
      · exact .inl old
      · exact .inr ⟨typed.type_lt_size grounded,
          (typed.below owned found targets).mono (Nat.le_of_eq (kept _ _).symm)⟩
  | record function state => exact grounded.grow rfl reflexive blocksLe fun _ _ _ => .inl

/-! ### Stored handles -/

/-- The context stores the handle: as the component of a type, as a part of a value, a block or
a function, or in one of their lists. -/
inductive Stores (context : Context) : Handle → Prop where
  | component {type component : TypeRef} {shape : TypeShape}
      (known : context.shape? type = some shape) (member : component ∈ shape.components) :
      Stores context (.type (context.typeId component))
  | typeOf {value : ValueRef} {type : TypeRef} {kind : ValueKind}
      (held : context.Holds value type kind) : Stores context (.type (context.typeId type))
  | part {value part : ValueRef} {type : TypeRef} {kind : ValueKind}
      (held : context.Holds value type kind) (member : part ∈ kind.parts) :
      Stores context (.value (context.valueId part))
  | parameterOwner {value function : ValueRef} {type : TypeRef} {position : Nat}
      (held : context.Holds value type (.parameter function position)) :
      Stores context (.function (context.functionId function))
  | instructionHome {value : ValueRef} {type : TypeRef} {block : BlockRef} {code : Instruction}
      (held : context.Holds value type (.instruction block code)) :
      Stores context (.block (context.blockId block))
  | operand {value operand : ValueRef} {type : TypeRef} {block : BlockRef} {code : Instruction}
      (held : context.Holds value type (.instruction block code))
      (member : operand ∈ code.operands) : Stores context (.value (context.valueId operand))
  | callee {value callee : ValueRef} {type : TypeRef} {block : BlockRef} {code : Instruction}
      (held : context.Holds value type (.instruction block code))
      (calls : code.callee? = some callee) :
      Stores context (.function (context.functionId callee))
  | target {value : ValueRef} {type : TypeRef} {block target : BlockRef} {code : Instruction}
      (held : context.Holds value type (.instruction block code))
      (member : target ∈ code.successors) : Stores context (.block (context.blockId target))
  | blockOwner {block : BlockRef} {home : Block} (found : context.block? block = some home) :
      Stores context (.function (context.functionId home.function))
  | blockItem {block : BlockRef} {home : Block} {value : ValueRef}
      (found : context.block? block = some home) (member : value ∈ home.instructions) :
      Stores context (.value (context.valueId value))
  | function {entry : FunctionEntry} (member : entry ∈ context.functions) :
      Stores context (.function (context.functionId entry.self))
  | signature {entry : FunctionEntry} (member : entry ∈ context.functions) :
      Stores context (.type (context.typeId entry.signature))
  | parameter {entry : FunctionEntry} {value : ValueRef} (member : entry ∈ context.functions)
      (listed : value ∈ entry.parameters) : Stores context (.value (context.valueId value))
  | block {entry : FunctionEntry} {block : BlockRef} (member : entry ∈ context.functions)
      (listed : block ∈ entry.blocks) : Stores context (.block (context.blockId block))
  | personality {entry : FunctionEntry} {personality : ValueRef}
      (member : entry ∈ context.functions) (named : entry.personality = some personality) :
      Stores context (.function (context.functionId personality))

/-- The context gave the handle out, though it may have released the entry since. -/
def Issued (context : Context) : Handle → Prop
  | .context id => id = context.id
  | .type id => id.context = context.id ∧ id.index < context.types.size
  | .value id => id.context = context.id ∧ id.index < context.values.size
  | .function id => id.context = context.id ∧ id.index < context.values.size
  | .block id => id.context = context.id ∧ id.index < context.blocks.size

theorem Issued.tag_eq {handle : Handle} (issued : context.Issued handle) :
    handle.tag = context.id := by
  cases handle with
  | context id => exact issued
  | _ => exact issued.1

theorem Grounded.part_lt_size (grounded : context.Grounded) {value part : ValueRef}
    {type : TypeRef} {kind : ValueKind} (held : context.Holds value type kind)
    (member : part ∈ kind.parts) : part < context.values.size :=
  Nat.lt_trans ((grounded.values value type kind held).2.parts part member) held.lt_size

theorem Stores.issued (owned : context.Owned) (grounded : context.Grounded) {handle : Handle}
    (stored : context.Stores handle) : context.Issued handle := by
  have live : ∀ {function : ValueRef}, context.IsFunction function →
      context.Issued (.function (context.functionId function)) :=
    fun isFunction => ⟨rfl, owned.functions.lt_size isFunction⟩
  cases stored with
  | component known member =>
      have earlier := grounded.components _ _ known _ member
      exact ⟨rfl, Nat.lt_trans earlier (lt_size_of_shape? known)⟩
  | typeOf held => exact ⟨rfl, (grounded.values _ _ _ held).1⟩
  | part held member => exact ⟨rfl, grounded.part_lt_size held member⟩
  | parameterOwner held => exact ⟨rfl, Nat.lt_trans (grounded.values _ _ _ held).2 held.lt_size⟩
  | instructionHome held => exact ⟨rfl, (grounded.values _ _ _ held).2.1⟩
  | operand held member =>
      have earlier := (grounded.values _ _ _ held).2.2.1 _ member
      exact ⟨rfl, Nat.lt_trans earlier held.lt_size⟩
  | callee held calls =>
      have earlier := (grounded.values _ _ _ held).2.2.2.1 _ calls
      exact ⟨rfl, Nat.lt_trans earlier held.lt_size⟩
  | target held member => exact ⟨rfl, (grounded.values _ _ _ held).2.2.2.2 _ member⟩
  | @blockOwner block home found =>
      have named : context.parent? block = some home.function := by
        rw [parent?, found, Option.map_some]
      exact live (owned.blocks.owners block home.function named)
  | blockItem found member =>
      obtain ⟨_, _, held⟩ := ((owned.instructions.lists _ _ found).2 _).mp member
      exact ⟨rfl, held.lt_size⟩
  | function member => exact live ⟨_, member, rfl⟩
  | signature member => exact ⟨rfl, (grounded.values _ _ _ (owned.functions.signed _ member)).1⟩
  | parameter member listed =>
      obtain ⟨_, _, held⟩ := owned.functions.holds_parameter member listed
      exact ⟨rfl, held.lt_size⟩
  | block member listed => exact ⟨rfl, owned.blocks.lt_size member listed⟩
  | personality member named => exact live (owned.functions.personalities _ member _ named)

end Context

end TypedIR
