import TypedIR.Arena.Reference
import TypedIR.Proofs.Context.Lookup

/-!
Contract: the arena of a store.

Owns:
- entries with handles in place of positions;
- the contents of a context: what interning, the look-up of functions and the look-up of
  names find in it becomes a map each;
- the arena of a store, and what each of the two finds under a handle;
- that a view of the arena shows the store.

The maps are read off the tables here. That they can be stored instead, and written by hand
with every operation, is shown operation by operation elsewhere.
-/

namespace TypedIR

/-! ### Entries -/

def TypeShape.tagged (home : ContextId) : TypeShape → Arena.TypeKind
  | .void => .void
  | .label => .label
  | .integer bits => .integer bits
  | .array element length => .array ⟨home, element⟩ length
  | .struct fields packed => .struct (fields.map (TypeId.mk home)) packed
  | .function result parameters variadic =>
      .function ⟨home, result⟩ (parameters.map (TypeId.mk home)) variadic

def Instruction.tagged (home : ContextId) : Instruction → Arena.Instruction
  | .binary operator left right => .binary operator ⟨home, left⟩ ⟨home, right⟩
  | .compare predicate left right => .compare predicate ⟨home, left⟩ ⟨home, right⟩
  | .select condition thenValue elseValue =>
      .select ⟨home, condition⟩ ⟨home, thenValue⟩ ⟨home, elseValue⟩
  | .call callee arguments => .call ⟨home, callee⟩ (arguments.map (ValueId.mk home))
  | .ret value => .ret (value.map (ValueId.mk home))
  | .branch target => .branch ⟨home, target⟩
  | .condBranch condition thenBlock elseBlock =>
      .condBranch ⟨home, condition⟩ ⟨home, thenBlock⟩ ⟨home, elseBlock⟩
  | .unreachable => .unreachable

def ValueKind.tagged (home : ContextId) : ValueKind → Arena.ValueKind
  | .integer number => .integer number
  | .array elements => .array (elements.map (ValueId.mk home))
  | .bytes content => .bytes content
  | .struct fields => .struct (fields.map (ValueId.mk home))
  | .undefined => .undefined
  | .function => .function
  | .parameter owner position => .parameter ⟨home, owner⟩ position
  | .instruction block code => .instruction ⟨home, block⟩ (code.tagged home)

def Value.tagged (home : ContextId) (value : Value) : Arena.Value :=
  ⟨⟨home, value.type⟩, value.kind.tagged home, value.name⟩

def Block.tagged (home : ContextId) (block : Block) : Arena.Block :=
  ⟨⟨home, block.function⟩, block.name, block.instructions.map (ValueId.mk home)⟩

/-- All of a function but its position, under which it is found. -/
def FunctionEntry.body (home : ContextId) (entry : FunctionEntry) : Arena.Body where
  signature := ⟨home, entry.signature⟩
  parameters := entry.parameters.map (ValueId.mk home)
  blocks := entry.blocks.map (BlockId.mk home)
  convention := entry.convention
  personality := entry.personality.map (FunctionId.mk home)
  collector := entry.collector
  attributes := entry.attributes
  state := entry.state

section Views

variable (home : ContextId)

theorem TypeShape.view_tagged (shape : TypeShape) : (shape.tagged home).view = shape := by
  cases shape <;> simp [tagged, Arena.TypeKind.view, Function.comp_def]

theorem TypeShape.tagged_injective : Function.Injective (TypeShape.tagged home) :=
  Function.LeftInverse.injective (view_tagged home)

theorem Instruction.view_tagged (code : Instruction) : (code.tagged home).view = code := by
  cases code <;> simp [tagged, Arena.Instruction.view, Function.comp_def]

theorem ValueKind.view_tagged (kind : ValueKind) : (kind.tagged home).view = kind := by
  cases kind <;>
    simp [tagged, Arena.ValueKind.view, Function.comp_def, Instruction.view_tagged]

theorem Value.view_tagged (value : Value) : (value.tagged home).view = value := by
  simp [tagged, Arena.Value.view, ValueKind.view_tagged]

theorem Block.view_tagged (block : Block) : (block.tagged home).view = block := by
  simp [tagged, Arena.Block.view, Function.comp_def]

theorem FunctionEntry.view_body (entry : FunctionEntry) :
    (entry.body home).view entry.self = entry := by
  simp [body, Arena.Body.view, Function.comp_def]

end Views

/-! ### What typing rules ask of entries -/

section Classes

variable {home : ContextId}

theorem TypeShape.isSized_tagged (shape : TypeShape) :
    (shape.tagged home).isSized = shape.isSized := by cases shape <;> rfl

theorem TypeShape.isInteger_tagged (shape : TypeShape) :
    (shape.tagged home).isInteger = shape.isInteger := by cases shape <;> rfl

theorem TypeShape.isVoid_tagged (shape : TypeShape) :
    (shape.tagged home).isVoid = shape.isVoid := by cases shape <;> rfl

theorem ValueKind.isConstant_tagged (kind : ValueKind) :
    (kind.tagged home).isConstant = kind.isConstant := by cases kind <;> rfl

theorem ValueKind.tagged_eq_function {kind : ValueKind} :
    kind.tagged home = .function ↔ kind = .function := by cases kind <;> simp [tagged]

end Classes

/-! ### Contents -/

namespace Context

def contents (context : Context) : Arena.Contents where
  id := context.id
  native := context.native
  moduleName := context.moduleName
  types := context.types.map (TypeShape.tagged context.id)
  interned := ⟨fun kind => context.types.findIdx? fun shape => shape.tagged context.id = kind⟩
  values := context.values.map (Value.tagged context.id)
  blocks := context.blocks.map (Block.tagged context.id)
  bodies := ⟨fun index => (context.function? index).map (FunctionEntry.body context.id)⟩
  functions := context.functions.map fun entry => context.functionId entry.self
  names := ⟨fun name => (context.functionNamed? name).map context.functionId⟩

variable (context : Context)

theorem contents_types (type : TypeRef) :
    context.contents.types[type]? = (context.shape? type).map (TypeShape.tagged context.id) :=
  Array.getElem?_map ..

theorem contents_interned (shape : TypeShape) :
    context.contents.interned.get? (shape.tagged context.id) = context.findType? shape := by
  show (context.types.findIdx? fun stored => stored.tagged context.id = shape.tagged context.id) = _
  simp only [(TypeShape.tagged_injective context.id).eq_iff]
  rfl

/-- What interning finds stands in the table. -/
theorem types_of_interned {kind : Arena.TypeKind} {index : Nat}
    (found : context.contents.interned.get? kind = some index) :
    context.contents.types[index]? = some kind := by
  obtain ⟨inside, same, _⟩ := Array.findIdx?_eq_some_iff_getElem.mp found
  have known : context.shape? index = some context.types[index] :=
    Array.getElem?_eq_getElem inside
  rw [contents_types, known, Option.map_some, of_decide_eq_true same]

theorem contents_values (value : ValueRef) :
    context.contents.values.get? value = (context.value? value).map (Value.tagged context.id) :=
  Table.get?_map ..

theorem contents_blocks (block : BlockRef) :
    context.contents.blocks.get? block = (context.block? block).map (Block.tagged context.id) :=
  Table.get?_map ..

theorem contents_bodies (function : ValueRef) : context.contents.bodies.get? function =
    (context.function? function).map (FunctionEntry.body context.id) := rfl

theorem contents_names (name : String) : context.contents.names.get? name =
    (context.functionNamed? name).map context.functionId := rfl

variable {context}

/-- Nothing of a context is lost in its contents. -/
theorem view_contents (distinct : (context.functions.map fun entry => entry.self).Nodup) :
    context.contents.view = context := by
  have functions : (context.functions.map fun entry => context.functionId entry.self).filterMap
      (fun function => (context.contents.bodies.get? function.index).map
        (Arena.Body.view function.index)) = context.functions := by
    rw [List.filterMap_map]
    refine (List.filterMap_congr fun entry member => ?_).trans List.filterMap_some
    show ((context.function? entry.self).map _).map _ = some entry
    rw [function?_of_mem distinct member, Option.map_some, Option.map_some]
    exact congrArg some (FunctionEntry.view_body context.id entry)
  have types : (context.types.map (TypeShape.tagged context.id)).map Arena.TypeKind.view =
      context.types := by
    simp [Function.comp_def, TypeShape.view_tagged]
  have values : (context.values.map (Value.tagged context.id)).map Arena.Value.view =
      context.values := by
    simp [Table.map, Function.comp_def, Value.view_tagged]
  have blocks : (context.blocks.map (Block.tagged context.id)).map Arena.Block.view =
      context.blocks := by
    simp [Table.map, Function.comp_def, Block.view_tagged]
  simp only [Arena.Contents.view, contents] at functions ⊢
  rw [functions, types, values, blocks]

end Context

/-! ### Stores -/

def Slot.arena (slot : Slot) : Arena.Slot := ⟨slot.generation, slot.context.map Context.contents⟩

namespace Store

def arena (store : Store) : Arena where
  settings := store.settings
  slots := store.slots.map Slot.arena
  free := store.free

variable {store : Store}

theorem arena_empty (settings : Settings) : (Store.empty settings).arena = .empty settings := by
  simp [Store.empty, arena, Arena.empty]

theorem arena_contents? (id : ContextId) :
    store.arena.contents? id = (store.context? id).map Context.contents := by
  unfold Arena.contents? context?
  rw [arena, Array.getElem?_map]
  cases store.slots[id.index]? with
  | none => rfl
  | some slot =>
      by_cases same : slot.generation = id.generation <;> simp [Slot.arena, same]

theorem arena_contents (id : ContextId) :
    store.arena.contents id = (store.resolve id).map Context.contents := by
  unfold Arena.contents resolve
  rw [arena_contents?]
  cases store.context? id <;> rfl

theorem arena_put (index : Nat) (context : Context) :
    store.arena.put index context.contents = (store.put index context).arena := by
  have slots : (store.slots.modify index fun slot => { slot with context := some context }).map
      Slot.arena = (store.slots.map Slot.arena).modify index
        fun slot => { slot with contents := some context.contents } := by
    apply Table.array_map_modify
    intro _
    rfl
  rw [Arena.put, arena, arena, put, slots]

end Store

end TypedIR
