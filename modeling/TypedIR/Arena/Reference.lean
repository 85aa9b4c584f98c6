import TypedIR.Arena.System

/-!
Contract: engines that read an arena as a store.

Owns:
- what an engine gets to see of an arena: its contexts, with entries that refer to each
  other by position, and the bodies of the functions in the order of these;
- engines over stores as engines over arenas, the reference engine among them.

The index of structures and the index of names are for operations only. No engine asks
for them.
-/

namespace TypedIR.Arena

def TypeKind.view : TypeKind → TypeShape
  | .void => .void
  | .label => .label
  | .integer bits => .integer bits
  | .array element length => .array element.index length
  | .struct fields packed => .struct (fields.map (·.index)) packed
  | .function result parameters variadic =>
      .function result.index (parameters.map (·.index)) variadic

def Instruction.view : Instruction → TypedIR.Instruction
  | .binary operator left right => .binary operator left.index right.index
  | .compare predicate left right => .compare predicate left.index right.index
  | .select condition thenValue elseValue =>
      .select condition.index thenValue.index elseValue.index
  | .call callee arguments => .call callee.index (arguments.map (·.index))
  | .ret value => .ret (value.map (·.index))
  | .branch target => .branch target.index
  | .condBranch condition thenBlock elseBlock =>
      .condBranch condition.index thenBlock.index elseBlock.index
  | .unreachable => .unreachable

def ValueKind.view : ValueKind → TypedIR.ValueKind
  | .integer number => .integer number
  | .array elements => .array (elements.map (·.index))
  | .bytes content => .bytes content
  | .struct fields => .struct (fields.map (·.index))
  | .undefined => .undefined
  | .function => .function
  | .parameter owner position => .parameter owner.index position
  | .instruction block code => .instruction block.index code.view

def Value.view (value : Value) : TypedIR.Value := ⟨value.type.index, value.kind.view, value.name⟩

def Block.view (block : Block) : TypedIR.Block :=
  ⟨block.function.index, block.name, block.instructions.map (·.index)⟩

def Body.view (self : ValueRef) (body : Body) : FunctionEntry where
  self := self
  signature := body.signature.index
  parameters := body.parameters.map (·.index)
  blocks := body.blocks.map (·.index)
  convention := body.convention
  personality := body.personality.map (·.index)
  collector := body.collector
  attributes := body.attributes
  state := body.state

def Contents.view (contents : Contents) : Context where
  id := contents.id
  native := contents.native
  moduleName := contents.moduleName
  types := contents.types.map TypeKind.view
  values := contents.values.map Value.view
  blocks := contents.blocks.map Block.view
  functions := contents.functions.filterMap fun function =>
    (contents.bodies.get? function.index).map (Body.view function.index)

def view (arena : Arena) : Store where
  settings := arena.settings
  slots := arena.slots.map fun slot => ⟨slot.generation, slot.contents.map Contents.view⟩
  free := arena.free

def Engine.ofStores {σ : Type} (engine : TypedIR.Engine σ) : Engine σ where
  name := engine.name
  create := engine.create
  dispose := engine.dispose
  accepts := engine.accepts
  verify native arena function := engine.verify native arena.view function
  write native arena context := engine.write native arena.view context

def Engine.reference : Engine ReferenceState := .ofStores .reference

end TypedIR.Arena
