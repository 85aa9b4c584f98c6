import TypedIR.Proofs.Arena.Runs

/-!
Contract: the stores of a context agree on what belongs to what.

Owns:
- live entries of contents, by their handles;
- the invariant: bodies, the order of the functions and the values tell of the same
  functions; parameters, blocks and instructions name the owners that list them;
- the handles that contents store, in whichever store, and that all of them are tagged
  with the context;
- both in every reachable system, for every engine.

No store is made out of another one here: operations write them one by one.
-/

namespace TypedIR

namespace Arena.Contents

variable (contents : Contents)

/-! ### Live entries -/

def Holds (value : ValueId) (type : TypeId) (kind : ValueKind) : Prop :=
  value.context = contents.id ∧
    ∃ name, contents.values.get? value.index = some ⟨type, kind, name⟩

def HasBlock (block : BlockId) (home : Block) : Prop :=
  block.context = contents.id ∧ contents.blocks.get? block.index = some home

def HasBody (function : FunctionId) (body : Body) : Prop :=
  function.context = contents.id ∧ contents.bodies.get? function.index = some body

/-! ### The invariant -/

/-- The stores agree on what belongs to what. -/
structure Owned : Prop where
  /-- No function is listed twice. -/
  distinct : contents.functions.Nodup
  /-- Bodies are stored for the listed functions. -/
  bodies : ∀ function, function ∈ contents.functions ↔ ∃ body, contents.HasBody function body
  /-- The values that are functions are the listed ones. -/
  values : ∀ function, function ∈ contents.functions ↔
    ∃ type, contents.Holds function.toValue type .function
  signed : ∀ function body, contents.HasBody function body →
    contents.Holds function.toValue body.signature .function
  /-- One parameter for each of the signature, in order. -/
  parameters : ∀ function body, contents.HasBody function body → ∃ result types variadic,
    contents.types[body.signature.index]? = some (.function result types variadic) ∧
      body.parameters.length = types.length ∧
      ∀ (position : Nat) value type, body.parameters[position]? = some value →
        types[position]? = some type → contents.Holds value type (.parameter function position)
  parameterOwners : ∀ value type function position,
    contents.Holds value type (.parameter function position) →
      ∃ body, contents.HasBody function body ∧ body.parameters[position]? = some value
  personalities : ∀ function body personality, contents.HasBody function body →
    body.personality = some personality → personality ∈ contents.functions
  /-- A function lists the blocks that name it, each one once, and no others. -/
  blocks : ∀ function body, contents.HasBody function body → body.blocks.Nodup ∧
    ∀ block, block ∈ body.blocks ↔ ∃ home, contents.HasBlock block home ∧ home.function = function
  blockOwners : ∀ block home, contents.HasBlock block home → home.function ∈ contents.functions
  /-- A block lists the instructions that name it, each one once, and no others. -/
  instructions : ∀ block home, contents.HasBlock block home → home.instructions.Nodup ∧
    ∀ value, value ∈ home.instructions ↔
      ∃ type code, contents.Holds value type (.instruction block code)
  instructionOwners : ∀ value type block code,
    contents.Holds value type (.instruction block code) → ∃ home, contents.HasBlock block home

/-! ### Stored handles -/

/-- Some store holds the handle, be it inside an entry or as a key. -/
inductive Stores : Handle → Prop where
  | component {index : Nat} {kind : TypeKind} {component : TypeId}
      (known : contents.types[index]? = some kind) (member : component ∈ kind.components) :
      Stores (.type component)
  | interned {index : Nat} {kind : TypeKind} {component : TypeId}
      (known : contents.interned.get? kind = some index) (member : component ∈ kind.components) :
      Stores (.type component)
  | value {index : Nat} {entry : Value} {handle : Handle}
      (live : contents.values.get? index = some entry) (member : handle ∈ entry.handles) :
      Stores handle
  | block {index : Nat} {home : Block} {handle : Handle}
      (live : contents.blocks.get? index = some home) (member : handle ∈ home.handles) :
      Stores handle
  | body {index : Nat} {body : Body} {handle : Handle}
      (live : contents.bodies.get? index = some body) (member : handle ∈ body.handles) :
      Stores handle
  | listed {function : FunctionId} (member : function ∈ contents.functions) :
      Stores (.function function)
  | named {name : String} {function : FunctionId}
      (found : contents.names.get? name = some function) : Stores (.function function)

/-- The context gave the handle out, though it may have released the entry since. -/
def Issued : Handle → Prop
  | .context id => id = contents.id
  | .type id => id.context = contents.id ∧ id.index < contents.types.size
  | .value id => id.context = contents.id ∧ id.index < contents.values.size
  | .function id => id.context = contents.id ∧ id.index < contents.values.size
  | .block id => id.context = contents.id ∧ id.index < contents.blocks.size

end Arena.Contents

/-! ### Entries with handles in place of positions -/

section Tagged

variable {home : ContextId}

theorem mem_map_typeId {type : TypeId} {types : List TypeRef} :
    type ∈ types.map (TypeId.mk home) ↔ type.context = home ∧ type.index ∈ types := by
  obtain ⟨tag, index⟩ := type
  simp [eq_comm, and_left_comm]

theorem mem_map_valueId {value : ValueId} {values : List ValueRef} :
    value ∈ values.map (ValueId.mk home) ↔ value.context = home ∧ value.index ∈ values := by
  obtain ⟨tag, index⟩ := value
  simp [eq_comm, and_left_comm]

theorem mem_map_blockId {block : BlockId} {blocks : List BlockRef} :
    block ∈ blocks.map (BlockId.mk home) ↔ block.context = home ∧ block.index ∈ blocks := by
  obtain ⟨tag, index⟩ := block
  simp [eq_comm, and_left_comm]

theorem ValueKind.tagged_eq_parameter {kind : ValueKind} {function : FunctionId} {position : Nat} :
    kind.tagged home = .parameter function position ↔
      function.context = home ∧ kind = .parameter function.index position := by
  obtain ⟨tag, index⟩ := function
  cases kind <;> simp [tagged, eq_comm, and_assoc, and_left_comm]

theorem ValueKind.tagged_eq_instruction {kind : ValueKind} {block : BlockId}
    {code : Arena.Instruction} : kind.tagged home = .instruction block code ↔
      block.context = home ∧ ∃ plain, code = plain.tagged home ∧
        kind = .instruction block.index plain := by
  obtain ⟨tag, index⟩ := block
  cases kind <;> simp [tagged, eq_comm, and_assoc, and_left_comm]

end Tagged

namespace Context

variable {context : Context}

/-! ### Live entries of the contents of a context -/

theorem contents_holds {value : ValueId} {type : TypeId} {kind : Arena.ValueKind} :
    context.contents.Holds value type kind ↔
      value.context = context.id ∧ type.context = context.id ∧
        ∃ plain : ValueKind, kind = plain.tagged context.id ∧
          context.Holds value.index type.index plain := by
  refine and_congr_right fun _ => ?_
  rw [contents_values]
  constructor
  · rintro ⟨name, stored⟩
    obtain ⟨entry, found, same⟩ := Option.map_eq_some_iff.mp stored
    cases same
    exact ⟨rfl, entry.kind, rfl, entry.name, found⟩
  · obtain ⟨tag, index⟩ := type
    rintro ⟨rfl, plain, rfl, name, found⟩
    exact ⟨name, Option.map_eq_some_iff.mpr ⟨_, found, rfl⟩⟩

theorem contents_holds_function {value : ValueId} {type : TypeId} :
    context.contents.Holds value type .function ↔ value.context = context.id ∧
      type.context = context.id ∧ context.Holds value.index type.index .function := by
  simp only [contents_holds, eq_comm (a := Arena.ValueKind.function),
    ValueKind.tagged_eq_function, exists_eq_left]

theorem contents_holds_parameter {value : ValueId} {type : TypeId} {function : FunctionId}
    {position : Nat} : context.contents.Holds value type (.parameter function position) ↔
      value.context = context.id ∧ type.context = context.id ∧ function.context = context.id ∧
        context.Holds value.index type.index (.parameter function.index position) := by
  simp only [contents_holds, eq_comm (a := Arena.ValueKind.parameter function position),
    ValueKind.tagged_eq_parameter, and_assoc, exists_and_left, exists_eq_left]

theorem contents_holds_instruction {value : ValueId} {type : TypeId} {block : BlockId} :
    (∃ code, context.contents.Holds value type (.instruction block code)) ↔
      value.context = context.id ∧ type.context = context.id ∧ block.context = context.id ∧
        ∃ code, context.Holds value.index type.index (.instruction block.index code) := by
  simp only [contents_holds, exists_and_left]
  refine and_congr_right fun _ => and_congr_right fun _ => ?_
  constructor
  · rintro ⟨code, plain, same, held⟩
    obtain ⟨home, inner, rfl, rfl⟩ := ValueKind.tagged_eq_instruction.mp same.symm
    exact ⟨home, inner, held⟩
  · rintro ⟨home, code, held⟩
    exact ⟨_, _, (ValueKind.tagged_eq_instruction.mpr ⟨home, code, rfl, rfl⟩).symm, held⟩

theorem contents_hasBlock {block : BlockId} {home : Arena.Block} :
    context.contents.HasBlock block home ↔ block.context = context.id ∧
      ∃ plain, context.block? block.index = some plain ∧ plain.tagged context.id = home := by
  refine and_congr_right fun _ => ?_
  rw [contents_blocks, Option.map_eq_some_iff]

theorem contents_hasBody {function : FunctionId} {body : Arena.Body} :
    context.contents.HasBody function body ↔ function.context = context.id ∧
      ∃ entry, context.function? function.index = some entry ∧
        entry.body context.id = body := by
  refine and_congr_right fun _ => ?_
  rw [contents_bodies, Option.map_eq_some_iff]

theorem mem_contents_functions {function : FunctionId} :
    function ∈ context.contents.functions ↔
      function.context = context.id ∧ context.IsFunction function.index := by
  obtain ⟨tag, index⟩ := function
  simp [contents, IsFunction, functionId, eq_comm, and_left_comm]

/-- A body belongs to an entry in the list of functions. -/
theorem entry_of_hasBody {function : FunctionId} {body : Arena.Body}
    (held : context.contents.HasBody function body) : ∃ entry ∈ context.functions,
      function = context.functionId entry.self ∧ entry.body context.id = body := by
  obtain ⟨home, entry, lookup, same⟩ := contents_hasBody.mp held
  obtain ⟨member, self⟩ := mem_of_function? lookup
  refine ⟨entry, member, ?_, same⟩
  rw [functionId, self, ← home]

/-! ### The invariant of the contents of a context -/

namespace Owned

variable (owned : context.Owned)

include owned

theorem hasBody {entry : FunctionEntry} (member : entry ∈ context.functions) :
    context.contents.HasBody (context.functionId entry.self) (entry.body context.id) :=
  contents_hasBody.mpr ⟨rfl, entry, function?_of_mem owned.functions.distinct member, rfl⟩

theorem mem_functions_iff_body (function : FunctionId) :
    function ∈ context.contents.functions ↔ ∃ body, context.contents.HasBody function body := by
  constructor
  · intro listed
    obtain ⟨entry, member, rfl⟩ := List.mem_map.mp listed
    exact ⟨_, owned.hasBody member⟩
  · rintro ⟨body, held⟩
    obtain ⟨entry, member, rfl, _⟩ := entry_of_hasBody held
    exact List.mem_map_of_mem member

theorem mem_functions_iff_value (function : FunctionId) :
    function ∈ context.contents.functions ↔
      ∃ type, context.contents.Holds function.toValue type .function := by
  rw [mem_contents_functions, owned.functions.values]
  constructor
  · rintro ⟨home, type, held⟩
    exact ⟨⟨context.id, type⟩, contents_holds_function.mpr ⟨home, rfl, held⟩⟩
  · rintro ⟨type, held⟩
    obtain ⟨home, _, held⟩ := contents_holds_function.mp held
    exact ⟨home, type.index, held⟩

theorem contents_parameters {entry : FunctionEntry} (member : entry ∈ context.functions) :
    ∃ result types variadic,
      context.contents.types[entry.signature]? = some (.function result types variadic) ∧
        (entry.body context.id).parameters.length = types.length ∧
        ∀ (position : Nat) (value : ValueId) type,
          (entry.body context.id).parameters[position]? = some value →
            types[position]? = some type → context.contents.Holds value type
              (.parameter (context.functionId entry.self) position) := by
  obtain ⟨result, types, variadic, signed, counted, each⟩ :=
    owned.functions.parameters entry member
  refine ⟨⟨context.id, result⟩, types.map (TypeId.mk context.id), variadic, ?_, ?_, ?_⟩
  · rw [contents_types, signed]
    rfl
  · rw [FunctionEntry.body, List.length_map, List.length_map, counted]
  · intro position value type placed typed
    rw [FunctionEntry.body, List.getElem?_map, Option.map_eq_some_iff] at placed
    rw [List.getElem?_map, Option.map_eq_some_iff] at typed
    obtain ⟨plain, placed, rfl⟩ := placed
    obtain ⟨shape, typed, rfl⟩ := typed
    exact contents_holds_parameter.mpr ⟨rfl, rfl, rfl, each position plain shape placed typed⟩

theorem contents_parameterOwner {value : ValueId} {type : TypeId} {function : FunctionId}
    {position : Nat} (held : context.contents.Holds value type (.parameter function position)) :
    ∃ body, context.contents.HasBody function body ∧
      body.parameters[position]? = some value := by
  obtain ⟨valueHome, _, home, held⟩ := contents_holds_parameter.mp held
  obtain ⟨entry, member, self, placed⟩ := owned.functions.parameterOwners _ _ _ _ held
  have same : function = context.functionId entry.self := by
    rw [functionId, self, ← home]
  refine ⟨entry.body context.id, same ▸ owned.hasBody member, ?_⟩
  rw [FunctionEntry.body, List.getElem?_map, placed, Option.map_some, ← valueHome]

theorem mem_contents_blocks {entry : FunctionEntry} (member : entry ∈ context.functions)
    (block : BlockId) : block ∈ (entry.body context.id).blocks ↔
      ∃ home, context.contents.HasBlock block home ∧
        home.function = context.functionId entry.self := by
  have listed : block ∈ (entry.body context.id).blocks ↔
      block.context = context.id ∧ block.index ∈ entry.blocks := mem_map_blockId
  rw [listed, (owned.blocks.lists entry member).2, parent?, Option.map_eq_some_iff]
  constructor
  · rintro ⟨home, plain, found, self⟩
    refine ⟨_, contents_hasBlock.mpr ⟨home, plain, found, rfl⟩, ?_⟩
    exact congrArg (FunctionId.mk context.id) self
  · rintro ⟨_, held, self⟩
    obtain ⟨home, plain, found, rfl⟩ := contents_hasBlock.mp held
    exact ⟨home, plain, found, congrArg FunctionId.index self⟩

theorem mem_contents_instructions {block : BlockId} {plain : Block}
    (home : block.context = context.id) (found : context.block? block.index = some plain)
    (value : ValueId) : value ∈ (plain.tagged context.id).instructions ↔
      ∃ type code, context.contents.Holds value type (.instruction block code) := by
  have listed : value ∈ (plain.tagged context.id).instructions ↔
      value.context = context.id ∧ value.index ∈ plain.instructions := mem_map_valueId
  simp only [contents_holds_instruction]
  rw [listed, (owned.instructions.lists block.index plain found).2]
  constructor
  · rintro ⟨valueHome, type, held⟩
    exact ⟨⟨context.id, type⟩, valueHome, rfl, home, held⟩
  · rintro ⟨type, valueHome, _, _, held⟩
    exact ⟨valueHome, type.index, held⟩

theorem contents_owned : context.contents.Owned where
  distinct := by
    have distinct := owned.functions.distinct
    have each : context.contents.functions =
        (context.functions.map fun entry => entry.self).map (FunctionId.mk context.id) := by
      rw [List.map_map]
      rfl
    rw [each]
    exact distinct.map fun _ _ same => congrArg FunctionId.index same
  bodies := owned.mem_functions_iff_body
  values := owned.mem_functions_iff_value
  signed function body held := by
    obtain ⟨entry, member, rfl, rfl⟩ := entry_of_hasBody held
    exact contents_holds_function.mpr ⟨rfl, rfl, owned.functions.signed entry member⟩
  parameters function body held := by
    obtain ⟨entry, member, rfl, rfl⟩ := entry_of_hasBody held
    exact owned.contents_parameters member
  parameterOwners _ _ _ _ held := owned.contents_parameterOwner held
  personalities function body personality held named := by
    obtain ⟨entry, member, rfl, rfl⟩ := entry_of_hasBody held
    obtain ⟨plain, stored, rfl⟩ := Option.map_eq_some_iff.mp named
    exact mem_contents_functions.mpr
      ⟨rfl, owned.functions.personalities entry member plain stored⟩
  blocks function body held := by
    obtain ⟨entry, member, rfl, rfl⟩ := entry_of_hasBody held
    refine ⟨?_, owned.mem_contents_blocks member⟩
    exact (owned.blocks.lists entry member).1.map fun _ _ same => congrArg BlockId.index same
  blockOwners block home held := by
    obtain ⟨_, plain, found, rfl⟩ := contents_hasBlock.mp held
    refine mem_contents_functions.mpr ⟨rfl, owned.blocks.owners block.index plain.function ?_⟩
    rw [parent?, found, Option.map_some]
  instructions block home held := by
    obtain ⟨tag, plain, found, rfl⟩ := contents_hasBlock.mp held
    refine ⟨?_, owned.mem_contents_instructions tag found⟩
    exact (owned.instructions.lists block.index plain found).1.map
      fun _ _ same => congrArg ValueId.index same
  instructionOwners value type block code held := by
    obtain ⟨_, _, home, code, held⟩ := contents_holds_instruction.mp ⟨code, held⟩
    obtain ⟨plain, found⟩ := owned.instructions.owners _ _ _ _ held
    exact ⟨_, contents_hasBlock.mpr ⟨home, plain, found, rfl⟩⟩

end Owned

/-! ### The handles that contents store -/

theorem mem_components_tagged {shape : TypeShape} {component : TypeId} :
    component ∈ (shape.tagged context.id).components ↔
      component.context = context.id ∧ component.index ∈ shape.components := by
  have single : ∀ type : TypeRef,
      component = ⟨context.id, type⟩ ↔ component.context = context.id ∧ component.index = type := by
    obtain ⟨tag, index⟩ := component
    simp
  cases shape <;> simp only [TypeShape.tagged, Arena.TypeKind.components, TypeShape.components,
    List.mem_cons, List.not_mem_nil, mem_map_typeId, single, or_false, and_false, and_or_left]

theorem mem_handles_tagged {code : Instruction} {handle : Handle}
    (member : handle ∈ (code.tagged context.id).handles) :
    (∃ operand ∈ code.operands, .value (context.valueId operand) = handle) ∨
      (∃ callee, code.callee? = some callee ∧ .function (context.functionId callee) = handle) ∨
      ∃ target ∈ code.successors, .block (context.blockId target) = handle := by
  cases code <;>
    simp only [Instruction.tagged, Arena.Instruction.handles, Instruction.operands,
      Instruction.callee?, Instruction.successors, valueId, functionId, blockId,
      Option.toList_map] at member ⊢ <;>
    grind

theorem stores_of_value {value : ValueRef} {entry : Value}
    (found : context.value? value = some entry) {handle : Handle}
    (member : handle ∈ (entry.tagged context.id).handles) : context.Stores handle := by
  obtain ⟨type, kind, name⟩ := entry
  have held : context.Holds value type kind := ⟨name, found⟩
  have parts : ∀ values : List ValueRef,
      handle ∈ (values.map (ValueId.mk context.id)).map Handle.value →
        (∀ part ∈ values, part ∈ kind.parts) → context.Stores handle := by
    intro values listed inside
    rw [List.map_map] at listed
    obtain ⟨part, partMember, rfl⟩ := List.mem_map.mp listed
    exact .part held (inside part partMember)
  rcases List.mem_cons.mp member with rfl | member
  · exact .typeOf held
  · cases kind with
    | integer number => cases member
    | bytes content => cases member
    | undefined => cases member
    | function => cases member
    | array elements => exact parts elements member fun _ partMember => partMember
    | struct fields => exact parts fields member fun _ partMember => partMember
    | parameter owner position =>
        obtain rfl := List.mem_singleton.mp member
        exact .parameterOwner held
    | instruction block code =>
        rcases List.mem_cons.mp member with rfl | member
        · exact .instructionHome held
        · rcases mem_handles_tagged member with
            ⟨operand, used, rfl⟩ | ⟨callee, calls, rfl⟩ | ⟨target, jumps, rfl⟩
          · exact .operand held used
          · exact .callee held calls
          · exact .target held jumps

theorem stores_of_block {block : BlockRef} {home : Block} (found : context.block? block = some home)
    {handle : Handle} (member : handle ∈ (home.tagged context.id).handles) :
    context.Stores handle := by
  rcases List.mem_cons.mp member with rfl | member
  · exact .blockOwner found
  · rw [Block.tagged, List.map_map] at member
    obtain ⟨value, listed, rfl⟩ := List.mem_map.mp member
    exact .blockItem found listed

theorem stores_of_body {entry : FunctionEntry} (known : entry ∈ context.functions)
    {handle : Handle} (member : handle ∈ (entry.body context.id).handles) :
    context.Stores handle := by
  simp only [Arena.Body.handles, FunctionEntry.body, List.cons_append, List.mem_cons,
    List.mem_append, List.map_map, List.mem_map, Option.toList_map, Option.mem_toList,
    Function.comp_apply] at member
  rcases member with rfl | (⟨value, listed, rfl⟩ | ⟨block, listed, rfl⟩) | ⟨other, named, rfl⟩
  · exact .signature known
  · exact .parameter known listed
  · exact .block known listed
  · exact .personality known named

/-- What contents store, the context stores as well. -/
theorem stores_of_contents {handle : Handle} (stored : context.contents.Stores handle) :
    context.Stores handle := by
  have component : ∀ {index : TypeRef} {kind : Arena.TypeKind} {component : TypeId},
      context.contents.types[index]? = some kind → component ∈ kind.components →
        context.Stores (.type component) := by
    intro index kind component known member
    rw [contents_types, Option.map_eq_some_iff] at known
    obtain ⟨shape, known, rfl⟩ := known
    obtain ⟨home, member⟩ := mem_components_tagged.mp member
    have stored := Stores.component known member
    rwa [typeId, ← home] at stored
  cases stored with
  | component known member => exact component known member
  | interned known member => exact component (types_of_interned _ known) member
  | value live member =>
      rw [contents_values, Option.map_eq_some_iff] at live
      obtain ⟨entry, found, rfl⟩ := live
      exact stores_of_value found member
  | block live member =>
      rw [contents_blocks, Option.map_eq_some_iff] at live
      obtain ⟨home, found, rfl⟩ := live
      exact stores_of_block found member
  | body live member =>
      rw [contents_bodies, Option.map_eq_some_iff] at live
      obtain ⟨entry, found, rfl⟩ := live
      exact stores_of_body (mem_of_function? found).1 member
  | listed member =>
      obtain ⟨entry, known, rfl⟩ := List.mem_map.mp member
      exact .function known
  | named found =>
      rw [contents_names, Option.map_eq_some_iff] at found
      obtain ⟨function, found, rfl⟩ := found
      have named := (functionName?_of_functionNamed? found).2
      obtain ⟨entry, known, rfl⟩ := (functionName?_eq_some.mp named).1
      exact .function known

theorem contents_issued {handle : Handle} :
    context.contents.Issued handle ↔ context.Issued handle := by
  have types : context.contents.types.size = context.types.size := Array.size_map
  have values : context.contents.values.size = context.values.size := Table.size_map ..
  have blocks : context.contents.blocks.size = context.blocks.size := Table.size_map ..
  cases handle <;> simp only [Arena.Contents.Issued, Issued, types, values, blocks] <;> rfl

end Context

namespace System

variable {σ : Type} {engine : Arena.Engine σ} {initial : σ} {system : System σ}

/-- In every live context the stores agree on what belongs to what, and each handle in them is one
that the context itself gave out. -/
theorem reachable_owned (reachable : Reachable engine initial system) {id : ContextId}
    {contents : Arena.Contents} (live : system.arena.contents? id = some contents) :
    contents.id = id ∧ contents.Owned ∧
      ∀ handle, contents.Stores handle → handle.tag = id ∧ contents.Issued handle := by
  obtain ⟨_, context, _, _, consistent, found, rfl⟩ := reachable.live_workspace live
  obtain ⟨rfl, coherent, _, _⟩ := consistent _ _ found
  refine ⟨rfl, coherent.owned.contents_owned, fun handle stored => ?_⟩
  have issued := (Context.stores_of_contents stored).issued coherent.owned coherent.grounded
  exact ⟨issued.tag_eq, Context.contents_issued.mpr issued⟩

open Workspace (sampleRun) in
/-- The sample's context lists its one function, with a body for it and under its name. -/
theorem sampleRun_owned :
    ∃ contents, (afterAll .reference (start .standard .start) sampleRun).arena.contents? ⟨0, 0⟩ =
        some contents ∧ contents.functions = [⟨⟨0, 0⟩, 0⟩] ∧
      contents.names.get? "f" = some ⟨⟨0, 0⟩, 0⟩ ∧ contents.Owned ∧
      ∀ handle, contents.Stores handle → handle.tag = ⟨0, 0⟩ := by
  have live : ((afterAll .reference (start .standard .start) sampleRun).arena.contents?
      ⟨0, 0⟩).map (fun contents => (contents.functions, contents.names.get? "f")) =
        some ([⟨⟨0, 0⟩, 0⟩], some ⟨⟨0, 0⟩, 0⟩) := by
    decide +kernel
  obtain ⟨contents, found, shown⟩ := Option.map_eq_some_iff.mp live
  obtain ⟨listed, named⟩ := Prod.mk.inj shown
  obtain ⟨_, owned, tagged⟩ := reachable_owned ⟨.standard, sampleRun, rfl⟩ found
  exact ⟨contents, found, listed, named, owned, fun handle stored => (tagged handle stored).1⟩

end System

end TypedIR
