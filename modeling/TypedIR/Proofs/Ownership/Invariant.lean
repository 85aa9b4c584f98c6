import TypedIR.Proofs.Context.Views

/-!
Contract: what belongs to what in a context.

Owns:
- the invariant: functions own their values and parameters, blocks belong to
  functions, instructions to blocks, and each list of what is owned agrees with
  what the owned entries say of their owner;
- the transfer of each of its three parts to a context where the tables that the
  part is about look alike.
-/

namespace TypedIR

namespace ValueKind

/-- Values that come and go with a function. -/
def ofFunction : ValueKind → Bool
  | .function | .parameter _ _ => true
  | _ => false

def isInstruction : ValueKind → Bool
  | .instruction _ _ => true
  | _ => false

end ValueKind

namespace Context

/-- The function that a live block names as its own. -/
def parent? (context : Context) (block : BlockRef) : Option ValueRef :=
  (context.block? block).map fun home => home.function

structure FunctionsOwned (context : Context) : Prop where
  distinct : (context.functions.map fun entry => entry.self).Nodup
  values : ∀ value, context.IsFunction value ↔ ∃ type, context.Holds value type .function
  signed : ∀ entry ∈ context.functions, context.Holds entry.self entry.signature .function
  /-- One parameter for each of the signature, in order. -/
  parameters : ∀ entry ∈ context.functions, ∃ result types variadic,
    context.shape? entry.signature = some (.function result types variadic) ∧
      entry.parameters.length = types.length ∧
      ∀ (position : Nat) value type, entry.parameters[position]? = some value →
        types[position]? = some type → context.Holds value type (.parameter entry.self position)
  parameterOwners : ∀ value type function position,
    context.Holds value type (.parameter function position) →
      ∃ entry ∈ context.functions, entry.self = function ∧
        entry.parameters[position]? = some value
  personalities : ∀ entry ∈ context.functions, ∀ personality,
    entry.personality = some personality → context.IsFunction personality

structure BlocksOwned (context : Context) : Prop where
  lists : ∀ entry ∈ context.functions, entry.blocks.Nodup ∧
    ∀ block, block ∈ entry.blocks ↔ context.parent? block = some entry.self
  owners : ∀ block function, context.parent? block = some function → context.IsFunction function

structure InstructionsOwned (context : Context) : Prop where
  lists : ∀ block home, context.block? block = some home → home.instructions.Nodup ∧
    ∀ value, value ∈ home.instructions ↔
      ∃ type code, context.Holds value type (.instruction block code)
  owners : ∀ value type block code, context.Holds value type (.instruction block code) →
    ∃ home, context.block? block = some home

/-- The tables of the context agree on what belongs to what. -/
structure Owned (context : Context) : Prop where
  functions : context.FunctionsOwned
  blocks : context.BlocksOwned
  instructions : context.InstructionsOwned

variable {settings : Settings} {effect : Effect} {context before after : Context}

theorem owned_empty (id : ContextId) (native : NativeHandle) (moduleName : String) :
    (empty id native moduleName).Owned where
  functions :=
    { distinct := .nil
      values := by simp [IsFunction, Holds, empty, value?]
      signed := by simp [empty]
      parameters := by simp [empty]
      parameterOwners := by simp [Holds, empty, value?]
      personalities := by simp [empty] }
  blocks :=
    { lists := by simp [empty]
      owners := by simp [parent?, empty, block?] }
  instructions :=
    { lists := by simp [empty, block?]
      owners := by simp [Holds, empty, value?] }

/-! ### What the invariant says of single entries -/

namespace FunctionsOwned

variable (owned : context.FunctionsOwned)

include owned

theorem lt_size {function : ValueRef} (live : context.IsFunction function) :
    function < context.values.size := by
  obtain ⟨_, held⟩ := (owned.values function).mp live
  exact held.lt_size

/-- A parameter in a function's list is a parameter of that function. -/
theorem holds_parameter {entry : FunctionEntry} (member : entry ∈ context.functions)
    {value : ValueRef} (listed : value ∈ entry.parameters) :
    ∃ type position, context.Holds value type (.parameter entry.self position) := by
  obtain ⟨result, types, variadic, _, counted, each⟩ := owned.parameters entry member
  obtain ⟨position, inside, atPosition⟩ := List.getElem_of_mem listed
  obtain ⟨type, typed⟩ : ∃ type, types[position]? = some type :=
    ⟨_, List.getElem?_eq_getElem (counted ▸ inside)⟩
  exact ⟨type, position, each position value type
    (List.getElem?_eq_some_iff.mpr ⟨inside, atPosition⟩) typed⟩

theorem entry_unique {first second : FunctionEntry} (firstMember : first ∈ context.functions)
    (secondMember : second ∈ context.functions) (same : first.self = second.self) :
    first = second :=
  List.inj_on_of_nodup_map owned.distinct firstMember secondMember same

end FunctionsOwned

/-- The blocks that a function lists are there. -/
theorem BlocksOwned.exists_block (owned : context.BlocksOwned) {entry : FunctionEntry}
    (member : entry ∈ context.functions) {block : BlockRef} (listed : block ∈ entry.blocks) :
    ∃ home, context.block? block = some home := by
  have named := ((owned.lists entry member).2 block).mp listed
  obtain ⟨home, found, _⟩ := Option.map_eq_some_iff.mp named
  exact ⟨home, found⟩

theorem BlocksOwned.lt_size (owned : context.BlocksOwned) {entry : FunctionEntry}
    (member : entry ∈ context.functions) {block : BlockRef} (listed : block ∈ entry.blocks) :
    block < context.blocks.size := by
  obtain ⟨home, found⟩ := owned.exists_block member listed
  exact lt_size_of_block? found

/-! ### Changes elsewhere -/

/-- The function part stays when each function keeps its head and no value of its kinds comes
or goes. -/
theorem FunctionsOwned.transfer (owned : before.FunctionsOwned)
    {change : FunctionEntry → FunctionEntry}
    (functions : after.functions = before.functions.map change)
    (head : ∀ entry : FunctionEntry, entry.SameHead (change entry))
    (personality : ∀ (entry : FunctionEntry) personality,
      (change entry).personality = some personality →
        entry.personality = some personality ∨ before.IsFunction personality)
    (types : ∀ type shape, before.shape? type = some shape → after.shape? type = some shape)
    (values : ∀ value type kind, kind.ofFunction = true →
      (after.Holds value type kind ↔ before.Holds value type kind)) :
    after.FunctionsOwned := by
  have members : ∀ entry, entry ∈ after.functions ↔
      ∃ old ∈ before.functions, change old = entry := by
    intro entry
    rw [functions, List.mem_map]
  have isFunction : ∀ value, after.IsFunction value ↔ before.IsFunction value :=
    fun _ => isFunction_map functions fun entry => (head entry).self
  refine ⟨?_, ?_, ?_, ?_, ?_, ?_⟩
  · have positions : after.functions.map (fun entry => entry.self) =
        before.functions.map fun entry => entry.self := by
      rw [functions, List.map_map]
      exact List.map_congr_left fun entry _ => (head entry).self
    rw [positions]
    exact owned.distinct
  · intro value
    rw [isFunction, owned.values]
    exact exists_congr fun type => (values value type _ rfl).symm
  · intro entry member
    obtain ⟨old, oldMember, rfl⟩ := (members entry).mp member
    rw [values _ _ _ rfl, (head old).self, (head old).signature]
    exact owned.signed old oldMember
  · intro entry member
    obtain ⟨old, oldMember, rfl⟩ := (members entry).mp member
    obtain ⟨result, parameterTypes, variadic, signed, counted, each⟩ :=
      owned.parameters old oldMember
    rw [(head old).self, (head old).signature, (head old).parameters]
    refine ⟨result, parameterTypes, variadic, types _ _ signed, counted, ?_⟩
    intro position value type atPosition typed
    exact (values _ _ _ rfl).mpr (each position value type atPosition typed)
  · intro value type function position held
    obtain ⟨old, oldMember, same, listed⟩ :=
      owned.parameterOwners value type function position ((values _ _ _ rfl).mp held)
    refine ⟨change old, (members _).mpr ⟨old, oldMember, rfl⟩, ?_, ?_⟩
    · rw [(head old).self, same]
    · rw [(head old).parameters, listed]
  · intro entry member target named
    obtain ⟨old, oldMember, rfl⟩ := (members entry).mp member
    rw [isFunction]
    rcases personality old target named with kept | live
    · exact owned.personalities old oldMember target kept
    · exact live

theorem BlocksOwned.transfer (owned : before.BlocksOwned)
    {change : FunctionEntry → FunctionEntry}
    (functions : after.functions = before.functions.map change)
    (frame : ∀ entry : FunctionEntry, entry.SameFrame (change entry))
    (parents : ∀ block, after.parent? block = before.parent? block) :
    after.BlocksOwned := by
  constructor
  · intro entry member
    rw [functions] at member
    obtain ⟨old, oldMember, rfl⟩ := List.mem_map.mp member
    rw [(frame old).self, (frame old).blocks]
    simp only [parents]
    exact owned.lists old oldMember
  · intro block function named
    rw [parents] at named
    exact (isFunction_map functions fun entry => (frame entry).self).mpr
      (owned.owners block function named)

theorem InstructionsOwned.transfer (owned : before.InstructionsOwned)
    (blocks : ∀ block, after.block? block = before.block? block)
    (values : ∀ value type kind, kind.isInstruction = true →
      (after.Holds value type kind ↔ before.Holds value type kind)) :
    after.InstructionsOwned := by
  constructor
  · intro block home found
    rw [blocks] at found
    obtain ⟨distinct, listed⟩ := owned.lists block home found
    refine ⟨distinct, fun value => ?_⟩
    rw [listed]
    exact exists_congr fun type => exists_congr fun code => (values value type _ rfl).symm
  · intro value type block code held
    rw [blocks]
    exact owned.owners value type block code ((values _ _ _ rfl).mp held)

end Context

end TypedIR
