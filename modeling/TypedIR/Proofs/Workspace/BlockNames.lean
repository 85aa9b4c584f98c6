import TypedIR.Proofs.Ownership.Deletion
import TypedIR.Proofs.Print.Labels
import TypedIR.Proofs.Workspace.Tasks

/-!
Contract: the names of blocks, in one context and in the course of a run.

Owns:
- the function and the name of each block after each change of a context;
- the invariant that a name that is not empty belongs to one block of a function at most;
- at all times the blocks of a live function have different names, anonymous ones apart;
- appending a block under any name, which no live function refuses, and the name that the block
  then has.

Does not own: how the name of a further block is found.
-/

/-! ## One context -/

namespace TypedIR

namespace Context

variable {settings : Settings} {effect : Effect} {context before after : Context}
  {function : ValueRef} {entry : FunctionEntry} {block : BlockRef} {name : String}

/-- The names of the blocks of a function, in their order. -/
def blockNames (context : Context) (entry : FunctionEntry) : List String :=
  entry.blocks.filterMap fun block => (context.block? block).map (·.name)

/-- The function and the name of a live block. -/
def blockLabel? (context : Context) (block : BlockRef) : Option (ValueRef × String) :=
  (context.block? block).map fun home => (home.function, home.name)

theorem blockLabel?_eq_some : context.blockLabel? block = some (function, name) ↔
    ∃ home, context.block? block = some home ∧ home.function = function ∧ home.name = name := by
  simp only [blockLabel?, Option.map_eq_some_iff, Prod.mk.injEq]

/-- A name of a function is that of a block that names the function as its own. -/
theorem BlocksOwned.mem_blockNames (owned : context.BlocksOwned)
    (member : entry ∈ context.functions) :
    name ∈ context.blockNames entry ↔
      ∃ block, context.blockLabel? block = some (entry.self, name) := by
  simp only [blockNames, List.mem_filterMap, Option.map_eq_some_iff, blockLabel?_eq_some,
    (owned.lists entry member).2, parent?]
  constructor
  · rintro ⟨block, ⟨home, found, self⟩, other, again, same⟩
    obtain rfl := Option.some.inj (found.symm.trans again)
    exact ⟨block, home, found, self, same⟩
  · rintro ⟨block, home, found, self, same⟩
    exact ⟨block, ⟨home, found, self⟩, home, found, same⟩

/-- All blocks of a function are there, and so each of them contributes a name. -/
theorem BlocksOwned.map_blockNames (owned : context.BlocksOwned)
    (member : entry ∈ context.functions) :
    (context.blockNames entry).map some =
      entry.blocks.map fun block => (context.block? block).map (·.name) := by
  have named : ∀ block ∈ entry.blocks, (context.block? block).map (·.name) =
      some (((context.block? block).map (·.name)).getD "") := by
    intro block inside
    obtain ⟨home, found⟩ := owned.exists_block member inside
    rw [found]
    rfl
  unfold blockNames
  rw [List.filterMap_eq_map_iff_forall_eq_some.mpr named, List.map_map]
  exact List.map_congr_left fun block inside => (named block inside).symm

/-! ### The invariant -/

/-- A name that is not empty belongs to one block of a function at most. -/
def DistinctBlockNames (context : Context) : Prop :=
  ∀ first second function name, name ≠ "" → context.blockLabel? first = some (function, name) →
    context.blockLabel? second = some (function, name) → first = second

theorem distinctBlockNames_empty (id : ContextId) (native : NativeHandle) (moduleName : String) :
    (empty id native moduleName).DistinctBlockNames := by
  intro first second function name _ firstLabel
  cases firstLabel

/-- Blocks may go. -/
theorem DistinctBlockNames.transfer (distinct : before.DistinctBlockNames)
    (kept : ∀ block label, after.blockLabel? block = some label →
      before.blockLabel? block = some label) : after.DistinctBlockNames :=
  fun first second function name proper firstLabel secondLabel =>
    distinct first second function name proper (kept _ _ firstLabel) (kept _ _ secondLabel)

theorem blockLabel?_withBlock : (context.withBlock function name).blockLabel? block =
    if block = context.blocks.size then some (function, name) else context.blockLabel? block := by
  rw [blockLabel?, block?_withBlock_eq_ite, blockLabel?]
  by_cases last : block = context.blocks.size
  · rw [if_pos last, if_pos last, Option.map_some]
  · rw [if_neg last, if_neg last]

/-- A further block may have a name that no block of the function has. -/
theorem DistinctBlockNames.withBlock (distinct : context.DistinctBlockNames)
    (owned : context.BlocksOwned) (member : entry ∈ context.functions)
    (free : name ≠ "" → name ∉ context.blockNames entry) :
    (context.withBlock entry.self name).DistinctBlockNames := by
  have unused : ∀ {block function other}, other ≠ "" → (entry.self, name) = (function, other) →
      context.blockLabel? block ≠ some (function, other) := by
    rintro block _ _ proper ⟨⟩ label
    exact free proper ((owned.mem_blockNames member).mpr ⟨block, label⟩)
  intro first second function other proper firstLabel secondLabel
  rw [blockLabel?_withBlock] at firstLabel secondLabel
  by_cases firstLast : first = context.blocks.size
  · rw [if_pos firstLast] at firstLabel
    by_cases secondLast : second = context.blocks.size
    · rw [firstLast, secondLast]
    · rw [if_neg secondLast] at secondLabel
      exact absurd secondLabel (unused proper (Option.some.inj firstLabel))
  · rw [if_neg firstLast] at firstLabel
    by_cases secondLast : second = context.blocks.size
    · rw [if_pos secondLast] at secondLabel
      exact absurd firstLabel (unused proper (Option.some.inj secondLabel))
    · rw [if_neg secondLast] at secondLabel
      exact distinct first second function other proper firstLabel secondLabel

theorem blockLabel?_appendInstruction {changed : BlockRef} {type : TypeRef} {code : Instruction} :
    (context.appendInstruction function changed type code name).2.blockLabel? block =
      context.blockLabel? block := by
  rw [blockLabel?, block?_appendInstruction, blockLabel?]
  by_cases same : block = changed
  · rw [if_pos same, Option.map_map]
    rfl
  · rw [if_neg same]

theorem DistinctBlockNames.step (distinct : before.DistinctBlockNames) (owned : before.Owned)
    (change : Change settings effect before after) : after.DistinctBlockNames := by
  cases change with
  | @block _ _ entry name found =>
      obtain ⟨member, rfl⟩ := mem_of_function? found
      exact distinct.withBlock owned.blocks member
        (Label.ofBlock_given (before.blockNames entry) name).free
  | delete found =>
      refine distinct.transfer fun block ⟨function, name⟩ label => ?_
      obtain ⟨home, lives, same⟩ := blockLabel?_eq_some.mp label
      exact blockLabel?_eq_some.mpr ⟨home, (block?_withoutFunction.mp lives).1, same⟩
  | append name found typed targets =>
      refine distinct.transfer fun block label known => ?_
      exact blockLabel?_appendInstruction.symm.trans known
  | _ => exact distinct.transfer fun _ _ known => known

/-! ### The names of one function -/

theorem DistinctBlockNames.nodup (distinct : context.DistinctBlockNames)
    (owned : context.BlocksOwned) (member : entry ∈ context.functions) :
    ((context.blockNames entry).filter (· ≠ "")).Nodup := by
  obtain ⟨once, listed⟩ := owned.lists entry member
  have labelled : ∀ {block name}, block ∈ entry.blocks →
      (context.block? block).map (·.name) = some name →
        context.blockLabel? block = some (entry.self, name) := by
    intro block name inside named
    obtain ⟨home, found, same⟩ := Option.map_eq_some_iff.mp named
    obtain ⟨other, again, self⟩ := Option.map_eq_some_iff.mp ((listed block).mp inside)
    obtain rfl := Option.some.inj (found.symm.trans again)
    exact blockLabel?_eq_some.mpr ⟨home, found, self, same⟩
  unfold blockNames
  rw [List.Nodup, List.pairwise_filter, List.pairwise_filterMap]
  refine List.Pairwise.imp_of_mem ?_ once
  intro first second firstInside secondInside apart left firstNamed right secondNamed proper _ same
  subst same
  exact apart (distinct first second entry.self left (of_decide_eq_true proper)
    (labelled firstInside firstNamed) (labelled secondInside secondNamed))

/-- A further block comes behind the others, which keep their names. -/
theorem blockNames_withBlock (owned : context.BlocksOwned) (member : entry ∈ context.functions) :
    (context.withBlock function name).blockNames
        { entry with blocks := entry.blocks ++ [context.blocks.size] }.edited =
      context.blockNames entry ++ [name] := by
  have kept : entry.blocks.filterMap
      (fun block => ((context.withBlock function name).block? block).map (·.name)) =
        context.blockNames entry := by
    refine List.filterMap_congr fun block inside => ?_
    rw [block?_withBlock_eq_ite, if_neg (Nat.ne_of_lt (owned.lt_size member inside))]
  have last : [context.blocks.size].filterMap
      (fun block => ((context.withBlock function name).block? block).map (·.name)) = [name] := by
    simp [block?_withBlock_eq_ite]
  show (entry.blocks ++ [context.blocks.size]).filterMap _ = _
  rw [List.filterMap_append, kept, last]

end Context

end TypedIR

/-! ## Runs -/

namespace TypedIR.Workspace

variable {σ : Type} {engine : Engine σ} {workspace : Workspace σ} {function : FunctionId}
  {context : Context} {entry : FunctionEntry}

theorem distinctBlockNames_pursue (settings : Settings) (native : σ)
    (run : List (Engine σ × Task)) :
    ((start settings native).pursue run).1.Every settings fun context =>
      context.Coherent ∧ context.DistinctBlockNames := by
  have kept : Context.Invariant settings Context.DistinctBlockNames :=
    fun _ _ _ coherent distinct change => distinct.step coherent.owned change
  exact every_pursue Context.distinctBlockNames_empty kept native run

/-- Whoever wants a further block of the function under the one name gets it under the other, and
nothing else changes. -/
structure AppendsBlock (engine : Engine σ) (workspace : Workspace σ) (function : FunctionId)
    (context : Context) (entry : FunctionEntry) (wanted name : String) : Prop where
  answered : ((Command.edit (.appendBlock function wanted)).run engine workspace).result =
    .ok (.handle (.block ⟨function.context, context.blocks.size⟩))
  alters : Alters function.context (context.withBlock function.index name) workspace
    ((Command.edit (.appendBlock function wanted)).run engine workspace).workspace
  called : (Query.blockName ⟨function.context, context.blocks.size⟩).answer
    ((Command.edit (.appendBlock function wanted)).run engine workspace).workspace.store =
      .ok (.text name)
  grown : (context.withBlock function.index name).function? function.index =
    some { entry with blocks := entry.blocks ++ [context.blocks.size] }.edited
  names : (context.withBlock function.index name).blockNames
      { entry with blocks := entry.blocks ++ [context.blocks.size] }.edited =
    context.blockNames entry ++ [name]

theorem appendsBlock (engine : Engine σ)
    (found : workspace.store.context? function.context = some context)
    (self : context.id = function.context) (owned : context.Owned)
    (live : context.function? function.index = some entry) (wanted : String) :
    AppendsBlock engine workspace function context entry wanted
      (Label.ofBlock (context.blockNames entry) wanted) := by
  have member := (Context.mem_of_function? live).1
  have done : (((Edit.appendBlock function wanted).operation workspace.store.settings).effect
      context).1 = .ok (.handle (.block ⟨function.context, context.blocks.size⟩),
        context.withBlock function.index (Label.ofBlock (context.blockNames entry) wanted)) := by
    refine Operation.map_eq_ok.mpr ⟨⟨function.context, context.blocks.size⟩, ?_, rfl⟩
    rw [Operation.appendBlock, Operation.noted, Operation.reported_effect, ← self]
    exact Context.appendBlock_eq_ok.mpr ⟨self.symm, entry, live, rfl⟩
  obtain ⟨answered, alters⟩ := edit_alters engine rfl rfl found done
  refine
    { answered := answered
      alters := alters
      called := ?_
      grown := by rw [Context.function?_withBlock, if_pos rfl, live]; rfl
      names := Context.blockNames_withBlock owned.blocks member }
  have last : (context.withBlock function.index (Label.ofBlock (context.blockNames entry)
      wanted)).block? context.blocks.size =
        some ⟨function.index, Label.ofBlock (context.blockNames entry) wanted, []⟩ :=
    Context.block?_withBlock_eq_ite.trans (if_pos rfl)
  exact bind_eq_ok.mpr ⟨_, Store.resolve_eq_ok.mpr alters.here,
    bind_eq_ok.mpr ⟨_, Context.resolveBlock_eq_ok.mpr ⟨self.symm, last⟩, rfl⟩⟩

/-- The names of the blocks of a live function, and those of any further ones. -/
structure NamesBlocks (engine : Engine σ) (workspace : Workspace σ) (function : FunctionId)
    (context : Context) (entry : FunctionEntry) : Prop where
  /-- These are the names of all blocks. -/
  all : (context.blockNames entry).map some =
    entry.blocks.map fun block => (context.block? block).map (·.name)
  distinct : ((context.blockNames entry).filter (· ≠ "")).Nodup
  appended : ∀ wanted, ∃ name, AppendsBlock engine workspace function context entry wanted name ∧
    Label.GivenBlock (context.blockNames entry) wanted name

/-- At any time the blocks of a live function that have a name have different ones, and a block that
is appended to it is called as wanted, or by the wanted name with the least number that makes it
unlike the others. -/
theorem block_names_unique (settings : Settings) (native : σ) (run : List (Engine σ × Task))
    (engine : Engine σ)
    (found : ((start settings native).pursue run).1.store.context? function.context = some context)
    (live : context.function? function.index = some entry) :
    NamesBlocks engine ((start settings native).pursue run).1 function context entry := by
  obtain ⟨self, coherent, distinct⟩ :=
    (distinctBlockNames_pursue settings native run).contexts _ _ found
  have owned := coherent.owned
  have member := (Context.mem_of_function? live).1
  exact
    { all := owned.blocks.map_blockNames member
      distinct := distinct.nodup owned.blocks member
      appended := fun wanted => ⟨_, appendsBlock engine found self owned live wanted,
        Label.ofBlock_given _ wanted⟩ }

/-- Blocks that want each other's names, and two that want none. -/
def labelsRun : List (Engine ReferenceState × Task) :=
  let context : ContextId := ⟨0, 0⟩
  let declared : List Command :=
    [.createContext "labels",
      .edit (.voidType context),
      .edit (.signatureType ⟨context, 0⟩ [] false),
      .edit (.declare context "f" ⟨context, 1⟩)]
  let appended := ["entry", "entry1", "entry", "entry1", "", ""].map fun name =>
    Command.edit (.appendBlock ⟨context, 0⟩ name)
  (declared ++ appended).map fun command => (.reference, .request (.command command))

/-- The next block that wants the first name gets a number behind all those that are taken. -/
theorem labelsRun_named :
    ∃ context entry,
      ((start .standard .start).pursue labelsRun).1.store.context? ⟨0, 0⟩ = some context ∧
      context.function? 0 = some entry ∧
      NamesBlocks Engine.reference ((start .standard .start).pursue labelsRun).1 ⟨⟨0, 0⟩, 0⟩
        context entry ∧
      context.blockNames entry = ["entry", "entry1", "entry2", "entry11", "", ""] ∧
      AppendsBlock Engine.reference ((start .standard .start).pursue labelsRun).1 ⟨⟨0, 0⟩, 0⟩
        context entry "entry" "entry3" := by
  have seen : (((start .standard .start).pursue labelsRun).1.store.context? ⟨0, 0⟩).bind
      (fun context => (context.function? 0).map fun entry => context.blockNames entry) =
        some ["entry", "entry1", "entry2", "entry11", "", ""] := by
    decide +kernel
  obtain ⟨context, found, rest⟩ := Option.bind_eq_some_iff.mp seen
  obtain ⟨entry, live, names⟩ := Option.map_eq_some_iff.mp rest
  have table : NamesBlocks Engine.reference _ ⟨⟨0, 0⟩, 0⟩ context entry :=
    block_names_unique .standard ReferenceState.start labelsRun .reference found live
  obtain ⟨name, appends, given⟩ := table.appended "entry"
  rw [names] at given
  obtain ⟨number, rfl, _, _, settled⟩ := given.numbered (by decide) (by decide)
  obtain rfl : 3 = number := settled 6 (by decide)
  exact ⟨context, entry, found, live, table, names, appends⟩

end TypedIR.Workspace
