import TypedIR.Proofs.Ownership.Typing

/-!
Contract: released handles.

Owns:
- the handles that a context gave out and has no entry for anymore;
- that no change of the context brings such an entry back;
- what belongs to a function, and that its deletion releases all of it.
-/

namespace TypedIR

variable {settings : Settings} {effect : Effect} {context before after : Context} {handle : Handle}

theorem Change.blocks_le (change : Change settings effect before after) :
    before.blocks.size ≤ after.blocks.size := by
  cases change with
  | block name found =>
      exact Nat.le_of_lt (Nat.lt_of_lt_of_eq (Nat.lt_succ_self _) (Table.size_push _ _).symm)
  | delete found => exact Nat.le_of_eq (Table.size_releaseAll _ _).symm
  | append name found typed targets => exact Nat.le_of_eq (Table.size_modify _ _ _).symm
  | _ => exact Nat.le_refl _

namespace Context

structure Released (context : Context) (handle : Handle) : Prop where
  issued : context.Issued handle
  gone : ¬ context.Live handle

theorem Live.issued (owned : context.Owned) (live : context.Live handle) :
    context.Issued handle := by
  cases handle with
  | context id => exact live
  | type type =>
      obtain ⟨home, shape, known⟩ := live
      exact ⟨home, lt_size_of_shape? known⟩
  | value value =>
      obtain ⟨home, entry, found⟩ := live
      exact ⟨home, Table.lt_size_of_get? found⟩
  | function function =>
      obtain ⟨home, entry, found⟩ := live
      exact ⟨home, owned.functions.lt_size ⟨entry, mem_of_function? found⟩⟩
  | block block =>
      obtain ⟨home, entry, found⟩ := live
      exact ⟨home, lt_size_of_block? found⟩

/-! ### Every change -/

theorem Issued.step (issued : before.Issued handle)
    (change : Change settings effect before after) : after.Issued handle := by
  have persists := change.persists
  cases handle with
  | context id => exact issued.trans change.id_eq.symm
  | type type =>
      obtain ⟨home, inside⟩ := issued
      have known := persists.shapes _ _ (Array.getElem?_eq_getElem inside)
      exact ⟨home.trans change.id_eq.symm, lt_size_of_shape? known⟩
  | value value =>
      obtain ⟨home, inside⟩ := issued
      exact ⟨home.trans change.id_eq.symm, Nat.lt_of_lt_of_le inside persists.valuesLe⟩
  | function function =>
      obtain ⟨home, inside⟩ := issued
      exact ⟨home.trans change.id_eq.symm, Nat.lt_of_lt_of_le inside persists.valuesLe⟩
  | block block =>
      obtain ⟨home, inside⟩ := issued
      exact ⟨home.trans change.id_eq.symm, Nat.lt_of_lt_of_le inside change.blocks_le⟩

/-- A handle that was given out before a change and is live after it was live before it. -/
theorem Issued.live_before (beforeOwned : before.Owned) (afterOwned : after.Owned)
    (issued : before.Issued handle) (change : Change settings effect before after)
    (live : after.Live handle) : before.Live handle := by
  have persists := change.persists
  cases handle with
  | context id => exact issued
  | type type => exact ⟨issued.1, _, Array.getElem?_eq_getElem issued.2⟩
  | value value =>
      obtain ⟨_, entry, found⟩ := live
      obtain ⟨name, earlier⟩ := persists.values _ _ _ issued.2 (.of_value? found)
      exact ⟨issued.1, _, earlier⟩
  | function function =>
      obtain ⟨_, entry, found⟩ := live
      -- A function is the value that holds it, and values persist.
      obtain ⟨type, held⟩ := (afterOwned.functions.values _).mp ⟨entry, mem_of_function? found⟩
      have earlier := (beforeOwned.functions.values _).mpr
        ⟨type, persists.values _ _ _ issued.2 held⟩
      exact ⟨issued.1, Option.isSome_iff_exists.mp (isSome_function?.mpr earlier)⟩
  | block block =>
      obtain ⟨_, home, found⟩ := live
      have named : after.parent? block.index = some home.function := by
        rw [parent?, found, Option.map_some]
      obtain ⟨earlier, lookup, _⟩ :=
        Option.map_eq_some_iff.mp (persists.parents _ _ issued.2 named)
      exact ⟨issued.1, earlier, lookup⟩

theorem Released.step (released : before.Released handle) (coherent : before.Coherent)
    (change : Change settings effect before after) : after.Released handle where
  issued := released.issued.step change
  gone := by
    intro live
    apply released.gone
    exact released.issued.live_before coherent.owned (coherent.step change).owned change live

/-! ### Deletion -/

/-- The handles of a function and of all that it owns: its parameters, its blocks, and the
instructions in these. -/
def belongings (context : Context) (entry : FunctionEntry) : List Handle :=
  .function (context.functionId entry.self) ::
    ((context.instructionsOf entry ++ entry.parameters ++ [entry.self]).map
      fun value => .value (context.valueId value)) ++
    entry.blocks.map fun block => .block (context.blockId block)

/-- The values that a deletion releases are in the table before it. -/
theorem Owned.released_lt_size (owned : context.Owned) {entry : FunctionEntry}
    (member : entry ∈ context.functions) {value : ValueRef}
    (listed : value ∈ context.instructionsOf entry ++ entry.parameters ++ [entry.self]) :
    value < context.values.size := by
  rw [List.mem_append, List.mem_append, List.mem_singleton, mem_instructionsOf] at listed
  rcases listed with (⟨block, _, home, found, inside⟩ | parameter) | rfl
  · obtain ⟨_, _, held⟩ := ((owned.instructions.lists block home found).2 value).mp inside
    exact held.lt_size
  · obtain ⟨_, _, held⟩ := owned.functions.holds_parameter member parameter
    exact held.lt_size
  · exact owned.functions.lt_size ⟨entry, member, rfl⟩

theorem Owned.released_of_delete (owned : context.Owned) {entry : FunctionEntry}
    (member : entry ∈ context.functions) (belongs : handle ∈ context.belongings entry) :
    (context.withoutFunction entry).Released handle := by
  have values : (context.withoutFunction entry).values.size = context.values.size :=
    Table.size_releaseAll _ _
  have blocks : (context.withoutFunction entry).blocks.size = context.blocks.size :=
    Table.size_releaseAll _ _
  rcases List.mem_append.mp belongs with ofValues | ofBlocks
  · rcases List.mem_cons.mp ofValues with rfl | ofValues
    · refine ⟨⟨rfl, values ▸ owned.functions.lt_size ⟨entry, member, rfl⟩⟩, ?_⟩
      rintro ⟨_, other, found⟩
      exact (Owned.isFunction_withoutFunction.mp ⟨other, mem_of_function? found⟩).2 rfl
    · obtain ⟨value, listed, rfl⟩ := List.mem_map.mp ofValues
      refine ⟨⟨rfl, values ▸ owned.released_lt_size member listed⟩, ?_⟩
      rintro ⟨_, other, found⟩
      exact (holds_withoutFunction.mp (.of_value? found)).2 listed
  · obtain ⟨block, listed, rfl⟩ := List.mem_map.mp ofBlocks
    refine ⟨⟨rfl, blocks ▸ owned.blocks.lt_size member listed⟩, ?_⟩
    rintro ⟨_, other, found⟩
    exact (block?_withoutFunction.mp found).2 listed

end Context

end TypedIR
