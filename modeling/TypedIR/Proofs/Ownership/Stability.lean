import TypedIR.Proofs.Ownership.Release

/-!
Contract: what stays of blocks and functions, and how their lists grow.

Owns:
- the three changes that add to a list, and what all others leave of blocks and functions;
- the relation between a context and a later one: whatever is still live has kept its head,
  and its list has only grown at the end;
- the order of the lists, in which positions are strictly increasing.

Does not own: values and types, which are persistent as such.
-/

namespace TypedIR

/-- The later block has the same head, and further instructions behind those it had. -/
structure Block.Grows (before after : Block) : Prop where
  function : after.function = before.function
  name : after.name = before.name
  instructions : before.instructions <+: after.instructions

/-- The later function has the same head, and further blocks behind those it had. -/
structure FunctionEntry.Grows (before after : FunctionEntry) : Prop
    extends FunctionEntry.SameHead before after where
  blocks : before.blocks <+: after.blocks

theorem Block.Grows.refl (block : Block) : block.Grows block := ⟨rfl, rfl, List.prefix_rfl⟩

theorem Block.Grows.trans {first second third : Block} (one : first.Grows second)
    (two : second.Grows third) : first.Grows third where
  function := two.function.trans one.function
  name := two.name.trans one.name
  instructions := one.instructions.trans two.instructions

theorem FunctionEntry.Grows.trans {first second third : FunctionEntry} (one : first.Grows second)
    (two : second.Grows third) : first.Grows third where
  self := two.self.trans one.self
  signature := two.signature.trans one.signature
  parameters := two.parameters.trans one.parameters
  blocks := one.blocks.trans two.blocks

theorem FunctionEntry.SameFrame.refl (entry : FunctionEntry) : entry.SameFrame entry :=
  ⟨⟨rfl, rfl, rfl⟩, rfl⟩

theorem FunctionEntry.SameFrame.grows {before after : FunctionEntry}
    (frame : before.SameFrame after) : before.Grows after :=
  ⟨frame.toSameHead, frame.blocks ▸ List.prefix_rfl⟩

variable {settings : Settings} {effect : Effect} {context before after last : Context}

/-! ### The changes of lists -/

namespace Context

/-- Blocks are left as they were, and functions but for their settings, and there are no others. -/
structure Remains (before after : Context) : Prop where
  blocks : ∀ block home, after.block? block = some home → before.block? block = some home
  functions : ∀ entry ∈ after.functions, ∃ old ∈ before.functions, old.SameFrame entry

theorem Remains.of_functions (blocks : after.blocks = before.blocks)
    (functions : after.functions = before.functions) : before.Remains after where
  blocks := by
    intro block home found
    rwa [block?, ← blocks]
  functions := by
    rw [functions]
    exact fun entry member => ⟨entry, member, .refl entry⟩

/-- A function is updated where it stands. -/
theorem Remains.update {function : ValueRef} {change : FunctionEntry → FunctionEntry}
    (frame : ∀ entry : FunctionEntry, entry.SameFrame (change entry)) :
    context.Remains (context.updateFunction function change) where
  blocks := fun _ _ found => found
  functions := by
    intro entry member
    obtain ⟨old, oldMember, rfl⟩ := mem_updateFunction.mp member
    refine ⟨old, oldMember, ?_⟩
    split
    · exact frame old
    · exact .refl old

theorem Remains.delete {deleted : FunctionEntry} :
    context.Remains (context.withoutFunction deleted) where
  blocks := fun _ _ found => (block?_withoutFunction.mp found).1
  functions := by
    intro entry member
    obtain ⟨old, oldMember, _, rfl⟩ := mem_withoutFunction.mp member
    exact ⟨old, oldMember, ⟨rfl, rfl, rfl⟩, rfl⟩

end Context

/-- A list gets longer by a declaration, a new block or a new instruction, and by nothing else. -/
theorem Change.lists_cases (change : Change settings effect before after) :
    before.Remains after ∨
      (∃ convention name signature parameters,
        after = before.withFunction convention name signature parameters) ∨
      (∃ function name, after = before.withBlock function name) ∨
      ∃ block home type code name, before.block? block = some home ∧
        after = (before.appendInstruction home.function block type code name).2 := by
  cases change with
  | declare name shape free => exact .inr (.inl ⟨_, _, _, _, rfl⟩)
  | block name found => exact .inr (.inr (.inl ⟨_, _, rfl⟩))
  | append name found typed targets => exact .inr (.inr (.inr ⟨_, _, _, _, _, found, rfl⟩))
  | configure change found frame personality =>
      exact .inl (.update fun entry => ⟨⟨(frame entry).self, (frame entry).signature,
        (frame entry).parameters⟩, (frame entry).blocks⟩)
  | delete found => exact .inl .delete
  | record function state => exact .inl (.update fun _ => ⟨⟨rfl, rfl, rfl⟩, rfl⟩)
  | _ => exact .inl (.of_functions rfl rfl)

/-! ### Growth -/

namespace Context

/-- Issued positions persist, and the blocks and functions at them have only grown. -/
structure Grows (before after : Context) : Prop extends before.Persists after where
  id : after.id = before.id
  blocksLe : before.blocks.size ≤ after.blocks.size
  blocks : ∀ block home, block < before.blocks.size → after.block? block = some home →
    ∃ old, before.block? block = some old ∧ old.Grows home
  functions : ∀ entry ∈ after.functions, entry.self < before.values.size →
    ∃ old ∈ before.functions, old.Grows entry

theorem Grows.refl (context : Context) : context.Grows context where
  shapes := fun _ _ known => known
  valuesLe := Nat.le_refl _
  values := fun _ _ _ _ held => held
  parents := fun _ _ _ named => named
  id := rfl
  blocksLe := Nat.le_refl _
  blocks := fun _ home _ found => ⟨home, found, .refl home⟩
  functions := fun entry member _ => ⟨entry, member, (FunctionEntry.SameFrame.refl entry).grows⟩

theorem Grows.trans (one : before.Grows after) (two : after.Grows last) : before.Grows last where
  shapes := fun type shape known => two.shapes type shape (one.shapes type shape known)
  valuesLe := Nat.le_trans one.valuesLe two.valuesLe
  values := fun value type kind issued held => one.values value type kind issued
    (two.values value type kind (Nat.lt_of_lt_of_le issued one.valuesLe) held)
  parents := fun block function issued named => one.parents block function issued
    (two.parents block function (Nat.lt_of_lt_of_le issued one.blocksLe) named)
  id := two.id.trans one.id
  blocksLe := Nat.le_trans one.blocksLe two.blocksLe
  blocks := by
    intro block home issued found
    obtain ⟨between, lookup, grows⟩ :=
      two.blocks block home (Nat.lt_of_lt_of_le issued one.blocksLe) found
    obtain ⟨old, earlier, grew⟩ := one.blocks block between issued lookup
    exact ⟨old, earlier, grew.trans grows⟩
  functions := by
    intro entry member issued
    obtain ⟨between, listed, grows⟩ :=
      two.functions entry member (Nat.lt_of_lt_of_le issued one.valuesLe)
    obtain ⟨old, earlier, grew⟩ := one.functions between listed (grows.self ▸ issued)
    exact ⟨old, earlier, grew.trans grows⟩

end Context

theorem Change.grows (change : Change settings effect before after) : before.Grows after := by
  suffices entries : (∀ block home, block < before.blocks.size → after.block? block = some home →
      ∃ old, before.block? block = some old ∧ old.Grows home) ∧
      ∀ entry ∈ after.functions, entry.self < before.values.size →
        ∃ old ∈ before.functions, old.Grows entry from
    ⟨change.persists, change.id_eq, change.blocks_le, entries.1, entries.2⟩
  rcases change.lists_cases with remains | ⟨_, _, _, _, rfl⟩ | ⟨function, _, rfl⟩ |
    ⟨changed, home, _, _, _, found, rfl⟩
  · refine ⟨fun block home _ found => ⟨home, remains.blocks block home found, .refl home⟩, ?_⟩
    intro entry member _
    obtain ⟨old, oldMember, frame⟩ := remains.functions entry member
    exact ⟨old, oldMember, frame.grows⟩
  · refine ⟨fun _ home _ found => ⟨home, found, .refl home⟩, fun entry member issued => ?_⟩
    rcases Context.mem_withFunction.mp member with old | rfl
    · exact ⟨entry, old, (FunctionEntry.SameFrame.refl entry).grows⟩
    · exact absurd issued (Nat.lt_irrefl _)
  · constructor
    · intro block home issued found
      rcases Context.block?_withBlock.mp found with old | ⟨rfl, _⟩
      · exact ⟨home, old, .refl home⟩
      · exact absurd issued (Nat.lt_irrefl _)
    · intro entry member _
      obtain ⟨old, oldMember, rfl⟩ := Context.mem_updateFunction.mp member
      refine ⟨old, oldMember, ?_⟩
      split
      · exact ⟨⟨rfl, rfl, rfl⟩, List.prefix_append _ _⟩
      · exact (FunctionEntry.SameFrame.refl old).grows
  · constructor
    · intro block home _ lookup
      rw [Context.block?_appendInstruction] at lookup
      by_cases same : block = changed
      · rw [if_pos same] at lookup
        obtain ⟨old, oldFound, rfl⟩ := Option.map_eq_some_iff.mp lookup
        exact ⟨old, oldFound, rfl, rfl, List.prefix_append _ _⟩
      · rw [if_neg same] at lookup
        exact ⟨home, lookup, .refl home⟩
    · intro entry member _
      obtain ⟨old, oldMember, rfl⟩ := Context.mem_updateFunction.mp member
      refine ⟨old, oldMember, ?_⟩
      split
      · exact ⟨⟨rfl, rfl, rfl⟩, List.prefix_rfl⟩
      · exact (FunctionEntry.SameFrame.refl old).grows

/-! ### Order -/

namespace Context

/-- The lists of blocks and functions are in the order of the tables. -/
structure Ascending (context : Context) : Prop where
  instructions : ∀ block home, context.block? block = some home →
    home.instructions.Pairwise (· < ·)
  blocks : ∀ entry ∈ context.functions, entry.blocks.Pairwise (· < ·)
  parameters : ∀ entry ∈ context.functions, entry.parameters.Pairwise (· < ·)

theorem ascending_empty (id : ContextId) (native : NativeHandle) (moduleName : String) :
    (empty id native moduleName).Ascending where
  instructions := by simp [empty, block?]
  blocks := by simp [empty]
  parameters := by simp [empty]

/-- A position behind all others may stand at the end. -/
theorem pairwise_lt_concat {positions : List Nat} {last : Nat}
    (ascending : positions.Pairwise (· < ·)) (behind : ∀ position ∈ positions, position < last) :
    (positions ++ [last]).Pairwise (· < ·) := by
  refine List.pairwise_append.mpr ⟨ascending, List.pairwise_singleton _ _, ?_⟩
  intro position member other same
  obtain rfl := List.mem_singleton.mp same
  exact behind position member

theorem Ascending.step (ascending : before.Ascending) (owned : before.Owned)
    (change : Change settings effect before after) : after.Ascending := by
  rcases change.lists_cases with remains | ⟨_, _, _, _, rfl⟩ | ⟨function, _, rfl⟩ |
    ⟨changed, home, _, _, _, found, rfl⟩
  · refine ⟨fun block home found => ascending.instructions block home (remains.blocks _ _ found),
      fun entry member => ?_, fun entry member => ?_⟩
    · obtain ⟨old, oldMember, frame⟩ := remains.functions entry member
      exact frame.blocks ▸ ascending.blocks old oldMember
    · obtain ⟨old, oldMember, frame⟩ := remains.functions entry member
      exact frame.parameters ▸ ascending.parameters old oldMember
  · refine ⟨ascending.instructions, fun entry member => ?_, fun entry member => ?_⟩
    · rcases mem_withFunction.mp member with old | rfl
      · exact ascending.blocks entry old
      · exact .nil
    · rcases mem_withFunction.mp member with old | rfl
      · exact ascending.parameters entry old
      · exact List.pairwise_lt_range'
  · refine ⟨fun block home found => ?_, fun entry member => ?_, fun entry member => ?_⟩
    · rcases block?_withBlock.mp found with old | ⟨_, rfl⟩
      · exact ascending.instructions block home old
      · exact .nil
    · obtain ⟨old, oldMember, rfl⟩ := mem_updateFunction.mp member
      split
      · exact pairwise_lt_concat (ascending.blocks old oldMember)
          fun block listed => owned.blocks.lt_size oldMember listed
      · exact ascending.blocks old oldMember
    · obtain ⟨old, oldMember, rfl⟩ := mem_updateFunction.mp member
      split <;> exact ascending.parameters old oldMember
  · refine ⟨fun block home lookup => ?_, fun entry member => ?_, fun entry member => ?_⟩
    · rw [block?_appendInstruction] at lookup
      by_cases same : block = changed
      · rw [if_pos same] at lookup
        obtain ⟨old, oldFound, rfl⟩ := Option.map_eq_some_iff.mp lookup
        refine pairwise_lt_concat (ascending.instructions block old oldFound) ?_
        intro value listed
        obtain ⟨_, _, held⟩ :=
          ((owned.instructions.lists block old oldFound).2 value).mp listed
        exact held.lt_size
      · rw [if_neg same] at lookup
        exact ascending.instructions block home lookup
    · obtain ⟨old, oldMember, rfl⟩ := mem_updateFunction.mp member
      split <;> exact ascending.blocks old oldMember
    · obtain ⟨old, oldMember, rfl⟩ := mem_updateFunction.mp member
      split <;> exact ascending.parameters old oldMember

end Context

end TypedIR
