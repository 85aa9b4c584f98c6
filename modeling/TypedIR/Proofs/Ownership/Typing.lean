import TypedIR.Proofs.Ownership.References

/-!
Contract: what stays true of issued positions, and the types of instructions.

Owns:
- the relation between a context and a later one: a position that was issued means
  the same entry later on, or none;
- the invariant that every instruction obeys its typing rule with the types that
  its operands had when it was appended, whether or not they are still live.

The rule itself is checked only once, when an instruction is appended.
-/

namespace TypedIR

namespace Context

variable {settings : Settings} {effect : Effect} {context before after : Context}

/-! ### Issued positions -/

/-- Types stay, and issued positions are not given to other entries. -/
structure Persists (before after : Context) : Prop where
  shapes : ∀ type shape, before.shape? type = some shape → after.shape? type = some shape
  valuesLe : before.values.size ≤ after.values.size
  values : ∀ value type kind, value < before.values.size → after.Holds value type kind →
    before.Holds value type kind
  parents : ∀ block function, block < before.blocks.size → after.parent? block = some function →
    before.parent? block = some function

/-- Nothing but values come, and they come at the end. -/
theorem Persists.of_values
    (shapes : ∀ type shape, before.shape? type = some shape → after.shape? type = some shape)
    (blocks : after.blocks = before.blocks) (valuesLe : before.values.size ≤ after.values.size)
    (values : ∀ value type kind, after.Holds value type kind →
      before.Holds value type kind ∨ before.values.size ≤ value) : before.Persists after where
  shapes := shapes
  valuesLe := valuesLe
  values := by
    intro value type kind issued held
    exact (values value type kind held).resolve_right (Nat.not_le.mpr issued)
  parents := by
    intro block function _ named
    rwa [parent?, block?, ← blocks]

end Context

theorem Change.persists {settings : Settings} {effect : Effect} {before after : Context}
    (change : Change settings effect before after) : before.Persists after := by
  have valuesLe : before.values.size ≤ before.values.size := Nat.le_refl _
  cases change with
  | moduleName name => exact .of_values (fun _ _ known => known) rfl valuesLe fun _ _ _ => .inl
  | type shape fresh formed =>
      exact .of_values (fun _ _ known => Context.shape?_push known) rfl valuesLe fun _ _ _ => .inl
  | constant type kind formed =>
      refine .of_values (fun _ _ known => known) rfl ?_ fun value other otherKind held => ?_
      · exact Nat.le_of_lt (Nat.lt_of_lt_of_eq (Nat.lt_succ_self _) (Table.size_push _ _).symm)
      · rcases Context.holds_pushValue.mp held with old | ⟨rfl, _⟩
        · exact .inl old
        · exact .inr (Nat.le_refl _)
  | declare name shape free =>
      refine .of_values (fun _ _ known => known) rfl ?_ fun value type kind held => ?_
      · simp only [Context.withFunction, Table.size_pushAll, Table.size_push]
        omega
      · rcases Context.holds_withFunction.mp held with old | ⟨rfl, _⟩ | ⟨position, _, _, rfl⟩
        · exact .inl old
        · exact .inr (Nat.le_refl _)
        · exact .inr (Nat.le_trans (Nat.le_succ _) (Nat.le_add_right _ _))
  | rename name found free =>
      refine .of_values (fun _ _ known => known) rfl ?_ fun _ _ _ held => ?_
      · exact Nat.le_of_eq (Table.size_modify _ _ _).symm
      · exact .inl (Context.holds_withName.mp held)
  | block name found =>
      refine ⟨fun _ _ known => known, valuesLe, fun _ _ _ _ held => held, ?_⟩
      intro block function issued named
      rwa [Context.parent?_withBlock, if_neg (Nat.ne_of_lt issued)] at named
  | configure change found frame personality =>
      exact .of_values (fun _ _ known => known) rfl valuesLe fun _ _ _ => .inl
  | delete found =>
      refine ⟨fun _ _ known => known, ?_, ?_, ?_⟩
      · exact Nat.le_of_eq (Table.size_releaseAll _ _).symm
      · exact fun _ _ _ _ held => (Context.holds_withoutFunction.mp held).1
      · intro block function _ named
        obtain ⟨home, live, rfl⟩ := Option.map_eq_some_iff.mp named
        rw [Context.parent?, (Context.block?_withoutFunction.mp live).1, Option.map_some]
  | append name found typed targets =>
      refine ⟨fun _ _ known => known, ?_, ?_, ?_⟩
      · exact Nat.le_of_lt (Nat.lt_of_lt_of_eq (Nat.lt_succ_self _) (Table.size_push _ _).symm)
      · intro value type kind issued held
        apply (Context.holds_appendInstruction.mp held).resolve_right
        exact fun new => Nat.ne_of_lt issued new.1
      · intro block function _ named
        rwa [Context.parent?_appendInstruction] at named
  | record function state =>
      exact .of_values (fun _ _ known => known) rfl valuesLe fun _ _ _ => .inl

namespace Context

variable {settings : Settings} {effect : Effect} {context before after : Context}

/-! ### Types of operands -/

/-- The value was issued, and as long as it is live it has the type. -/
def HadType (context : Context) (value : ValueRef) (type : TypeRef) : Prop :=
  value < context.values.size ∧ ∀ other kind, context.Holds value other kind → other = type

theorem HasType.hadType {value : ValueRef} {type : TypeRef} (typed : context.HasType value type) :
    context.HadType value type := by
  obtain ⟨entry, found, rfl⟩ := typed
  exact ⟨Table.lt_size_of_get? found, fun other kind held => (held.unique (.of_value? found)).1⟩

/-- The type of a function is its signature. -/
theorem HasSignature.hadType (owned : context.Owned) {function : ValueRef} {signature : TypeRef}
    (signed : context.HasSignature function signature) : context.HadType function signature := by
  obtain ⟨entry, found, rfl⟩ := signed
  obtain ⟨member, rfl⟩ := mem_of_function? found
  have self := owned.functions.signed entry member
  exact ⟨self.lt_size, fun other kind held => (held.unique self).1⟩

theorem HadType.later (persists : before.Persists after) {value : ValueRef} {type : TypeRef}
    (typed : before.HadType value type) : after.HadType value type :=
  ⟨Nat.lt_of_lt_of_le typed.1 persists.valuesLe, fun other kind held =>
    typed.2 other kind (persists.values value other kind typed.1 held)⟩

/-- Each instruction obeys its typing rule, for the types that its operands had. -/
def WellTyped (context : Context) : Prop :=
  ∀ value type block code function, context.Holds value type (.instruction block code) →
    context.parent? block = some function →
    code.Typed context.shape? context.HadType context.HadType function type

theorem wellTyped_empty (id : ContextId) (native : NativeHandle) (moduleName : String) :
    (empty id native moduleName).WellTyped := by
  simp [WellTyped, Holds, empty, value?]

theorem Types.hadTypes (owned : context.Owned) {home : ValueRef} {type : TypeRef}
    {code : Instruction} (typed : context.Types home type code) :
    code.Typed context.shape? context.HadType context.HadType home type :=
  Instruction.Typed.mono (fun _ _ known => known) (fun _ _ _ => HasType.hadType)
    (fun _ _ _ signed => signed.hadType owned) (fun _ signed => signed.hadType owned) typed

theorem WellTyped.step (wellTyped : before.WellTyped) (owned : before.Owned)
    (change : Change settings effect before after) : after.WellTyped := by
  have persists := change.persists
  have kept : ∀ {home type : ValueRef} {code : Instruction},
      code.Typed before.shape? before.HadType before.HadType home type →
        code.Typed after.shape? after.HadType after.HadType home type :=
    Instruction.Typed.mono persists.shapes (fun _ _ _ typed => typed.later persists)
      (fun _ _ _ typed => typed.later persists) fun _ typed => typed.later persists
  intro value type block code function held named
  -- An instruction that was there keeps its block, and the block its function.
  have old : before.Holds value type (.instruction block code) →
      code.Typed after.shape? after.HadType after.HadType function type := by
    intro heldBefore
    obtain ⟨home, found⟩ := owned.instructions.owners value type block code heldBefore
    have namedBefore := persists.parents block function (lt_size_of_block? found) named
    exact kept (wellTyped value type block code function heldBefore namedBefore)
  cases change with
  | constant type kind formed =>
      rcases holds_pushValue.mp held with heldBefore | ⟨_, _, rfl⟩
      · exact old heldBefore
      · exact formed.elim
  | declare name shape free => exact old ((holds_instruction_withFunction rfl).mp held)
  | rename name found free => exact old (holds_withName.mp held)
  | delete found => exact old (holds_withoutFunction.mp held).1
  | append name found typed targets =>
      rcases holds_appendInstruction.mp held with heldBefore | ⟨_, rfl, same⟩
      · exact old heldBefore
      · obtain ⟨rfl, rfl⟩ := ValueKind.instruction.inj same
        rw [parent?_appendInstruction, parent?, found, Option.map_some] at named
        obtain rfl := Option.some.inj named
        exact kept (typed.hadTypes owned)
  | _ => exact old held

/-! ### All invariants of a context -/

structure Coherent (context : Context) : Prop where
  owned : context.Owned
  grounded : context.Grounded
  wellTyped : context.WellTyped

theorem coherent_empty (id : ContextId) (native : NativeHandle) (moduleName : String) :
    (empty id native moduleName).Coherent where
  owned := owned_empty id native moduleName
  grounded := grounded_empty id native moduleName
  wellTyped := wellTyped_empty id native moduleName

theorem Coherent.step (coherent : before.Coherent)
    (change : Change settings effect before after) : after.Coherent where
  owned := coherent.owned.step change
  grounded := coherent.grounded.step coherent.owned change
  wellTyped := coherent.wellTyped.step coherent.owned change

/-- Every change of a coherent context keeps the property. -/
def Invariant (settings : Settings) (holds : Context → Prop) : Prop :=
  ∀ effect before after, before.Coherent → holds before →
    Change settings effect before after → holds after

theorem Invariant.changes {holds : Context → Prop} (invariant : Invariant settings holds)
    (coherent : before.Coherent) (held : holds before)
    (changes : Changes settings effect before after) : after.Coherent ∧ holds after := by
  induction changes with
  | refl => exact ⟨coherent, held⟩
  | tail _ change inductionHypothesis =>
      obtain ⟨earlier, still⟩ := inductionHypothesis
      exact ⟨earlier.step change, invariant _ _ _ earlier still change⟩

end Context

end TypedIR
