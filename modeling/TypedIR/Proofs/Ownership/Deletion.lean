import TypedIR.Proofs.Ownership.Growth
import TypedIR.Proofs.Ownership.Invariant

/-!
Contract: ownership after the deletion of a function, and after every elementary change.

Owns:
- what a deletion releases: exactly what belongs to the function;
- the values, blocks and functions that are left, and the invariant for them;
- that every elementary change of a context keeps ownership.
-/

/-! ## Deletion -/

namespace TypedIR.Context

variable {context : Context}

variable {entry : FunctionEntry}

theorem mem_instructionsOf {value : ValueRef} :
    value ∈ context.instructionsOf entry ↔
      ∃ block ∈ entry.blocks, ∃ home, context.block? block = some home ∧
        value ∈ home.instructions := by
  unfold instructionsOf
  rw [List.mem_flatMap]
  refine exists_congr fun block => and_congr_right fun _ => ?_
  cases context.block? block <;> simp

theorem function?_withoutFunction {function : ValueRef} (apart : function ≠ entry.self) :
    (context.withoutFunction entry).function? function =
      (context.function? function).map (forgetFunction entry.self) := by
  have searched : (context.withoutFunction entry).function? function =
      ((context.functions.filter fun other => other.self ≠ entry.self).find?
        fun other => other.self = function).map (forgetFunction entry.self) := List.find?_map
  rw [searched, List.find?_filter, function?]
  congr 2
  funext other
  by_cases same : other.self = function
  · simp [same, apart]
  · simp [same]

theorem self_withoutFunction :
    ((context.withoutFunction entry).functions.map fun body => body.self) =
      (context.functions.map fun body => body.self).filter (· ≠ entry.self) := by
  rw [List.filter_map]
  show ((context.functions.filter _).map _).map _ = _
  rw [List.map_map]
  rfl

namespace Owned

variable (owned : context.Owned) (member : entry ∈ context.functions)

include owned member

/-- What a deletion releases: the function, its parameters, and the instructions in its blocks. -/
theorem released_iff {value : ValueRef} {type : TypeRef} {kind : ValueKind}
    (held : context.Holds value type kind) :
    value ∈ context.instructionsOf entry ++ entry.parameters ++ [entry.self] ↔
      value = entry.self ∨ (∃ position, kind = .parameter entry.self position) ∨
        ∃ block ∈ entry.blocks, ∃ code, kind = .instruction block code := by
  rw [List.mem_append, List.mem_append, List.mem_singleton, mem_instructionsOf]
  constructor
  · rintro ((⟨block, listed, home, found, inside⟩ | parameter) | self)
    · obtain ⟨_, code, other⟩ := ((owned.instructions.lists block home found).2 value).mp inside
      exact .inr (.inr ⟨block, listed, code, (held.unique other).2⟩)
    · obtain ⟨_, position, other⟩ := owned.functions.holds_parameter member parameter
      exact .inr (.inl ⟨position, (held.unique other).2⟩)
    · exact .inl self
  · rintro (self | ⟨position, rfl⟩ | ⟨block, listed, code, rfl⟩)
    · exact .inr self
    · obtain ⟨other, otherMember, same, atPosition⟩ :=
        owned.functions.parameterOwners value type _ position held
      rw [owned.functions.entry_unique otherMember member same] at atPosition
      exact .inl (.inr (List.mem_of_getElem? atPosition))
    · obtain ⟨home, found⟩ := owned.instructions.owners value type block code held
      have inside := ((owned.instructions.lists block home found).2 value).mpr ⟨type, code, held⟩
      exact .inl (.inl ⟨block, listed, home, found, inside⟩)

theorem holds_function_withoutFunction {value : ValueRef} {type : TypeRef} :
    (context.withoutFunction entry).Holds value type .function ↔
      context.Holds value type .function ∧ value ≠ entry.self := by
  rw [holds_withoutFunction]
  refine and_congr_right fun held => not_congr ?_
  rw [owned.released_iff member held]
  simp

theorem holds_parameter_withoutFunction {value function : ValueRef} {type : TypeRef}
    {position : Nat} :
    (context.withoutFunction entry).Holds value type (.parameter function position) ↔
      context.Holds value type (.parameter function position) ∧ function ≠ entry.self := by
  rw [holds_withoutFunction]
  refine and_congr_right fun held => not_congr ?_
  rw [owned.released_iff member held]
  constructor
  · rintro (rfl | ⟨index, same⟩ | ⟨block, _, code, other⟩)
    · have self := owned.functions.signed entry member
      cases (held.unique self).2
    · exact (ValueKind.parameter.inj same).1
    · cases other
  · rintro rfl
    exact .inr (.inl ⟨position, rfl⟩)

theorem holds_instruction_withoutFunction {value : ValueRef} {type : TypeRef}
    {block : BlockRef} {code : Instruction} :
    (context.withoutFunction entry).Holds value type (.instruction block code) ↔
      context.Holds value type (.instruction block code) ∧ block ∉ entry.blocks := by
  rw [holds_withoutFunction]
  refine and_congr_right fun held => not_congr ?_
  rw [owned.released_iff member held]
  constructor
  · rintro (rfl | ⟨index, other⟩ | ⟨home, listed, _, same⟩)
    · have self := owned.functions.signed entry member
      cases (held.unique self).2
    · cases other
    · exact (ValueKind.instruction.inj same).1 ▸ listed
  · intro listed
    exact .inr (.inr ⟨block, listed, code, rfl⟩)

omit owned member in
theorem isFunction_withoutFunction {function : ValueRef} :
    (context.withoutFunction entry).IsFunction function ↔
      context.IsFunction function ∧ function ≠ entry.self := by
  unfold IsFunction
  simp only [mem_withoutFunction]
  constructor
  · rintro ⟨_, ⟨old, oldMember, other, rfl⟩, rfl⟩
    exact ⟨⟨old, oldMember, rfl⟩, other⟩
  · rintro ⟨⟨old, oldMember, rfl⟩, other⟩
    exact ⟨_, ⟨old, oldMember, other, rfl⟩, rfl⟩

theorem functions_withoutFunction : (context.withoutFunction entry).FunctionsOwned := by
  have functions := owned.functions
  refine ⟨?_, ?_, ?_, ?_, ?_, ?_⟩
  · have positions : (context.withoutFunction entry).functions.map (fun entry => entry.self) =
        (context.functions.filter fun other => other.self ≠ entry.self).map
          fun entry => entry.self := by
      unfold withoutFunction
      rw [List.map_map]
      rfl
    rw [positions]
    exact functions.distinct.sublist (List.filter_sublist.map _)
  · intro value
    simp only [isFunction_withoutFunction, owned.holds_function_withoutFunction member,
      functions.values, exists_and_right]
  · intro other otherMember
    obtain ⟨old, oldMember, apart, rfl⟩ := mem_withoutFunction.mp otherMember
    exact (owned.holds_function_withoutFunction member).mpr
      ⟨functions.signed old oldMember, apart⟩
  · intro other otherMember
    obtain ⟨old, oldMember, apart, rfl⟩ := mem_withoutFunction.mp otherMember
    obtain ⟨result, types, variadic, signed, counted, each⟩ := functions.parameters old oldMember
    refine ⟨result, types, variadic, signed, counted, ?_⟩
    intro position value type atPosition typed
    exact (owned.holds_parameter_withoutFunction member).mpr
      ⟨each position value type atPosition typed, apart⟩
  · intro value type function position held
    obtain ⟨old, apart⟩ := (owned.holds_parameter_withoutFunction member).mp held
    obtain ⟨other, otherMember, rfl, listed⟩ :=
      functions.parameterOwners value type function position old
    exact ⟨_, mem_withoutFunction.mpr ⟨other, otherMember, apart, rfl⟩, rfl, listed⟩
  · intro other otherMember target named
    obtain ⟨old, oldMember, _, rfl⟩ := mem_withoutFunction.mp otherMember
    -- The personality of a remaining function is not the deleted one.
    have kept : (if old.personality = some entry.self then none else old.personality) =
        some target := named
    by_cases forgotten : old.personality = some entry.self
    · rw [if_pos forgotten] at kept
      cases kept
    · rw [if_neg forgotten] at kept
      refine isFunction_withoutFunction.mpr ⟨functions.personalities old oldMember target kept, ?_⟩
      rintro rfl
      exact forgotten kept

theorem parent?_withoutFunction {block : BlockRef} {function : ValueRef} :
    (context.withoutFunction entry).parent? block = some function ↔
      context.parent? block = some function ∧ function ≠ entry.self := by
  have listed := (owned.blocks.lists entry member).2 block
  unfold parent?
  simp only [Option.map_eq_some_iff, block?_withoutFunction]
  constructor
  · rintro ⟨home, ⟨found, apart⟩, rfl⟩
    refine ⟨⟨home, found, rfl⟩, fun same => apart (listed.mpr ?_)⟩
    rw [parent?, found, Option.map_some, same]
  · rintro ⟨⟨home, found, rfl⟩, apart⟩
    refine ⟨home, ⟨found, fun inside => apart ?_⟩, rfl⟩
    have named := listed.mp inside
    rw [parent?, found, Option.map_some] at named
    exact Option.some.inj named

theorem delete : (context.withoutFunction entry).Owned where
  functions := owned.functions_withoutFunction member
  blocks := by
    constructor
    · intro other otherMember
      obtain ⟨old, oldMember, apart, rfl⟩ := mem_withoutFunction.mp otherMember
      obtain ⟨distinct, listed⟩ := owned.blocks.lists old oldMember
      refine ⟨distinct, fun block => ?_⟩
      rw [owned.parent?_withoutFunction member]
      exact (listed block).trans (and_iff_left apart).symm
    · intro block function named
      obtain ⟨old, apart⟩ := (owned.parent?_withoutFunction member).mp named
      exact isFunction_withoutFunction.mpr ⟨owned.blocks.owners block function old, apart⟩
  instructions := by
    constructor
    · intro block home found
      obtain ⟨old, apart⟩ := block?_withoutFunction.mp found
      obtain ⟨distinct, listed⟩ := owned.instructions.lists block home old
      refine ⟨distinct, fun value => ?_⟩
      simp only [owned.holds_instruction_withoutFunction member, apart, not_false_eq_true,
        and_true]
      exact listed value
    · intro value type block code held
      obtain ⟨old, apart⟩ := (owned.holds_instruction_withoutFunction member).mp held
      obtain ⟨home, found⟩ := owned.instructions.owners value type block code old
      exact ⟨home, block?_withoutFunction.mpr ⟨found, apart⟩⟩

end Owned

end TypedIR.Context

/-! ## Every change -/

namespace TypedIR.Context

variable {settings : Settings} {effect : Effect} {context before after : Context}

theorem FormsConstant.isData {type : TypeRef} {kind : ValueKind}
    (formed : context.FormsConstant type kind) :
    kind.ofFunction = false ∧ kind.isInstruction = false := by
  cases kind with
  | function => exact formed.elim
  | parameter function position => exact formed.elim
  | instruction block code => exact formed.elim
  | _ => exact ⟨rfl, rfl⟩

/-- Values may be renamed and constants and types may come. -/
theorem Owned.data (owned : before.Owned) (functions : after.functions = before.functions)
    (blocks : after.blocks = before.blocks)
    (types : ∀ type shape, before.shape? type = some shape → after.shape? type = some shape)
    (values : ∀ value type kind, kind.ofFunction = true ∨ kind.isInstruction = true →
      (after.Holds value type kind ↔ before.Holds value type kind)) : after.Owned := by
  have same : after.functions = before.functions.map fun entry => entry := by
    rw [functions, List.map_id']
  have found : ∀ block, after.block? block = before.block? block := by
    intro block
    rw [block?, block?, blocks]
  constructor
  · exact owned.functions.transfer same (fun _ => ⟨rfl, rfl, rfl⟩) (fun _ _ => .inl) types
      fun value type kind ofFunction => values value type kind (.inl ofFunction)
  · refine owned.blocks.transfer same (fun _ => ⟨⟨rfl, rfl, rfl⟩, rfl⟩) fun block => ?_
    rw [parent?, parent?, found]
  · exact owned.instructions.transfer found
      fun value type kind isInstruction => values value type kind (.inr isInstruction)

theorem Owned.step (owned : before.Owned) (change : Change settings effect before after) :
    after.Owned := by
  cases change with
  | moduleName name => exact owned.data rfl rfl (fun _ _ known => known) fun _ _ _ _ => Iff.rfl
  | type shape fresh formed =>
      exact owned.data rfl rfl (fun _ _ known => shape?_push known) fun _ _ _ _ => Iff.rfl
  | constant type kind formed =>
      refine owned.data rfl rfl (fun _ _ known => known) fun value other otherKind owns => ?_
      obtain ⟨notFunction, notInstruction⟩ := formed.isData
      rw [holds_pushValue]
      apply or_iff_left
      rintro ⟨_, _, rfl⟩
      rcases owns with ofFunction | isInstruction
      · exact Bool.false_ne_true (notFunction.symm.trans ofFunction)
      · exact Bool.false_ne_true (notInstruction.symm.trans isInstruction)
  | declare name shape free => exact owned.declare shape
  | rename name found free =>
      exact owned.data rfl rfl (fun _ _ known => known) fun _ _ _ _ => holds_withName
  | block name found =>
      obtain ⟨member, same⟩ := mem_of_function? found
      exact owned.block ⟨_, member, same⟩ _
  | configure change found frame personality =>
      exact owned.update rfl (fun entry => ⟨⟨(frame entry).self, (frame entry).signature,
        (frame entry).parameters⟩, (frame entry).blocks⟩) personality rfl rfl rfl
  | delete found => exact owned.delete (mem_of_function? found).1
  | append name found typed targets => exact owned.append found
  | record function state =>
      exact owned.update rfl (fun _ => ⟨⟨rfl, rfl, rfl⟩, rfl⟩) (fun _ _ => .inl) rfl rfl rfl

end TypedIR.Context
