import TypedIR.Proofs.Context.Change

/-!
Contract: what a context holds, and what each change of its tables does to that.

Owns:
- the view of a value by its type and kind, which leaves the name out;
- the values, blocks and functions after each change, in terms of those before.

Does not own: how the tables hang together.
-/

namespace TypedIR.Context

variable {context before after : Context}

/-- A live value of the given type and kind, under any name. -/
def Holds (context : Context) (value : ValueRef) (type : TypeRef) (kind : ValueKind) : Prop :=
  ∃ name, context.value? value = some ⟨type, kind, name⟩

section Holds

variable {value : ValueRef} {type other : TypeRef} {kind otherKind : ValueKind}

theorem Holds.of_value? {entry : Value} (found : context.value? value = some entry) :
    context.Holds value entry.type entry.kind := ⟨entry.name, found⟩

theorem Holds.unique (first : context.Holds value type kind)
    (second : context.Holds value other otherKind) : type = other ∧ kind = otherKind := by
  obtain ⟨_, firstFound⟩ := first
  obtain ⟨_, secondFound⟩ := second
  rw [firstFound] at secondFound
  simp only [Option.some.injEq, Value.mk.injEq] at secondFound
  exact ⟨secondFound.1, secondFound.2.1⟩

theorem Holds.lt_size (held : context.Holds value type kind) : value < context.values.size := by
  obtain ⟨_, found⟩ := held
  exact Table.lt_size_of_get? found

/-! ### Values -/

theorem holds_congr (values : after.values = before.values) :
    after.Holds value type kind ↔ before.Holds value type kind := by
  rw [Holds, Holds, value?, value?, values]

theorem holds_of_pushAll {entries : List Value}
    (values : after.values = before.values.pushAll entries) :
    after.Holds value type kind ↔ before.Holds value type kind ∨
      ∃ (position : Nat) (name : String), entries[position]? = some ⟨type, kind, name⟩ ∧
        value = before.values.size + position := by
  unfold Holds value?
  rw [values]
  simp only [Table.get?_pushAll]
  by_cases inside : value < before.values.size
  · rw [if_pos inside]
    refine (or_iff_left ?_).symm
    rintro ⟨position, _, _, rfl⟩
    exact Nat.not_lt.mpr (Nat.le_add_right _ _) inside
  · rw [if_neg inside, Table.get?_eq_none_of_size_le (Nat.le_of_not_lt inside)]
    constructor
    · rintro ⟨name, found⟩
      exact .inr ⟨_, name, found, (Nat.add_sub_of_le (Nat.le_of_not_lt inside)).symm⟩
    · rintro (⟨_, gone⟩ | ⟨position, name, found, rfl⟩)
      · cases gone
      · exact ⟨name, by rwa [Nat.add_sub_cancel_left]⟩

theorem holds_pushValue {entry : Value} :
    (context.pushValue entry).2.Holds value type kind ↔ context.Holds value type kind ∨
      (value = context.values.size ∧ type = entry.type ∧ kind = entry.kind) := by
  have values : (context.pushValue entry).2.values = context.values.pushAll [entry] := rfl
  rw [holds_of_pushAll values]
  refine or_congr_right ⟨?_, ?_⟩
  · rintro ⟨position, name, found, rfl⟩
    cases position with
    | zero =>
        obtain rfl : entry = ⟨type, kind, name⟩ := by simpa using found
        exact ⟨rfl, rfl, rfl⟩
    | succ position => simp at found
  · rintro ⟨rfl, rfl, rfl⟩
    exact ⟨0, entry.name, rfl, rfl⟩

theorem holds_withFunction {convention : UInt32} {name : String} {signature : TypeRef}
    {parameters : List TypeRef} :
    (context.withFunction convention name signature parameters).Holds value type kind ↔
      context.Holds value type kind ∨
      (value = context.values.size ∧ type = signature ∧ kind = .function) ∨
      ∃ position : Nat, parameters[position]? = some type ∧
        kind = .parameter context.values.size position ∧
        value = context.values.size + 1 + position := by
  have values : (context.withFunction convention name signature parameters).values =
      context.values.pushAll (⟨signature, .function, name⟩ :: parameters.mapIdx
        fun position type => ⟨type, .parameter context.values.size position, ""⟩) := rfl
  rw [holds_of_pushAll values]
  refine or_congr_right ⟨?_, ?_⟩
  · rintro ⟨position, found⟩
    obtain ⟨_, found, rfl⟩ := found
    cases position with
    | zero =>
        simp only [List.getElem?_cons_zero, Option.some.injEq, Value.mk.injEq] at found
        exact .inl ⟨rfl, found.1.symm, found.2.1.symm⟩
    | succ position =>
        simp only [List.getElem?_cons_succ, List.getElem?_mapIdx, Option.map_eq_some_iff,
          Value.mk.injEq] at found
        obtain ⟨_, atPosition, rfl, rfl, _⟩ := found
        exact .inr ⟨position, atPosition, rfl, Nat.add_right_comm _ position 1⟩
  · rintro (⟨rfl, rfl, rfl⟩ | ⟨position, atPosition, rfl, rfl⟩)
    · exact ⟨0, name, rfl, rfl⟩
    · refine ⟨position + 1, "", ?_, Nat.add_right_comm _ 1 position⟩
      rw [List.getElem?_cons_succ, List.getElem?_mapIdx, atPosition, Option.map_some]

theorem holds_withName {renamed : ValueRef} {name : String} :
    (context.withName renamed name).Holds value type kind ↔ context.Holds value type kind := by
  have found : (context.withName renamed name).value? value =
      if value = renamed then
        (context.value? value).map fun entry => { entry with name := name }
      else context.value? value := Table.get?_modify _ _ _ _
  unfold Holds
  rw [found]
  by_cases same : value = renamed
  · rw [if_pos same]
    constructor
    · rintro ⟨_, renamedFound⟩
      obtain ⟨entry, lookup, equal⟩ := Option.map_eq_some_iff.mp renamedFound
      simp only [Value.mk.injEq] at equal
      obtain ⟨rfl, rfl, _⟩ := equal
      exact ⟨entry.name, lookup⟩
    · rintro ⟨_, lookup⟩
      exact ⟨name, by rw [lookup, Option.map_some]⟩
  · rw [if_neg same]

theorem holds_appendInstruction {function : ValueRef} {block : BlockRef} {result : TypeRef}
    {code : Instruction} {name : String} :
    (context.appendInstruction function block result code name).2.Holds value type kind ↔
      context.Holds value type kind ∨
      (value = context.values.size ∧ type = result ∧ kind = .instruction block code) := by
  have pushed : (context.appendInstruction function block result code name).2.values =
      (context.pushValue ⟨result, .instruction block code, name⟩).2.values := rfl
  rw [holds_congr pushed, holds_pushValue]

theorem holds_withoutFunction {entry : FunctionEntry} :
    (context.withoutFunction entry).Holds value type kind ↔ context.Holds value type kind ∧
      value ∉ context.instructionsOf entry ++ entry.parameters ++ [entry.self] := by
  have found : (context.withoutFunction entry).value? value =
      if value ∈ context.instructionsOf entry ++ entry.parameters ++ [entry.self] then none
      else context.value? value := Table.get?_releaseAll _ _ _
  unfold Holds
  rw [found]
  by_cases released : value ∈ context.instructionsOf entry ++ entry.parameters ++ [entry.self]
  · rw [if_pos released]
    exact iff_of_false (fun ⟨_, gone⟩ => by cases gone) fun held => held.2 released
  · rw [if_neg released]
    exact (and_iff_left released).symm

end Holds

/-! ### Blocks -/

variable {block : BlockRef} {home : Block}

theorem lt_size_of_block? (found : context.block? block = some home) :
    block < context.blocks.size := Table.lt_size_of_get? found

/-- A further block is the last one of its function. -/
theorem function?_withBlock {function other : ValueRef} {name : String} :
    (context.withBlock function name).function? other =
      if other = function then (context.function? other).map fun entry =>
        { entry with blocks := entry.blocks ++ [context.blocks.size] }.edited
      else context.function? other :=
  function?_updateFunction fun _ => by rfl

theorem block?_withBlock_eq_ite {function : ValueRef} {name : String} :
    (context.withBlock function name).block? block =
      if block = context.blocks.size then some ⟨function, name, []⟩ else context.block? block :=
  Table.get?_push _ _ _

theorem block?_withBlock {function : ValueRef} {name : String} :
    (context.withBlock function name).block? block = some home ↔
      context.block? block = some home ∨
      (block = context.blocks.size ∧ home = ⟨function, name, []⟩) := by
  rw [block?_withBlock_eq_ite]
  by_cases last : block = context.blocks.size
  · have gone : context.block? block = none :=
      Table.get?_eq_none_of_size_le (Nat.le_of_eq last.symm)
    rw [if_pos last, gone, Option.some.injEq]
    simp [last, eq_comm]
  · simp [last]

theorem block?_appendInstruction {function : ValueRef} {changed : BlockRef} {type : TypeRef}
    {code : Instruction} {name : String} :
    (context.appendInstruction function changed type code name).2.block? block =
      if block = changed then (context.block? block).map fun entry =>
        { entry with instructions := entry.instructions ++ [context.values.size] }
      else context.block? block :=
  Table.get?_modify _ _ _ _

theorem block?_withoutFunction {entry : FunctionEntry} :
    (context.withoutFunction entry).block? block = some home ↔
      context.block? block = some home ∧ block ∉ entry.blocks := by
  have found : (context.withoutFunction entry).block? block =
      if block ∈ entry.blocks then none else context.block? block := Table.get?_releaseAll _ _ _
  rw [found]
  by_cases released : block ∈ entry.blocks
  · simp [released]
  · simp [released]

/-! ### Functions -/

/-- Functions that change in place stay the same positions. -/
theorem isFunction_map {change : FunctionEntry → FunctionEntry}
    (functions : after.functions = before.functions.map change)
    (self : ∀ entry : FunctionEntry, (change entry).self = entry.self) {function : ValueRef} :
    after.IsFunction function ↔ before.IsFunction function := by
  unfold IsFunction
  rw [functions]
  constructor
  · rintro ⟨entry, member, rfl⟩
    obtain ⟨old, oldMember, rfl⟩ := List.mem_map.mp member
    exact ⟨old, oldMember, (self old).symm⟩
  · rintro ⟨old, oldMember, rfl⟩
    exact ⟨change old, List.mem_map_of_mem oldMember, self old⟩

theorem mem_withFunction {convention : UInt32} {name : String} {signature : TypeRef}
    {parameters : List TypeRef} {entry : FunctionEntry} :
    entry ∈ (context.withFunction convention name signature parameters).functions ↔
      entry ∈ context.functions ∨ entry = .declared context.values.size signature
        (List.range' (context.values.size + 1) parameters.length) convention := by
  simp [withFunction]

theorem mem_withoutFunction {deleted entry : FunctionEntry} :
    entry ∈ (context.withoutFunction deleted).functions ↔
      ∃ before ∈ context.functions, before.self ≠ deleted.self ∧
        forgetFunction deleted.self before = entry := by
  simp [withoutFunction, and_assoc]

end TypedIR.Context
