import TypedIR.Print.Names
import TypedIR.Proofs.Ownership.Typing
import TypedIR.Proofs.Print.Labels

/-!
Contract: the locals of a function and the names under which they are printed.

Owns:
- the locals of a function in the order in which they are printed, none of them twice;
- what each local wants to be called;
- the names given to them: all different, each as its local wants where no earlier one has that
  name, and each found among no more candidates than there are names before it, and one more.

Parameters, blocks and results share one name space.
-/

namespace TypedIR.Context

variable {context : Context} {entry : FunctionEntry} {block : BlockRef} {value : ValueRef}

/-! ### The locals of a function -/

/-- The instructions of a block in order. -/
def listed (context : Context) (block : BlockRef) : List ValueRef :=
  (context.block? block).elim [] fun home => home.instructions

/-- The value is of a type other than void. -/
def hasResult (context : Context) (value : ValueRef) : Bool :=
  ((context.value? value).bind fun entry => context.shape? entry.type).any fun shape =>
    !shape.isVoid

def instructionLocals (context : Context) (value : ValueRef) : List Local :=
  if context.hasResult value then [.value value] else []

def blockLocals (context : Context) (block : BlockRef) : List Local :=
  .block block :: (context.listed block).flatMap context.instructionLocals

/-- Parameters, blocks and instructions with a result, in the order in which they are printed. -/
def locals (context : Context) (entry : FunctionEntry) : List Local :=
  entry.parameters.map .value ++ entry.blocks.flatMap context.blockLocals

/-- The name that a local was given, empty if it is anonymous. -/
def wantedName (context : Context) : Local → String
  | .value value => (context.value? value).elim "" fun entry => entry.name
  | .block block => (context.block? block).elim "" fun home => home.name

def wanted (context : Context) (item : Local) : Local × String := (item, context.wantedName item)

theorem listed_eq {home : Block} (found : context.block? block = some home) :
    context.listed block = home.instructions := by
  rw [listed, found, Option.elim_some]

theorem hasResult_eq {held : Value} {shape : TypeShape} (live : context.value? value = some held)
    (known : context.shape? held.type = some shape) : context.hasResult value = !shape.isVoid := by
  rw [hasResult, live, Option.bind_some, known, Option.any_some]

theorem mem_instructionLocals {item : Local} :
    item ∈ context.instructionLocals value ↔
      item = .value value ∧ context.hasResult value = true := by
  unfold instructionLocals
  by_cases result : context.hasResult value = true
  · rw [if_pos result, List.mem_singleton, and_iff_left result]
  · rw [if_neg result]
    exact iff_of_false List.not_mem_nil fun both => result both.2

theorem value_mem_blockLocals :
    .value value ∈ context.blockLocals block ↔
      value ∈ context.listed block ∧ context.hasResult value = true := by
  rw [blockLocals, List.mem_cons, List.mem_flatMap]
  constructor
  · rintro (same | ⟨other, among, inside⟩)
    · cases same
    · obtain ⟨same, result⟩ := mem_instructionLocals.mp inside
      obtain rfl := Local.value.inj same
      exact ⟨among, result⟩
  · rintro ⟨among, result⟩
    exact .inr ⟨value, among, mem_instructionLocals.mpr ⟨rfl, result⟩⟩

theorem block_mem_blockLocals {other : BlockRef} :
    .block other ∈ context.blockLocals block ↔ other = block := by
  rw [blockLocals, List.mem_cons, List.mem_flatMap]
  constructor
  · rintro (same | ⟨value, _, inside⟩)
    · exact Local.block.inj same
    · cases (mem_instructionLocals.mp inside).1
  · exact fun same => .inl (congrArg Local.block same)

theorem value_mem_locals :
    .value value ∈ context.locals entry ↔ value ∈ entry.parameters ∨
      ∃ block ∈ entry.blocks, value ∈ context.listed block ∧ context.hasResult value = true := by
  rw [locals, List.mem_append, List.mem_map_of_injective fun _ _ => Local.value.inj,
    List.mem_flatMap]
  exact or_congr_right (exists_congr fun block => and_congr_right fun _ => value_mem_blockLocals)

theorem block_mem_locals : .block block ∈ context.locals entry ↔ block ∈ entry.blocks := by
  rw [locals, List.mem_append, List.mem_map, List.mem_flatMap]
  constructor
  · rintro (⟨value, _, same⟩ | ⟨other, among, inside⟩)
    · cases same
    · exact block_mem_blockLocals.mp inside ▸ among
  · exact fun among => .inr ⟨block, among, block_mem_blockLocals.mpr rfl⟩

/-! ### No local is listed twice -/

/-- Lists put end to end have no repetitions if none of them has, and each item is from one of them
only. -/
theorem nodup_flatMap_of {α β : Type} {items : List α} {image : α → List β}
    (different : items.Nodup) (each : ∀ item ∈ items, (image item).Nodup)
    (apart : ∀ one ∈ items, ∀ two ∈ items, ∀ result, result ∈ image one → result ∈ image two →
      one = two) : (items.flatMap image).Nodup := by
  refine List.nodup_flatMap.mpr ⟨each, different.imp_of_mem fun one two unequal => ?_⟩
  intro result first second
  exact unequal (apart _ one _ two result first second)

theorem FunctionsOwned.parameters_nodup (owned : context.FunctionsOwned)
    (member : entry ∈ context.functions) : entry.parameters.Nodup := by
  obtain ⟨result, types, variadic, _, counted, each⟩ := owned.parameters entry member
  rw [List.nodup_iff_getElem?_ne_getElem?]
  intro first second before inside same
  have typed : ∀ position, position < entry.parameters.length →
      ∃ type, types[position]? = some type :=
    fun position within => ⟨_, List.getElem?_eq_getElem (counted ▸ within)⟩
  obtain ⟨firstType, firstTyped⟩ := typed first (Nat.lt_trans before inside)
  obtain ⟨secondType, secondTyped⟩ := typed second inside
  obtain ⟨parameter, atSecond⟩ : ∃ parameter, entry.parameters[second]? = some parameter :=
    ⟨_, List.getElem?_eq_getElem inside⟩
  have kinds := (each first parameter firstType (same.trans atSecond) firstTyped).unique
    (each second parameter secondType atSecond secondTyped)
  exact Nat.ne_of_lt before (ValueKind.parameter.inj kinds.2).2

/-- What a block lists are its instructions. -/
theorem Owned.mem_listed (owned : context.Owned) :
    value ∈ context.listed block ↔
      ∃ type code, context.Holds value type (.instruction block code) := by
  cases found : context.block? block with
  | some home =>
      rw [listed_eq found]
      exact (owned.instructions.lists block home found).2 value
  | none =>
      rw [listed, found, Option.elim_none]
      refine iff_of_false List.not_mem_nil ?_
      rintro ⟨type, code, held⟩
      obtain ⟨home, live⟩ := owned.instructions.owners value type block code held
      cases live.symm.trans found

/-- An instruction of a function is a local of it exactly if it has a result. -/
theorem Owned.instruction_mem_locals (owned : context.Owned) (member : entry ∈ context.functions)
    (listed : block ∈ entry.blocks) (among : value ∈ context.listed block) :
    .value value ∈ context.locals entry ↔ context.hasResult value = true := by
  rw [value_mem_locals]
  constructor
  · rintro (parameter | ⟨_, _, _, result⟩)
    · obtain ⟨_, _, held⟩ := owned.mem_listed.mp among
      obtain ⟨_, _, heldToo⟩ := owned.functions.holds_parameter member parameter
      cases (held.unique heldToo).2
    · exact result
  · exact fun result => .inr ⟨block, listed, among, result⟩

theorem Owned.listed_nodup (owned : context.Owned) : (context.listed block).Nodup := by
  cases found : context.block? block with
  | some home =>
      rw [listed_eq found]
      exact (owned.instructions.lists block home found).1
  | none =>
      rw [listed, found, Option.elim_none]
      exact List.nodup_nil

theorem Owned.blockLocals_nodup (owned : context.Owned) : (context.blockLocals block).Nodup := by
  rw [blockLocals, List.nodup_cons]
  constructor
  · intro again
    obtain ⟨value, _, inside⟩ := List.mem_flatMap.mp again
    cases (mem_instructionLocals.mp inside).1
  · refine nodup_flatMap_of owned.listed_nodup (fun value _ => ?_) ?_
    · unfold instructionLocals
      split
      · exact List.nodup_singleton _
      · exact List.nodup_nil
    · intro one _ two _ item first second
      exact Local.value.inj ((mem_instructionLocals.mp first).1.symm.trans
        (mem_instructionLocals.mp second).1)

theorem Owned.locals_nodup (owned : context.Owned) (member : entry ∈ context.functions) :
    (context.locals entry).Nodup := by
  rw [locals, List.nodup_append]
  refine ⟨?_, ?_, ?_⟩
  · exact (owned.functions.parameters_nodup member).map fun _ _ => Local.value.inj
  · refine nodup_flatMap_of (owned.blocks.lists entry member).1
      (fun block _ => owned.blockLocals_nodup) ?_
    intro one _ two _ item first second
    cases item with
    | block block =>
        exact (block_mem_blockLocals.mp first).symm.trans (block_mem_blockLocals.mp second)
    | value value =>
        obtain ⟨_, _, held⟩ := owned.mem_listed.mp (value_mem_blockLocals.mp first).1
        obtain ⟨_, _, heldToo⟩ := owned.mem_listed.mp (value_mem_blockLocals.mp second).1
        exact (ValueKind.instruction.inj (held.unique heldToo).2).1
  · rintro _ parameter item inside rfl
    obtain ⟨value, among, rfl⟩ := List.mem_map.mp parameter
    obtain ⟨block, _, inBlock⟩ := List.mem_flatMap.mp inside
    obtain ⟨_, _, held⟩ := owned.functions.holds_parameter member among
    obtain ⟨_, _, heldToo⟩ := owned.mem_listed.mp (value_mem_blockLocals.mp inBlock).1
    cases (held.unique heldToo).2

/-! ### What a function lists is live -/

theorem resolveType_succeeds {type : TypeRef} (inside : type < context.types.size) :
    Succeeds (context.resolveType (context.typeId type)) :=
  ⟨_, resolveType_eq_ok.mpr ⟨rfl, Array.getElem?_eq_getElem inside⟩⟩

section Live

variable (coherent : context.Coherent)

include coherent

theorem live_parameter (member : entry ∈ context.functions) {parameter : ValueRef}
    (listed : parameter ∈ entry.parameters) :
    ∃ value, context.resolveValue (context.valueId parameter) = .ok value := by
  obtain ⟨_, _, name, live⟩ := coherent.owned.functions.holds_parameter member listed
  exact ⟨_, resolveValue_eq_ok.mpr ⟨rfl, live⟩⟩

theorem live_block (member : entry ∈ context.functions) (listed : block ∈ entry.blocks) :
    ∃ home, context.resolveBlock (context.blockId block) = .ok home := by
  obtain ⟨home, found⟩ := coherent.owned.blocks.exists_block member listed
  exact ⟨home, resolveBlock_eq_ok.mpr ⟨rfl, found⟩⟩

theorem live_instruction {home : Block}
    (found : context.resolveBlock (context.blockId block) = .ok home)
    (listed : value ∈ home.instructions) : ∃ entry, context.value? value = some entry := by
  have lookup := (resolveBlock_eq_ok.mp found).2
  obtain ⟨type, code, name, live⟩ :=
    ((coherent.owned.instructions.lists block home lookup).2 value).mp listed
  exact ⟨_, live⟩

end Live

/-! ### The names of the locals -/

theorem mapM_eq_map {α β : Type} {action : α → Except Fault β} {image : α → β} {items : List α}
    (each : ∀ item ∈ items, action item = .ok (image item)) :
    items.mapM action = .ok (items.map image) :=
  mapM_eq_ok.mpr (List.forall₂_map_right_iff.mpr (List.forall₂_same.mpr each))

section Names

variable (coherent : context.Coherent)

include coherent

theorem wantedByInstruction_eq {held : Value} (live : context.value? value = some held) :
    context.wantedByInstruction value =
      .ok ((context.instructionLocals value).map context.wanted) := by
  obtain ⟨shape, known⟩ := resolveType_succeeds (coherent.grounded.type_lt_size live)
  refine bind_eq_ok.mpr ⟨held, resolveValue_eq_ok.mpr ⟨rfl, live⟩,
    bind_eq_ok.mpr ⟨shape, known, congrArg Except.ok ?_⟩⟩
  rw [instructionLocals, hasResult_eq live (resolveType_eq_ok.mp known).2]
  cases shape.isVoid with
  | true => rfl
  | false =>
      rw [if_neg Bool.false_ne_true, Bool.not_false, if_pos rfl, List.map_singleton, wanted,
        wantedName, live, Option.elim_some]

theorem wantedByBlock_eq {home : Block} (found : context.block? block = some home) :
    context.wantedByBlock block = .ok ((context.blockLocals block).map context.wanted) := by
  have resolved : context.resolveBlock (context.blockId block) = .ok home :=
    resolveBlock_eq_ok.mpr ⟨rfl, found⟩
  have results : home.instructions.mapM context.wantedByInstruction =
      .ok (home.instructions.map fun value =>
        (context.instructionLocals value).map context.wanted) := by
    refine mapM_eq_map fun value among => ?_
    obtain ⟨held, live⟩ := live_instruction coherent resolved among
    exact wantedByInstruction_eq coherent live
  refine bind_eq_ok.mpr ⟨home, resolved, bind_eq_ok.mpr ⟨_, results, congrArg Except.ok ?_⟩⟩
  rw [blockLocals, listed_eq found, List.map_cons, List.map_flatMap, List.flatMap_def, wanted,
    wantedName, found, Option.elim_some]

variable (member : entry ∈ context.functions)

include member

theorem wantedNames_eq :
    context.wantedNames entry = .ok ((context.locals entry).map context.wanted) := by
  have parameters : entry.parameters.mapM context.wantedByParameter =
      .ok (entry.parameters.map fun parameter => context.wanted (.value parameter)) := by
    refine mapM_eq_map fun parameter among => ?_
    obtain ⟨held, resolved⟩ := live_parameter coherent member among
    refine bind_eq_ok.mpr ⟨held, resolved, congrArg Except.ok ?_⟩
    have live : context.value? parameter = some held := (resolveValue_eq_ok.mp resolved).2
    rw [wanted, wantedName, live, Option.elim_some]
  have blocks : entry.blocks.mapM context.wantedByBlock =
      .ok (entry.blocks.map fun block => (context.blockLocals block).map context.wanted) := by
    refine mapM_eq_map fun block among => ?_
    obtain ⟨home, resolved⟩ := live_block coherent member among
    exact wantedByBlock_eq coherent (resolveBlock_eq_ok.mp resolved).2
  refine bind_eq_ok.mpr ⟨_, parameters, bind_eq_ok.mpr ⟨_, blocks, congrArg Except.ok ?_⟩⟩
  rw [locals, List.map_append, List.map_map, List.map_flatMap, List.flatMap_def]
  rfl

theorem localNames_assign :
    ∃ names, context.localNames entry = .ok names ∧ names.map (·.1) = context.locals entry ∧
      names.map (·.2) = Label.assign ((context.locals entry).map context.wantedName) := by
  have items : ((context.locals entry).map context.wanted).map (·.1) = context.locals entry := by
    rw [List.map_map]
    exact List.map_id _
  have wishes : ((context.locals entry).map context.wanted).map (·.2) =
      (context.locals entry).map context.wantedName := List.map_map
  have lengths : (Label.assign ((context.locals entry).map context.wantedName)).length =
      (context.locals entry).length := by
    rw [(Label.assign_given _).length_eq, List.length_map]
  refine ⟨_, bind_eq_ok.mpr ⟨_, wantedNames_eq coherent member, rfl⟩, ?_, ?_⟩
  · rw [items, wishes]
    exact List.map_fst_zip (Nat.le_of_eq lengths.symm)
  · rw [items, wishes]
    exact List.map_snd_zip (Nat.le_of_eq lengths)

end Names

/-- Names for all locals of a function, and no two locals with the same name. -/
structure NamesLocals (context : Context) (entry : FunctionEntry) (names : LocalNames) : Prop where
  locals : names.map (·.1) = context.locals entry
  once : (context.locals entry).Nodup
  distinct : (names.map (·.2)).Nodup
  /-- The names are given one after the other. -/
  given : ∀ (position : Nat) item name, names[position]? = some (item, name) →
    Label.Given ((names.map (·.2)).take position) (context.wantedName item) name
  /-- A name that no earlier local was given is kept. -/
  kept : ∀ (position : Nat) item name, names[position]? = some (item, name) →
    context.wantedName item ≠ "" → context.wantedName item ∉ (names.map (·.2)).take position →
      name = context.wantedName item
  /-- The search for a number ends, at the latest with one more than there are earlier names. -/
  ended : ∀ (position : Nat) item name, names[position]? = some (item, name) →
    name = context.wantedName item ∨
      ∃ number ≤ position + 1, name = context.wantedName item ++ toString number

theorem NamesLocals.isSome_name? (named : NamesLocals context entry names) {item : Local} :
    (names.name? item).isSome ↔ item ∈ context.locals entry := by
  rw [← named.locals]
  exact isSome_lookup

/-- A name tells the local that it was given to. -/
theorem NamesLocals.told (named : NamesLocals context entry names) {one two : Local} {name : String}
    (first : names.name? one = some name) (second : names.name? two = some name) : one = two := by
  have pair := List.inj_on_of_nodup_map named.distinct (mem_of_lookup first)
    (mem_of_lookup second) rfl
  exact congrArg Prod.fst pair

theorem Coherent.namesLocals (coherent : context.Coherent) (member : entry ∈ context.functions) :
    ∃ names, context.localNames entry = .ok names ∧ NamesLocals context entry names := by
  obtain ⟨names, done, locals, assigned⟩ := localNames_assign coherent member
  have all := Label.assign_given ((context.locals entry).map context.wantedName)
  rw [← assigned] at all
  have given : ∀ (position : Nat) item name, names[position]? = some (item, name) →
      Label.Given ((names.map (·.2)).take position) (context.wantedName item) name := by
    intro position item name found
    have wish : ((context.locals entry).map context.wantedName)[position]? =
        some (context.wantedName item) := by
      rw [← locals, List.map_map, List.getElem?_map, found, Option.map_some]
      rfl
    obtain ⟨other, atOther, otherGiven⟩ := all.given_at wish
    rw [List.getElem?_map, found, Option.map_some] at atOther
    obtain rfl := Option.some.inj atOther
    exact otherGiven
  refine ⟨names, done, locals, coherent.owned.locals_nodup member, all.nodup.1, given,
    fun position item name found => (given position item name found).eq_wanted, ?_⟩
  intro position item name found
  refine (given position item name found).bounded.imp_right ?_
  rintro ⟨number, bound, same⟩
  refine ⟨number, Nat.le_trans bound (Nat.succ_le_succ ?_), same⟩
  exact List.length_take_le _ _

end TypedIR.Context
