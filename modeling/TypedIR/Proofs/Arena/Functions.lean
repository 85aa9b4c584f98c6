import TypedIR.Arena.Functions
import TypedIR.Proofs.Arena.Instructions
import TypedIR.Proofs.Ownership.Deletion
import TypedIR.Proofs.Ownership.Names

/-!
Contract: functions declared, renamed, changed and deleted in place.

Owns:
- the stored names, which change with every declaration, renaming and deletion as the search for
  names does;
- declaration and renaming, which write to several of the stores of a context;
- blocks and attachments, each behind its look-ups;
- deletion, which takes a function out of every store that it stands in.

Between the writes of one operation the stores do not agree with each other. They do again after
the last one.
-/

namespace TypedIR

open Arena (Contents)
open InPlace

/-! ### Stored names -/

namespace Context

/-- A search for names as a store of handles. -/
def namesUnder (home : ContextId) (index : String → Option ValueRef) : Map String FunctionId :=
  ⟨fun name => (index name).map (FunctionId.mk home)⟩

variable {home : ContextId} {index : String → Option ValueRef} {function : ValueRef}

theorem get?_namesUnder (name : String) :
    (namesUnder home index).get? name = (index name).map (FunctionId.mk home) := rfl

theorem namesUnder_forgetName (old : String) :
    (if (namesUnder home index).get? old = some ⟨home, function⟩ then
      (namesUnder home index).erase old else namesUnder home index) =
      namesUnder home (forgetName index function (some old)) := by
  have stands : (namesUnder home index).get? old = some ⟨home, function⟩ ↔
      index old = some function := by
    simp [namesUnder]
  simp only [stands, forgetName]
  by_cases recorded : index old = some function
  · rw [if_pos recorded, if_pos recorded]
    ext name : 1
    rw [Map.get?_erase, get?_namesUnder, get?_namesUnder]
    by_cases same : name = old
    · rw [if_pos same, same, Function.update_self, Option.map_none]
    · rw [if_neg same, Function.update_of_ne same]
  · rw [if_neg recorded, if_neg recorded]

theorem namesUnder_recordName (name : String) :
    (if name = "" then namesUnder home index
      else (namesUnder home index).insert name ⟨home, function⟩) =
      namesUnder home (recordName index function (some name)) := by
  simp only [recordName]
  by_cases anonymous : name = ""
  · rw [if_pos anonymous, if_pos anonymous]
  · rw [if_neg anonymous, if_neg anonymous]
    ext other : 1
    rw [Map.get?_insert, get?_namesUnder, get?_namesUnder]
    by_cases same : other = name
    · rw [if_pos same, same, Function.update_self, Option.map_some]
    · rw [if_neg same, Function.update_of_ne same]

theorem Renaming.contents_names {before after : Context} {old new : Option String}
    (renamed : Renaming before after function old new) (distinct : before.DistinctNames)
    (same : after.id = before.id) : after.contents.names = namesUnder before.id
      (recordName (forgetName before.functionNamed? function old) function new) := by
  rw [← renamed.functionNamed? distinct, ← same]
  rfl

end Context

/-! ### Contents -/

namespace Arena.Contents

variable {contents : Contents}

theorem pushValues_eq (entries : List Value) : contents.pushValues entries =
    ((List.range' contents.values.size entries.length).map (ValueId.mk contents.id),
      { contents with values := contents.values.pushAll entries }) := by
  induction entries generalizing contents with
  | nil => rfl
  | cons entry entries inductionHypothesis =>
      show ((contents.pushValue entry).1 :: ((contents.pushValue entry).2.pushValues entries).1,
        ((contents.pushValue entry).2.pushValues entries).2) = _
      have size : (contents.pushValue entry).2.values.size = contents.values.size + 1 :=
        Table.size_push _ _
      rw [inductionHypothesis, size, List.length_cons, List.range'_succ, List.map_cons,
        Table.pushAll]
      rfl

theorem declare_eq {name : String} {signature : TypeId} {parameters : List TypeId}
    {convention : UInt32} (untaken : ¬ (name ≠ "" ∧ (contents.names.get? name).isSome)) :
    Contents.declare name signature parameters convention contents =
      (.ok ⟨contents.id, contents.values.size⟩, { contents with
        values := (contents.values.push ⟨signature, .function, name⟩).pushAll
          (parametersOf ⟨contents.id, contents.values.size⟩ parameters)
        bodies := contents.bodies.insert contents.values.size (.declared signature
          ((List.range' (contents.values.size + 1) parameters.length).map
            (ValueId.mk contents.id)) convention)
        functions := contents.functions ++ [⟨contents.id, contents.values.size⟩]
        names := if name = "" then contents.names
          else contents.names.insert name ⟨contents.id, contents.values.size⟩ }) := by
  have count : (parametersOf ⟨contents.id, contents.values.size⟩ parameters).length =
      parameters.length := List.length_mapIdx
  have size : (contents.values.push ⟨signature, .function, name⟩).size =
      contents.values.size + 1 := Table.size_push _ _
  show (if name ≠ "" ∧ (contents.names.get? name).isSome then _ else _ :
    InPlace Contents FunctionId) contents = _
  rw [if_neg untaken]
  simp only [update_bind, pushValue, pushValues_eq, count, size]
  rfl

theorem foldl_releaseValue (values : List ValueId) : values.foldl releaseValue contents =
    { contents with values := contents.values.releaseAll (values.map (·.index)) } := by
  induction values generalizing contents with
  | nil => rfl
  | cons value values inductionHypothesis =>
      rw [List.foldl_cons, inductionHypothesis]
      rfl

/-- The positions of the instructions in the blocks that are live. -/
def instructionsIn (contents : Contents) (blocks : List BlockId) : List Nat :=
  blocks.flatMap fun block =>
    ((contents.blocks.get? block.index).map fun home => home.instructions.map (·.index)).getD []

/-- Distinct live blocks are released with all that they list, as if all at once. -/
theorem foldl_releaseBlock (contents : Contents) {blocks : List BlockId}
    (distinct : (blocks.map (·.index)).Nodup)
    (live : ∀ block ∈ blocks, ∃ home, contents.blocks.get? block.index = some home) :
    blocks.foldl releaseBlock contents = { contents with
      blocks := contents.blocks.releaseAll (blocks.map (·.index))
      values := contents.values.releaseAll (contents.instructionsIn blocks) } := by
  induction blocks generalizing contents with
  | nil => rfl
  | cons first rest inductionHypothesis =>
      obtain ⟨home, found⟩ := live first List.mem_cons_self
      obtain ⟨apart, later⟩ := List.nodup_cons.mp distinct
      have step : contents.releaseBlock first = { contents with
          blocks := contents.blocks.release first.index
          values := contents.values.releaseAll (home.instructions.map (·.index)) } := by
        unfold releaseBlock
        rw [found]
        exact foldl_releaseValue _
      have others : ∀ block ∈ rest, (contents.blocks.release first.index).get? block.index =
          contents.blocks.get? block.index := by
        intro block listed
        rw [Table.get?_release, if_neg fun same => apart (List.mem_map.mpr ⟨block, listed, same⟩)]
      have still : ∀ block ∈ rest, ∃ home,
          (contents.blocks.release first.index).get? block.index = some home := by
        intro block listed
        rw [others block listed]
        exact live block (List.mem_cons_of_mem _ listed)
      have listed : (rest.flatMap fun block =>
          (((contents.blocks.release first.index).get? block.index).map fun home =>
            home.instructions.map (·.index)).getD []) = contents.instructionsIn rest :=
        List.flatMap_congr fun block member => by rw [others block member]
      rw [List.foldl_cons, step, inductionHypothesis _ later still]
      simp only [instructionsIn] at listed ⊢
      simp only [listed, List.flatMap_cons, found, Option.map_some, Option.getD_some,
        Table.releaseAll_append, List.map_cons]
      rfl

/-- The contents without a function of that name and body, in every store. -/
def withoutFunction (contents : Contents) (function : FunctionId) (name : String) (body : Body) :
    Contents :=
  { contents with
    values := contents.values.releaseAll
      (contents.instructionsIn body.blocks ++ body.parameters.map (·.index) ++ [function.index])
    blocks := contents.blocks.releaseAll (body.blocks.map (·.index))
    bodies := (contents.bodies.erase function.index).mapValues (Body.forget function)
    functions := contents.functions.filter fun other => other ≠ function
    names := if contents.names.get? name = some function then contents.names.erase name
      else contents.names }

/-- Whatever the look-ups and releases between its writes see, a deletion takes the function out of
every store. -/
theorem deleteFunction_eq {function : FunctionId} {name : String} {body : Body}
    (found : contents.bodies.get? function.index = some body)
    (distinct : (body.blocks.map (·.index)).Nodup)
    (live : ∀ block ∈ body.blocks, ∃ home, contents.blocks.get? block.index = some home) :
    Contents.deleteFunction function name contents =
      (.ok (), contents.withoutFunction function name body) := by
  let taken : Contents := { contents with bodies := contents.bodies.erase function.index }
  have start : takeBody function contents = (.ok body, taken) := by
    unfold takeBody
    rw [found]
  have released := foldl_releaseBlock taken distinct live
  refine (bind_of_ok start).trans ?_
  simp only [withoutFunction, write_bind, released, foldl_releaseValue, Table.releaseAll_append]
  rfl

end Arena.Contents

namespace Context

variable {context : Context}

/-! ### Declaration -/

theorem parametersOf_tagged (function : ValueRef) (parameters : List TypeRef) :
    Arena.parametersOf (context.functionId function) (parameters.map context.typeId) =
      (parameters.mapIdx fun position type =>
        (⟨type, .parameter function position, ""⟩ : Value)).map (Value.tagged context.id) := by
  apply List.ext_getElem?
  intro position
  rw [Arena.parametersOf, List.getElem?_mapIdx, List.getElem?_map, List.getElem?_map,
    List.getElem?_mapIdx]
  cases parameters[position]? <;> rfl

theorem function?_withFunction (owned : context.FunctionsOwned) (convention : UInt32)
    (name : String) (signature : TypeRef) (parameters : List TypeRef) (function : ValueRef) :
    (context.withFunction convention name signature parameters).function? function =
      if function = context.values.size then
        some (.declared function signature (List.range' (function + 1) parameters.length)
          convention)
      else context.function? function := by
  have searched :
      (context.withFunction convention name signature parameters).function? function =
        (context.functions ++ [FunctionEntry.declared context.values.size signature
          (List.range' (context.values.size + 1) parameters.length) convention]).find?
            fun entry => entry.self = function := rfl
  rw [searched, List.find?_append, ← Context.function?]
  by_cases fresh : function = context.values.size
  · subst fresh
    have unused : context.function? context.values.size = none := by
      rw [← Option.not_isSome_iff_eq_none, isSome_function?]
      exact fun live => Nat.lt_irrefl _ (owned.lt_size live)
    rw [unused, if_pos rfl]
    simp [FunctionEntry.declared]
  · rw [if_neg fresh]
    simp [FunctionEntry.declared, Ne.symm fresh]

theorem contents_declare (owned : context.FunctionsOwned) (distinct : context.DistinctNames)
    {name : String} (free : context.functionNamed? name = none) (convention : UInt32)
    (signature : TypeRef) (parameters : List TypeRef) :
    Contents.declare name (context.typeId signature) (parameters.map context.typeId) convention
      context.contents = (.ok (context.functionId context.values.size),
        (context.withFunction convention name signature parameters).contents) := by
  have untaken : ¬ (name ≠ "" ∧ (context.contents.names.get? name).isSome) := by
    rw [contents_names, free]
    simp
  have size : context.contents.values.size = context.values.size := Table.size_map _ _
  have renamed : Renaming context (context.withFunction convention name signature parameters)
      context.values.size none (some name) := renaming_withFunction owned free
  rw [Contents.declare_eq untaken, size]
  refine Prod.ext rfl ?_
  apply Contents.ext <;> try rfl
  · show (context.values.map _ |>.push _).pushAll _ = ((context.values.push _).pushAll _).map _
    rw [Table.map_pushAll, Table.map_push, ← parametersOf_tagged]
    rfl
  · ext function : 1
    rw [Map.get?_insert, contents_bodies, contents_bodies, function?_withFunction owned]
    by_cases fresh : function = context.values.size
    · rw [if_pos fresh, if_pos fresh, fresh, List.length_map]
      rfl
    · rw [if_neg fresh, if_neg fresh]
      rfl
  · show context.functions.map _ ++ [_] = (context.functions ++ [_]).map _
    rw [List.map_append]
    rfl
  · rw [renamed.contents_names distinct rfl]
    exact namesUnder_recordName name

/-! ### Names -/

theorem names_taken {name : String} {function : ValueRef} :
    (name ≠ "" ∧ (context.contents.names.get? name).any
      fun holder => holder ≠ context.functionId function) ↔
      (context.functionNamed? name).any fun holder => holder ≠ function := by
  rw [contents_names]
  cases found : context.functionNamed? name with
  | none => simp
  | some holder => simp [(functionName?_of_functionNamed? found).1, functionId]

theorem contents_withName {value : ValueRef} {name : String} :
    { context.contents with
      values := context.contents.values.modify value fun entry => { entry with name := name }
      names := (context.withName value name).contents.names } =
      (context.withName value name).contents := by
  apply Contents.ext <;> try rfl
  refine (Table.map_modify ?_ _ _).symm
  exact fun _ => rfl

/-- Recording a function under its new name leaves the names that are found when it has it. -/
theorem contents_renameFunction (distinct : context.DistinctNames) {function : ValueRef}
    {entry : Value} {name : String} (found : context.value? function = some entry)
    (live : context.IsFunction function)
    (free : ∀ holder, context.functionNamed? name = some holder → holder = function) :
    Contents.renameFunction (context.functionId function) entry.name name context.contents =
      (.ok (), { context.contents with
        names := (context.withName function name).contents.names }) := by
  have untaken : ¬ (name ≠ "" ∧ (context.contents.names.get? name).any
      fun holder => holder ≠ context.functionId function) := by
    rw [names_taken]
    cases held : context.functionNamed? name with
    | none => simp
    | some holder => simp [free holder held]
  have renamed := renaming_withName found live free
  show (if name ≠ "" ∧ (context.contents.names.get? name).any
    (fun holder => holder ≠ context.functionId function) then _ else _ :
      InPlace Contents Unit) context.contents = _
  rw [if_neg untaken, renamed.contents_names distinct rfl, ← namesUnder_recordName,
    ← namesUnder_forgetName]
  rfl

/-! ### Deletion -/

theorem body_forgetFunction (deleted : ValueRef) (entry : FunctionEntry) :
    (forgetFunction deleted entry).body context.id =
      (entry.body context.id).forget (context.functionId deleted) := by
  have same : (entry.body context.id).personality = some (context.functionId deleted) ↔
      entry.personality = some deleted := by
    simp [FunctionEntry.body, functionId]
  unfold Arena.Body.forget
  simp only [same]
  by_cases named : entry.personality = some deleted
  · simp only [if_pos named, forgetFunction]
    rfl
  · simp only [if_neg named, forgetFunction]
    rfl

theorem contents_deleteFunction (owned : context.Owned) (distinct : context.DistinctNames)
    {entry : FunctionEntry} {name : String} (member : entry ∈ context.functions)
    (named : context.functionName? entry.self = some name) :
    Contents.deleteFunction (context.functionId entry.self) name context.contents =
      (.ok (), (context.withoutFunction entry).contents) := by
  have found : context.contents.bodies.get? entry.self = some (entry.body context.id) := by
    rw [contents_bodies, function?_of_mem owned.functions.distinct member]
    rfl
  have blocks : (entry.body context.id).blocks.map (·.index) = entry.blocks := by
    simp [FunctionEntry.body, Function.comp_def]
  have parameters : (entry.body context.id).parameters.map (·.index) = entry.parameters := by
    simp [FunctionEntry.body, Function.comp_def]
  have listed := owned.blocks.lists entry member
  have live : ∀ block ∈ (entry.body context.id).blocks,
      ∃ home, context.contents.blocks.get? block.index = some home := by
    intro block inside
    obtain ⟨position, listed, rfl⟩ : ∃ position ∈ entry.blocks, context.blockId position = block :=
      List.mem_map.mp inside
    obtain ⟨home, known⟩ := owned.blocks.exists_block member listed
    exact ⟨_, (context.contents_blocks position).trans (congrArg (Option.map _) known)⟩
  have instructions : context.contents.instructionsIn (entry.body context.id).blocks =
      context.instructionsOf entry := by
    show (entry.blocks.map _).flatMap _ = _
    rw [List.flatMap_map]
    refine List.flatMap_congr fun block _ => ?_
    rw [context.contents_blocks block]
    cases context.block? block with
    | none => rfl
    | some home => simp [Block.tagged, Function.comp_def]
  have renamed := renaming_withoutFunction owned member
  rw [named] at renamed
  rw [Contents.deleteFunction_eq found (blocks.symm ▸ listed.1) live, Contents.withoutFunction,
    instructions, blocks, parameters]
  refine Prod.ext rfl ?_
  apply Contents.ext <;> try rfl
  · exact (Table.map_releaseAll ..).symm
  · exact (Table.map_releaseAll ..).symm
  · ext function : 1
    rw [Map.get?_mapValues, Map.get?_erase, contents_bodies, contents_bodies, functionId]
    by_cases same : function = entry.self
    · have gone : (context.withoutFunction entry).function? entry.self = none := by
        rw [← Option.not_isSome_iff_eq_none, isSome_function?, Owned.isFunction_withoutFunction]
        exact fun live => live.2 rfl
      rw [if_pos same, same, gone]
      rfl
    · rw [if_neg same, function?_withoutFunction same, Option.map_map, Option.map_map]
      exact congrArg (Option.map · _) (funext fun other => (body_forgetFunction _ other).symm)
  · have handles : ∀ entries : List FunctionEntry,
        (entries.map fun entry => context.functionId entry.self) =
          (entries.map fun entry => entry.self).map context.functionId :=
      fun entries => (List.map_map ..).symm
    show (context.functions.map fun entry => context.functionId entry.self).filter _ =
      (context.withoutFunction entry).functions.map fun entry => context.functionId entry.self
    rw [handles, handles, self_withoutFunction, List.filter_map]
    congr 2
    funext other
    simp [functionId]
  · rw [renamed.contents_names distinct rfl]
    exact namesUnder_forgetName name

end Context

/-! ### In an arena -/

namespace Arena

variable {arena : Arena} {id : ContextId} {before : Contents}

theorem contents_eq_ok : arena.contents id = .ok before ↔ arena.contents? id = some before := by
  unfold contents
  cases arena.contents? id with
  | none => simp
  | some contents => simp

theorem contents?_put (live : arena.contents? id = some before) (changed : Contents)
    (other : ContextId) : (arena.put id.index changed).contents? other =
      if other = id then some changed else arena.contents? other := by
  unfold contents? at live ⊢
  rw [put, Array.getElem?_modify]
  cases found : arena.slots[id.index]? with
  | none => simp [found] at live
  | some slot =>
      have generation : slot.generation = id.generation := by
        by_contra apart
        simp [found, apart] at live
      by_cases same : other = id
      · simp [same, found, generation]
      · rw [if_neg same]
        by_cases slotSame : id.index = other.index
        · -- The slot is shared, so the generations differ.
          have apart : slot.generation ≠ other.generation := by
            intro equal
            apply same
            cases other
            cases id
            simp_all
          simp [← slotSame, found, apart]
        · rw [if_neg slotSame]

theorem contents_put (live : arena.contents id = .ok before) (changed : Contents) :
    (arena.put id.index changed).contents id = .ok changed :=
  contents_eq_ok.mpr ((contents?_put (contents_eq_ok.mp live) changed id).trans (if_pos rfl))

theorem put_put (index : Nat) (first second : Contents) :
    (arena.put index first).put index second = arena.put index second := by
  rw [put, put, put, Table.array_modify_modify]
  rfl

/-- A value that is looked up behind a write to other stores is still there. -/
theorem alterValue_put (value : ValueId) (after : Contents) (change : Value → Value) {entry : Value}
    (live : arena.contents value.context = .ok before)
    (found : after.values.get? value.index = some entry) :
    alterValue value change (arena.put value.context.index after) =
      (.ok (), arena.put value.context.index
        { after with values := after.values.modify value.index change }) := by
  have later := contents_put live after
  have looked : (arena.put value.context.index after).value value = .ok entry := by
    unfold Arena.value
    rw [later, ok_bind, found]
    rfl
  have read : InPlace.read (fun arena => arena.value value) (arena.put value.context.index after) =
      (.ok entry, arena.put value.context.index after) := congrArg (·, _) looked
  refine (bind_of_ok read).trans ?_
  unfold within
  rw [later]
  exact congrArg (Prod.mk _) (put_put _ _ _)

end Arena

namespace Context

variable {context : Context} {function : ValueRef}

/-- Only what a change does to the entry that is found counts. -/
theorem updateFunction_congr (owned : context.FunctionsOwned) {entry : FunctionEntry}
    {first second : FunctionEntry → FunctionEntry}
    (found : context.function? function = some entry) (same : first entry = second entry) :
    context.updateFunction function first = context.updateFunction function second := by
  obtain ⟨member, self⟩ := mem_of_function? found
  rw [updateFunction, updateFunction]
  congr 1
  refine List.map_congr_left fun other otherMember => ?_
  by_cases here : other.self = function
  · rw [if_pos here, if_pos here, owned.entry_unique otherMember member (here.trans self.symm),
      same]
  · rw [if_neg here, if_neg here]

theorem updateFunction_unchanged :
    (context.updateFunction function fun entry => entry) = context := by
  simp [updateFunction]

theorem parameterPlace_home {value : ValueId} {owner : FunctionId} {position : Nat}
    (found : context.parameterPlace value = .ok (owner, position)) :
    ∃ function, owner = context.functionId function := by
  unfold parameterPlace at found
  obtain ⟨⟨type, kind, name⟩, _, done⟩ := bind_eq_ok.mp found
  cases kind with
  | parameter function position => exact ⟨function, (Prod.mk.inj (pure_eq_ok.mp done)).1.symm⟩
  | _ => exact (throw_eq_ok.mp done).elim

end Context

namespace Store.Holds

variable {store : Store} {context : Context} (holds : store.Holds context)

include holds

theorem setModuleName (name : String) :
    (Arena.within context.id (.write fun home => { home with moduleName := name })).Completes
      ((), { context with moduleName := name }) store context := by
  apply holds.within
  · rfl
  · rfl

theorem declare (owned : context.FunctionsOwned) (distinct : context.DistinctNames) (name : String)
    (signature : TypeId) : (Arena.declare context.id name signature).Realizes
      (context.declare store.settings name signature) store context := by
  apply realizes_read (holds.typeIn signature)
  intro shape known
  obtain ⟨tag, signature⟩ := signature
  obtain rfl : tag = context.id := (Context.resolveType_eq_ok.mp known).1
  cases shape with
  | function result parameters variadic =>
      show InPlace.Realizes (Arena.within context.id (Contents.declare name
        (context.typeId signature) (parameters.map context.typeId) store.settings.convention.code))
        (if (context.functionNamed? name).isSome then throw (.duplicateName name)
          else pure (context.functionId context.values.size,
            context.withFunction store.settings.convention.code name signature parameters)) store
        context
      cases found : context.functionNamed? name with
      | some holder =>
          have proper := (Context.functionName?_of_functionNamed? found).1
          have taken : name ≠ "" ∧ (context.contents.names.get? name).isSome :=
            ⟨proper, by rw [context.contents_names, found]; rfl⟩
          refine holds.within_refused ?_
          show (if name ≠ "" ∧ (context.contents.names.get? name).isSome then _ else _ :
            InPlace Contents FunctionId) context.contents = _
          rw [if_pos taken]
          rfl
      | none =>
          have written := Context.contents_declare owned distinct found
            store.settings.convention.code signature parameters
          have same : (context.withFunction store.settings.convention.code name signature
              parameters).id = context.id := rfl
          exact (holds.within same written).realizes
  | _ => exact realizes_throw (congrArg _ (holds.typeExpectation rfl))

theorem rename (owned : context.Owned) (distinct : context.DistinctNames) (value : ValueRef)
    (name : String) : (Arena.rename (context.valueId value) name).Realizes
      (context.rename (context.valueId value) name) store context := by
  apply realizes_read (holds.value rfl)
  intro entry found
  have known : context.value? value = some entry := (Context.resolveValue_eq_ok.mp found).2
  have stored : context.contents.values.get? value = some (entry.tagged context.id) := by
    rw [context.contents_values, known]
    rfl
  have kind : (entry.tagged context.id).kind = .function ↔ entry.kind = .function :=
    ValueKind.tagged_eq_function
  have written : store.arena.put context.id.index { context.contents with
        values := context.contents.values.modify value fun entry => { entry with name := name }
        names := (context.withName value name).contents.names } =
      (store.put context.id.index (context.withName value name)).arena := by
    rw [Context.contents_withName, arena_put]
  show InPlace.Realizes (if (entry.tagged context.id).kind = .function then _ else _)
    (if entry.kind = .function ∧ (context.functionNamed? name).any (fun holder => holder ≠ value)
      then throw (.duplicateName name) else pure ((), context.withName value name)) store context
  simp only [kind]
  by_cases isFunction : entry.kind = .function
  · have live : context.IsFunction value := by
      refine (owned.functions.values value).mpr ⟨entry.type, ?_⟩
      rw [← isFunction]
      exact .of_value? known
    rw [if_pos isFunction]
    by_cases taken : (context.functionNamed? name).any fun holder => holder ≠ value
    · rw [if_pos ⟨isFunction, taken⟩]
      refine bind_of_error (holds.within_refused ?_)
      show (if name ≠ "" ∧ (context.contents.names.get? name).any
        (fun holder => holder ≠ context.functionId value) then _ else _ :
          InPlace Contents Unit) context.contents = _
      rw [if_pos (Context.names_taken.mpr taken)]
      rfl
    · rw [if_neg fun both => taken both.2]
      have free : ∀ holder, context.functionNamed? name = some holder → holder = value := by
        intro holder held
        simpa [held] using taken
      let renamed : Contents :=
        { context.contents with names := (context.withName value name).contents.names }
      have recorded := Context.contents_renameFunction distinct known live free
      have first : Arena.within context.id (Contents.renameFunction (context.functionId value)
          entry.name name) store.arena = (.ok (), store.arena.put context.id.index renamed) := by
        unfold Arena.within
        rw [holds.contents]
        show ((Contents.renameFunction _ _ _ context.contents).1,
          store.arena.put _ (Contents.renameFunction _ _ _ context.contents).2) = _
        rw [recorded]
      refine (bind_of_ok first).trans ((Arena.alterValue_put (context.valueId value) renamed _
        holds.contents stored).trans ?_)
      exact congrArg (Prod.mk _) written
  · rw [if_neg isFunction, if_neg fun both => isFunction both.1]
    have gone : ¬ context.IsFunction value := by
      intro live
      obtain ⟨type, held⟩ := (owned.functions.values value).mp live
      exact isFunction ((Context.Holds.of_value? known).unique held).2
    have names : (context.withName value name).contents.names = context.contents.names :=
      congrArg (Context.namesUnder context.id)
        (distinct.functionNamed?_congr (Context.functionName?_withName_of_not gone))
    have unwritten : store.arena = store.arena.put context.id.index context.contents := by
      rw [arena_put, put_self holds]
    rw [names] at written
    show Arena.alterValue (context.valueId value) _ store.arena = _
    rw [unwritten]
    refine (Arena.alterValue_put (context.valueId value) _ _ holds.contents stored).trans ?_
    exact congrArg (Prod.mk _) written

/-! ### Blocks and attachments in place -/

theorem appendNamed {function : ValueRef} (live : context.IsFunction function) (name : String) :
    (Arena.appendNamed (context.functionId function) name).Completes
      (context.blockId context.blocks.size, context.withBlock function name) store context := by
  let pushed : Context := { context with blocks := context.blocks.push ⟨function, name, []⟩ }
  have first : (Arena.within context.id (.update fun home =>
      home.pushBlock ⟨context.functionId function, name, []⟩)).Completes
      (context.blockId context.blocks.size, pushed) store context := by
    refine holds.within rfl ?_
    exact congrArg (fun result : BlockId × Contents => (Except.ok result.1, result.2))
      (context.contents_pushBlock ⟨function, name, []⟩)
  have second : (Arena.alterBody (context.functionId function) fun body =>
      { body with blocks := body.blocks ++ [context.blockId context.blocks.size] }.edited).Completes
      ((), pushed.updateFunction function fun entry =>
        { entry with blocks := entry.blocks ++ [context.blocks.size] }.edited)
      (store.put context.id.index pushed) pushed := by
    have holdsPushed : (store.put context.id.index pushed).Holds pushed := holds.put rfl
    apply holdsPushed.alterBody_completes _ _ live
    · exact fun _ => rfl
    · intro entry
      simp [FunctionEntry.body, FunctionEntry.edited, Arena.Body.edited, pushed, Context.blockId]
  exact first.bind (second.map fun _ => context.blockId context.blocks.size)

theorem appendBlock (function : ValueRef) (name : String) :
    (Arena.appendBlock (context.functionId function) name).Realizes
      (context.appendBlock (context.functionId function) name) store context := by
  apply realizes_read (holds.body rfl)
  intro entry found
  have lookup : context.function? function = some entry :=
    (Context.resolveFunction_eq_ok.mp found).2
  have taken : ((entry.body context.id).blocks.filterMap fun block =>
      ((store.arena.block block).toOption).map (·.name)) =
      entry.blocks.filterMap fun block => (context.block? block).map (·.name) := by
    show (entry.blocks.map context.blockId).filterMap _ = _
    rw [List.filterMap_map]
    refine List.filterMap_congr fun block _ => ?_
    show ((store.arena.block (context.blockId block)).toOption).map _ = _
    rw [holds.block rfl]
    simp only [Context.resolveBlock, Context.blockId, ne_eq, not_true_eq_false, if_false]
    cases context.block? block <;> rfl
  apply realizes_look
  rw [taken]
  exact (holds.appendNamed ⟨entry, Context.mem_of_function? lookup⟩ _).realizes

theorem editFunction {change : FunctionEntry → FunctionEntry} {viewed : Arena.Body → Arena.Body}
    (self : ∀ entry, (change entry).self = entry.self)
    (same : ∀ entry, (change entry).edited.body context.id = viewed (entry.body context.id))
    (function : ValueRef) : (Arena.alterBody (context.functionId function) viewed).Realizes
      (context.editFunction (context.functionId function) change) store context := by
  have edited : ∀ entry, (change entry).edited.self = entry.self := self
  exact holds.alterBody edited same rfl

theorem setConvention (accepts : UInt32 → Bool) (engine : String) (function : ValueRef)
    (code : UInt32) :
    (Arena.setConvention accepts engine (context.functionId function) code).Realizes
      (context.setConvention accepts engine (context.functionId function) code) store context := by
  apply realizes_read (holds.body rfl)
  intro _ _
  apply realizes_ite
  · intro _
    apply holds.editFunction
    · exact fun _ => rfl
    · exact fun _ => rfl
  · intro _
    exact realizes_refuse _

theorem setPersonality (function : ValueRef) (personality : FunctionId) :
    (Arena.setPersonality (context.functionId function) personality).Realizes
      (context.setPersonality (context.functionId function) personality) store context := by
  show InPlace.Realizes (if personality.context ≠ context.id then _ else _) _ _ _
  by_cases home : personality.context = context.id
  · rw [if_neg (not_not_intro home)]
    apply realizes_read (holds.body home)
    intro _ _
    obtain ⟨_, personality⟩ := personality
    obtain rfl := home
    apply holds.editFunction
    · exact fun _ => rfl
    · exact fun _ => rfl
  · rw [if_pos home, Context.setPersonality, Context.resolveFunction, if_pos home]
    exact realizes_refuse _

theorem clearPersonality (function : ValueRef) :
    (Arena.clearPersonality (context.functionId function)).Realizes
      (context.clearPersonality (context.functionId function)) store context := by
  apply holds.editFunction
  · exact fun _ => rfl
  · exact fun _ => rfl

theorem setCollector (function : ValueRef) (strategy : String) :
    (Arena.setCollector (context.functionId function) strategy).Realizes
      (context.setCollector (context.functionId function) strategy) store context := by
  apply holds.editFunction
  · exact fun _ => rfl
  · exact fun _ => rfl

theorem addAttribute (function : ValueRef) (site : Site) (value : Attribute) :
    (Arena.addAttribute (context.functionId function) site value).Realizes
      (context.addAttribute (context.functionId function) site value) store context := by
  apply realizes_read (holds.requireSite rfl site)
  intro _ _
  apply holds.editFunction
  · exact fun _ => rfl
  · exact fun _ => rfl

/-- Where there is nothing to remove, the body is written as it was. -/
theorem removeAttribute (owned : context.FunctionsOwned) (function : ValueRef) (site : Site)
    (key : AttributeKey) :
    (Arena.removeAttribute (context.functionId function) site key).Realizes
      (context.removeAttribute (context.functionId function) site key) store context := by
  apply realizes_read (holds.requireSite rfl site)
  intro entry found
  have lookup := (Context.resolveSite_ok found).2
  have known : context.resolveFunction (context.functionId function) = .ok entry :=
    Context.resolveFunction_eq_ok.mpr ⟨rfl, lookup⟩
  let change (entry : FunctionEntry) : FunctionEntry :=
    if (entry.attributes.get? site key).isSome then
      { entry with attributes := entry.attributes.erase site key }.edited
    else entry
  have written : (Arena.alterBody (context.functionId function)
      (Arena.Body.withoutAttribute site key)).Completes
      ((), context.updateFunction function change) store context := by
    apply holds.alterBody_completes _ _ ⟨entry, Context.mem_of_function? lookup⟩
    · intro entry
      simp only [change]
      split <;> rfl
    · intro entry
      by_cases has : (entry.attributes.get? site key).isSome
      · have there : ((entry.body context.id).attributes.get? site key).isSome := has
        simp only [change, Arena.Body.withoutAttribute, if_pos has, if_pos there]
        rfl
      · have missing : ¬ ((entry.body context.id).attributes.get? site key).isSome := has
        simp only [change, Arena.Body.withoutAttribute, if_neg has, if_neg missing]
  by_cases has : (entry.attributes.get? site key).isSome
  · have same : context.updateFunction function change = context.updateFunction function
        fun entry => { entry with attributes := entry.attributes.erase site key }.edited :=
      Context.updateFunction_congr owned lookup (if_pos has)
    rw [if_pos has, Context.editFunction, known]
    rw [same] at written
    exact written.realizes
  · have same : context.updateFunction function change = context :=
      (Context.updateFunction_congr owned lookup (if_neg has)).trans
        Context.updateFunction_unchanged
    rw [if_neg has]
    rw [same] at written
    exact written.realizes

theorem setAlignment (value : ValueRef) (align : UInt32) :
    (Arena.setAlignment (context.valueId value) align).Realizes
      (context.setAlignment (context.valueId value) align) store context := by
  apply realizes_check (holds.parameterPlace rfl)
  rintro ⟨function, position⟩ found
  obtain ⟨function, rfl⟩ := Context.parameterPlace_home found
  apply realizes_ite
  · intro _
    exact holds.addAttribute function (.parameter position) _
  · intro _
    exact realizes_refuse _

/-! ### Deletion in place -/

theorem deleteFunction (owned : context.Owned) (distinct : context.DistinctNames)
    (function : ValueRef) : (Arena.deleteFunction (context.functionId function)).Realizes
      (context.deleteFunction (context.functionId function)) store context := by
  cases resolved : context.resolveFunction (context.functionId function) with
  | error fault =>
      have unnamed : store.arena.functionName (context.functionId function) = .error fault := by
        rw [holds.functionName rfl, Context.functionName, resolved]
        rfl
      rw [Context.deleteFunction, resolved]
      exact read_bind_of_error unnamed
  | ok entry =>
      obtain ⟨member, rfl⟩ := Context.mem_of_function? (Context.resolveFunction_eq_ok.mp resolved).2
      obtain ⟨name, named⟩ := Context.functionName_succeeds owned ⟨entry, member, rfl⟩
      have deleted : context.deleteFunction (context.functionId entry.self) =
          .ok ((), context.withoutFunction entry) := by
        rw [Context.deleteFunction, resolved]
        rfl
      have same : (context.withoutFunction entry).id = context.id := rfl
      have written := Context.contents_deleteFunction owned distinct member
        (Context.functionName_eq_ok.mp named).2
      rw [deleted]
      refine (Completes.read ((holds.functionName rfl).trans named) ?_).realizes
      exact holds.within same written

end Store.Holds

end TypedIR
