import TypedIR.Proofs.Description.Construction
import TypedIR.Proofs.Description.Mirror

/-!
Contract: how a draft goes on while nothing is taken back.

Owns:
- growth of a context by types and values, its functions as they were;
- what each change of that kind, and each change of one function, leaves as it was;
- values that carry a type in full, and that they keep it.
-/

namespace TypedIR

open Description (Retyped)

/-! ### Values with their types in full -/

/-- A value of the context whose type has the tree. -/
def Context.Carries (context : Context) (value : ValueId) (tree : TypeTree) : Prop :=
  ∃ type, context.Own value type ∧ context.tree? type = some tree

namespace Context.Carries

variable {settings : Settings} {before after context : Context} {value : ValueId} {tree : TypeTree}

theorem onward (carries : before.Carries value tree) (goes : before.Onward after) :
    after.Carries value tree := by
  obtain ⟨type, ⟨home, entry, found, typed⟩, known⟩ := carries
  exact ⟨type, ⟨home.trans goes.id.symm, entry, goes.values _ _ found, typed⟩,
    goes.trees _ _ known⟩

/-- The type of a value is the one with the tree that the value carries. -/
theorem own_iff (carries : context.Carries value tree) (regular : context.Regular settings)
    {type : TypeRef} : context.Own value type ↔ context.tree? type = some tree := by
  obtain ⟨own, ⟨home, entry, found, typed⟩, known⟩ := carries
  constructor
  · rintro ⟨_, other, otherFound, otherTyped⟩
    obtain rfl := Option.some.inj (found.symm.trans otherFound)
    rw [← otherTyped, typed, known]
  · intro otherKnown
    have same := regular.canonical.tree?_injective regular.coherent.grounded known otherKnown
    exact ⟨home, entry, found, typed.trans same⟩

theorem of_tree {type : TypeRef} {entry : Value} (home : value.context = context.id)
    (found : context.value? value.index = some entry) (typed : entry.type = type)
    (known : context.tree? type = some tree) : context.Carries value tree :=
  ⟨type, ⟨home, entry, found, typed⟩, known⟩

end Context.Carries

/-! ### Growth by values and types -/

/-- Values and types only come, and all functions are as they were. -/
structure Context.Grown (before after : Context) : Prop extends Context.Onward before after where
  functions : after.functions = before.functions

namespace Context

variable {settings : Settings} {context before between after : Context}

theorem functionId_congr (same : after.id = before.id) (function : ValueRef) :
    after.functionId function = before.functionId function := by
  rw [functionId, same, functionId]

theorem Grown.refl (context : Context) : context.Grown context := ⟨.refl context, rfl⟩

theorem Grown.trans (first : before.Grown between) (second : between.Grown after) :
    before.Grown after :=
  ⟨first.toOnward.trans second.toOnward, second.functions.trans first.functions⟩

theorem Grown.function? (grown : before.Grown after) : after.function? = before.function? := by
  funext function
  rw [Context.function?, Context.function?, grown.functions]

theorem grown_of_retyped (retyped : Retyped before after)
    (trees : ∀ type tree, before.tree? type = some tree → after.tree? type = some tree) :
    before.Grown after := by
  obtain ⟨types, rfl⟩ : ∃ types, after = { before with types := types } := ⟨_, retyped⟩
  exact ⟨⟨rfl, rfl, rfl, rfl, rfl, fun _ _ found => found, trees⟩, rfl⟩

theorem block?_of_retyped (retyped : Retyped before after) : after.block? = before.block? := by
  rw [retyped]
  rfl

theorem value?_pushValue {entry : Value} :
    (context.pushValue entry).2.value? context.values.size = some entry :=
  (Table.get?_push _ _ _).trans (if_pos rfl)

theorem value?_pushValue_of_some {entry other : Value} {value : ValueRef}
    (found : context.value? value = some other) :
    (context.pushValue entry).2.value? value = some other :=
  (Table.get?_push _ _ _).trans
    ((if_neg (Nat.ne_of_lt (Table.lt_size_of_get? found))).trans found)

theorem grown_pushValue (drafted : context.Drafted settings) {entry : Value} :
    context.Grown (context.pushValue entry).2 := by
  have names : (context.pushValue entry).2.functionName? = context.functionName? :=
    funext fun _ => functionName?_pushValue drafted.regular.coherent.owned.functions Iff.rfl rfl
  exact ⟨⟨rfl, rfl, rfl, names, drafted.distinct.functionNamed?_congr names,
    fun _ _ => value?_pushValue_of_some, fun _ _ known => known⟩, rfl⟩

theorem interned_of_eq {shape : TypeShape} {type : TypeId} (formed : context.Forms settings shape)
    (equal : context.intern shape = (type, after)) : Interned settings context shape type after := by
  have interned := intern_interned formed
  rwa [equal] at interned

theorem grown_of_interned {shape : TypeShape} {type : TypeId} (drafted : before.Drafted settings)
    (interned : Interned settings before shape type after) : before.Grown after :=
  grown_of_retyped interned.frame fun _ _ known =>
    drafted.regular.tree?_mono interned.changes known

theorem Drafted.interned {shape : TypeShape} {type : TypeId} (drafted : before.Drafted settings)
    (interned : Interned settings before shape type after) : after.Drafted settings :=
  drafted.changes (fun _ equal => by cases equal) interned.changes

/-- An edit has no verdict to take back where nobody has given one. -/
theorem edited_of_unverified {entry : FunctionEntry} (unverified : entry.state = .unverified) :
    entry.edited = entry := by
  unfold FunctionEntry.edited
  rw [← unverified]

theorem Drafted.updateFunction_edited (drafted : context.Drafted settings) {function : ValueRef} :
    (context.updateFunction function FunctionEntry.edited).functions = context.functions := by
  refine (List.map_congr_left fun entry member => ?_).trans (List.map_id _)
  rw [edited_of_unverified (drafted.unverified entry member), ite_self]
  rfl

theorem grown_appendInstruction (drafted : context.Drafted settings) {function : ValueRef}
    {block : BlockRef} {type : TypeRef} {code : Instruction} {name : String} :
    context.Grown (context.appendInstruction function block type code name).2 := by
  have functions : (context.appendInstruction function block type code name).2.functions =
      context.functions := drafted.updateFunction_edited
  have names : (context.appendInstruction function block type code name).2.functionName? =
      context.functionName? := by
    funext other
    refine functionName?_pushValue drafted.regular.coherent.owned.functions ?_ rfl
    rw [IsFunction, IsFunction, functions]
  exact ⟨⟨rfl, rfl, by rw [functions], names, drafted.distinct.functionNamed?_congr names,
    fun _ _ => value?_pushValue_of_some, fun _ _ known => known⟩, functions⟩

/-! ### Changes of one function -/

/-- Changes of personality, blocks and verdict. -/
theorem onward_updateFunction (drafted : context.Drafted settings) {function : ValueRef}
    {change : FunctionEntry → FunctionEntry} (bare : ∀ entry, (change entry).bare = entry.bare)
    (same : after = { context.updateFunction function change with blocks := after.blocks }) :
    context.Onward after := by
  obtain ⟨blocks, rfl⟩ : ∃ blocks,
    after = { context.updateFunction function change with blocks := blocks } := ⟨_, same⟩
  have self : ∀ entry, (change entry).self = entry.self := by
    intro entry
    show (change entry).bare.self = entry.bare.self
    rw [bare entry]
  have names : ({ context.updateFunction function change with blocks := blocks } :
      Context).functionName? = context.functionName? := by
    refine functionName?_map rfl (fun entry => ?_) rfl
    split
    · exact self entry
    · rfl
  refine ⟨rfl, rfl, ?_, names, drafted.distinct.functionNamed?_congr names,
    fun _ _ found => found, fun _ _ known => known⟩
  show (context.functions.map _).map _ = _
  rw [List.map_map]
  refine List.map_congr_left fun entry _ => ?_
  show (if entry.self = function then change entry else entry).bare = _
  split
  · exact bare entry
  · rfl

end Context

end TypedIR
