import TypedIR.Proofs.Arena.Ownership
import TypedIR.Proofs.Workspace.Names

/-!
Contract: the functions of a module under the names that are stored for them.

Owns:
- functions by the names in their own entries, next to what the names of a context say;
- the symbol table of a live context: what is found under a name and what is refused for
  a name speak of the live functions and their present names, in every reachable system
  and for every engine;
- a run that takes a name, loses it to a rename and takes it again.

A name is stored twice, and each operation writes both of them.
-/

namespace TypedIR

/-- The function is live, and its entry has the name. -/
def Arena.Contents.HasFunction (contents : Contents) (name : String) (function : FunctionId) :
    Prop :=
  (∃ body, contents.HasBody function body) ∧
    ∃ entry, contents.values.get? function.index = some entry ∧ entry.name = name

theorem Context.contents_hasFunction {context : Context} {name : String} {function : FunctionId} :
    context.contents.HasFunction name function ↔ context.HasFunction name function := by
  rw [Context.hasFunction_iff, functionName?_eq_some, ← isSome_function?]
  unfold Arena.Contents.HasFunction
  simp only [contents_hasBody, contents_values, Option.map_eq_some_iff]
  constructor
  · rintro ⟨⟨_, home, function, found, _⟩, _, ⟨entry, live, rfl⟩, named⟩
    exact ⟨home, Option.isSome_iff_exists.mpr ⟨function, found⟩, entry, live, named⟩
  · rintro ⟨home, isFunction, entry, live, named⟩
    obtain ⟨function, found⟩ := Option.isSome_iff_exists.mp isFunction
    exact ⟨⟨_, home, function, found, rfl⟩, _, ⟨entry, live, rfl⟩, named⟩

/-- The names are those of the functions, the empty one apart. -/
theorem Context.contents_named {context : Context} (distinct : context.DistinctNames)
    {name : String} {function : FunctionId} :
    context.contents.names.get? name = some function ↔
      name ≠ "" ∧ context.contents.HasFunction name function := by
  rw [contents_names, contents_hasFunction]
  by_cases anonymous : name = ""
  · subst anonymous
    exact iff_of_false (fun found => by cases found) fun named => named.1 rfl
  · rw [distinct.hasFunction_iff anonymous]
    exact (and_iff_right anonymous).symm

theorem Context.contents_signature {context : Context} {type : TypeRef} :
    (∃ result parameters variadic,
        context.contents.types[type]? = some (.function result parameters variadic)) ↔
      ∃ result parameters variadic,
        context.shape? type = some (.function result parameters variadic) := by
  rw [contents_types]
  constructor
  · rintro ⟨_, _, variadic, stored⟩
    obtain ⟨shape, known, same⟩ := Option.map_eq_some_iff.mp stored
    cases shape <;> cases same
    exact ⟨_, _, variadic, known⟩
  · rintro ⟨_, _, variadic, known⟩
    rw [known]
    exact ⟨_, _, variadic, rfl⟩

namespace System

variable {σ : Type} {engine : Arena.Engine σ} {initial : σ} {workspace : Workspace σ}
  {id : ContextId} {context : Context}

/-! ### Look-ups and commands -/

theorem functionNamed_found (found : workspace.store.context? id = some context) (name : String) :
    workspace.system.arena.functionNamed id name =
      .ok ((context.functionNamed? name).map context.functionId) := by
  unfold Arena.functionNamed
  rw [contents_found found]
  rfl

theorem inPlace_result (consistent : workspace.store.Consistent) (command : Command) :
    (command.inPlace engine workspace.system).1 =
      (command.run engine.onStores workspace).result :=
  congrArg Prod.fst (command.inPlace_follows engine.mirrors_onStores ⟨rfl, consistent⟩)

/-- What is found under a name after an edit that succeeded. -/
theorem functionNamed_after (consistent : workspace.store.Consistent) {edit : Edit}
    {answer : Answer} (done : ((Command.edit edit).inPlace engine workspace.system).1 = .ok answer)
    (home : (edit.operation workspace.store.settings).home = id)
    (found : workspace.store.context? id = some context) : ∃ changed,
      ((edit.operation workspace.store.settings).effect context).1 = .ok (answer, changed) ∧
        ∀ name, (after engine workspace.system (.edit edit)).arena.functionNamed id name =
          .ok ((changed.functionNamed? name).map changed.functionId) := by
  rw [inPlace_result consistent] at done
  obtain ⟨changed, applied, later⟩ := Workspace.after_edit done home found
  refine ⟨changed, applied, fun name => ?_⟩
  rw [after_system engine.mirrors_onStores ⟨rfl, consistent⟩]
  exact functionNamed_found later name

/-! ### The symbol table -/

/-- The table of the names of a live context. -/
structure SymbolTable (engine : Arena.Engine σ) (system : System σ) (id : ContextId)
    (contents : Arena.Contents) : Prop where
  /-- What is found under a name is the live function that has it. -/
  found : ∀ name, name ≠ "" → ∃ holder, system.arena.functionNamed id name = .ok holder ∧
    ∀ function, holder = some function ↔ contents.HasFunction name function
  unique : ∀ name, name ≠ "" → ∀ first second, contents.HasFunction name first →
    contents.HasFunction name second → first = second
  anonymous : system.arena.functionNamed id "" = .ok none
  /-- A deletion frees the name of the function. -/
  deleted : ∀ name function answer, contents.HasFunction name function →
    ((Command.edit (.deleteFunction function)).inPlace engine system).1 = .ok answer →
      (after engine system (.edit (.deleteFunction function))).arena.functionNamed id name =
        .ok none
  /-- A rename to another name frees the old one. -/
  renamed : ∀ name other function answer, other ≠ name → contents.HasFunction name function →
    ((Command.edit (.rename function.toValue other)).inPlace engine system).1 = .ok answer →
      (after engine system (.edit (.rename function.toValue other))).arena.functionNamed id name =
        .ok none
  /-- A declaration with a live signature of the context is refused for its name exactly if a
  function has it. -/
  declaration : ∀ name signature,
    ((Command.edit (.declare id name signature)).inPlace engine system).1 =
        .error (.duplicateName name) ↔
      (signature.context = id ∧ ∃ result parameters variadic,
        contents.types[signature.index]? = some (.function result parameters variadic)) ∧
      name ≠ "" ∧ ∃ function, contents.HasFunction name function
  /-- A rename of a live function is refused for its name exactly if another function has it. -/
  rename : ∀ name function body, contents.HasBody function body →
    (((Command.edit (.rename function.toValue name)).inPlace engine system).1 =
        .error (.duplicateName name) ↔
      name ≠ "" ∧ ∃ other, other ≠ function ∧ contents.HasFunction name other)

theorem symbol_table {system : System σ} (reachable : Reachable engine initial system)
    {contents : Arena.Contents} (live : system.arena.contents? id = some contents) :
    SymbolTable engine system id contents := by
  obtain ⟨workspace, context, _, rfl, every, found, rfl⟩ := reachable.live_workspace live
  obtain ⟨rfl, consistent⟩ := every _ _ found
  have distinct := consistent.distinct
  have owned := consistent.coherent.owned
  have holder : ∀ {name}, name ≠ "" → ∀ function,
      (context.functionNamed? name).map context.functionId = some function ↔
        context.contents.HasFunction name function := fun proper function =>
    (Context.contents_named distinct).trans (and_iff_right proper)
  refine ⟨?_, ?_, functionNamed_found found "", ?_, ?_, ?_, ?_⟩
  · intro name proper
    exact ⟨_, functionNamed_found found name, holder proper⟩
  · intro name proper first second firstHas secondHas
    have firstFound := (holder proper first).mpr firstHas
    exact Option.some.inj (firstFound.symm.trans ((holder proper second).mpr secondHas))
  · intro name function answer has done
    obtain ⟨home, named⟩ := Context.hasFunction_iff.mp (Context.contents_hasFunction.mp has)
    obtain ⟨changed, applied, after⟩ := functionNamed_after every done home found
    obtain ⟨_, deleted⟩ := Operation.reported_done applied
    obtain ⟨_, entry, lookup, rfl⟩ := Context.deleteFunction_done deleted
    obtain ⟨member, self⟩ := Context.mem_of_function? lookup
    have renamed := Context.renaming_withoutFunction owned member
    rw [self, named] at renamed
    rw [after, distinct.freed renamed (by simp)]
    rfl
  · intro name other function answer apart has done
    have has := Context.contents_hasFunction.mp has
    obtain ⟨home, named⟩ := Context.hasFunction_iff.mp has
    obtain ⟨changed, applied, after⟩ := functionNamed_after every done home found
    obtain ⟨_, accepted⟩ := Operation.reported_done applied
    have renamed := Context.rename_renaming owned.functions has.1 accepted
    rw [named] at renamed
    rw [after, distinct.freed renamed (by simpa using apart)]
    rfl
  · intro name signature
    rw [inPlace_result every, Workspace.declare_refused found rfl, Context.functionNamed?_isSome,
      Context.contents_signature]
    simp only [Context.resolveType_eq_ok, exists_and_left, Context.contents_hasFunction]
  · intro name function body live
    obtain ⟨home, entry, lookup, _⟩ := Context.contents_hasBody.mp live
    rw [inPlace_result every,
      Workspace.rename_refused (home ▸ found) owned ⟨home, entry, lookup⟩]
    constructor
    · rintro ⟨holder, named, other⟩
      obtain ⟨proper, has⟩ := Context.functionName?_of_functionNamed? named
      refine ⟨proper, context.functionId holder, ?_, ?_⟩
      · exact fun same => other (congrArg FunctionId.index same)
      · exact Context.contents_hasFunction.mpr (Context.hasFunction_iff.mpr ⟨rfl, has⟩)
    · rintro ⟨proper, other, apart, has⟩
      obtain ⟨index, named, rfl⟩ := Option.map_eq_some_iff.mp ((holder proper other).mpr has)
      refine ⟨index, named, fun same => apart ?_⟩
      rw [same, Context.functionId, ← home]

/-- The function declared first gives its name up, and the third one takes it. -/
def namesRun : List Command :=
  let context : ContextId := ⟨0, 0⟩
  [.createContext "names",
    .edit (.voidType context),
    .edit (.signatureType ⟨context, 0⟩ [] false),
    .edit (.declare context "f" ⟨context, 1⟩),
    .edit (.declare context "g" ⟨context, 1⟩),
    .edit (.rename ⟨context, 0⟩ "h"),
    .edit (.declare context "f" ⟨context, 1⟩),
    .edit (.rename ⟨context, 1⟩ "h")]

/-- After the run the third function has the name of the first and is found under it. The second
one has its own name, since the last rename is refused. -/
theorem namesRun_symbolTable :
    let system := afterAll .reference (start .standard .start) namesRun
    ∃ contents, system.arena.contents? ⟨0, 0⟩ = some contents ∧
      SymbolTable .reference system ⟨0, 0⟩ contents ∧
      system.arena.functionNamed ⟨0, 0⟩ "f" = .ok (some ⟨⟨0, 0⟩, 2⟩) ∧
      contents.HasFunction "f" ⟨⟨0, 0⟩, 2⟩ ∧ contents.HasFunction "g" ⟨⟨0, 0⟩, 1⟩ := by
  intro system
  have live : (system.arena.contents? ⟨0, 0⟩).isSome := by decide +kernel
  obtain ⟨contents, found⟩ := Option.isSome_iff_exists.mp live
  have table := symbol_table ⟨.standard, namesRun, rfl⟩ found
  have third : system.arena.functionNamed ⟨0, 0⟩ "f" = .ok (some ⟨⟨0, 0⟩, 2⟩) := by decide +kernel
  have second : system.arena.functionNamed ⟨0, 0⟩ "g" = .ok (some ⟨⟨0, 0⟩, 1⟩) := by decide +kernel
  obtain ⟨_, foundThird, thirdHas⟩ := table.found "f" (by decide)
  obtain ⟨_, foundSecond, secondHas⟩ := table.found "g" (by decide)
  refine ⟨contents, found, table, third, (thirdHas _).mp ?_, (secondHas _).mp ?_⟩
  · exact Except.ok.inj (foundThird.symm.trans third)
  · exact Except.ok.inj (foundSecond.symm.trans second)

end System

end TypedIR
