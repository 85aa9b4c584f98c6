import TypedIR.Proofs.Ownership.Names
import TypedIR.Proofs.Workspace.Commands

/-!
Contract: the functions of a module under their names, in every reachable workspace.

Owns:
- distinct names in all live contexts, for every engine;
- when a declaration and a rename are refused because a name is taken;
- that a name which its holder gave up finds nothing.
-/

namespace TypedIR

namespace Context

variable {settings : Settings} {context after : Context} {name : String}

/-- The function is live and has the name at present. -/
def HasFunction (context : Context) (name : String) (function : FunctionId) : Prop :=
  context.Live (.function function) ∧ context.functionName function = .ok name

theorem hasFunction_iff {function : FunctionId} :
    context.HasFunction name function ↔
      function.context = context.id ∧ context.functionName? function.index = some name := by
  refine ⟨fun has => functionName_eq_ok.mp has.2, fun named => ⟨?_, functionName_eq_ok.mpr named⟩⟩
  obtain ⟨home, named⟩ := named
  have live := (functionName?_eq_some.mp named).1
  exact ⟨home, Option.isSome_iff_exists.mp (isSome_function?.mpr live)⟩

/-- Looking up by name finds the function that has the name. -/
theorem DistinctNames.hasFunction_iff (distinct : context.DistinctNames) (proper : name ≠ "")
    {function : FunctionId} :
    (context.functionNamed? name).map context.functionId = some function ↔
      context.HasFunction name function := by
  rw [Context.hasFunction_iff, Option.map_eq_some_iff]
  constructor
  · rintro ⟨holder, found, rfl⟩
    exact ⟨rfl, (distinct.functionNamed?_eq_some.mp found).2⟩
  · rintro ⟨home, named⟩
    refine ⟨function.index, distinct.functionNamed?_eq_some.mpr ⟨proper, named⟩, ?_⟩
    rw [functionId, ← home]

/-- What is found by name is a live function that has the name. -/
theorem functionNamed?_isSome :
    (context.functionNamed? name).isSome ↔
      name ≠ "" ∧ ∃ function, context.HasFunction name function := by
  constructor
  · intro taken
    obtain ⟨holder, found⟩ := Option.isSome_iff_exists.mp taken
    obtain ⟨proper, named⟩ := functionName?_of_functionNamed? found
    exact ⟨proper, context.functionId holder, hasFunction_iff.mpr ⟨rfl, named⟩⟩
  · rintro ⟨proper, function, has⟩
    rw [← Option.ne_none_iff_isSome, ne_eq, functionNamed?_eq_none]
    rintro (anonymous | unused)
    · exact proper anonymous
    · exact unused function.index (hasFunction_iff.mp has).2

/-! ### Refused names -/

theorem resolveType_ne_duplicate (type : TypeId) (taken : String) :
    context.resolveType type ≠ .error (.duplicateName taken) := by
  unfold resolveType
  by_cases foreign : type.context ≠ context.id
  · rw [if_pos foreign]
    rintro ⟨⟩
  · rw [if_neg foreign]
    cases context.shape? type.index <;> rintro ⟨⟩

/-- A declaration finds its name taken once its signature is one. -/
theorem declare_duplicate {signature : TypeId} :
    context.declare settings name signature = .error (.duplicateName name) ↔
      (∃ result parameters variadic,
        context.resolveType signature = .ok (.function result parameters variadic)) ∧
      (context.functionNamed? name).isSome := by
  unfold declare
  cases resolved : context.resolveType signature with
  | error fault =>
      refine iff_of_false (fun refused => ?_) fun ⟨⟨_, _, _, other⟩, _⟩ => by cases other
      obtain rfl : fault = .duplicateName name := Except.error.inj refused
      exact resolveType_ne_duplicate signature name resolved
  | ok shape =>
      cases shape with
      | function result parameters variadic =>
          by_cases taken : (context.functionNamed? name).isSome
          · simp [taken, bind, Except.bind, throw, throwThe, MonadExceptOf.throw]
          · simp [taken, bind, Except.bind, pure, Except.pure]
      | _ =>
          exact iff_of_false (fun refused => by cases refused) fun ⟨⟨_, _, _, other⟩, _⟩ => by
            cases other

/-- A function may take any name but that of another one. -/
theorem rename_duplicate (owned : context.FunctionsOwned) {function : FunctionId}
    (live : context.Live (.function function)) :
    context.rename function.toValue name = .error (.duplicateName name) ↔
      ∃ holder, context.functionNamed? name = some holder ∧ holder ≠ function.index := by
  obtain ⟨home, entry, found⟩ := live
  obtain ⟨member, self⟩ := mem_of_function? found
  obtain ⟨old, held⟩ := owned.signed entry member
  rw [self] at held
  have resolved : context.resolveValue function.toValue = .ok ⟨entry.signature, .function, old⟩ :=
    resolveValue_eq_ok.mpr ⟨home, held⟩
  unfold rename
  rw [resolved]
  cases named : context.functionNamed? name with
  | none => simp [bind, Except.bind, pure, Except.pure]
  | some holder =>
      by_cases own : holder = function.index
      · simp [own, FunctionId.toValue, bind, Except.bind, pure, Except.pure]
      · simp [own, FunctionId.toValue, bind, Except.bind, throw, throwThe, MonadExceptOf.throw]

/-- An accepted rename of a live function changes its name. -/
theorem rename_renaming (owned : context.FunctionsOwned) {function : FunctionId}
    (live : context.Live (.function function)) {result : Unit}
    (done : context.rename function.toValue name = .ok (result, after)) :
    Renaming context after function.index (context.functionName? function.index) (some name) := by
  unfold rename at done
  simp only [bind_eq_ok, resolveValue_eq_ok, ite_throw_bind_eq_ok, pure_eq_ok] at done
  obtain ⟨entry, ⟨home, found⟩, free, equal⟩ := done
  obtain ⟨_, rfl⟩ := Prod.mk.inj equal
  have isFunction : context.IsFunction function.index :=
    isSome_function?.mp (Option.isSome_iff_exists.mpr live.2)
  obtain ⟨type, held⟩ := (owned.values function.index).mp isFunction
  have kind : entry.kind = .function := ((Holds.of_value? found).unique held).2
  rw [functionName?_eq_some.mpr ⟨isFunction, entry, found, rfl⟩]
  refine renaming_withName found isFunction fun holder named => ?_
  refine Decidable.byContradiction fun (other : holder ≠ function.index) => free ⟨kind, ?_⟩
  simp [named, FunctionId.toValue, other]

/-- A name that its holder gave up finds nothing. -/
theorem DistinctNames.freed (distinct : context.DistinctNames) {function : ValueRef}
    {new : Option String} (renamed : context.Renaming after function (some name) new)
    (other : new ≠ some name) : after.functionNamed? name = none := by
  rw [functionNamed?_eq_none]
  by_cases anonymous : name = ""
  · exact .inl anonymous
  · refine .inr fun holder named => ?_
    rw [renamed.names] at named
    by_cases same : holder = function
    · rw [same, Function.update_self] at named
      exact other named
    · rw [Function.update_of_ne same] at named
      exact same (distinct holder function name anonymous named renamed.had)

end Context

namespace Workspace

variable {σ : Type} {engine : Engine σ} {initial : σ} {workspace : Workspace σ} {id : ContextId}
  {context : Context}

theorem keptBy_distinctNames (engine : Engine σ) (settings : Settings) :
    KeptBy engine settings (fun _ effect => effect.IsEdit)
      fun context => context.Owned ∧ context.DistinctNames :=
  keptBy_of_step engine
    (fun id native name =>
      ⟨Context.owned_empty id native name, Context.distinctNames_empty id native name⟩)
    fun ⟨owned, distinct⟩ change => ⟨owned.step change, distinct.step owned change⟩

theorem Reachable.distinctNames (reachable : Reachable engine initial workspace)
    (found : workspace.store.context? id = some context) : context.DistinctNames := by
  obtain ⟨settings, commands, rfl⟩ := reachable
  exact ((every_afterAll (keptBy_distinctNames engine settings) commands).contexts id context
    found).2.2

/-! ### Refusals and changes -/

/-- A declaration is refused for its name if its signature is one and the name is taken. -/
theorem declare_refused (found : workspace.store.context? id = some context)
    (sameId : context.id = id) (name : String) (signature : TypeId) :
    ((Command.edit (.declare id name signature)).run engine workspace).result =
        .error (.duplicateName name) ↔
      (∃ result parameters variadic,
        context.resolveType signature = .ok (.function result parameters variadic)) ∧
      (context.functionNamed? name).isSome := by
  by_cases home : signature.context = id
  · have passed : ((Edit.declare id name signature).operation workspace.store.settings).screen =
        .ok () := Operation.guarded_passes (Operation.requireHomeType_of_home home) rfl
    have declared := @Context.declare_duplicate workspace.store.settings context name signature
    show (Action.perform _ workspace).result = _ ↔ _
    rw [Action.perform_eq_error passed found, ← declared]
    show ((Operation.map _ _).effect context).1 = _ ↔ _
    rw [Operation.map_eq_error]
    rw [Operation.declare, Operation.guarded_effect, Operation.noted, Operation.reported_effect]
  · refine iff_of_false (fun refused => ?_) fun ⟨⟨_, _, _, resolved⟩, _⟩ => ?_
    · have foreign : ((Edit.declare id name signature).operation
          workspace.store.settings).screen = .error (.foreignType signature id) := by
        show (Operation.requireHomeType id (some signature) >>= fun _ => _) = _
        rw [Operation.requireHomeType, if_pos home]
        rfl
      change (Action.perform _ workspace).result = _ at refused
      unfold Action.perform at refused
      rw [foreign] at refused
      cases refused
    · exact home ((Context.resolveType_eq_ok.mp resolved).1.trans sameId)

/-- A rename of a live function is refused for its name if another function has it. -/
theorem rename_refused {function : FunctionId} {context : Context}
    (found : workspace.store.context? function.context = some context) (owned : context.Owned)
    (live : context.Live (.function function)) (name : String) :
    ((Command.edit (.rename function.toValue name)).run engine workspace).result =
        .error (.duplicateName name) ↔
      ∃ holder, context.functionNamed? name = some holder ∧ holder ≠ function.index := by
  rw [← Context.rename_duplicate owned.functions live]
  show (Action.perform _ workspace).result = _ ↔ _
  rw [Action.perform_eq_error rfl found]
  show ((Operation.map _ _).effect context).1 = _ ↔ _
  rw [Operation.map_eq_error]
  show ((Operation.reported _ _ _).effect context).1 = _ ↔ _
  rw [Operation.reported_effect]

/-- The context after an edit that succeeded. -/
theorem after_edit {edit : Edit} {answer : Answer}
    (done : ((Command.edit edit).run engine workspace).result = .ok answer)
    (home : (edit.operation workspace.store.settings).home = id)
    (found : workspace.store.context? id = some context) :
    ∃ changed, ((edit.operation workspace.store.settings).effect context).1 = .ok (answer, changed) ∧
      (workspace.after engine (.edit edit)).store.context? id = some changed := by
  subst home
  rcases Action.perform_cases (edit.operation workspace.store.settings) workspace with
    ⟨fault, refused, _⟩ | ⟨live, value, changed, lookup, applied, succeeded, equal⟩
  · cases refused.symm.trans done
  · obtain rfl := Option.some.inj (lookup.symm.trans found)
    obtain rfl := Except.ok.inj (succeeded.symm.trans done)
    refine ⟨changed, applied, ?_⟩
    show (Action.perform _ workspace).workspace.store.context? _ = _
    rw [equal, Store.context?_put found, if_pos rfl]

end Workspace

end TypedIR
