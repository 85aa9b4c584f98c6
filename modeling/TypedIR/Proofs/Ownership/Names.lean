import Mathlib.Logic.Function.Basic
import TypedIR.Proofs.Ownership.Typing

/-!
Contract: the names of functions, and looking a function up by its name.

Owns:
- the name of each function after each change of a context;
- the invariant that a name that is not empty belongs to one function at most, and
  what looking up by name finds under it;
- the same look-up as a map from names to functions, which declarations, renames and
  deletions write and nothing else does.

The functions are searched for a name whenever it is asked for. A stored map that is
written as `reindex` says would find the same functions at any time.
-/

namespace TypedIR

open Function (update update_self update_of_ne)

namespace Context

variable {settings : Settings} {effect : Effect} {context before after : Context}
  {function : ValueRef} {name : String}

/-! ### The name of a function -/

/-- The name of a function is that of its value. -/
theorem functionName?_of_isFunction (live : context.IsFunction function) :
    context.functionName? function = (context.value? function).map fun value => value.name := by
  obtain ⟨entry, found⟩ := Option.isSome_iff_exists.mp (isSome_function?.mpr live)
  obtain ⟨_, same⟩ := mem_of_function? found
  unfold functionName?
  rw [found]
  show (context.value? entry.self >>= fun value => some value.name) = _
  rw [same]
  cases context.value? function <;> rfl

theorem functionName?_eq_some :
    context.functionName? function = some name ↔ context.IsFunction function ∧
      ∃ entry, context.value? function = some entry ∧ entry.name = name := by
  constructor
  · intro named
    obtain ⟨entry, found, _⟩ := Option.bind_eq_some_iff.mp named
    have live : context.IsFunction function := isSome_function?.mp (Option.isSome_of_eq_some found)
    rw [functionName?_of_isFunction live] at named
    exact ⟨live, Option.map_eq_some_iff.mp named⟩
  · rintro ⟨live, named⟩
    rw [functionName?_of_isFunction live]
    exact Option.map_eq_some_iff.mpr named

/-- Only a live function of the context has a name. -/
theorem functionName_eq_ok {function : FunctionId} :
    context.functionName function = .ok name ↔
      function.context = context.id ∧ context.functionName? function.index = some name := by
  unfold functionName
  simp only [bind_eq_ok, pure_eq_ok, resolveFunction_eq_ok, resolveValue_eq_ok]
  rw [functionName?_eq_some]
  constructor
  · rintro ⟨entry, ⟨home, found⟩, value, ⟨_, held⟩, same⟩
    obtain ⟨member, self⟩ := mem_of_function? found
    exact ⟨home, ⟨entry, member, self⟩, value, self ▸ held, same⟩
  · rintro ⟨home, live, value, held, same⟩
    obtain ⟨entry, found⟩ := Option.isSome_iff_exists.mp (isSome_function?.mpr live)
    have self := (mem_of_function? found).2
    exact ⟨entry, ⟨home, found⟩, value, ⟨rfl, self.symm ▸ held⟩, same⟩

theorem functionName_succeeds (owned : context.Owned) (live : context.IsFunction function) :
    Succeeds (context.functionName (context.functionId function)) := by
  obtain ⟨entry, member, rfl⟩ := live
  obtain ⟨name, held⟩ := owned.functions.signed entry member
  have symbol : context.functionName? entry.self = some name := by
    rw [functionName?_of_isFunction ⟨entry, member, rfl⟩, held, Option.map_some]
  exact ⟨name, functionName_eq_ok.mpr ⟨rfl, symbol⟩⟩

theorem functionName?_eq_none (gone : ¬ context.IsFunction function) :
    context.functionName? function = none := by
  cases named : context.functionName? function with
  | none => rfl
  | some name => exact absurd (functionName?_eq_some.mp named).1 gone

/-- The same functions with the same entries have the same names. -/
theorem functionName?_congr
    (functions : after.IsFunction function ↔ before.IsFunction function)
    (values : before.IsFunction function → after.value? function = before.value? function) :
    after.functionName? function = before.functionName? function := by
  apply Option.ext
  intro name
  rw [functionName?_eq_some, functionName?_eq_some, functions]
  refine and_congr_right fun live => ?_
  rw [values live]

/-- Values that come behind the others leave the names alone. -/
theorem functionName?_pushValue {entry : Value} (owned : before.FunctionsOwned)
    (functions : after.IsFunction function ↔ before.IsFunction function)
    (values : after.values = before.values.push entry) :
    after.functionName? function = before.functionName? function := by
  refine functionName?_congr functions fun live => ?_
  rw [value?, value?, values, Table.get?_push, if_neg (Nat.ne_of_lt (owned.lt_size live))]

theorem functionName?_withFunction (owned : context.FunctionsOwned) {convention : UInt32}
    {signature : TypeRef} {parameters : List TypeRef} :
    (context.withFunction convention name signature parameters).functionName? =
      update context.functionName? context.values.size (some name) := by
  funext other
  have values : (context.withFunction convention name signature parameters).values =
      context.values.pushAll (⟨signature, .function, name⟩ :: parameters.mapIdx
        fun position type => ⟨type, .parameter context.values.size position, ""⟩) := rfl
  by_cases same : other = context.values.size
  · rw [same, update_self, functionName?_eq_some, isFunction_withFunction]
    refine ⟨.inr rfl, ⟨signature, .function, name⟩, ?_, rfl⟩
    rw [value?, values, Table.get?_pushAll, if_neg (Nat.lt_irrefl _), Nat.sub_self]
    rfl
  · rw [update_of_ne same]
    refine functionName?_congr ?_ fun live => ?_
    · rw [isFunction_withFunction]
      exact or_iff_left same
    · rw [value?, value?, values, Table.get?_pushAll, if_pos (owned.lt_size live)]

theorem functionName?_withName {value : ValueRef} {entry : Value}
    (found : context.value? value = some entry) (live : context.IsFunction value) :
    (context.withName value name).functionName? = update context.functionName? value (some name) := by
  funext other
  have lookup : (context.withName value name).value? other =
      if other = value then (context.value? other).map fun entry => { entry with name := name }
      else context.value? other := Table.get?_modify _ _ _ _
  by_cases same : other = value
  · subst same
    rw [update_self, functionName?_eq_some]
    refine ⟨live, { entry with name := name }, ?_, rfl⟩
    rw [lookup, if_pos rfl, found, Option.map_some]
  · rw [update_of_ne same]
    exact functionName?_congr Iff.rfl fun _ => by rw [lookup, if_neg same]

theorem functionName?_withName_of_not (gone : ¬ context.IsFunction function) :
    (context.withName function name).functionName? = context.functionName? := by
  funext other
  refine functionName?_congr Iff.rfl fun live => ?_
  have apart : other ≠ function := fun same => gone (same ▸ live)
  exact (Table.get?_modify _ _ _ _).trans (if_neg apart)

theorem functionName?_withoutFunction (owned : context.Owned) {entry : FunctionEntry}
    (member : entry ∈ context.functions) :
    (context.withoutFunction entry).functionName? =
      update context.functionName? entry.self none := by
  funext other
  by_cases same : other = entry.self
  · rw [same, update_self]
    apply functionName?_eq_none
    rw [Owned.isFunction_withoutFunction]
    exact fun live => live.2 rfl
  · rw [update_of_ne same]
    refine functionName?_congr ?_ fun live => ?_
    · rw [Owned.isFunction_withoutFunction]
      exact and_iff_left same
    · -- A function is released only as itself.
      obtain ⟨type, held⟩ := (owned.functions.values other).mp live
      have kept : ¬ other ∈ context.instructionsOf entry ++ entry.parameters ++ [entry.self] := by
        rw [owned.released_iff member held]
        rintro (self | ⟨_, other⟩ | ⟨_, _, _, other⟩)
        · exact same self
        · cases other
        · cases other
      exact (Table.get?_releaseAll _ _ _).trans (if_neg kept)

/-! ### Looking up by name -/

/-- A name that is not empty belongs to one function at most. -/
def DistinctNames (context : Context) : Prop :=
  ∀ first second name, name ≠ "" → context.functionName? first = some name →
    context.functionName? second = some name → first = second

theorem distinctNames_empty (id : ContextId) (native : NativeHandle) (moduleName : String) :
    (empty id native moduleName).DistinctNames := by
  intro first second name _ firstNamed
  obtain ⟨⟨entry, member, _⟩, _⟩ := functionName?_eq_some.mp firstNamed
  cases member

theorem functionNamed?_empty_name : context.functionNamed? "" = none := rfl

/-- What is found under a name has the name. -/
theorem functionName?_of_functionNamed? (found : context.functionNamed? name = some function) :
    name ≠ "" ∧ context.functionName? function = some name := by
  unfold functionNamed? at found
  by_cases anonymous : name = ""
  · rw [if_pos anonymous] at found
    cases found
  · rw [if_neg anonymous] at found
    obtain ⟨entry, search, rfl⟩ := Option.map_eq_some_iff.mp found
    have named : (context.value? entry.self).map (·.name) = some name := by
      simpa using List.find?_some search
    obtain ⟨value, lookup, sameName⟩ := Option.map_eq_some_iff.mp named
    exact ⟨anonymous, functionName?_eq_some.mpr
      ⟨⟨entry, List.mem_of_find?_eq_some search, rfl⟩, value, lookup, sameName⟩⟩

/-- Nothing is found under a name that no function has. -/
theorem functionNamed?_eq_none :
    context.functionNamed? name = none ↔
      name = "" ∨ ∀ function, context.functionName? function ≠ some name := by
  by_cases anonymous : name = ""
  · exact iff_of_true (anonymous ▸ functionNamed?_empty_name) (.inl anonymous)
  · rw [or_iff_right anonymous]
    constructor
    · intro missing function named
      obtain ⟨⟨entry, member, rfl⟩, value, lookup, sameName⟩ := functionName?_eq_some.mp named
      unfold functionNamed? at missing
      rw [if_neg anonymous, Option.map_eq_none_iff, List.find?_eq_none] at missing
      exact missing entry member (by simp [lookup, sameName])
    · intro unused
      cases found : context.functionNamed? name with
      | none => rfl
      | some function => exact absurd (functionName?_of_functionNamed? found).2 (unused function)

theorem DistinctNames.functionNamed?_eq_some (distinct : context.DistinctNames) :
    context.functionNamed? name = some function ↔
      name ≠ "" ∧ context.functionName? function = some name := by
  refine ⟨functionName?_of_functionNamed?, fun ⟨proper, named⟩ => ?_⟩
  cases found : context.functionNamed? name with
  | none =>
      rcases functionNamed?_eq_none.mp found with anonymous | unused
      · exact absurd anonymous proper
      · exact absurd named (unused function)
  | some other =>
      rw [distinct other function name proper (functionName?_of_functionNamed? found).2 named]

/-- Where the functions keep their names, the same ones are found. -/
theorem DistinctNames.functionNamed?_congr (distinct : before.DistinctNames)
    (names : after.functionName? = before.functionName?) :
    after.functionNamed? = before.functionNamed? := by
  have later : after.DistinctNames := by
    unfold DistinctNames
    rw [names]
    exact distinct
  funext name
  apply Option.ext
  intro function
  rw [later.functionNamed?_eq_some, distinct.functionNamed?_eq_some, names]

/-! ### One change -/

/-- A function gets another name, its first one, or none any longer. -/
structure Renaming (before after : Context) (function : ValueRef) (old new : Option String) :
    Prop where
  had : before.functionName? function = old
  /-- The new name belongs to no other function. -/
  free : ∀ name, new = some name → ∀ holder, before.functionNamed? name = some holder →
    holder = function
  names : after.functionName? = update before.functionName? function new

theorem renaming_withFunction (owned : context.FunctionsOwned) {convention : UInt32}
    {signature : TypeRef} {parameters : List TypeRef} (free : context.functionNamed? name = none) :
    Renaming context (context.withFunction convention name signature parameters)
      context.values.size none (some name) where
  had := functionName?_eq_none fun live => Nat.lt_irrefl _ (owned.lt_size live)
  free := by
    rintro _ ⟨⟩ holder found
    rw [free] at found
    cases found
  names := functionName?_withFunction owned

theorem renaming_withName {value : ValueRef} {entry : Value}
    (found : context.value? value = some entry) (live : context.IsFunction value)
    (free : ∀ holder, context.functionNamed? name = some holder → holder = value) :
    Renaming context (context.withName value name) value (some entry.name) (some name) where
  had := functionName?_eq_some.mpr ⟨live, entry, found, rfl⟩
  free := by
    rintro _ ⟨⟩
    exact free
  names := functionName?_withName found live

theorem renaming_withoutFunction (owned : context.Owned) {entry : FunctionEntry}
    (member : entry ∈ context.functions) :
    Renaming context (context.withoutFunction entry) entry.self
      (context.functionName? entry.self) none where
  had := rfl
  free := by
    rintro _ ⟨⟩
  names := functionName?_withoutFunction owned member

/-- The names stay when functions are changed in place and their values are left alone. -/
theorem functionName?_map {change : FunctionEntry → FunctionEntry}
    (functions : after.functions = before.functions.map change)
    (self : ∀ entry : FunctionEntry, (change entry).self = entry.self)
    (values : after.values = before.values) : after.functionName? = before.functionName? := by
  funext function
  refine functionName?_congr (isFunction_map functions self) fun _ => ?_
  rw [value?, value?, values]

end Context

open Context in
/-- All names stay, or that of one function changes. -/
theorem Change.renaming {settings : Settings} {effect : Effect} {before after : Context}
    (owned : before.Owned) (change : Change settings effect before after) :
    after.functionName? = before.functionName? ∨
      ∃ function old new, Renaming before after function old new := by
  cases change with
  | declare name shape free => exact .inr ⟨_, _, _, renaming_withFunction owned.functions free⟩
  | @rename _ value entry name found free =>
      by_cases live : before.IsFunction value
      · obtain ⟨type, held⟩ := (owned.functions.values value).mp live
        have isFunction := (held.unique (.of_value? found)).2
        exact .inr ⟨_, _, _, renaming_withName found live (free isFunction.symm)⟩
      · exact .inl (functionName?_withName_of_not live)
  | delete found =>
      exact .inr ⟨_, _, _, renaming_withoutFunction owned (mem_of_function? found).1⟩
  | constant type kind formed =>
      exact .inl (funext fun _ => functionName?_pushValue owned.functions Iff.rfl rfl)
  | append name found typed targets =>
      refine .inl (funext fun _ => functionName?_pushValue owned.functions ?_ rfl)
      exact isFunction_map rfl fun entry => by split <;> rfl
  | moduleName name => exact .inl rfl
  | type shape fresh formed => exact .inl rfl
  | block name found => exact .inl (functionName?_map rfl (fun entry => by split <;> rfl) rfl)
  | configure change found frame personality =>
      refine .inl (functionName?_map rfl (fun entry => ?_) rfl)
      split
      · exact (frame entry).self
      · rfl
  | record function state =>
      exact .inl (functionName?_map rfl (fun entry => by split <;> rfl) rfl)

namespace Context

variable {settings : Settings} {effect : Effect} {context before after : Context}
  {function : ValueRef} {name : String}

theorem Renaming.distinctNames {old new : Option String}
    (renamed : Renaming before after function old new) (distinct : before.DistinctNames) :
    after.DistinctNames := by
  -- Whoever has the new name is the function that got it.
  have holder : ∀ other name, name ≠ "" → new = some name →
      before.functionName? other = some name → other = function := by
    intro other name proper isNew named
    exact renamed.free name isNew other (distinct.functionNamed?_eq_some.mpr ⟨proper, named⟩)
  intro first second name proper firstNamed secondNamed
  rw [renamed.names] at firstNamed secondNamed
  by_cases firstSame : first = function <;> by_cases secondSame : second = function
  · rw [firstSame, secondSame]
  · rw [firstSame, update_self] at firstNamed
    rw [update_of_ne secondSame] at secondNamed
    exact absurd (holder second name proper firstNamed secondNamed) secondSame
  · rw [secondSame, update_self] at secondNamed
    rw [update_of_ne firstSame] at firstNamed
    exact absurd (holder first name proper secondNamed firstNamed) firstSame
  · rw [update_of_ne firstSame] at firstNamed
    rw [update_of_ne secondSame] at secondNamed
    exact distinct first second name proper firstNamed secondNamed

theorem DistinctNames.step (distinct : before.DistinctNames) (owned : before.Owned)
    (change : Change settings effect before after) : after.DistinctNames := by
  rcases change.renaming owned with same | ⟨function, old, new, renamed⟩
  · unfold DistinctNames
    rw [same]
    exact distinct
  · exact renamed.distinctNames distinct

/-! ### A stored map -/

/-- A map from names to functions after a function lost its old name. -/
def forgetName (index : String → Option ValueRef) (function : ValueRef) :
    Option String → String → Option ValueRef
  | some old => if index old = some function then update index old none else index
  | none => index

/-- A map from names to functions after a function got its new name. Anonymous functions are not
in it. -/
def recordName (index : String → Option ValueRef) (function : ValueRef) :
    Option String → String → Option ValueRef
  | some new => if new = "" then index else update index new (some function)
  | none => index

/-- In the map that has lost a function's name, the function stands under no name, and all others
stand where they stood. -/
theorem forgetName_eq_some {old : Option String} (had : context.functionName? function = old)
    {other : ValueRef} : forgetName context.functionNamed? function old name = some other ↔
      context.functionNamed? name = some other ∧ other ≠ function := by
  have own : context.functionNamed? name = some function → old = some name :=
    fun found => had.symm.trans (functionName?_of_functionNamed? found).2
  cases old with
  | none =>
      refine (and_iff_left_of_imp ?_).symm
      rintro found rfl
      cases own found
  | some old =>
      simp only [forgetName]
      by_cases stands : context.functionNamed? old = some function
      · rw [if_pos stands]
        by_cases same : name = old
        · subst same
          rw [update_self, stands]
          exact iff_of_false (fun equal => by cases equal) fun ⟨equal, other⟩ =>
            other (Option.some.inj equal).symm
        · rw [update_of_ne same]
          refine (and_iff_left_of_imp ?_).symm
          rintro found rfl
          exact same (Option.some.inj (own found)).symm
      · rw [if_neg stands]
        refine (and_iff_left_of_imp ?_).symm
        rintro found rfl
        rw [Option.some.inj (own found)] at stands
        exact stands found

/-- What is found by name changes as a stored map would. -/
theorem Renaming.functionNamed? {old new : Option String}
    (renamed : Renaming before after function old new) (distinct : before.DistinctNames) :
    after.functionNamed? =
      recordName (forgetName before.functionNamed? function old) function new := by
  have later := renamed.distinctNames distinct
  -- The other functions stand in the map as before.
  have others : ∀ name other, forgetName before.functionNamed? function old name = some other ↔
      name ≠ "" ∧ before.functionName? other = some name ∧ other ≠ function := by
    intro name other
    rw [forgetName_eq_some renamed.had, distinct.functionNamed?_eq_some, and_assoc]
  funext name
  apply Option.ext
  intro other
  rw [later.functionNamed?_eq_some, renamed.names]
  by_cases same : other = function
  · rw [same, update_self]
    cases new with
    | none => simp [recordName, others]
    | some new =>
        simp only [recordName]
        by_cases anonymous : new = ""
        · rw [if_pos anonymous, others, anonymous]
          simp [eq_comm]
        · rw [if_neg anonymous]
          by_cases recorded : name = new
          · simp [recorded, anonymous]
          · rw [update_of_ne recorded, others]
            simp [Ne.symm recorded]
  · rw [update_of_ne same]
    have kept : forgetName before.functionNamed? function old name = some other ↔
        name ≠ "" ∧ before.functionName? other = some name := by
      rw [others, and_iff_left same]
    cases new with
    | none => exact kept.symm
    | some new =>
        simp only [recordName]
        by_cases anonymous : new = ""
        · rw [if_pos anonymous, kept]
        · rw [if_neg anonymous]
          by_cases recorded : name = new
          · subst recorded
            rw [update_self]
            refine iff_of_false (fun named => ?_) fun equal => same (Option.some.inj equal).symm
            exact same (renamed.free name rfl other (distinct.functionNamed?_eq_some.mpr named))
          · rw [update_of_ne recorded, kept]

end Context

end TypedIR
