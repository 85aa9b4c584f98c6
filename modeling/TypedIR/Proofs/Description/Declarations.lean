import TypedIR.Proofs.Description.Attachments

/-!
Contract: what declaring functions comes to.

Owns:
- contexts that have been extended by functions, all else as it was;
- that a function can be declared exactly if it is declarable and its name is free, and
  is then as described;
- the same for functions one after the other, whose names have to differ.
-/

namespace TypedIR

open Function (update)

namespace Description

open Construction

variable {terms : Terms} {settings : Settings} {context before between after : Context}

/-! ### More functions -/

/-- The functions have come behind the others, which are as they were. -/
structure Extended (before : Context) (added : List FunctionEntry) (after : Context) : Prop
    extends before.Retains after where
  id : after.id = before.id
  moduleName : after.moduleName = before.moduleName
  functions : after.functions = before.functions ++ added

theorem Extended.refl (context : Context) : Extended context [] context :=
  ⟨.refl context, rfl, rfl, (List.append_nil _).symm⟩

theorem Extended.trans {first second : List FunctionEntry} (one : Extended before first between)
    (other : Extended between second after) : Extended before (first ++ second) after where
  toRetains := one.toRetains.trans other.toRetains
  id := other.id.trans one.id
  moduleName := other.moduleName.trans one.moduleName
  functions := by rw [other.functions, one.functions, List.append_assoc]

/-! ### Signatures -/

/-- The types of a signature are lowered, and the rest is judged with the signature. -/
theorem signature_bind {α : Type} (regular : context.Regular terms.settings) (described : Function)
    {next : TypeId → Construction α} {possible : Prop} {ensures : α → Context → Prop}
    (returns : possible → described.result.Returnable terms.settings.maxIntegerWidth)
    (sized : possible → ∀ parameter ∈ described.parameters,
      parameter.type.Sized terms.settings.maxIntegerWidth)
    (rest : ∀ signature between, Steps terms context between →
      described.result.Returnable terms.settings.maxIntegerWidth →
      (∀ parameter ∈ described.parameters,
        parameter.type.Sized terms.settings.maxIntegerWidth) →
      Lowered context described.signature signature between →
      Meets terms (next signature) between possible ensures) :
    Meets terms
      (do
        let result ← lowerType terms described.result
        let parameters ← lowerTypes terms (described.parameters.map (·.type))
        let signature ← perform (.signatureType result parameters described.variadic)
        next signature) context possible ensures := by
  apply (lowerType_meets described.result regular).bind returns
  intro returned first toFirst lowersResult result
  have firstRegular := toFirst.regular regular
  apply (lowerTypes_meets (described.parameters.map (·.type)) firstRegular).bind
  · intro whole term listed
    obtain ⟨parameter, member, rfl⟩ := List.mem_map.mp listed
    exact .inr (sized whole parameter member)
  intro taken second toSecond lowers parameters
  have returnedKnown : returned.context = second.id ∧
      second.tree? returned.index = some described.result.tree :=
    ⟨result.tagged.trans (toFirst.trans toSecond).id_eq.symm,
      toSecond.tree? firstRegular result.known⟩
  have takenKnown := parameters.each.imp fun _ _ each =>
    And.intro (each.1.trans toSecond.id_eq.symm) each.2
  have each : (∀ term ∈ described.parameters.map (·.type),
      term.Sized terms.settings.maxIntegerWidth) ↔
      ∀ parameter ∈ described.parameters,
        parameter.type.Sized terms.settings.maxIntegerWidth := List.forall_mem_map
  apply (signatureType_meets (toSecond.regular firstRegular) lowersResult lowers returnedKnown
    takenKnown).bind fun whole => each.mpr (sized whole)
  intro signature third toThird allSized lowered
  have signed : (TypeTree.function described.result.tree
      ((described.parameters.map (·.type)).map TypeTerm.tree) described.variadic) =
        described.signature := by
    rw [Function.signature, Function.parameterTypes, List.map_map]
    rfl
  rw [signed] at lowered
  exact rest signature third (toFirst.trans (toSecond.trans toThird)) lowersResult
    (each.mp allSized)
    ((lowered.since parameters.retyped toSecond.id_eq).since result.retyped toFirst.id_eq)

/-! ### A new function -/

section New

variable {convention : UInt32} {name : String} {signature : TypeRef} {types : List TypeRef}

theorem values_withFunction :
    (context.withFunction convention name signature types).values =
      context.values.pushAll (⟨signature, .function, name⟩ :: types.mapIdx
        fun position type => ⟨type, .parameter context.values.size position, ""⟩) := rfl

theorem value?_withFunction_of_lt {value : ValueRef} (old : value < context.values.size) :
    (context.withFunction convention name signature types).value? value = context.value? value := by
  rw [Context.value?, values_withFunction, Table.get?_pushAll, if_pos old]
  rfl

theorem value?_withFunction_parameter {position : Nat} (inside : position < types.length) :
    (context.withFunction convention name signature types).value?
        (context.values.size + 1 + position) =
      some ⟨types[position], .parameter context.values.size position, ""⟩ := by
  have behind : context.values.size + 1 + position - context.values.size = position + 1 := by omega
  rw [Context.value?, values_withFunction, Table.get?_pushAll, if_neg (by omega), behind,
    List.getElem?_cons_succ, List.getElem?_mapIdx, List.getElem?_eq_getElem inside]
  rfl

/-- The parameters of a new function have no names yet. -/
theorem anonymous_withFunction {parameters : List Parameter}
    (known : List.Forall₂ (fun type parameter =>
      context.tree? type = some (Parameter.type parameter).tree) types parameters) :
    List.Forall₂ (Anonymous (context.withFunction convention name signature types)
        context.values.size) (List.range' (context.values.size + 1) types.length)
      parameters.zipIdx := by
  obtain ⟨counted, each⟩ := List.forall₂_iff_get.mp known
  refine List.forall₂_iff_get.mpr ⟨by simp [counted], fun position inside other => ?_⟩
  rw [List.length_range'] at inside
  rw [List.length_zipIdx] at other
  refine ⟨types[position], ?_, ?_⟩
  · simpa using value?_withFunction_parameter inside
  · show context.tree? types[position] = _
    simpa using each position inside other

end New

/-- A function can be introduced under a name that no function has. -/
theorem introduce_meets {described : Function} {signature : TypeId}
    (grounded : context.Grounded) (tagged : signature.context = context.id)
    (known : context.tree? signature.index = some described.signature) :
    Meets terms (perform (.declare terms.settings context.id described.name signature)) context
      (context.functionNamed? described.name = none)
      fun function after => function = context.functionId context.values.size ∧
        ∃ types, List.Forall₂ (fun type parameter =>
            context.tree? type = some (Parameter.type parameter).tree) types described.parameters ∧
          after = context.withFunction terms.settings.convention.code described.name
            signature.index types := by
  obtain ⟨returned, types, shape, _, typesKnown⟩ := grounded.shape_of_function known
  have each := mapM_eq_some.mp typesKnown
  rw [Function.parameterTypes, List.forall₂_map_right_iff] at each
  apply meets_guarded (.declare context.id described.name signature) rfl rfl
  · exact fun _ => Operation.requireHomeType_of_home tagged
  · intro function after done
    obtain ⟨_, _, _, _, otherShape, free, equal⟩ := Context.declare_eq_ok.mp done
    obtain ⟨rfl, rfl, rfl⟩ := TypeShape.function.inj (Option.some.inj (otherShape.symm.trans shape))
    obtain ⟨rfl, rfl⟩ := Prod.mk.inj equal
    exact ⟨free, rfl, _, each, rfl⟩
  · exact fun free => ⟨_, Context.declare_eq_ok.mpr ⟨tagged, _, _, _, shape, free, rfl⟩⟩

/-! ### A declaration -/

/-- The function stands behind the others as described, without personality and body. -/
structure Introduced (settings : Settings) (described : Function) (before : Context)
    (entry : FunctionEntry) (after : Context) : Prop extends Extended before [entry] after where
  declared : described.Declared settings after entry
  impersonal : entry.personality = none
  bodiless : entry.blocks = []
  named : after.functionNamed? =
    Context.recordName before.functionNamed? entry.self (some described.name)

/-- What a new function is when its parts have been attached. -/
def Function.attached (function : Function) (entry : FunctionEntry) : FunctionEntry :=
  { entry with
    convention := (function.convention.map CallConvention.code).getD entry.convention
    collector := function.collector.filter fun strategy => strategy ≠ ""
    attributes := entry.attributes.insertAll function.placed }

/-- The next function of a context, with so many parameters. -/
def nextFunction (settings : Settings) (context : Context) (signature : TypeRef) (count : Nat) :
    FunctionEntry :=
  .declared context.values.size signature (List.range' (context.values.size + 1) count)
    settings.convention.code

section Introduced

variable {described : Function} {types : List TypeRef} {signature : TypeRef}
  {function : FunctionId} (drafted : context.Drafted settings)
  (known : context.tree? signature = some described.signature)
  (configured : Configured (nextFunction settings context signature types.length).parameters
    (context.withFunction settings.convention.code described.name signature types) after)
  (parameters : List.Forall₂ (Parameter.Declared after) described.parameters
    (nextFunction settings context signature types.length).parameters)

include drafted known configured parameters

theorem declared_of_configured :
    described.Declared settings after
      (described.attached (nextFunction settings context signature types.length)) where
  named := by
    rw [configured.names,
      Context.functionName?_withFunction drafted.regular.coherent.owned.functions]
    exact Function.update_self ..
  signature := by
    rw [configured.trees]
    exact known
  parameters := parameters
  convention := by
    show (described.convention.map CallConvention.code).getD settings.convention.code = _
    cases described.convention <;> rfl
  collector := rfl
  attributes site key := AttributeTable.get?_insertAll.trans Option.or_none

/-- All that has come is the function with its parts. -/
theorem introduced_of_configured (free : context.functionNamed? described.name = none)
    (isLast : Last function context.functions
      (described.attached (nextFunction settings context signature types.length)) after) :
    Introduced settings described context
      (described.attached (nextFunction settings context signature types.length)) after where
  id := configured.id
  moduleName := configured.moduleName
  functions := isLast.functions
  names := by
    intro other name named
    have owned := drafted.regular.coherent.owned.functions
    have old := owned.lt_size (Context.functionName?_eq_some.mp named).1
    rw [configured.names, Context.functionName?_withFunction owned,
      Function.update_of_ne (Nat.ne_of_lt old)]
    exact named
  values := by
    intro value entry found
    have old : value < context.values.size := Table.lt_size_of_get? found
    have apart : value ∉ (nextFunction settings context signature types.length).parameters := by
      intro listed
      have behind : context.values.size < value := (List.mem_range'_1.mp listed).1
      exact Nat.lt_asymm old behind
    rw [configured.kept value apart, value?_withFunction_of_lt old]
    exact found
  trees := by
    intro type tree old
    rw [configured.trees]
    exact old
  declared := declared_of_configured drafted known configured parameters
  impersonal := rfl
  bodiless := rfl
  named := by
    have change : Context.Renaming context
        (context.withFunction settings.convention.code described.name signature types)
        context.values.size none (some described.name) :=
      Context.renaming_withFunction drafted.regular.coherent.owned.functions free
    have recorded := change.functionNamed? drafted.distinct
    rw [(change.distinctNames drafted.distinct).functionNamed?_congr configured.names]
    exact recorded

end Introduced

/-- A new function gets its parameters' names and alignments, and all that is attached to it. -/
theorem attachAll_meets
    (accepted : ∀ convention : CallConvention, terms.accepts convention.code = true)
    (drafted : context.Drafted terms.settings) {described : Function} {types : List TypeRef}
    {signature : TypeRef}
    (known : context.tree? signature = some described.signature)
    (free : context.functionNamed? described.name = none)
    (typed : List.Forall₂ (fun type parameter =>
      context.tree? type = some (Parameter.type parameter).tree) types described.parameters)
    (later : (context.withFunction terms.settings.convention.code described.name signature
      types).Drafted terms.settings) :
    Meets terms
      (do
        attachParameters (context.functionId context.values.size) 0 described.parameters
        attach terms (context.functionId context.values.size) described
        return context.functionId context.values.size)
      (context.withFunction terms.settings.convention.code described.name signature types)
      ((∀ parameter ∈ described.parameters, ∀ align ∈ parameter.align,
          ∃ exponent, align.toNat = Nat.pow 2 exponent) ∧
        ∀ placed ∈ described.attributes, ∀ position, placed.site = .parameter position →
          position < described.parameters.length)
      fun function after => ∃ entry, function = context.functionId entry.self ∧
        Introduced terms.settings described context entry after := by
  have isLast : Last (context.functionId context.values.size) context.functions
      (nextFunction terms.settings context signature types.length)
      (context.withFunction terms.settings.convention.code described.name signature types) :=
    ⟨rfl, rfl, rfl⟩
  have all : (nextFunction terms.settings context signature types.length).parameters.drop 0 =
      List.range' (context.values.size + 1) types.length := rfl
  apply (attachParameters_meets described.parameters later isLast all (List.nodup_range' ..)
    (anonymous_withFunction typed)).bind And.left
  rintro _ between steps aligned ⟨first, isLast, declared⟩
  have counted : (nextFunction terms.settings context signature types.length).parameters.length =
      described.parameters.length := List.length_range'.trans typed.length_eq
  apply (attach_meets accepted (steps.drafted later) isLast rfl counted).bind And.right
  rintro _ after _ placed ⟨second, isLast⟩
  have configured := first.trans second
  rw [List.append_nil] at configured
  have attached : Last (context.functionId context.values.size) context.functions
      (described.attached (nextFunction terms.settings context signature types.length)) after := by
    rw [Function.attached, Function.placed, AttributeTable.insertAll_append]
    exact isLast
  have stillDeclared := declared.imp fun _ _ each => each.retained second.retains
  exact meets_pure ⟨aligned, placed⟩ ⟨_, rfl,
    introduced_of_configured drafted known configured stillDeclared free attached⟩

/-- Types that come before a function do not count. -/
theorem Introduced.since {described : Function} {entry : FunctionEntry}
    (introduced : Introduced settings described between entry after)
    (retyped : Retyped before between)
    (trees : ∀ type tree, before.tree? type = some tree → between.tree? type = some tree) :
    Introduced settings described before entry after := by
  obtain ⟨types, rfl⟩ : ∃ types, between = { before with types := types } := ⟨_, retyped⟩
  exact { introduced with
    trees := fun type tree known => introduced.trees type tree (trees type tree known) }

/-- A function can be declared exactly if its types, alignments and attributes are right and its
name is free. -/
theorem declare_meets
    (accepted : ∀ convention : CallConvention, terms.accepts convention.code = true)
    (drafted : context.Drafted terms.settings) (described : Function) :
    Meets terms (declare terms described) context
      (described.Declarable terms.settings.maxIntegerWidth ∧
        context.functionNamed? described.name = none)
      fun function after => ∃ entry, function = context.functionId entry.self ∧
        Introduced terms.settings described context entry after := by
  rw [declare]
  apply signature_bind drafted.regular described (fun whole => whole.1.result)
    fun whole => whole.1.parameters
  intro signature between steps returns sized lowered
  have later := steps.drafted drafted
  have kept : ∀ type tree, context.tree? type = some tree → between.tree? type = some tree :=
    fun _ _ known => steps.tree? drafted.regular known
  have sameNames : between.functionNamed? = context.functionNamed? := by
    rw [lowered.retyped]
    rfl
  apply meets_bind_context
  apply (introduce_meets later.regular.coherent.grounded (lowered.tagged.trans steps.id_eq.symm)
    lowered.known).bind fun whole => sameNames ▸ whole.2
  rintro _ _ introduced free ⟨rfl, types, typed, rfl⟩
  refine (attachAll_meets accepted later lowered.known free typed
    (introduced.drafted later)).weaken ?_ ?_
  · rw [sameNames] at free
    exact ⟨fun whole => ⟨whole.1.alignments, whole.1.positions⟩,
      fun ⟨aligned, placed⟩ => ⟨⟨returns, sized, aligned, placed⟩, free⟩⟩
  · rintro function after _ _ ⟨entry, rfl, introduced⟩
    exact ⟨entry, Context.functionId_congr steps.id_eq _, introduced.since lowered.retyped kept⟩

/-! ### All declarations -/

/-- The names differ from each other and from those of the context. -/
structure FreeNames (context : Context) (list : List Function) : Prop where
  distinct : ((list.map fun function => function.name).filter fun name => name ≠ "").Nodup
  free : ∀ function ∈ list, context.functionNamed? function.name = none

theorem recordName_eq_none {names : String → Option ValueRef} {function : ValueRef}
    {new name : String} (proper : new ≠ "") :
    Context.recordName names function (some new) name = none ↔
      name ≠ new ∧ names name = none := by
  rw [Context.recordName, if_neg proper]
  by_cases same : name = new
  · subst same
    simp
  · rw [Function.update_of_ne same]
    exact (and_iff_right same).symm

/-- A name that a function has got is free no longer. -/
theorem freeNames_cons {described : Function} {rest : List Function} {function : ValueRef}
    (named : after.functionNamed? =
      Context.recordName before.functionNamed? function (some described.name)) :
    FreeNames before (described :: rest) ↔
      before.functionNamed? described.name = none ∧ FreeNames after rest := by
  by_cases anonymous : described.name = ""
  · have same : after.functionNamed? = before.functionNamed? := by
      rw [named, Context.recordName, if_pos anonymous]
    have free : before.functionNamed? described.name = none :=
      anonymous ▸ Context.functionNamed?_empty_name
    rw [and_iff_right free]
    constructor
    · rintro ⟨distinct, others⟩
      refine ⟨by simpa [anonymous] using distinct, ?_⟩
      rw [same]
      exact (List.forall_mem_cons.mp others).2
    · rintro ⟨distinct, others⟩
      rw [same] at others
      exact ⟨by simpa [anonymous] using distinct, List.forall_mem_cons.mpr ⟨free, others⟩⟩
  · have changed : ∀ name, after.functionNamed? name = none ↔
        name ≠ described.name ∧ before.functionNamed? name = none := fun name =>
      named ▸ recordName_eq_none anonymous
    have split : (((described :: rest).map fun function => function.name).filter fun name =>
        name ≠ "").Nodup ↔ (∀ function ∈ rest, function.name ≠ described.name) ∧
          ((rest.map fun function => function.name).filter fun name => name ≠ "").Nodup := by
      rw [List.map_cons, List.filter_cons, if_pos (decide_eq_true anonymous), List.nodup_cons]
      simp [anonymous]
    constructor
    · rintro ⟨distinct, others⟩
      obtain ⟨apart, distinct⟩ := split.mp distinct
      obtain ⟨free, others⟩ := List.forall_mem_cons.mp others
      exact ⟨free, distinct, fun function listed =>
        (changed _).mpr ⟨apart function listed, others function listed⟩⟩
    · rintro ⟨free, distinct, others⟩
      have both := fun function listed => (changed _).mp (others function listed)
      exact ⟨split.mpr ⟨fun function listed => (both function listed).1, distinct⟩,
        List.forall_mem_cons.mpr ⟨free, fun function listed => (both function listed).2⟩⟩

/-- The functions stand behind those before as described, without personalities and bodies. -/
structure AllIntroduced (settings : Settings) (list : List Function) (before : Context)
    (entries : List FunctionEntry) (after : Context) : Prop
    extends Extended before entries after where
  declared : List.Forall₂ (Function.Declared settings after) list entries
  impersonal : ∀ entry ∈ entries, entry.personality = none
  bodiless : ∀ entry ∈ entries, entry.blocks = []

theorem declareAll_meets
    (accepted : ∀ convention : CallConvention, terms.accepts convention.code = true)
    (list : List Function) (drafted : context.Drafted terms.settings) :
    Meets terms (declareAll terms list) context
      ((∀ described ∈ list, described.Declarable terms.settings.maxIntegerWidth) ∧
        FreeNames context list)
      fun functions after => ∃ entries,
        functions = entries.map (fun entry => context.functionId entry.self) ∧
          AllIntroduced terms.settings list context entries after := by
  induction list generalizing context with
  | nil =>
      refine meets_pure ⟨by simp, ⟨.nil, by simp⟩⟩ ⟨[], rfl, .refl context, .nil, by simp, by simp⟩
  | cons described rest inductionHypothesis =>
      rw [declareAll]
      apply ((declare_meets accepted drafted described).within _).bind
      · rintro ⟨declarable, free⟩
        exact ⟨declarable described List.mem_cons_self, free.free described List.mem_cons_self⟩
      rintro _ between steps ⟨declarable, free⟩ ⟨entry, rfl, introduced⟩
      have names := @freeNames_cons context between described rest entry.self introduced.named
      apply (inductionHypothesis (steps.drafted drafted)).bind
      · rintro ⟨others, free⟩
        exact ⟨fun other listed => others other (List.mem_cons_of_mem _ listed), (names.mp free).2⟩
      rintro _ after _ ⟨others, freeRest⟩ ⟨entries, rfl, all⟩
      refine meets_pure ⟨List.forall_mem_cons.mpr ⟨declarable, others⟩, names.mpr ⟨free, freeRest⟩⟩
        ⟨entry :: entries, ?_, introduced.toExtended.trans all.toExtended,
          .cons (introduced.declared.retained all.toRetains) all.declared,
          List.forall_mem_cons.mpr ⟨introduced.impersonal, all.impersonal⟩,
          List.forall_mem_cons.mpr ⟨introduced.bodiless, all.bodiless⟩⟩
      rw [List.map_cons]
      congr 1
      exact List.map_congr_left fun other _ => Context.functionId_congr introduced.id other.self

end Description

end TypedIR
