import TypedIR.Proofs.Attribute.Table
import TypedIR.Proofs.Check.Blocks
import TypedIR.Proofs.Description.Growth

/-!
Contract: what a description attaches to the function that was declared last.

Owns:
- the function at the end of a module, and what changes of its settings leave as it was;
- the names and alignments of its parameters;
- its convention, its collector and the attributes that are placed on it.
-/

namespace TypedIR.Description

open Construction

variable {terms : Terms} {context before between after : Context} {function : FunctionId}
  {earlier : List FunctionEntry} {entry : FunctionEntry}

/-! ### The function declared last -/

structure Last (function : FunctionId) (earlier : List FunctionEntry) (entry : FunctionEntry)
    (context : Context) : Prop where
  tagged : function.context = context.id
  self : entry.self = function.index
  functions : context.functions = earlier ++ [entry]

/-- Nothing but settings of functions and the names of the given values has changed. -/
structure Configured (values : List ValueRef) (before after : Context) : Prop where
  id : after.id = before.id
  moduleName : after.moduleName = before.moduleName
  names : after.functionName? = before.functionName?
  kept : ∀ value, value ∉ values → after.value? value = before.value? value
  trees : after.tree? = before.tree?

theorem Configured.refl (context : Context) : Configured [] context context :=
  ⟨rfl, rfl, rfl, fun _ _ => rfl, rfl⟩

theorem Configured.trans {first second : List ValueRef} (one : Configured first before between)
    (other : Configured second between after) : Configured (first ++ second) before after where
  id := other.id.trans one.id
  moduleName := other.moduleName.trans one.moduleName
  names := other.names.trans one.names
  kept value apart := by
    rw [List.mem_append, not_or] at apart
    exact (other.kept value apart.2).trans (one.kept value apart.1)
  trees := other.trees.trans one.trees

theorem Configured.mono {first second : List ValueRef} (configured : Configured first before after)
    (within : first ⊆ second) : Configured second before after :=
  { configured with
    kept := fun value apart => configured.kept value fun listed => apart (within listed) }

/-- Nothing goes where no value gets another name. -/
theorem Configured.retains (configured : Configured [] before after) : before.Retains after :=
  ⟨fun _ _ named => configured.names ▸ named,
    fun value _ found => (configured.kept value List.not_mem_nil).trans found,
    fun _ _ known => configured.trees ▸ known⟩

section Last

variable {settings : Settings} (drafted : context.Drafted settings)
  (isLast : Last function earlier entry context)

include drafted isLast

theorem Last.found : context.function? function.index = some entry := by
  have member : entry ∈ context.functions := isLast.functions ▸ by simp
  rw [← isLast.self]
  exact Context.function?_of_mem drafted.regular.coherent.owned.functions.distinct member

theorem Last.live : context.Live (.function function) :=
  ⟨isLast.tagged, entry, isLast.found drafted⟩

/-- An edit of the last function, which nobody has verified, changes it as the edit says. -/
theorem Last.edit (change : FunctionEntry → FunctionEntry)
    (self : ∀ entry, (change entry).self = entry.self)
    (state : (change entry).state = entry.state) :
    Last function earlier (change entry)
        (context.updateFunction function.index fun entry => (change entry).edited) ∧
      Configured [] context
        (context.updateFunction function.index fun entry => (change entry).edited) := by
  have distinct := drafted.regular.coherent.owned.functions.distinct
  rw [isLast.functions, List.map_append, List.nodup_append] at distinct
  have others : ∀ other ∈ earlier, other.self ≠ function.index := by
    intro other listed same
    exact distinct.2.2 other.self (List.mem_map_of_mem listed) entry.self (by simp)
      (same.trans isLast.self.symm)
  have member : entry ∈ context.functions := isLast.functions ▸ by simp
  have unverified := Context.edited_of_unverified (state.trans (drafted.unverified entry member))
  refine ⟨⟨isLast.tagged, (self entry).trans isLast.self, ?_⟩, rfl, rfl, ?_, fun _ _ => rfl, rfl⟩
  · show context.functions.map _ = _
    rw [isLast.functions, List.map_append, List.map_singleton, if_pos isLast.self]
    show _ ++ [(change entry).edited] = _
    rw [unverified]
    congr 1
    refine (List.map_congr_left fun other listed => ?_).trans (List.map_id earlier)
    exact if_neg (others other listed)
  · refine Context.functionName?_map rfl (fun entry => ?_) rfl
    split
    · exact self entry
    · rfl

theorem Last.placing (site : Site) (value : Attribute) :
    Last function earlier { entry with attributes := entry.attributes.insert site value }
        (context.updateFunction function.index fun entry =>
          { entry with attributes := entry.attributes.insert site value }.edited) ∧
      Configured [] context (context.updateFunction function.index fun entry =>
        { entry with attributes := entry.attributes.insert site value }.edited) :=
  isLast.edit drafted (fun entry =>
    { entry with attributes := entry.attributes.insert site value }) (fun _ => rfl) rfl

theorem Last.addAttribute_eq_ok {site : Site} {value : Attribute} {result : Unit × Context} :
    context.addAttribute function site value = .ok result ↔
      (∀ position, site = .parameter position → position < entry.parameters.length) ∧
        ((), context.updateFunction function.index fun entry =>
          { entry with attributes := entry.attributes.insert site value }.edited) = result := by
  rw [Context.addAttribute_eq_ok, and_iff_right isLast.tagged, isLast.found drafted]
  simp

omit drafted in
/-- A value that is no function gets a name. -/
theorem Last.rename {value : ValueRef} (notFunction : ¬ context.IsFunction value) (name : String) :
    Last function earlier entry (context.withName value name) ∧
      Configured [value] context (context.withName value name) := by
  refine ⟨⟨isLast.tagged, isLast.self, isLast.functions⟩, rfl, rfl,
    Context.functionName?_withName_of_not notFunction, fun other apart => ?_, rfl⟩
  exact (Table.get?_modify _ _ _ _).trans (if_neg fun same => apart (List.mem_singleton.mpr same))

end Last

/-! ### Parameters -/

theorem alignmentsFrom_cons (position : Nat) (parameter : Parameter) (rest : List Parameter) :
    alignmentsFrom position (parameter :: rest) =
      alignmentsFrom position [parameter] ++ alignmentsFrom (position + 1) rest := by
  unfold alignmentsFrom
  rw [List.zipIdx_cons, List.zipIdx_singleton, ← List.singleton_append, List.filterMap_append]

section Parameter

variable {position : Nat} {value : ValueRef} {type : TypeRef} {name : String}
  (drafted : context.Drafted terms.settings) (isLast : Last function earlier entry context)
  (held : context.value? value = some ⟨type, .parameter entry.self position, name⟩)

include drafted isLast held

theorem renameParameter_meets (wanted : String) :
    Meets terms (perform (.rename (context.valueId value) wanted)) context True
      fun _ after => Configured [value] context after ∧ Last function earlier entry after ∧
        after.value? value = some ⟨type, .parameter entry.self position, wanted⟩ := by
  have notFunction : ¬ context.IsFunction value := by
    intro live
    obtain ⟨_, isFunction⟩ := (drafted.regular.coherent.owned.functions.values value).mp live
    cases (isFunction.unique (.of_value? held)).2
  have answer : ∀ result, context.rename (context.valueId value) wanted = .ok result ↔
      ((), context.withName value wanted) = result := by
    intro result
    rw [Context.rename_eq_ok]
    refine ⟨fun ⟨_, _, _, _, equal⟩ => equal, fun equal => ⟨rfl, _, held, ?_, equal⟩⟩
    rintro ⟨isFunction, _⟩
    cases isFunction
  apply meets_reported (.rename (context.valueId value) wanted) rfl rfl
  · intro _ after done
    obtain ⟨_, rfl⟩ := Prod.mk.inj ((answer _).mp done)
    obtain ⟨stillLast, configured⟩ := isLast.rename notFunction wanted
    refine ⟨trivial, configured, stillLast, ?_⟩
    refine (Table.get?_modify _ _ _ _).trans ?_
    rw [if_pos rfl, show context.values.get? value = _ from held]
    rfl
  · exact fun _ => ⟨_, (answer _).mpr rfl⟩

/-- Only powers of two are alignments. -/
theorem alignParameter_meets (inside : position < entry.parameters.length) (align : UInt32) :
    Meets terms (perform (.setAlignment (context.valueId value) align)) context
      (∃ exponent, align.toNat = Nat.pow 2 exponent)
      fun _ after => Configured [] context after ∧
        Last function earlier { entry with
          attributes := entry.attributes.insert (.parameter position)
            (.enumerated .alignment align.toUInt64) } after := by
  have place : context.parameterPlace (context.valueId value) = .ok (function, position) := by
    rw [Context.parameterPlace_of_value rfl held, isLast.self, Context.functionId, ← isLast.tagged]
  have answer : ∀ result, context.setAlignment (context.valueId value) align = .ok result ↔
      (∃ exponent, align.toNat = Nat.pow 2 exponent) ∧
        ((), context.updateFunction function.index fun entry => { entry with
          attributes := entry.attributes.insert (.parameter position)
            (.enumerated .alignment align.toUInt64) }.edited) = result := by
    intro result
    rw [Context.setAlignment_eq_ok, ← isPowerOfTwo_iff, place]
    constructor
    · rintro ⟨_, _, ⟨⟩, isPower, done⟩
      exact ⟨isPower, ((isLast.addAttribute_eq_ok drafted).mp done).2⟩
    · rintro ⟨isPower, equal⟩
      refine ⟨_, _, rfl, isPower, (isLast.addAttribute_eq_ok drafted).mpr ⟨?_, equal⟩⟩
      rintro _ ⟨⟩
      exact inside
  apply meets_reported (.setAlignment (context.valueId value) align) rfl rfl
  · intro _ after done
    obtain ⟨isPower, equal⟩ := (answer _).mp done
    obtain ⟨_, rfl⟩ := Prod.mk.inj equal
    obtain ⟨stillLast, configured⟩ := isLast.placing drafted (.parameter position)
      (.enumerated .alignment align.toUInt64)
    exact ⟨isPower, configured, stillLast⟩
  · exact fun isPower => ⟨_, (answer _).mpr ⟨isPower, rfl⟩⟩

theorem alignments_meets (inside : position < entry.parameters.length) (parameter : Parameter) :
    Meets terms
      (match parameter.align with
        | some align => perform (.setAlignment (context.valueId value) align)
        | none => pure ()) context
      (∀ align ∈ parameter.align, ∃ exponent, align.toNat = Nat.pow 2 exponent)
      fun _ after => Configured [] context after ∧ Last function earlier { entry with
        attributes := entry.attributes.insertAll (alignmentsFrom position [parameter]) } after := by
  obtain ⟨name, type, align⟩ := parameter
  cases align with
  | none => exact meets_pure (by simp) ⟨.refl context, isLast⟩
  | some align =>
      refine (alignParameter_meets drafted isLast held inside align).weaken (by simp) ?_
      exact fun _ _ _ _ done => done

end Parameter

theorem attachParameter_meets {position : Nat} {value : ValueRef} {type : TypeRef}
    (drafted : context.Drafted terms.settings) (isLast : Last function earlier entry context)
    (listed : entry.parameters[position]? = some value)
    (held : context.value? value = some ⟨type, .parameter entry.self position, ""⟩)
    (parameter : Parameter) :
    Meets terms (attachParameter function position parameter) context
      (∀ align ∈ parameter.align, ∃ exponent, align.toNat = Nat.pow 2 exponent)
      fun _ after => Configured [value] context after ∧
        Last function earlier { entry with
          attributes := entry.attributes.insertAll (alignmentsFrom position [parameter]) } after ∧
        after.value? value = some ⟨type, .parameter entry.self position, parameter.name⟩ := by
  have answered : context.parameterAt function position = .ok (context.valueId value) :=
    Context.parameterAt_eq_ok.mpr ⟨isLast.tagged, entry, value, isLast.found drafted, listed, rfl⟩
  refine meets_bind_inspect answered ?_
  obtain ⟨inside, _⟩ := List.getElem?_eq_some_iff.mp listed
  dsimp only
  by_cases anonymous : parameter.name = ""
  · rw [if_neg (not_not_intro anonymous), anonymous]
    refine (alignments_meets drafted isLast held inside parameter).weaken Iff.rfl ?_
    rintro _ after _ _ ⟨configured, stillLast⟩
    exact ⟨configured.mono (List.nil_subset _), stillLast,
      (configured.kept value List.not_mem_nil).trans held⟩
  · rw [if_pos anonymous]
    apply (renameParameter_meets drafted isLast held parameter.name).bind fun _ => trivial
    rintro _ between steps _ ⟨named, isLast, held⟩
    have same : context.valueId value = between.valueId value := by
      rw [Context.valueId, ← steps.id_eq, Context.valueId]
    rw [same]
    refine (alignments_meets (steps.drafted drafted) isLast held inside parameter).weaken Iff.rfl ?_
    rintro _ after _ _ ⟨configured, stillLast⟩
    exact ⟨named.trans configured, stillLast, (configured.kept value List.not_mem_nil).trans held⟩

/-- A value for the parameter at a position of a function, without a name so far. -/
def Anonymous (context : Context) (self value : ValueRef) (parameter : Parameter × Nat) : Prop :=
  ∃ type, context.value? value = some ⟨type, .parameter self parameter.2, ""⟩ ∧
    context.tree? type = some parameter.1.type.tree

/-- Parameters get their names and alignments in order. -/
theorem attachParameters_meets (parameters : List Parameter) {position : Nat}
    {values : List ValueRef} (drafted : context.Drafted terms.settings)
    (isLast : Last function earlier entry context) (listed : entry.parameters.drop position = values)
    (distinct : values.Nodup)
    (fresh : List.Forall₂ (Anonymous context entry.self) values (parameters.zipIdx position)) :
    Meets terms (attachParameters function position parameters) context
      (∀ parameter ∈ parameters, ∀ align ∈ parameter.align,
        ∃ exponent, align.toNat = Nat.pow 2 exponent)
      fun _ after => Configured values context after ∧
        Last function earlier { entry with
          attributes := entry.attributes.insertAll (alignmentsFrom position parameters) } after ∧
        List.Forall₂ (Parameter.Declared after) parameters values := by
  induction parameters generalizing context entry position values with
  | nil =>
      cases fresh
      exact meets_pure (by simp) ⟨.refl context, isLast, .nil⟩
  | cons parameter rest inductionHypothesis =>
      rw [List.zipIdx_cons] at fresh
      obtain ⟨value, others, ⟨type, held, known⟩, freshRest, rfl⟩ :=
        List.forall₂_cons_right_iff.mp fresh
      obtain ⟨apart, distinctRest⟩ := List.nodup_cons.mp distinct
      have atPosition : entry.parameters[position]? = some value := by
        rw [← List.head?_drop, listed]
        rfl
      have listedRest : entry.parameters.drop (position + 1) = others := by
        rw [← List.tail_drop, listed]
        rfl
      rw [attachParameters]
      apply (attachParameter_meets drafted isLast atPosition held parameter).bind
        fun whole => whole parameter List.mem_cons_self
      rintro _ between steps isPower ⟨configured, isLast, named⟩
      -- The name went to the first value alone.
      have still : List.Forall₂ (Anonymous between entry.self) others
          (rest.zipIdx (position + 1)) := by
        have kept : ∀ other ∈ others, other ∉ [value] := fun other member same =>
          apart (List.mem_singleton.mp same ▸ member)
        refine ((List.forall₂_and_left _ _).mpr ⟨kept, freshRest⟩).imp ?_
        rintro other parameter ⟨different, type, held, known⟩
        exact ⟨type, (configured.kept other different).trans held,
          (congrFun configured.trees type).trans known⟩
      refine (inductionHypothesis (steps.drafted drafted) isLast listedRest distinctRest
        still).weaken ?_ ?_
      · rw [List.forall_mem_cons, and_iff_right isPower]
      · rintro _ after _ _ ⟨more, isLast, declared⟩
        refine ⟨configured.trans more, ?_,
          .cons ⟨type, _, (more.kept value apart).trans named, ?_⟩ declared⟩
        · rw [alignmentsFrom_cons, AttributeTable.insertAll_append]
          exact isLast
        · rw [more.trees, configured.trees, known]

/-! ### Convention, collector and attributes -/

/-- The first of the parts that are attached. -/
def attachConvention (terms : Terms) (function : FunctionId) :
    Option CallConvention → Construction Unit
  | some convention =>
      perform (.setConvention terms.accepts terms.engine function convention.code)
  | none => pure ()

def attachCollector (function : FunctionId) : Option String → Construction Unit
  | some strategy => perform (.setCollector function strategy)
  | none => pure ()

theorem attach_eq (terms : Terms) (function : FunctionId) (described : Function) :
    attach terms function described =
      (attachConvention terms function described.convention >>= fun _ =>
        attachCollector function described.collector >>= fun _ =>
          described.attributes.forM fun placed =>
            perform (.addAttribute function placed.site placed.value)) := by
  unfold attach
  cases described.convention <;> cases described.collector <;> rfl

/-- Any of the conventions that have a name can be set. -/
theorem convention_meets
    (accepted : ∀ convention : CallConvention, terms.accepts convention.code = true)
    (drafted : context.Drafted terms.settings) (isLast : Last function earlier entry context)
    (convention : Option CallConvention) :
    Meets terms (attachConvention terms function convention) context True
      fun _ after => Configured [] context after ∧ Last function earlier { entry with
        convention := (convention.map CallConvention.code).getD entry.convention } after := by
  cases convention with
  | none => exact meets_pure trivial ⟨.refl context, isLast⟩
  | some convention =>
      have answer : ∀ result,
          context.setConvention terms.accepts terms.engine function convention.code = .ok result ↔
            ((), context.updateFunction function.index fun entry =>
              { entry with convention := convention.code }.edited) = result := by
        intro result
        rw [Context.setConvention_eq_ok, and_iff_right (isLast.live drafted),
          and_iff_right (accepted convention)]
      rw [attachConvention]
      apply meets_operation
      · exact fun _ _ _ done => .convention function convention.code isLast.tagged done
      · exact fun _ => rfl
      · intro _ after _ done
        obtain ⟨_, rfl⟩ := Prod.mk.inj ((answer _).mp done)
        obtain ⟨stillLast, configured⟩ := isLast.edit drafted (fun entry =>
          { entry with convention := convention.code }) (fun _ => rfl) rfl
        exact ⟨trivial, configured, stillLast⟩
      · exact fun _ => ⟨_, _, (answer _).mpr rfl⟩

/-- An empty strategy sets none. -/
theorem collector_meets (drafted : context.Drafted terms.settings)
    (isLast : Last function earlier entry context) (bare : entry.collector = none)
    (collector : Option String) :
    Meets terms (attachCollector function collector) context True
      fun _ after => Configured [] context after ∧ Last function earlier { entry with
        collector := collector.filter fun strategy => strategy ≠ "" } after := by
  cases collector with
  | none =>
      refine meets_pure trivial ⟨.refl context, ?_⟩
      rw [Option.filter_none, ← bare]
      exact isLast
  | some strategy =>
      have answer : ∀ result, context.setCollector function strategy = .ok result ↔
          ((), context.updateFunction function.index fun entry =>
            { entry with collector := if strategy = "" then none else some strategy }.edited) =
              result := by
        intro result
        rw [Context.setCollector, Context.editFunction_eq_ok, and_iff_right (isLast.live drafted)]
      rw [attachCollector]
      apply meets_perform (.setCollector function strategy) rfl isLast.tagged fun _ => rfl
      · intro _ after _ done
        obtain ⟨_, rfl⟩ := Prod.mk.inj ((answer _).mp done)
        obtain ⟨stillLast, configured⟩ := isLast.edit drafted
          (fun entry => { entry with collector := if strategy = "" then none else some strategy })
          (fun _ => rfl) rfl
        refine ⟨trivial, configured, ?_⟩
        have same : (some strategy).filter (fun strategy => strategy ≠ "") =
            if strategy = "" then none else some strategy := by
          by_cases empty : strategy = "" <;> simp [empty]
        rw [same]
        exact stillLast
      · exact fun _ => ⟨_, _, (answer _).mpr rfl⟩

theorem addAttribute_meets (drafted : context.Drafted terms.settings)
    (isLast : Last function earlier entry context) (site : Site) (value : Attribute) :
    Meets terms (perform (.addAttribute function site value)) context
      (∀ position, site = .parameter position → position < entry.parameters.length)
      fun _ after => Configured [] context after ∧ Last function earlier { entry with
        attributes := entry.attributes.insert site value } after := by
  apply meets_reported (.addAttribute function site value) rfl isLast.tagged
  · intro _ after done
    obtain ⟨inside, equal⟩ := (isLast.addAttribute_eq_ok drafted).mp done
    obtain ⟨_, rfl⟩ := Prod.mk.inj equal
    obtain ⟨stillLast, configured⟩ := isLast.placing drafted site value
    exact ⟨inside, configured, stillLast⟩
  · exact fun inside => ⟨_, (isLast.addAttribute_eq_ok drafted).mpr ⟨inside, rfl⟩⟩

/-- Attributes can be placed on the function, its result and the parameters that it has. -/
theorem attributes_meets (list : List PlacedAttribute) (drafted : context.Drafted terms.settings)
    (isLast : Last function earlier entry context) :
    Meets terms
      (list.forM fun placed => perform (.addAttribute function placed.site placed.value)) context
      (∀ placed ∈ list, ∀ position, placed.site = .parameter position →
        position < entry.parameters.length)
      fun _ after => Configured [] context after ∧ Last function earlier { entry with
        attributes := entry.attributes.insertAll
          (list.map fun placed => ⟨placed.site, placed.value⟩) } after := by
  induction list generalizing context entry with
  | nil => exact meets_pure (by simp) ⟨.refl context, isLast⟩
  | cons placed rest inductionHypothesis =>
      show Meets terms (perform (.addAttribute function placed.site placed.value) >>= fun _ =>
        rest.forM fun placed => perform (.addAttribute function placed.site placed.value)) context _ _
      apply (addAttribute_meets drafted isLast placed.site placed.value).bind fun whole =>
        whole placed List.mem_cons_self
      rintro _ between steps inside ⟨configured, isLast⟩
      refine (inductionHypothesis (steps.drafted drafted) isLast).weaken ?_ ?_
      · rw [List.forall_mem_cons, and_iff_right inside]
      · rintro _ after _ _ ⟨more, isLast⟩
        exact ⟨configured.trans more, isLast⟩

theorem attach_meets
    (accepted : ∀ convention : CallConvention, terms.accepts convention.code = true)
    (drafted : context.Drafted terms.settings) (isLast : Last function earlier entry context)
    (bare : entry.collector = none) {described : Function}
    (counted : entry.parameters.length = described.parameters.length) :
    Meets terms (attach terms function described) context
      (∀ placed ∈ described.attributes, ∀ position, placed.site = .parameter position →
        position < described.parameters.length)
      fun _ after => Configured [] context after ∧ Last function earlier { entry with
        convention := (described.convention.map CallConvention.code).getD entry.convention
        collector := described.collector.filter fun strategy => strategy ≠ ""
        attributes := entry.attributes.insertAll
          (described.attributes.map fun placed => ⟨placed.site, placed.value⟩) } after := by
  rw [attach_eq, ← counted]
  apply (convention_meets accepted drafted isLast described.convention).bind fun _ => trivial
  rintro _ between steps _ ⟨first, isLast⟩
  have drafted := steps.drafted drafted
  apply (collector_meets drafted isLast bare described.collector).bind fun _ => trivial
  rintro _ between steps _ ⟨second, isLast⟩
  refine (attributes_meets described.attributes (steps.drafted drafted) isLast).weaken Iff.rfl ?_
  rintro _ after _ _ ⟨third, isLast⟩
  exact ⟨first.trans (second.trans third), isLast⟩

end TypedIR.Description
