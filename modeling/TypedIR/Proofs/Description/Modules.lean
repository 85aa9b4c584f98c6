import TypedIR.Proofs.Description.Bodies
import TypedIR.Proofs.Description.Declarations

/-!
Contract: what building a whole description comes to.

Owns:
- work done on each function of a module in turn, which leaves the other ones alone;
- personalities and bodies of all functions;
- that a fresh context can be populated exactly if the description is accepted, and then
  holds its module.
-/

namespace TypedIR.Description

open Construction

variable {terms : Terms} {settings : Settings} {description : Module}
  {base context before between after : Context}

/-! ### One function after the other -/

section Each

variable {run : FunctionEntry × Function → Construction Unit}
  {possible : FunctionEntry × Function → Prop}
  {done : FunctionEntry × Function → Context → Prop}

/-- Work that changes one function of the module is done on several different ones. What has been
done on one of them stays done. -/
theorem meets_each
    (kept : ∀ {function item before after}, Elsewhere function before after →
      item.1.self ≠ function → done item before → done item after)
    (list : List (FunctionEntry × Function))
    (each : ∀ item ∈ list, ∀ between, between.Drafted terms.settings → base.Onward between →
      between.function? item.1.self = some item.1 →
      Meets terms (run item) between (possible item) fun _ after =>
        Elsewhere item.1.self between after ∧ done item after)
    (distinct : (list.map fun item => item.1.self).Nodup)
    (drafted : context.Drafted terms.settings) (goes : base.Onward context)
    (ready : ∀ item ∈ list, context.function? item.1.self = some item.1) :
    Meets terms (list.forM run) context (∀ item ∈ list, possible item)
      fun _ after => base.Onward after ∧ (∀ item ∈ list, done item after) ∧
        ∀ item, item.1.self ∉ list.map (fun item => item.1.self) → done item context →
          done item after := by
  induction list generalizing context with
  | nil => exact meets_pure (by simp) ⟨goes, by simp, fun _ _ isDone => isDone⟩
  | cons item rest inductionHypothesis =>
      obtain ⟨first, others⟩ := List.forall_mem_cons.mp each
      obtain ⟨found, waiting⟩ := List.forall_mem_cons.mp ready
      obtain ⟨fresh, distinctRest⟩ := List.nodup_cons.mp distinct
      show Meets terms (run item >>= fun _ => rest.forM run) context _ _
      apply (first context drafted goes found).bind fun whole => whole item List.mem_cons_self
      rintro _ between steps holds ⟨elsewhere, isDone⟩
      have apart : ∀ other ∈ rest, other.1.self ≠ item.1.self := fun other listed same =>
        fresh (List.mem_map.mpr ⟨other, listed, same⟩)
      refine (inductionHypothesis others distinctRest (steps.drafted drafted)
        (goes.trans elsewhere.toOnward) fun other listed => ?_).weaken ?_ ?_
      · exact (elsewhere.functions _ (apart other listed)).trans (waiting other listed)
      · rw [List.forall_mem_cons, and_iff_right holds]
      · rintro _ after _ _ ⟨onward, restDone, still⟩
        refine ⟨onward, List.forall_mem_cons.mpr ⟨still item fresh isDone, restDone⟩,
          fun other absent wasDone => ?_⟩
        rw [List.map_cons, List.mem_cons, not_or] at absent
        exact still other absent.2 (kept elsewhere absent.1 wasDone)

end Each

/-- What holds of each function as it is found holds of all of them in order. -/
theorem forall₂_of_each {list : List Function} {related : Function → FunctionEntry → Prop}
    (drafted : after.Drafted settings) (goes : base.Onward after)
    (counted : list.length = base.functions.length)
    (each : ∀ item ∈ base.functions.zip list, ∃ changed,
      after.function? item.1.self = some changed ∧ related item.2 changed) :
    List.Forall₂ related list after.functions := by
  have lengths : after.functions.length = base.functions.length := by
    simpa using congrArg List.length goes.heads
  refine List.forall₂_iff_get.mpr ⟨counted.trans lengths.symm, fun position inside other => ?_⟩
  have among : position < base.functions.length := lengths ▸ other
  have paired : (base.functions[position], list[position]) ∈ base.functions.zip list :=
    List.mem_iff_getElem.mpr
      ⟨position, List.length_zip ▸ Nat.lt_min.mpr ⟨among, inside⟩, List.getElem_zip⟩
  have same : after.functions[position].self = base.functions[position].self := by
    have heads := List.getElem_of_eq goes.heads (by simpa using other)
    rw [List.getElem_map, List.getElem_map] at heads
    have selves := congrArg FunctionEntry.self heads
    exact selves
  obtain ⟨changed, found, holds⟩ := each _ paired
  rw [← same, Context.function?_of_mem drafted.regular.coherent.owned.functions.distinct
    (List.getElem_mem other)] at found
  obtain rfl := Option.some.inj found
  exact holds

/-- Something holds of each description if it holds of those that are paired with a function. -/
theorem forall_zip_iff {list : List Function} {holds : Function → Prop}
    (counted : list.length = base.functions.length) :
    (∀ item ∈ base.functions.zip list, holds item.2) ↔ ∀ described ∈ list, holds described := by
  have seconds : (base.functions.zip list).map Prod.snd = list :=
    List.map_snd_zip (Nat.le_of_eq counted)
  conv_rhs => rw [← seconds]
  exact List.forall_mem_map.symm

/-- Work on all functions of a module, one after the other, leaves each of them as the work on it
does. -/
theorem meets_module {run : FunctionEntry × Function → Construction Unit}
    {possible : Function → Prop} {related : Context → Function → FunctionEntry → Prop}
    {list : List Function} (drafted : base.Drafted terms.settings)
    (counted : list.length = base.functions.length)
    (kept : ∀ {function before after described entry}, Elsewhere function before after →
      entry.self ≠ function → related before described entry → related after described entry)
    (each : ∀ item ∈ base.functions.zip list, ∀ between, between.Drafted terms.settings →
      base.Onward between → between.function? item.1.self = some item.1 →
      Meets terms (run item) between (possible item.2) fun _ after =>
        Elsewhere item.1.self between after ∧ ∃ changed,
          after.function? item.1.self = some changed ∧ related after item.2 changed) :
    Meets terms ((base.functions.zip list).forM run) base (∀ described ∈ list, possible described)
      fun _ after => base.Onward after ∧ List.Forall₂ (related after) list after.functions := by
  have distinct := drafted.regular.coherent.owned.functions.distinct
  have selves : (base.functions.zip list).map (fun item => item.1.self) =
      base.functions.map fun entry => entry.self := by
    have firsts := congrArg (List.map FunctionEntry.self)
      (List.map_fst_zip (Nat.le_of_eq counted.symm))
    rwa [List.map_map] at firsts
  have ready : ∀ item ∈ base.functions.zip list, base.function? item.1.self = some item.1 :=
    fun item listed => Context.function?_of_mem distinct (List.of_mem_zip listed).1
  refine (meets_each ?_ _ each (selves ▸ distinct) drafted (.refl base) ready).weaken
    (forall_zip_iff counted).symm ?_
  · rintro function item before after elsewhere different ⟨changed, found, isRelated⟩
    have self := (Context.mem_of_function? found).2
    exact ⟨changed, (elsewhere.functions _ different).trans found,
      kept elsewhere (self.trans_ne different) isRelated⟩
  · rintro _ after steps _ ⟨goes, allDone, _⟩
    exact ⟨goes, forall₂_of_each (steps.drafted drafted) goes counted allDone⟩

/-! ### Personalities -/

theorem setPersonality_meets {entry : FunctionEntry} (drafted : context.Drafted terms.settings)
    (functions : List.Forall₂ (Function.Declared terms.settings context) description.functions
      context.functions)
    (found : context.function? entry.self = some entry) (impersonal : entry.personality = none)
    (described : Function) :
    Meets terms (setPersonality (context.functionId entry.self) described) context
      (described.PersonalityNamed description)
      fun _ after => Elsewhere entry.self context after ∧ ∃ personality,
        after.function? entry.self = some { entry with personality := personality } ∧
          described.HasPersonality after { entry with personality := personality } := by
  unfold setPersonality Function.PersonalityNamed Function.HasPersonality
  cases described.personality with
  | none =>
      refine meets_pure (by simp) ⟨.refl _ context, none, ?_, .none⟩
      rw [found, ← impersonal]
  | some written =>
      apply (findFunction_meets drafted functions written).bind fun whole => whole written rfl
      rintro personality context _ named ⟨rfl, tagged, isNamed, _, other, _, otherFound, _⟩
      have unverified := drafted.unverified entry (Context.mem_of_function? found).1
      have answer : ∀ result,
          context.setPersonality (context.functionId entry.self) personality = .ok result ↔
            ((), context.updateFunction entry.self fun entry =>
              { entry with personality := some personality.index }.edited) = result := by
        intro result
        rw [Context.setPersonality_eq_ok]
        exact ⟨fun done => done.2.2,
          fun equal => ⟨⟨tagged, other, otherFound⟩, ⟨rfl, entry, found⟩, equal⟩⟩
      apply meets_perform (.setPersonality (context.functionId entry.self) personality) rfl rfl
      · exact fun _ => Operation.guarded_passes (Operation.requireHomeValue_of_home tagged) rfl
      · intro _ after _ done
        obtain ⟨_, rfl⟩ := Prod.mk.inj ((answer _).mp done)
        have elsewhere : Elsewhere entry.self context
            (context.updateFunction entry.self fun entry =>
              { entry with personality := some personality.index }.edited) :=
          elsewhere_updateFunction drafted fun _ => by rfl
        refine ⟨fun written same => ?_, elsewhere, some personality.index, ?_, .some ?_⟩
        · obtain rfl := Option.some.inj same
          exact named
        · rw [Context.function?_updateFunction fun _ => by rfl, if_pos rfl, found]
          exact congrArg some (Context.edited_of_unverified unverified)
        · rw [elsewhere.named]
          exact isNamed
      · exact fun _ => ⟨_, _, (answer _).mpr rfl⟩

/-- The functions of a context with their descriptions, as the work on them names them. -/
def handed (base : Context) (list : List Function) : List (FunctionId × Function) :=
  (base.functions.map fun entry => base.functionId entry.self).zip list

theorem forM_handed (list : List Function) (run : FunctionId × Function → Construction Unit) :
    (handed base list).forM run = (base.functions.zip list).forM fun item =>
      run (base.functionId item.1.self, item.2) := by
  rw [handed, List.zip_map_left]
  exact List.forM_map

theorem handed_onward (goes : base.Onward context) (list : List Function) :
    handed context list = handed base list := by
  have selves : context.functions.map (fun entry => context.functionId entry.self) =
      base.functions.map fun entry => base.functionId entry.self := by
    have viewed := congrArg (List.map fun entry : FunctionEntry => base.functionId entry.self)
      goes.heads
    rw [List.map_map, List.map_map] at viewed
    unfold Context.functionId
    rw [goes.id]
    exact viewed
  rw [handed, selves, handed]

theorem setPersonalities_eq (list : List (FunctionId × Function)) :
    setPersonalities list = list.forM fun item => setPersonality item.1 item.2 := by
  induction list with
  | nil => rfl
  | cons item rest inductionHypothesis =>
      rw [setPersonalities, inductionHypothesis]
      rfl

theorem buildBodies_eq (terms : Terms) (list : List (FunctionId × Function)) :
    buildBodies terms list = list.forM fun item =>
      within (.function item.2.name) (buildBody terms item.1 item.2) := by
  induction list with
  | nil => rfl
  | cons item rest inductionHypothesis =>
      rw [buildBodies, inductionHypothesis]
      rfl

section Work

variable (drafted : base.Drafted terms.settings)
  (declared : List.Forall₂ (Function.Declared terms.settings base) description.functions
    base.functions)

include drafted declared

theorem setPersonalities_meets (impersonal : ∀ entry ∈ base.functions, entry.personality = none)
    (bodiless : ∀ entry ∈ base.functions, entry.blocks = []) :
    Meets terms (setPersonalities (handed base description.functions)) base
      (∀ described ∈ description.functions, described.PersonalityNamed description)
      fun _ after => base.Onward after ∧
        List.Forall₂
          (fun described entry => described.HasPersonality after entry ∧ entry.blocks = [])
          description.functions after.functions := by
  rw [setPersonalities_eq, forM_handed]
  apply meets_module drafted declared.length_eq
  · rintro _ before after described entry elsewhere _ ⟨personality, empty⟩
    exact ⟨personality.onward elsewhere.toOnward, empty⟩
  · rintro ⟨entry, described⟩ listed between laterDrafted goes found
    have member := (List.of_mem_zip listed).1
    rw [← Context.functionId_congr goes.id]
    refine (setPersonality_meets laterDrafted (declared_onward goes declared) found
      (impersonal entry member) described).weaken Iff.rfl ?_
    rintro _ after _ _ ⟨elsewhere, personality, foundAfter, has⟩
    exact ⟨elsewhere, _, foundAfter, has, bodiless entry member⟩

theorem buildBodies_meets (distinct : description.DistinctNames)
    (waiting : List.Forall₂ (fun described entry =>
        Function.HasPersonality base described entry ∧ entry.blocks = [])
      description.functions base.functions) :
    Meets terms (buildBodies terms (handed base description.functions)) base
      (∀ described ∈ description.functions,
        described.BodyAccepted terms.settings.maxIntegerWidth description)
      fun _ after => base.Onward after ∧
        List.Forall₂ (Function.Built terms.settings after) description.functions
          after.functions := by
  rw [buildBodies_eq, forM_handed]
  apply meets_module drafted declared.length_eq
  · intro function before after described entry elsewhere different built
    exact built.onward elsewhere.toOnward fun position block found owner =>
      elsewhere.blocks position block found (owner.trans_ne different)
  · rintro ⟨entry, described⟩ listed between laterDrafted goes found
    have isDeclared := List.forall₂_zip declared.flip listed
    obtain ⟨personality, empty⟩ := List.forall₂_zip waiting.flip listed
    rw [← Context.functionId_congr goes.id]
    refine ((buildBody_meets distinct laterDrafted (Context.mem_of_function? found).1 empty
      (declared_onward goes declared) (isDeclared.onward goes)).within _).weaken Iff.rfl ?_
    rintro _ after _ _ ⟨elsewhere, blocks, foundAfter, built⟩
    have later := goes.trans elsewhere.toOnward
    refine ⟨elsewhere, _, foundAfter, ?_, personality.onward later, built⟩
    have bare : described.Declared terms.settings after entry.bare :=
      Function.declared_bare.mpr (isDeclared.onward later)
    exact Function.declared_bare.mp bare

end Work

/-! ### Whole modules -/

/-- A context without functions can be populated exactly if the description is accepted. -/
theorem populate_meets
    (accepted : ∀ convention : CallConvention, terms.accepts convention.code = true)
    (drafted : context.Drafted terms.settings) (empty : context.functions = [])
    (moduleName : context.moduleName = description.name) :
    Meets terms (populate terms description) context
      (description.Accepted terms.settings.maxIntegerWidth)
      fun _ after => description.Built terms.settings after := by
  have free : ∀ name, context.functionNamed? name = none := by
    intro name
    unfold Context.functionNamed?
    rw [empty]
    simp
  rw [populate]
  apply (declareAll_meets accepted description.functions drafted).bind
  · exact fun whole => ⟨whole.declarable, whole.names, fun described _ => free described.name⟩
  rintro _ declared toDeclared ⟨declarable, names⟩ ⟨entries, rfl, introduced⟩
  have declaredDrafted := toDeclared.drafted drafted
  have functions : declared.functions = entries := by
    rw [introduced.functions, empty, List.nil_append]
  have same : (entries.map fun entry => context.functionId entry.self).zip description.functions =
      handed declared description.functions := by
    unfold handed Context.functionId
    rw [functions, introduced.id]
  have isDeclared := introduced.declared
  rw [← functions] at isDeclared
  dsimp only
  rw [same]
  apply (setPersonalities_meets declaredDrafted isDeclared ?_ ?_).bind fun whole =>
    whole.personalities
  · rintro _ named toNamed personalities ⟨goes, waiting⟩
    rw [← handed_onward goes]
    apply (buildBodies_meets (toNamed.drafted declaredDrafted) (declared_onward goes isDeclared)
      names.distinct waiting).bind fun whole => whole.bodies
    rintro _ after _ bodies ⟨more, built⟩
    refine meets_emit ⟨names.distinct, declarable, personalities, bodies⟩ ⟨?_, built⟩
    rw [more.moduleName, goes.moduleName, introduced.moduleName, moduleName]
  · rw [functions]
    exact introduced.impersonal
  · rw [functions]
    exact introduced.bodiless

end TypedIR.Description
