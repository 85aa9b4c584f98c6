import TypedIR.Proofs.Description.Blocks

/-!
Contract: what building a body comes to.

Owns:
- changes that leave alone all functions but one;
- the blocks that are appended before the instructions, with their names unchanged;
- the locals that parameters make;
- that a body can be built exactly if its blocks have different names and it is typed.
-/

namespace TypedIR.Description

open Construction

variable {terms : Terms} {description : Module} {home : Function} {scope : Scope}
  {types : Locals TypeTree} {context before between after : Context} {function : ValueRef}

/-! ### A change of one function -/

/-- Nothing but one function and its blocks changes. -/
structure Elsewhere (function : ValueRef) (before after : Context) : Prop
    extends before.Onward after where
  functions : ∀ other, other ≠ function → after.function? other = before.function? other
  blocks : ∀ block entry, before.block? block = some entry → entry.function ≠ function →
    after.block? block = some entry

theorem Elsewhere.refl (function : ValueRef) (context : Context) :
    Elsewhere function context context :=
  ⟨.refl context, fun _ _ => rfl, fun _ _ found _ => found⟩

theorem Elsewhere.trans (first : Elsewhere function before between)
    (second : Elsewhere function between after) : Elsewhere function before after where
  toOnward := first.toOnward.trans second.toOnward
  functions other different :=
    (second.functions other different).trans (first.functions other different)
  blocks block entry found different :=
    second.blocks block entry (first.blocks block entry found different) different

theorem elsewhere_updateFunction {settings : Settings} (drafted : context.Drafted settings)
    {change : FunctionEntry → FunctionEntry} (bare : ∀ entry, (change entry).bare = entry.bare) :
    Elsewhere function context (context.updateFunction function change) where
  toOnward := Context.onward_updateFunction drafted bare rfl
  functions other different := by
    refine (Context.function?_updateFunction fun entry => ?_).trans (if_neg different)
    show (change entry).bare.self = entry.bare.self
    rw [bare entry]
  blocks _ _ found _ := found

/-! ### Blocks that are appended -/

/-- A name that is not taken stays as it is. -/
theorem ofBlock_of_not_mem {taken : List String} {name : String} (fresh : name ∉ taken) :
    Label.ofBlock taken name = name := by
  unfold Label.ofBlock Label.unique
  by_cases anonymous : name = ""
  · rw [if_pos anonymous, anonymous]
  · rw [if_neg anonymous, if_neg fresh]

theorem elsewhere_withBlock {settings : Settings} (drafted : context.Drafted settings)
    (function : ValueRef) (name : String) :
    Elsewhere function context (context.withBlock function name) where
  toOnward := by
    have unfolded : context.withBlock function name = { context.updateFunction function fun entry =>
        { entry with blocks := entry.blocks ++ [context.blocks.size] }.edited with
      blocks := (context.withBlock function name).blocks } := rfl
    exact Context.onward_updateFunction drafted (fun _ => by rfl) unfolded
  functions other different := Context.function?_withBlock.trans (if_neg different)
  blocks block home found _ := Context.block?_withBlock.mpr (.inl found)

/-- The function has exactly the given blocks, which are empty and have different names. -/
structure Laid (function : ValueRef) (entry : FunctionEntry) (blocks : List (String × BlockId))
    (context : Context) : Prop where
  found : context.function? function =
    some { entry with blocks := blocks.map fun block => block.2.index }
  empty : ∀ block ∈ blocks, context.resolveBlock block.2 = .ok ⟨function, block.1, []⟩
  distinct : (blocks.map (·.1)).Nodup

section Laid

variable {settings : Settings} {entry : FunctionEntry} {blocks : List (String × BlockId)}

theorem Laid.taken (laid : Laid function entry blocks context) :
    (blocks.map fun block => block.2.index).filterMap
      (fun block => (context.block? block).map (·.name)) = blocks.map (·.1) := by
  rw [List.filterMap_map, List.filterMap_eq_map_iff_forall_eq_some]
  intro block listed
  have found := (Context.resolveBlock_eq_ok.mp (laid.empty block listed)).2
  show (context.block? block.2.index).map (·.name) = _
  rw [found]
  rfl

/-- A block with a name of its own comes behind the others. -/
theorem Laid.append (laid : Laid function entry blocks context)
    (unverified : entry.state = .unverified) {name : String} (fresh : name ∉ blocks.map (·.1)) :
    Laid function entry (blocks ++ [(name, context.blockId context.blocks.size)])
      (context.withBlock function name) where
  found := by
    rw [Context.function?_withBlock, if_pos rfl, laid.found, List.map_append]
    exact congrArg some (Context.edited_of_unverified unverified)
  empty := by
    intro block listed
    rcases List.mem_append.mp listed with old | new
    · obtain ⟨tagged, found⟩ := Context.resolveBlock_eq_ok.mp (laid.empty block old)
      exact Context.resolveBlock_eq_ok.mpr ⟨tagged, Context.block?_withBlock.mpr (.inl found)⟩
    · obtain rfl := List.mem_singleton.mp new
      exact Context.resolveBlock_eq_ok.mpr
        ⟨rfl, Context.block?_withBlock.mpr (.inr ⟨rfl, rfl⟩)⟩
  distinct := by
    rw [List.map_append]
    exact List.nodup_append.mpr ⟨laid.distinct, List.nodup_singleton _, by
      rintro one listed _ new rfl
      rw [List.mem_singleton.mp new] at listed
      exact fresh listed⟩

end Laid

/-- A block comes behind the others, with its name or one that is made from it. -/
theorem appendBlock_meets {function : FunctionId} {entry : FunctionEntry} {name : String}
    {blocks : List (String × BlockId)} (tagged : function.context = context.id)
    (laid : Laid function.index entry blocks context) :
    Meets terms (perform (.appendBlock function name)) context True
      fun appended after => appended = context.blockId context.blocks.size ∧
        after = context.withBlock function.index (Label.ofBlock (blocks.map (·.1)) name) := by
  apply meets_reported (.appendBlock function name) rfl tagged
  · intro appended after done
    obtain ⟨_, other, found, equal⟩ := Context.appendBlock_eq_ok.mp done
    obtain rfl := Option.some.inj (found.symm.trans laid.found)
    rw [laid.taken] at equal
    obtain ⟨rfl, rfl⟩ := Prod.mk.inj equal
    exact ⟨trivial, rfl, rfl⟩
  · exact fun _ => ⟨_, Context.appendBlock_eq_ok.mpr ⟨tagged, _, laid.found, rfl⟩⟩

/-- Blocks can be appended exactly if their names and those of the blocks before differ. -/
theorem appendBlocks_meets {function : FunctionId} {entry : FunctionEntry}
    (unverified : entry.state = .unverified) (list : List Block) {blocks : List (String × BlockId)}
    (drafted : context.Drafted terms.settings) (tagged : function.context = context.id)
    (laid : Laid function.index entry blocks context) :
    Meets terms (appendBlocks function blocks list) context
      (blocks.map (·.1) ++ list.map (·.name)).Nodup
      fun appended after => Laid function.index entry appended after ∧
        appended.map (·.1) = blocks.map (·.1) ++ list.map (·.name) ∧
        Elsewhere function.index context after := by
  induction list generalizing context blocks with
  | nil =>
      rw [List.map_nil, List.append_nil]
      exact meets_pure laid.distinct ⟨laid, rfl, .refl _ context⟩
  | cons block rest inductionHypothesis =>
      rw [appendBlocks]
      apply (appendBlock_meets tagged laid).bind fun _ => trivial
      rintro _ after steps _ ⟨rfl, rfl⟩
      have moved : blocks.map (·.1) ++ (block :: rest).map (·.name) =
          (blocks ++ [(block.name, context.blockId context.blocks.size)]).map (·.1) ++
            rest.map (·.name) := by
        simp
      have looked : (blocks.lookup block.name).isSome = true ↔ block.name ∈ blocks.map (·.1) := by
        simp [List.lookup_isSome_iff]
      dsimp only
      split
      · next duplicate =>
        apply meets_bind_fail
        intro distinct
        exact List.disjoint_of_nodup_append distinct (looked.mp duplicate)
          (List.mem_map_of_mem List.mem_cons_self)
      · next absent =>
        have fresh : block.name ∉ blocks.map (·.1) := fun taken => absent (looked.mpr taken)
        rw [ofBlock_of_not_mem fresh] at steps ⊢
        have laidAfter := laid.append unverified fresh
        have elsewhere := elsewhere_withBlock drafted function.index block.name
        rw [moved]
        refine (inductionHypothesis (steps.drafted drafted) (tagged.trans elsewhere.id.symm)
          laidAfter).weaken Iff.rfl ?_
        rintro appended after _ _ ⟨laidLast, names, others⟩
        exact ⟨laidLast, names, elsewhere.trans others⟩

/-! ### Parameters -/

theorem Locals.forall₂_ofList {α β : Type} {related : α → β → Prop} {left : List (String × α)}
    {right : List (String × β)}
    (each : List.Forall₂ (fun first second => first.1 = second.1 ∧ related first.2 second.2)
      left right) :
    List.Forall₂ (fun first second => first.1 = second.1 ∧ related first.2 second.2)
      (ofList left) (ofList right) := by
  unfold ofList
  rw [List.forall₂_reverse_iff]
  induction each with
  | nil => exact .nil
  | cons both _ inductionHypothesis =>
      rw [List.filter_cons, List.filter_cons, ← both.1]
      split
      · exact .cons both inductionHypothesis
      · exact inductionHypothesis

theorem Locals.map_ofList {α β : Type} (view : α → β) (list : List (String × α)) :
    (ofList list).map (fun entry => (entry.1, view entry.2)) =
      ofList (list.map fun entry => (entry.1, view entry.2)) := by
  unfold ofList
  rw [List.map_reverse, List.filter_map]
  rfl

/-- Each parameter has a name and a type. -/
theorem exists_named {parameters : List Parameter} {values : List ValueRef}
    (declared : List.Forall₂ (Parameter.Declared context) parameters values) :
    ∃ named : List (String × ValueId),
      List.Forall₂ (fun value entry =>
        (do return ((← context.resolveValue (context.valueId value)).name, context.valueId value)) =
          Except.ok entry) values named ∧
      List.Forall₂ (fun entry type => entry.1 = type.1 ∧ context.Carries entry.2 type.2) named
        (parameters.map fun parameter => (parameter.name, parameter.type.tree)) ∧
      named.map (fun entry => (entry.1, entry.2.index)) =
        (parameters.map fun parameter => parameter.name).zip values := by
  induction declared with
  | nil => exact ⟨[], .nil, .nil, rfl⟩
  | @cons parameter value parameters values first _ inductionHypothesis =>
      obtain ⟨type, kind, held, known⟩ := first
      obtain ⟨named, read, typed, names⟩ := inductionHypothesis
      refine ⟨(parameter.name, context.valueId value) :: named, .cons ?_ read, .cons ⟨rfl, ?_⟩ typed,
        ?_⟩
      · rw [Context.resolveValue_eq_ok.mpr ⟨rfl, held⟩]
        rfl
      · exact Context.Carries.of_tree rfl held rfl known
      · rw [List.map_cons, names]
        rfl

/-- The locals in front of a body are the named parameters with their types. -/
theorem parameterLocals_meets {settings : Settings} {function : FunctionId} {entry : FunctionEntry}
    (tagged : function.context = context.id)
    (found : context.function? function.index = some entry)
    (declared : home.Declared settings context entry) :
    Meets terms (parameterLocals function) context True fun locals after =>
      after = context ∧
        List.Forall₂ (fun entry type => entry.1 = type.1 ∧ context.Carries entry.2 type.2) locals
          home.parameterLocals ∧
        locals.map (fun entry => (entry.1, entry.2.index)) = home.parameterValues entry := by
  obtain ⟨named, read, typed, names⟩ := exists_named declared.parameters
  have answered : (do
      let entry ← context.resolveFunction function
      entry.parameters.mapM fun parameter => do
        let value := context.valueId parameter
        return ((← context.resolveValue value).name, value)) = Except.ok named := by
    rw [Context.resolveFunction_eq_ok.mpr ⟨tagged, found⟩]
    exact mapM_eq_ok.mpr read
  refine meets_bind_inspect answered
    (meets_pure trivial ⟨rfl, Locals.forall₂_ofList typed, ?_⟩)
  refine (Locals.map_ofList _ named).trans ?_
  rw [names]
  rfl

/-! ### Whole bodies -/

/-- Blocks of the names described pair off with the descriptions. -/
theorem zip_blocks {blocks : List (String × BlockId)} {described : List Block}
    (names : blocks.map (·.1) = described.map (·.name)) :
    ((blocks.map (·.2)).zip described).map (·.1) = blocks.map (·.2) ∧
      ((blocks.map (·.2)).zip described).map (·.2) = described ∧
      ∀ entry ∈ (blocks.map (·.2)).zip described, (entry.2.name, entry.1) ∈ blocks := by
  have counted : blocks.length = described.length := by
    simpa using congrArg List.length names
  refine ⟨List.map_fst_zip (by simp [counted]), List.map_snd_zip (by simp [counted]), ?_⟩
  have each : List.Forall₂ (fun block other => block.1 = other.name) blocks described :=
    List.forall₂_map_left_iff.mp (List.forall₂_map_right_iff.mp (List.forall₂_eq_eq_eq ▸ names))
  intro entry listed
  rw [List.zip_map_left] at listed
  obtain ⟨⟨block, other⟩, pair, rfl⟩ := List.mem_map.mp listed
  have same : block.1 = other.name := List.forall₂_zip each pair
  exact same ▸ (List.of_mem_zip pair).1

/-- The function has the described body, and all other functions are as they were. -/
structure BodyDone (home : Function) (entry : FunctionEntry) (before after : Context) : Prop
    extends Elsewhere entry.self before after where
  built : ∃ blocks, after.function? entry.self = some { entry with blocks := blocks } ∧
    BlocksBuilt after (home.blockNames.zip blocks) entry.self (home.parameterValues entry)
      home.blocks blocks

/-- Blocks that have been laid can be filled in exactly if the body is typed. -/
theorem fillBlocks_meets (distinct : description.DistinctNames) {entry : FunctionEntry}
    {locals : List (String × ValueId)} {blocks : List (String × BlockId)}
    (drafted : context.Drafted terms.settings) (laid : Laid entry.self entry blocks context)
    (fits : (Scope.mk locals blocks).Fits terms.settings description home entry.self
      home.parameterLocals context)
    (values : (Scope.mk locals blocks).values = home.parameterValues entry) :
    Meets terms (buildBlocks terms ⟨locals, blocks⟩ ((blocks.map (·.2)).zip home.blocks)) context
      (∃ left, BodyTyped terms.settings.maxIntegerWidth description home home.parameterLocals
        home.body left)
      fun _ after => BodyDone home entry context after := by
  obtain ⟨firsts, seconds, pairs⟩ := zip_blocks fits.names
  have positions : ((blocks.map (·.2)).zip home.blocks).map (fun entry => entry.1.index) =
      blocks.map fun block => block.2.index := by
    have viewed := congrArg (List.map fun block : BlockId => block.index) firsts
    rwa [List.map_map, List.map_map] at viewed
  have body : ((blocks.map (·.2)).zip home.blocks).flatMap (fun entry => entry.2.instructions) =
      home.body := by
    have viewed := congrArg (List.flatMap fun block : Block => block.instructions) seconds
    rwa [List.flatMap_map] at viewed
  have targets : (Scope.mk locals blocks).targets =
      home.blockNames.zip (blocks.map fun block => block.2.index) := by
    rw [Scope.targets, ← fits.names, List.zip_map']
  have apart := (drafted.regular.coherent.owned.blocks.lists _
    (Context.mem_of_function? laid.found).1).1
  have filled := buildBlocks_meets distinct ((blocks.map (·.2)).zip home.blocks) drafted fits
    (fun block listed => laid.empty _ (pairs block listed)) (positions ▸ apart)
  rw [body] at filled
  refine filled.weaken Iff.rfl ?_
  rintro _ after _ _ ⟨grown, others, built⟩
  rw [targets, seconds, positions, values] at built
  refine ⟨⟨grown.toOnward, fun other _ => congrFun grown.function? other, ?_⟩, _,
    (congrFun grown.function? _).trans laid.found, built⟩
  intro block current found elsewhere
  refine (others block fun listed => elsewhere ?_).trans found
  obtain ⟨entry, paired, rfl⟩ := List.mem_map.mp listed
  have empty := (Context.resolveBlock_eq_ok.mp (laid.empty _ (pairs entry paired))).2
  rw [Option.some.inj (found.symm.trans empty)]

/-- The body of a declared function can be built exactly if it is accepted. -/
theorem buildBody_meets (distinct : description.DistinctNames) {entry : FunctionEntry}
    (drafted : context.Drafted terms.settings) (member : entry ∈ context.functions)
    (bodiless : entry.blocks = [])
    (functions : List.Forall₂ (Function.Declared terms.settings context) description.functions
      context.functions) (declared : home.Declared terms.settings context entry) :
    Meets terms (buildBody terms (context.functionId entry.self) home) context
      (home.BodyAccepted terms.settings.maxIntegerWidth description)
      fun _ after => BodyDone home entry context after := by
  have found : context.function? entry.self = some entry :=
    Context.function?_of_mem drafted.regular.coherent.owned.functions.distinct member
  have bare : Laid entry.self entry [] context :=
    ⟨by rw [found, List.map_nil, ← bodiless], by simp, .nil⟩
  rw [buildBody]
  apply (parameterLocals_meets rfl found declared).bind fun _ => trivial
  rintro locals _ _ _ ⟨rfl, carried, values⟩
  apply (appendBlocks_meets (drafted.unverified entry member) home.blocks drafted rfl bare).bind
    Function.BodyAccepted.blocks
  rintro blocks between steps apart ⟨laid, names, elsewhere⟩
  have fits : (Scope.mk locals blocks).Fits terms.settings description home entry.self
      home.parameterLocals between :=
    { functions := declared_onward elsewhere.toOnward functions
      locals := carried.imp fun _ _ both => ⟨both.1, both.2.onward elsewhere.toOnward⟩
      owner := ⟨_, laid.found, elsewhere.trees _ _ declared.signature⟩
      names := names
      live := fun block listed => Context.live_of_resolveBlock (laid.empty block listed) }
  refine (fillBlocks_meets distinct (steps.drafted drafted) laid fits values).weaken ?_ ?_
  · exact ⟨fun accepted => accepted.typed, fun typed => ⟨apart, typed⟩⟩
  · intro _ after _ _ done
    exact ⟨elsewhere.trans done.toElsewhere, done.built⟩

end TypedIR.Description
