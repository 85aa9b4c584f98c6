import TypedIR.Proofs.Description.Arguments

/-!
Contract: what building an instruction comes to.

Owns:
- scopes inside the body of a function, and the blocks that branches find in them;
- instructions at the end of a block, and what they leave as it was;
- that an instruction can be built exactly if it has a type, and then stands at the end
  of its block with the code that it denotes.

Does not own: the instructions of a block one after the other.
-/

namespace TypedIR.Description

open Construction

variable {terms : Terms} {description : Module} {home : Function} {scope : Scope}
  {types : Locals TypeTree} {context before between after : Context}

/-! ### Instructions at the end of a block -/

/-- The positions of a scope's blocks. -/
def Scope.targets (scope : Scope) : List (String × BlockRef) :=
  scope.blocks.map fun entry => (entry.1, entry.2.index)

/-- A scope inside the body of a function, which the description calls `home`. -/
structure Scope.Fits (settings : Settings) (description : Module) (home : Function)
    (function : ValueRef) (scope : Scope) (types : Locals TypeTree) (context : Context) : Prop
    extends scope.Knows settings description types context where
  owner : ∃ entry, context.function? function = some entry ∧
    context.tree? entry.signature = some home.signature
  names : scope.blocks.map (·.1) = home.blockNames
  live : ∀ entry ∈ scope.blocks, context.Live (.block entry.2)

/-- The instruction stands behind the others of its block, with the code that it denotes, and
carries its type. -/
structure InstructionBuilt (limit : UInt32) (description : Module) (home : Function)
    (types : Locals TypeTree) (scope : Scope) (before : Context) (block : BlockId)
    (current : TypedIR.Block) (instruction : Instruction) (value : ValueId) (after : Context) :
    Prop where
  grown : before.Grown after
  blocks : after.block? = Function.update before.block? block.index
    (some { current with instructions := current.instructions ++ [value.index] })
  typed : ∃ type, instruction.HasType limit description home types type ∧ after.Carries value type
  held : ∃ type code, after.value? value.index =
      some ⟨type, .instruction block.index code, instruction.resultName?.getD ""⟩ ∧
    instruction.Denotes after scope.values scope.targets code

/-- A scope fits as long as no block goes. -/
theorem Scope.Fits.onward {settings : Settings} {function : ValueRef}
    (fits : scope.Fits settings description home function types before)
    (grown : before.Grown after)
    (blocks : ∀ block entry, before.block? block = some entry →
      ∃ other, after.block? block = some other) :
    scope.Fits settings description home function types after where
  toKnows := fits.toKnows.onward grown
  owner := by
    obtain ⟨entry, found, signed⟩ := fits.owner
    exact ⟨entry, (congrFun grown.function? _).trans found, grown.trees _ _ signed⟩
  names := fits.names
  live entry listed := by
    obtain ⟨tagged, block, found⟩ := fits.live entry listed
    exact ⟨tagged.trans grown.id.symm, blocks _ _ found⟩

theorem Scope.Fits.ready {settings : Settings} {function : ValueRef}
    (fits : scope.Fits settings description home function types before)
    (ready : Ready settings before after) :
    scope.Fits settings description home function types after :=
  fits.onward ready.grown fun block entry found => ⟨entry, (congrFun ready.blocks block).trans found⟩

theorem resultName_getD (name : String) :
    (if name = "" then none else some name).getD "" = name := by
  by_cases anonymous : name = ""
  · rw [if_pos anonymous, anonymous]
    rfl
  · rw [if_neg anonymous]
    rfl

/-- The block of a branch is found exactly if the function has a block of the name. -/
theorem findBlock_meets {settings : Settings} {function : ValueRef}
    (fits : scope.Fits settings description home function types context) (target : String) :
    Meets terms (scope.findBlock target) context (withoutMark '%' target ∈ home.blockNames)
      fun block after => after = context ∧ context.Live (.block block) ∧
        scope.targets.lookup (withoutMark '%' target) = some block.index := by
  unfold Scope.findBlock
  rw [← fits.names]
  dsimp only
  cases found : scope.blocks.lookup (withoutMark '%' target) with
  | none =>
      apply meets_fail
      intro named
      obtain ⟨entry, listed, same⟩ := List.mem_map.mp named
      have missing := List.lookup_eq_none_iff.mp found entry listed
      simp [same] at missing
  | some block =>
      obtain ⟨before, rest, split, _⟩ := List.lookup_eq_some_iff.mp found
      have listed : (withoutMark '%' target, block) ∈ scope.blocks := by simp [split]
      refine meets_pure (List.mem_map_of_mem listed) ⟨rfl, fits.live _ listed, ?_⟩
      rw [Scope.targets, lookup_map, found]
      rfl

section Append

variable {limit : UInt32} {settings : Settings} {block : BlockId} {current : TypedIR.Block}
  {instruction : Instruction} {value : ValueId} {code : TypedIR.Instruction} {name : String}
  (ready : Ready settings context between) (resolved : context.resolveBlock block = .ok current)
  (denotes : instruction.Denotes between scope.values scope.targets code)
  (named : instruction.resultName?.getD "" = name)

include ready resolved denotes named

theorem InstructionBuilt.of_append {type : TypeRef} {tree : TypeTree}
    (typed : instruction.HasType limit description home types tree)
    (known : between.tree? type = some tree)
    (equal : between.appendInstruction current.function block.index type code name =
      (value, after)) :
    InstructionBuilt limit description home types scope context block current instruction value
      after := by
  obtain ⟨rfl, rfl⟩ := Prod.mk.inj equal
  have found := (Context.resolveBlock_eq_ok.mp (ready.resolveBlock resolved)).2
  have appended : between.Grown
      (between.appendInstruction current.function block.index type code name).2 :=
    Context.grown_appendInstruction ready.drafted
  have held : (between.appendInstruction current.function block.index type code name).2.value?
      between.values.size = some ⟨type, .instruction block.index code, name⟩ :=
    Context.value?_pushValue
  refine ⟨ready.grown.trans appended, ?_, ⟨tree, typed, ?_⟩, type, code, ?_, ?_⟩
  · rw [← ready.blocks]
    funext other
    refine Context.block?_appendInstruction.trans ?_
    rw [Function.update_apply]
    by_cases same : other = block.index
    · rw [if_pos same, if_pos same, same, found]
      rfl
    · rw [if_neg same, if_neg same]
  · exact Context.Carries.of_tree rfl held rfl (appended.trees _ _ known)
  · rw [named]
    exact held
  · exact denotes.onward appended.toOnward

/-- Terminators have the type `void`, which comes first if it was not there. -/
theorem InstructionBuilt.of_terminator
    (typed : instruction.HasType limit description home types .void) (anonymous : name = "")
    (equal : between.appendTerminator current.function block.index code = (value, after)) :
    InstructionBuilt limit description home types scope context block current instruction value
      after := by
  have interned : Interned settings between .void between.voidType.1 between.voidType.2 :=
    Context.intern_interned trivial
  have goes := (Context.grown_of_interned ready.drafted interned).toOnward
  rw [anonymous] at named
  exact .of_append (ready.interned interned) resolved (denotes.onward goes) named typed
    (interned.tree ready.drafted.regular) equal

end Append

/-! ### Each instruction -/

/-- The instruction can be built at the end of the block if it has a type. -/
def Instruction.Builds (terms : Terms) (description : Module) (home : Function)
    (types : Locals TypeTree) (scope : Scope) (context : Context) (block : BlockId)
    (current : TypedIR.Block) (instruction : Instruction) : Prop :=
  Meets terms (buildInstruction terms scope block instruction) context
    (∃ type, instruction.HasType terms.settings.maxIntegerWidth description home types type)
    (InstructionBuilt terms.settings.maxIntegerWidth description home types scope context block
      current instruction)

section Build

variable {function : ValueRef} {block : BlockId} {current : TypedIR.Block}
  (drafted : context.Drafted terms.settings)
  (fits : scope.Fits terms.settings description home function types context)
  (distinct : description.DistinctNames) (resolved : context.resolveBlock block = .ok current)

include drafted fits distinct resolved

theorem binary_builds (operator : BinaryOperator) (left right : Operand) (name : String) :
    (Instruction.binary operator left right name).Builds terms description home types scope context
      block current := by
  unfold Instruction.Builds buildInstruction
  apply operandPair_bind (.refl drafted) fits.toKnows left right
  · rintro ⟨_, typed⟩
    cases typed with
    | binary leftTyped rightTyped => exact ⟨⟨_, leftTyped⟩, _, rightTyped⟩
  intro leftValue rightValue last ready _ leftStands rightStands
  have regular := ready.drafted.regular
  have grounded := regular.coherent.grounded
  have resolved' := ready.resolveBlock resolved
  apply meets_reported (.binary block operator leftValue rightValue name) rfl
    (Context.resolveBlock_eq_ok.mp resolved').1
  · intro value after done
    obtain ⟨_, type, found, leftOwn, rightOwn, ⟨bits, shape⟩, equal⟩ :=
      Context.binary_eq_ok.mp done
    obtain rfl := Except.ok.inj (found.symm.trans resolved')
    have known := grounded.shape_integer_iff.mp shape
    have typed : (Instruction.binary operator left right name).HasType
        terms.settings.maxIntegerWidth description home types (.integer bits) :=
      .binary (leftStands.hasType_of_tree regular leftOwn known)
        (rightStands.hasType_of_tree regular rightOwn known)
    exact ⟨⟨_, typed⟩, .of_append ready resolved (.binary leftStands.denotes rightStands.denotes)
      (resultName_getD name) typed known equal⟩
  · rintro ⟨_, typed⟩
    cases typed with
    | binary leftTyped rightTyped =>
        obtain ⟨type, leftOwn, known⟩ := leftStands.carries distinct leftTyped
        exact ⟨_, Context.binary_eq_ok.mpr ⟨current, type, resolved', leftOwn,
          rightStands.own regular distinct rightTyped known,
          ⟨_, grounded.shape_integer_iff.mpr known⟩, rfl⟩⟩

theorem compare_builds (predicate : Predicate) (left right : Operand) (name : String) :
    (Instruction.compare predicate left right name).Builds terms description home types scope
      context block current := by
  unfold Instruction.Builds buildInstruction
  apply operandPair_bind (.refl drafted) fits.toKnows left right
  · rintro ⟨_, typed⟩
    cases typed with
    | compare leftTyped rightTyped => exact ⟨⟨_, leftTyped⟩, _, rightTyped⟩
  intro leftValue rightValue last ready _ leftStands rightStands
  have regular := ready.drafted.regular
  have grounded := regular.coherent.grounded
  have resolved' := ready.resolveBlock resolved
  apply meets_reported (.compare block predicate leftValue rightValue name) rfl
    (Context.resolveBlock_eq_ok.mp resolved').1
  · intro value after done
    obtain ⟨_, type, found, leftOwn, rightOwn, ⟨bits, shape⟩, fitsWidth, equal⟩ :=
      Context.compare_eq_ok.mp done
    obtain rfl := Except.ok.inj (found.symm.trans resolved')
    have known := grounded.shape_integer_iff.mp shape
    have typed : (Instruction.compare predicate left right name).HasType
        terms.settings.maxIntegerWidth description home types (.integer 1) :=
      .compare (leftStands.hasType_of_tree regular leftOwn known)
        (rightStands.hasType_of_tree regular rightOwn known)
    have interned : Interned terms.settings last (.integer 1) (last.intern (.integer 1)).1
        (last.intern (.integer 1)).2 := Context.intern_interned fitsWidth
    have goes := (Context.grown_of_interned ready.drafted interned).toOnward
    exact ⟨⟨_, typed⟩, .of_append (ready.interned interned) resolved
      (.compare (leftStands.denotes.onward goes) (rightStands.denotes.onward goes))
      (resultName_getD name) typed (interned.tree regular) equal⟩
  · rintro ⟨_, typed⟩
    cases typed with
    | compare leftTyped rightTyped =>
        obtain ⟨type, leftOwn, known⟩ := leftStands.carries distinct leftTyped
        have shape := grounded.shape_integer_iff.mpr known
        -- Where one width is allowed, the least one is.
        have narrow : terms.settings.checkWidth 1 = .ok () := by
          obtain ⟨positive, allowed⟩ :=
            Settings.checkWidth_eq_ok.mp (regular.canonical.formed type _ shape)
          rw [UInt32.lt_iff_toNat_lt] at positive
          rw [UInt32.le_iff_toNat_le] at allowed
          exact Settings.checkWidth_eq_ok.mpr
            ⟨by decide, UInt32.le_iff_toNat_le.mpr (Nat.le_trans positive allowed)⟩
        exact ⟨_, Context.compare_eq_ok.mpr ⟨current, type, resolved', leftOwn,
          rightStands.own regular distinct rightTyped known, ⟨_, shape⟩, narrow, rfl⟩⟩

theorem select_builds (condition thenValue elseValue : Operand) (name : String) :
    (Instruction.select condition thenValue elseValue name).Builds terms description home types
      scope context block current := by
  unfold Instruction.Builds buildInstruction
  apply operand_bind (.refl drafted) fits.toKnows condition
  · rintro ⟨_, typed⟩
    cases typed with
    | select conditionTyped _ _ _ => exact ⟨_, conditionTyped⟩
  intro test between ready _ testStands
  apply operandPair_bind ready fits.toKnows thenValue elseValue
  · rintro ⟨_, typed⟩
    cases typed with
    | select _ thenTyped elseTyped _ => exact ⟨⟨_, thenTyped⟩, _, elseTyped⟩
  intro one other last ready goes oneStands otherStands
  have testStands := testStands.onward goes
  have regular := ready.drafted.regular
  have grounded := regular.coherent.grounded
  have resolved' := ready.resolveBlock resolved
  apply meets_reported (.select block test one other name) rfl
    (Context.resolveBlock_eq_ok.mp resolved').1
  · intro value after done
    obtain ⟨_, type, truth, found, testOwn, isTruth, oneOwn, otherOwn, sized, equal⟩ :=
      Context.select_eq_ok.mp done
    obtain rfl := Except.ok.inj (found.symm.trans resolved')
    obtain ⟨tree, oneTyped, known⟩ := oneStands.hasType regular oneOwn
    have typed : (Instruction.select condition thenValue elseValue name).HasType
        terms.settings.maxIntegerWidth description home types tree :=
      .select ((testStands.condition_iff regular distinct).mp ⟨truth, testOwn, isTruth⟩) oneTyped
        (otherStands.hasType_of_tree regular otherOwn known) ((grounded.sized_iff known).mp sized)
    exact ⟨⟨_, typed⟩, .of_append ready resolved
      (.select testStands.denotes oneStands.denotes otherStands.denotes) (resultName_getD name)
      typed known equal⟩
  · rintro ⟨_, typed⟩
    cases typed with
    | select conditionTyped thenTyped elseTyped sized =>
        obtain ⟨truth, testOwn, isTruth⟩ :=
          (testStands.condition_iff regular distinct).mpr conditionTyped
        obtain ⟨type, oneOwn, known⟩ := oneStands.carries distinct thenTyped
        exact ⟨_, Context.select_eq_ok.mpr ⟨current, type, truth, resolved', testOwn, isTruth,
          oneOwn, otherStands.own regular distinct elseTyped known,
          (grounded.sized_iff known).mpr sized, rfl⟩⟩

theorem call_builds (callee : String) (arguments : List Operand) (name : String) :
    (Instruction.call callee arguments name).Builds terms description home types scope context block
      current := by
  unfold Instruction.Builds buildInstruction
  apply (findFunction_meets drafted fits.functions callee).bind
  · rintro ⟨_, typed⟩
    cases typed with
    | call names _ _ _ => exact ⟨_, names⟩
  rintro found _ _ _ ⟨rfl, isFound⟩
  apply (buildOperands_meets (.refl drafted) fits.toKnows arguments).bind
  · rintro ⟨_, typed⟩
    cases typed with
    | call _ argumentsTyped _ _ => exact ⟨_, argumentsTyped⟩
  rintro values last steps _ ⟨ready, _, stand⟩
  have regular := ready.drafted.regular
  have resolved' := ready.resolveBlock resolved
  -- The callee and its signature, with the types in full.
  obtain ⟨called, entry, names, lookup, signed⟩ := isFound.known
  rw [← ready.grown.function?] at lookup
  have member := (Context.mem_of_function? lookup).1
  have self := (Context.mem_of_function? lookup).2
  have tagged : found.context = last.id := isFound.tagged.trans ready.grown.id.symm
  obtain ⟨returned, taken, shape, returnedKnown, takenKnown⟩ :=
    regular.coherent.grounded.shape_of_function (ready.grown.trees _ _ signed)
  have fitting := arguments_iff regular stand distinct called.variadic (mapM_eq_some.mp takenKnown)
  apply meets_reported (.call block found values name) rfl
    (Context.resolveBlock_eq_ok.mp resolved').1
  · intro value after done
    obtain ⟨_, other, _, _, _, extra, resolvedOther, _, foundOther, otherShape, owns, sized, surplus,
      equal⟩ := Context.call_eq_ok.mp done
    obtain rfl := Except.ok.inj (resolvedOther.symm.trans resolved')
    obtain rfl := Option.some.inj
      ((Context.resolveFunction_eq_ok.mp foundOther).2.symm.trans lookup)
    obtain ⟨rfl, rfl, rfl⟩ := TypeShape.function.inj (Option.some.inj (otherShape.symm.trans shape))
    obtain ⟨trees, argumentsTyped, treesSized, more⟩ := fitting.mp ⟨extra, owns, sized, surplus⟩
    have typed : (Instruction.call callee arguments name).HasType terms.settings.maxIntegerWidth
        description home types called.result.tree := .call names argumentsTyped treesSized more
    refine ⟨⟨_, typed⟩, .of_append ready resolved (.call ?_ ?_) (resultName_getD name) typed
      returnedKnown equal⟩
    · rw [ready.grown.named]
      exact isFound.named
    · exact List.forall₂_map_right_iff.mpr (stand.imp fun _ _ stands => stands.denotes)
  · rintro ⟨_, typed⟩
    cases typed with
    | call otherNames argumentsTyped treesSized more =>
        obtain rfl := otherNames.unique distinct names
        obtain ⟨extra, owns, sized, surplus⟩ := fitting.mpr ⟨_, argumentsTyped, treesSized, more⟩
        obtain ⟨text, held⟩ := regular.coherent.owned.functions.signed entry member
        rw [self] at held
        exact ⟨_, Context.call_eq_ok.mpr ⟨current, entry, _, _, _, extra, resolved',
          ⟨tagged, _, held⟩, Context.resolveFunction_eq_ok.mpr ⟨tagged, lookup⟩, shape, owns, sized,
          surplus, rfl⟩⟩

omit distinct in
theorem branch_builds (target : String) :
    (Instruction.branch target).Builds terms description home types scope context block current := by
  unfold Instruction.Builds buildInstruction
  apply (findBlock_meets fits target).bind
  · rintro ⟨_, typed⟩
    cases typed with
    | branch found => exact found
  rintro found _ _ inside ⟨rfl, live, lookup⟩
  apply meets_reported (.branch block found) rfl (Context.resolveBlock_eq_ok.mp resolved).1
  · intro value after done
    obtain ⟨_, resolvedOther, _, equal⟩ := Context.branch_eq_ok.mp done
    obtain rfl := Except.ok.inj (resolvedOther.symm.trans resolved)
    exact ⟨⟨_, .branch inside⟩, .of_terminator (.refl drafted) resolved (.branch lookup) rfl
      (.branch inside) rfl equal⟩
  · exact fun _ => ⟨_, Context.branch_eq_ok.mpr ⟨current, resolved, live, rfl⟩⟩

theorem condBranch_builds (condition : Operand) (thenBlock elseBlock : String) :
    (Instruction.condBranch condition thenBlock elseBlock).Builds terms description home types scope
      context block current := by
  unfold Instruction.Builds buildInstruction
  apply operand_bind (.refl drafted) fits.toKnows condition
  · rintro ⟨_, typed⟩
    cases typed with
    | condBranch conditionTyped _ _ => exact ⟨_, conditionTyped⟩
  intro test last ready _ testStands
  have fits := fits.ready ready
  apply (findBlock_meets fits thenBlock).bind
  · rintro ⟨_, typed⟩
    cases typed with
    | condBranch _ found _ => exact found
  rintro first _ _ firstInside ⟨rfl, firstLive, firstLookup⟩
  apply (findBlock_meets fits elseBlock).bind
  · rintro ⟨_, typed⟩
    cases typed with
    | condBranch _ _ found => exact found
  rintro second _ _ secondInside ⟨rfl, secondLive, secondLookup⟩
  have regular := ready.drafted.regular
  have resolved' := ready.resolveBlock resolved
  apply meets_reported (.condBranch block test first second) rfl
    (Context.resolveBlock_eq_ok.mp resolved').1
  · intro value after done
    obtain ⟨_, truth, resolvedOther, testOwn, isTruth, _, _, equal⟩ :=
      Context.condBranch_eq_ok.mp done
    obtain rfl := Except.ok.inj (resolvedOther.symm.trans resolved')
    have typed : (Instruction.condBranch condition thenBlock elseBlock).HasType
        terms.settings.maxIntegerWidth description home types .void :=
      .condBranch ((testStands.condition_iff regular distinct).mp ⟨truth, testOwn, isTruth⟩)
        firstInside secondInside
    exact ⟨⟨_, typed⟩, .of_terminator ready resolved
      (.condBranch testStands.denotes firstLookup secondLookup) rfl typed rfl equal⟩
  · rintro ⟨_, typed⟩
    cases typed with
    | condBranch conditionTyped _ _ =>
        obtain ⟨truth, testOwn, isTruth⟩ :=
          (testStands.condition_iff regular distinct).mpr conditionTyped
        exact ⟨_, Context.condBranch_eq_ok.mpr ⟨current, truth, resolved', testOwn, isTruth,
          firstLive, secondLive, rfl⟩⟩

omit fits distinct in
theorem unreachable_builds :
    Instruction.unreachable.Builds terms description home types scope context block current := by
  unfold Instruction.Builds buildInstruction
  apply meets_reported (.unreachable block) rfl (Context.resolveBlock_eq_ok.mp resolved).1
  · intro value after done
    obtain ⟨_, resolvedOther, equal⟩ := Context.unreachable_eq_ok.mp done
    obtain rfl := Except.ok.inj (resolvedOther.symm.trans resolved)
    exact ⟨⟨_, .unreachable⟩, .of_terminator (.refl drafted) resolved .unreachable rfl .unreachable
      rfl equal⟩
  · exact fun _ => ⟨_, Context.unreachable_eq_ok.mpr ⟨current, resolved, rfl⟩⟩

omit drafted distinct resolved in
/-- The result type of the function around. -/
theorem owner_result (owned : current.function = function)
    (ready : Ready terms.settings context between) :
    ∃ entry returned parameters variadic, between.function? current.function = some entry ∧
      between.shape? entry.signature = some (.function returned parameters variadic) ∧
      between.tree? returned = some home.result.tree := by
  obtain ⟨entry, found, signed⟩ := (fits.ready ready).owner
  obtain ⟨returned, taken, shape, returnedKnown, _⟩ :=
    ready.drafted.regular.coherent.grounded.shape_of_function signed
  exact ⟨entry, returned, taken, home.variadic, owned ▸ found, shape, returnedKnown⟩

omit distinct in
theorem retVoid_builds (owned : current.function = function) :
    (Instruction.ret none).Builds terms description home types scope context block current := by
  unfold Instruction.Builds
  rw [buildInstruction, Option.mapM_none, pure_bind]
  have grounded := drafted.regular.coherent.grounded
  obtain ⟨entry, returned, parameters, variadic, found, shape, known⟩ :=
    owner_result fits owned (.refl drafted)
  have isVoid : context.shape? returned = some .void ↔ home.result = .void := by
    rw [grounded.shape_void_iff, known, Option.some.injEq, TypeTerm.tree_eq_void]
  apply meets_reported (.ret block none) rfl (Context.resolveBlock_eq_ok.mp resolved).1
  · intro value after done
    obtain ⟨_, other, _, _, _, resolvedOther, otherFound, otherShape, checked, equal⟩ :=
      Context.ret_eq_ok.mp done
    obtain rfl := Except.ok.inj (resolvedOther.symm.trans resolved)
    obtain rfl := Option.some.inj (otherFound.symm.trans found)
    obtain ⟨rfl, rfl, rfl⟩ := TypeShape.function.inj (Option.some.inj (otherShape.symm.trans shape))
    have void := isVoid.mp (Context.requireReturn_none_eq_ok.mp checked)
    exact ⟨⟨_, .retVoid void⟩, .of_terminator (.refl drafted) resolved .retVoid rfl (.retVoid void)
      rfl equal⟩
  · rintro ⟨_, typed⟩
    cases typed with
    | retVoid void =>
        exact ⟨_, Context.ret_eq_ok.mpr ⟨current, entry, returned, parameters, variadic, resolved,
          found, shape, Context.requireReturn_none_eq_ok.mpr (isVoid.mpr void), rfl⟩⟩

theorem ret_builds (owned : current.function = function) (operand : Operand) :
    (Instruction.ret (some operand)).Builds terms description home types scope context block
      current := by
  unfold Instruction.Builds
  rw [buildInstruction, Option.mapM_some, bind_map_left]
  apply operand_bind (.refl drafted) fits.toKnows operand
  · rintro ⟨_, typed⟩
    cases typed with
    | ret _ valueTyped => exact ⟨_, valueTyped⟩
  intro value last ready _ stands
  have regular := ready.drafted.regular
  have grounded := regular.coherent.grounded
  have resolved' := ready.resolveBlock resolved
  obtain ⟨entry, returned, parameters, variadic, found, shape, known⟩ :=
    owner_result fits owned ready
  have notVoid : ReturnedBy last.shape? returned ↔ home.result ≠ .void :=
    grounded.returnedBy_iff known
  apply meets_reported (.ret block (some value)) rfl (Context.resolveBlock_eq_ok.mp resolved').1
  · intro result after done
    obtain ⟨_, other, _, _, _, resolvedOther, otherFound, otherShape, checked, equal⟩ :=
      Context.ret_eq_ok.mp done
    obtain rfl := Except.ok.inj (resolvedOther.symm.trans resolved')
    obtain rfl := Option.some.inj (otherFound.symm.trans found)
    obtain ⟨rfl, rfl, rfl⟩ := TypeShape.function.inj (Option.some.inj (otherShape.symm.trans shape))
    obtain ⟨isReturned, own⟩ := Context.requireReturn_some_eq_ok.mp checked
    have typed : (Instruction.ret (some operand)).HasType terms.settings.maxIntegerWidth description
        home types .void :=
      .ret (notVoid.mp isReturned) (stands.hasType_of_tree regular own known)
    exact ⟨⟨_, typed⟩, .of_terminator ready resolved (.ret stands.denotes) rfl typed rfl equal⟩
  · rintro ⟨_, typed⟩
    cases typed with
    | ret isReturned valueTyped =>
        have own := stands.own regular distinct valueTyped known
        exact ⟨_, Context.ret_eq_ok.mpr ⟨current, entry, returned, parameters, variadic, resolved',
          found, shape, Context.requireReturn_some_eq_ok.mpr ⟨notVoid.mpr isReturned, own⟩, rfl⟩⟩

/-- An instruction can be built exactly if it has a type. -/
theorem buildInstruction_meets (owned : current.function = function) (instruction : Instruction) :
    instruction.Builds terms description home types scope context block current := by
  cases instruction with
  | binary operator left right name =>
      exact binary_builds drafted fits distinct resolved operator left right name
  | compare predicate left right name =>
      exact compare_builds drafted fits distinct resolved predicate left right name
  | select condition thenValue elseValue name =>
      exact select_builds drafted fits distinct resolved condition thenValue elseValue name
  | call callee arguments name =>
      exact call_builds drafted fits distinct resolved callee arguments name
  | ret value =>
      cases value with
      | none => exact retVoid_builds drafted fits resolved owned
      | some operand => exact ret_builds drafted fits distinct resolved owned operand
  | branch target => exact branch_builds drafted fits resolved target
  | condBranch condition thenBlock elseBlock =>
      exact condBranch_builds drafted fits distinct resolved condition thenBlock elseBlock
  | unreachable => exact unreachable_builds drafted resolved

end Build

end TypedIR.Description
