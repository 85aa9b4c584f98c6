import TypedIR.Proofs.Context.Conditions
import TypedIR.Proofs.Ownership.Invariant
import TypedIR.Proofs.Types.Canonical

/-!
Contract: an instruction is accepted exactly if its operands obey its rule, and is then appended.

Owns:
- the rule for the operands of an instruction before it is there, and the type of its result;
- the type that the result needs, which may have to be added;
- for each instruction, that building it succeeds exactly if its handles are live and the rule
  holds;
- what appending does to each table.

Does not own: what the checks report when the rule is broken.
-/

namespace TypedIR

/-! ### Arguments -/

section Arguments

variable {shape? : TypeRef → Option TypeShape} {has : ValueRef → TypeRef → Prop}
  {parameter : TypeRef} {parameters : List TypeRef} {variadic : Bool} {argument : ValueRef}
  {arguments : List ValueRef}

theorem argumentsFit_nil :
    ArgumentsFit shape? has parameters variadic [] ↔ parameters = [] := by
  constructor
  · intro fit
    exact List.length_eq_zero_iff.mp (Nat.le_zero.mp fit.enough)
  · rintro rfl
    exact ⟨Nat.le_refl _, fun more => absurd more (Nat.lt_irrefl _), by simp, by simp⟩

theorem argumentsFit_cons :
    ArgumentsFit shape? has (parameter :: parameters) variadic (argument :: arguments) ↔
      has argument parameter ∧ ArgumentsFit shape? has parameters variadic arguments := by
  constructor
  · intro fit
    refine ⟨fit.fixed 0 _ _ rfl rfl, ?_, ?_, ?_, ?_⟩
    · exact Nat.le_of_succ_le_succ fit.enough
    · exact fun more => fit.surplus (Nat.succ_lt_succ more)
    · exact fun position => fit.fixed (position + 1)
    · exact fun position other found beyond =>
        fit.extra (position + 1) other found (Nat.succ_le_succ beyond)
  · rintro ⟨first, fit⟩
    refine ⟨Nat.succ_le_succ fit.enough, fun more => fit.surplus (Nat.lt_of_succ_lt_succ more), ?_,
      ?_⟩
    · rintro (_ | position) other expected atOther atExpected
      · obtain rfl := Option.some.inj atOther
        obtain rfl := Option.some.inj atExpected
        exact first
      · exact fit.fixed position other expected atOther atExpected
    · rintro (_ | position) other atOther beyond
      · exact absurd beyond (Nat.not_succ_le_zero _)
      · exact fit.extra position other atOther (Nat.le_of_succ_le_succ beyond)

/-- Behind the parameters. -/
theorem argumentsFit_cons_nil :
    ArgumentsFit shape? has [] variadic (argument :: arguments) ↔
      variadic = true ∧ (∃ type, has argument type ∧ SizedBy shape? type) ∧
        ArgumentsFit shape? has [] variadic arguments := by
  constructor
  · intro fit
    have isVariadic := fit.surplus (Nat.succ_pos _)
    refine ⟨isVariadic, fit.extra 0 argument rfl (Nat.le_refl _), Nat.zero_le _,
      fun _ => isVariadic, by simp, fun position other found _ => ?_⟩
    exact fit.extra (position + 1) other found (Nat.zero_le _)
  · rintro ⟨isVariadic, first, fit⟩
    refine ⟨Nat.zero_le _, fun _ => isVariadic, by simp, ?_⟩
    rintro (_ | position) other atOther _
    · obtain rfl := Option.some.inj atOther
      exact first
    · exact fit.extra position other atOther (Nat.zero_le _)

/-- Arguments fit if they have the types of a list that starts with the parameters. -/
theorem argumentsFit_iff : ArgumentsFit shape? has parameters variadic arguments ↔
    ∃ extra, List.Forall₂ has arguments (parameters ++ extra) ∧
      (∀ type ∈ extra, SizedBy shape? type) ∧ (extra = [] ∨ variadic = true) := by
  induction arguments generalizing parameters with
  | nil =>
      rw [argumentsFit_nil]
      constructor
      · rintro rfl
        exact ⟨[], .nil, by simp, .inl rfl⟩
      · rintro ⟨extra, each, _⟩
        exact (List.append_eq_nil_iff.mp (List.forall₂_nil_left_iff.mp each)).1
  | cons argument arguments inductionHypothesis =>
      cases parameters with
      | nil =>
          rw [argumentsFit_cons_nil, inductionHypothesis]
          constructor
          · rintro ⟨isVariadic, ⟨type, first, sized⟩, extra, each, all, _⟩
            exact ⟨type :: extra, .cons first each, List.forall_mem_cons.mpr ⟨sized, all⟩,
              .inr isVariadic⟩
          · rintro ⟨_, _ | ⟨first, each⟩, all, none | isVariadic⟩
            · cases none
            · obtain ⟨sized, others⟩ := List.forall_mem_cons.mp all
              exact ⟨isVariadic, ⟨_, first, sized⟩, _, each, others, .inr isVariadic⟩
      | cons parameter parameters =>
          simp only [argumentsFit_cons, inductionHypothesis, List.cons_append,
            List.forall₂_cons, and_assoc, exists_and_left]

end Arguments

namespace Context

/-! ### The rule -/

/-- The function has the signature. -/
def Signs (context : Context) (function : ValueRef) (result : TypeRef) (parameters : List TypeRef)
    (variadic : Bool) : Prop :=
  ∃ signature, context.HasSignature function signature ∧
    context.shape? signature = some (.function result parameters variadic)

/-- The rule for the operands of an instruction in a block of the function `home`. -/
def Admits (context : Context) (home : ValueRef) : Instruction → Prop
  | .binary _ left right | .compare _ left right =>
      ∃ type, IntegerBy context.shape? type ∧ context.HasType left type ∧
        context.HasType right type
  | .select condition thenValue elseValue =>
      (∃ truth, context.shape? truth = some (.integer 1) ∧ context.HasType condition truth) ∧
        ∃ type, SizedBy context.shape? type ∧ context.HasType thenValue type ∧
          context.HasType elseValue type
  | .call callee arguments =>
      ∃ result parameters variadic, context.Signs callee result parameters variadic ∧
        ArgumentsFit context.shape? context.HasType parameters variadic arguments
  | .ret none =>
      ∃ result parameters variadic, context.Signs home result parameters variadic ∧
        context.shape? result = some .void
  | .ret (some value) =>
      ∃ result parameters variadic, context.Signs home result parameters variadic ∧
        ReturnedBy context.shape? result ∧ context.HasType value result
  | .condBranch condition _ _ =>
      ∃ truth, context.shape? truth = some (.integer 1) ∧ context.HasType condition truth
  | .branch _ | .unreachable => True

/-- The type of what the instruction computes: that of its operands, of its callee's result, of
conditions, or void. The last two are looked up among the types that are there afterwards. -/
def Results (context : Context) (later? : TypeRef → Option TypeShape) (type : TypeRef) :
    Instruction → Prop
  | .binary _ left _ => context.HasType left type
  | .compare _ _ _ => later? type = some (.integer 1)
  | .select _ thenValue _ => context.HasType thenValue type
  | .call callee _ => ∃ parameters variadic, context.Signs callee type parameters variadic
  | .ret _ | .branch _ | .condBranch _ _ _ | .unreachable => later? type = some .void

end Context

/-- The type that an instruction has whatever its operands are. -/
def Instruction.resultShape? : Instruction → Option TypeShape
  | .compare _ _ _ => some (.integer 1)
  | .ret _ | .branch _ | .condBranch _ _ _ | .unreachable => some .void
  | .binary _ _ _ | .select _ _ _ | .call _ _ => none

namespace Context

variable {settings : Settings} {context after : Context}

/-- The context with the type that the result of the instruction needs. -/
def ready (context : Context) (code : Instruction) : Context :=
  match code.resultShape? with
  | some shape => (context.intern shape).2
  | none => context

/-- All handles are live, the rule holds, and the result is that of appending the instruction. -/
def Builds (context : Context) (handles : List Handle) (block : BlockId) (code : Instruction)
    (name : String) (result : ValueId × Context) : Prop :=
  (∀ handle ∈ handles, context.Live handle) ∧
    ∃ function type, context.parent? block.index = some function ∧ context.Admits function code ∧
      context.Results (context.ready code).shape? type code ∧
      (context.ready code).appendInstruction function block.index type code name = result

theorem HasType.unique {value : ValueRef} {first second : TypeRef}
    (left : context.HasType value first) (right : context.HasType value second) :
    first = second := by
  obtain ⟨_, found, rfl⟩ := left
  obtain ⟨_, other, rfl⟩ := right
  rw [Option.some.inj (found.symm.trans other)]

theorem Signs.unique {function : ValueRef} {first second : TypeRef} {left right : List TypeRef}
    {one two : Bool} (here : context.Signs function first left one)
    (there : context.Signs function second right two) : first = second := by
  obtain ⟨_, ⟨_, found, rfl⟩, known⟩ := here
  obtain ⟨_, ⟨_, other, rfl⟩, shape⟩ := there
  obtain rfl := Option.some.inj (found.symm.trans other)
  exact (TypeShape.function.inj (Option.some.inj (known.symm.trans shape))).1

/-- A structure stands where interning says, and nowhere else. -/
theorem Canonical.intern_unique (canonical : context.Canonical settings) {shape : TypeShape}
    {type : TypeRef} : (context.intern shape).2.shape? type = some shape ↔
      type = (context.intern shape).1.index := by
  unfold intern
  cases found : context.findType? shape with
  | some stored =>
      exact ⟨fun known => canonical.distinct type stored shape known (findType?_eq_some found),
        fun same => same ▸ findType?_eq_some found⟩
  | none =>
      constructor
      · intro known
        rcases shape?_push_eq_some rfl known with old | ⟨last, _⟩
        · exact absurd old (findType?_eq_none found type)
        · exact last
      · rintro rfl
        simp [shape?, typeId]

theorem parent?_of_resolveBlock {block : BlockId} {home : Block}
    (found : context.resolveBlock block = .ok home) :
    context.parent? block.index = some home.function := by
  rw [parent?, (resolveBlock_eq_ok.mp found).2, Option.map_some]

theorem resolveBlock_of_parent? {block : BlockId} {function : ValueRef}
    (live : context.Live (.block block)) (parent : context.parent? block.index = some function) :
    ∃ home, context.resolveBlock block = .ok home ∧ home.function = function := by
  obtain ⟨here, home, found⟩ := live
  have resolved := resolveBlock_eq_ok.mpr ⟨here, found⟩
  exact ⟨home, resolved, Option.some.inj ((parent?_of_resolveBlock resolved).symm.trans parent)⟩

theorem Own.live {value : ValueId} {type : TypeRef} (own : context.Own value type) :
    context.Live (.value value) := own.2.live own.1

/-! ### Building -/

section Building

variable {block : BlockId} {result : ValueId × Context}

theorem binary_iff {operator : BinaryOperator} {left right : ValueId} {name : String} :
    context.binary block operator left right name = .ok result ↔
      context.Builds [.block block, .value left, .value right] block
        (.binary operator left.index right.index) name result := by
  rw [binary_eq_ok]
  constructor
  · rintro ⟨home, type, found, leftOwn, rightOwn, integer, equal⟩
    have live := live_of_resolveBlock found
    exact ⟨by simp [live, leftOwn.live, rightOwn.live], home.function, type,
      parent?_of_resolveBlock found, ⟨type, integer, leftOwn.2, rightOwn.2⟩, leftOwn.2, equal⟩
  · rintro ⟨live, function, type, parent, ⟨operand, integer, leftHas, rightHas⟩, isResult, equal⟩
    obtain ⟨home, found, rfl⟩ := resolveBlock_of_parent? (live (.block block) (by simp)) parent
    obtain rfl := leftHas.unique isResult
    exact ⟨home, operand, found, ⟨(live (.value left) (by simp)).1, leftHas⟩,
      ⟨(live (.value right) (by simp)).1, rightHas⟩, integer, equal⟩

/-- Where there is an integer type, there may be one of width one. -/
theorem Canonical.checkWidth_one (canonical : context.Canonical settings) {type : TypeRef}
    (integer : IntegerBy context.shape? type) : settings.checkWidth 1 = .ok () := by
  obtain ⟨bits, known⟩ := integer
  obtain ⟨positive, fits⟩ := Settings.checkWidth_eq_ok.mp (canonical.formed type _ known)
  refine Settings.checkWidth_eq_ok.mpr ⟨by decide, UInt32.le_trans ?_ fits⟩
  rw [UInt32.le_iff_toNat_le]
  exact UInt32.lt_iff_toNat_lt.mp positive

theorem compare_iff (canonical : context.Canonical settings) {predicate : Predicate}
    {left right : ValueId} {name : String} :
    context.compare settings block predicate left right name = .ok result ↔
      context.Builds [.block block, .value left, .value right] block
        (.compare predicate left.index right.index) name result := by
  rw [compare_eq_ok]
  constructor
  · rintro ⟨home, type, found, leftOwn, rightOwn, integer, _, equal⟩
    have live := live_of_resolveBlock found
    exact ⟨by simp [live, leftOwn.live, rightOwn.live], home.function, _,
      parent?_of_resolveBlock found, ⟨type, integer, leftOwn.2, rightOwn.2⟩,
      canonical.intern_unique.mpr rfl, equal⟩
  · rintro ⟨live, function, type, parent, ⟨operand, integer, leftHas, rightHas⟩, isResult, equal⟩
    obtain ⟨home, found, rfl⟩ := resolveBlock_of_parent? (live (.block block) (by simp)) parent
    obtain rfl := canonical.intern_unique.mp isResult
    exact ⟨home, operand, found, ⟨(live (.value left) (by simp)).1, leftHas⟩,
      ⟨(live (.value right) (by simp)).1, rightHas⟩, integer, canonical.checkWidth_one integer,
      equal⟩

theorem select_iff {condition thenValue elseValue : ValueId} {name : String} :
    context.select block condition thenValue elseValue name = .ok result ↔
      context.Builds [.block block, .value condition, .value thenValue, .value elseValue] block
        (.select condition.index thenValue.index elseValue.index) name result := by
  rw [select_eq_ok]
  constructor
  · rintro ⟨home, type, truth, found, conditionOwn, isTruth, thenOwn, elseOwn, sized, equal⟩
    have live := live_of_resolveBlock found
    exact ⟨by simp [live, conditionOwn.live, thenOwn.live, elseOwn.live], home.function, type,
      parent?_of_resolveBlock found,
      ⟨⟨truth, isTruth, conditionOwn.2⟩, type, sized, thenOwn.2, elseOwn.2⟩, thenOwn.2, equal⟩
  · rintro ⟨live, function, type, parent, ⟨⟨truth, isTruth, conditionHas⟩, arm, sized, thenHas,
      elseHas⟩, isResult, equal⟩
    obtain ⟨home, found, rfl⟩ := resolveBlock_of_parent? (live (.block block) (by simp)) parent
    obtain rfl := thenHas.unique isResult
    exact ⟨home, arm, truth, found, ⟨(live (.value condition) (by simp)).1, conditionHas⟩, isTruth,
      ⟨(live (.value thenValue) (by simp)).1, thenHas⟩,
      ⟨(live (.value elseValue) (by simp)).1, elseHas⟩, sized, equal⟩

theorem forall₂_own {arguments : List ValueId} {types : List TypeRef} :
    List.Forall₂ context.Own arguments types ↔
      (∀ argument ∈ arguments, argument.context = context.id) ∧
        List.Forall₂ context.HasType (arguments.map (·.index)) types := by
  rw [List.forall₂_map_left_iff, ← List.forall₂_and_left]
  rfl

theorem call_iff (owned : context.Owned) {callee : FunctionId} {arguments : List ValueId}
    {name : String} :
    context.call block callee arguments name = .ok result ↔
      context.Builds (.block block :: .function callee :: arguments.map .value) block
        (.call callee.index (arguments.map (·.index))) name result := by
  rw [call_eq_ok]
  constructor
  · rintro ⟨home, entry, returned, parameters, variadic, extra, found, _, resolved, signed, each,
      sized, surplus, equal⟩
    obtain ⟨calleeHome, known⟩ := resolveFunction_eq_ok.mp resolved
    obtain ⟨_, typed⟩ := forall₂_own.mp each
    have fit := argumentsFit_iff.mpr ⟨extra, typed, sized, surplus⟩
    have signs : context.Signs callee.index returned parameters variadic :=
      ⟨entry.signature, ⟨entry, known, rfl⟩, signed⟩
    refine ⟨List.forall_mem_cons.mpr ⟨live_of_resolveBlock found,
      List.forall_mem_cons.mpr ⟨⟨calleeHome, entry, known⟩, List.forall_mem_map.mpr ?_⟩⟩,
      home.function, returned, parent?_of_resolveBlock found,
      ⟨returned, parameters, variadic, signs, fit⟩, ⟨parameters, variadic, signs⟩, equal⟩
    exact ((List.forall₂_and_left _ _).mp (each.imp fun _ _ own => ⟨own.live, own⟩)).1
  · rintro ⟨live, function, type, parent, ⟨returned, parameters, variadic, signs, fit⟩,
      ⟨_, _, isResult⟩, equal⟩
    obtain ⟨blockLive, others⟩ := List.forall_mem_cons.mp live
    obtain ⟨⟨calleeHome, entry, known⟩, argumentsLive⟩ := List.forall_mem_cons.mp others
    obtain ⟨home, found, rfl⟩ := resolveBlock_of_parent? blockLive parent
    obtain rfl := signs.unique isResult
    obtain ⟨_, ⟨_, other, rfl⟩, signed⟩ := signs
    obtain rfl := Option.some.inj (known.symm.trans other)
    obtain ⟨extra, typed, sized, surplus⟩ := argumentsFit_iff.mp fit
    obtain ⟨member, self⟩ := mem_of_function? known
    -- The callee is a value because functions own their values.
    obtain ⟨_, held⟩ := owned.functions.signed entry member
    have calleeLive : context.Live (.value callee.toValue) := ⟨calleeHome, _, self ▸ held⟩
    refine ⟨home, entry, returned, parameters, variadic, extra, found, calleeLive,
      resolveFunction_eq_ok.mpr ⟨calleeHome, known⟩, signed, forall₂_own.mpr ⟨?_, typed⟩, sized,
      surplus, equal⟩
    intro argument listed
    exact (argumentsLive _ (List.mem_map_of_mem listed)).1

/-- A terminator is appended with the type void. -/
theorem Canonical.appendTerminator_iff (canonical : context.Canonical settings)
    {function : ValueRef} {position : BlockRef} {code : Instruction}
    (terminates : code.isTerminator = true) :
    context.appendTerminator function position code = result ↔
      ∃ type, context.Results (context.ready code).shape? type code ∧
        (context.ready code).appendInstruction function position type code "" = result := by
  have known : ∀ type, context.Results (context.ready code).shape? type code ↔
      type = (context.intern .void).1.index := by
    intro type
    cases code with
    | binary | compare | select | call => cases terminates
    | _ => exact canonical.intern_unique
  have appended : context.appendTerminator function position code =
      (context.ready code).appendInstruction function position (context.intern .void).1.index code
        "" := by
    cases code with
    | binary | compare | select | call => cases terminates
    | _ => rfl
  simp only [known, appended, exists_eq_left]

theorem Admits.signs {home : ValueRef} {value : Option ValueRef}
    (admits : context.Admits home (.ret value)) :
    ∃ returned parameters variadic, context.Signs home returned parameters variadic := by
  cases value with
  | none =>
      obtain ⟨returned, parameters, variadic, signs, _⟩ := admits
      exact ⟨returned, parameters, variadic, signs⟩
  | some value =>
      obtain ⟨returned, parameters, variadic, signs, _⟩ := admits
      exact ⟨returned, parameters, variadic, signs⟩

theorem requireReturn_iff {home : ValueRef} {returned : TypeRef} {parameters : List TypeRef}
    {variadic : Bool} (signs : context.Signs home returned parameters variadic)
    {value : Option ValueId} :
    context.requireReturn returned value = .ok () ↔
      (∀ given ∈ value, given.context = context.id) ∧
        context.Admits home (.ret (value.map (·.index))) := by
  cases value with
  | none =>
      rw [requireReturn_none_eq_ok]
      constructor
      · exact fun isVoid => ⟨by simp, returned, parameters, variadic, signs, isVoid⟩
      · rintro ⟨_, other, _, _, others, isVoid⟩
        rw [signs.unique others]
        exact isVoid
  | some value =>
      rw [requireReturn_some_eq_ok]
      constructor
      · rintro ⟨proper, own⟩
        exact ⟨by simpa using own.1, returned, parameters, variadic, signs, proper, own.2⟩
      · rintro ⟨home, other, _, _, others, proper, typed⟩
        obtain rfl := signs.unique others
        exact ⟨proper, home value rfl, typed⟩

theorem ret_iff (canonical : context.Canonical settings) {value : Option ValueId} :
    context.ret block value = .ok result ↔
      context.Builds (.block block :: value.toList.map .value) block
        (.ret (value.map (·.index))) "" result := by
  rw [ret_eq_ok]
  constructor
  · rintro ⟨home, entry, returned, parameters, variadic, found, known, signed, checked, equal⟩
    have signs : context.Signs home.function returned parameters variadic :=
      ⟨entry.signature, ⟨entry, known, rfl⟩, signed⟩
    obtain ⟨_, admits⟩ := (requireReturn_iff signs).mp checked
    obtain ⟨type, isResult, appended⟩ := (canonical.appendTerminator_iff rfl).mp equal
    refine ⟨List.forall_mem_cons.mpr ⟨live_of_resolveBlock found, List.forall_mem_map.mpr ?_⟩,
      home.function, type, parent?_of_resolveBlock found, admits, isResult, appended⟩
    exact fun given listed => (requireReturn_ok checked).1 given (Option.mem_toList.mp listed)
  · rintro ⟨live, function, type, parent, admits, isResult, appended⟩
    obtain ⟨blockLive, valueLive⟩ := List.forall_mem_cons.mp live
    obtain ⟨home, found, rfl⟩ := resolveBlock_of_parent? blockLive parent
    obtain ⟨returned, parameters, variadic, signs⟩ := admits.signs
    have checked : context.requireReturn returned value = .ok () := by
      refine (requireReturn_iff signs).mpr ⟨fun given listed => ?_, admits⟩
      exact (valueLive _ (List.mem_map_of_mem (Option.mem_toList.mpr listed))).1
    obtain ⟨_, ⟨entry, known, rfl⟩, signed⟩ := signs
    exact ⟨home, entry, returned, parameters, variadic, found, known, signed, checked,
      (canonical.appendTerminator_iff rfl).mpr ⟨type, isResult, appended⟩⟩

theorem branch_iff (canonical : context.Canonical settings) {target : BlockId} :
    context.branch block target = .ok result ↔
      context.Builds [.block block, .block target] block (.branch target.index) "" result := by
  rw [branch_eq_ok]
  constructor
  · rintro ⟨home, found, targetLive, equal⟩
    obtain ⟨type, isResult, appended⟩ := (canonical.appendTerminator_iff rfl).mp equal
    exact ⟨by simp [live_of_resolveBlock found, targetLive], home.function, type,
      parent?_of_resolveBlock found, trivial, isResult, appended⟩
  · rintro ⟨live, function, type, parent, _, isResult, appended⟩
    obtain ⟨home, found, rfl⟩ := resolveBlock_of_parent? (live (.block block) (by simp)) parent
    exact ⟨home, found, live (.block target) (by simp),
      (canonical.appendTerminator_iff rfl).mpr ⟨type, isResult, appended⟩⟩

theorem condBranch_iff (canonical : context.Canonical settings) {condition : ValueId}
    {thenBlock elseBlock : BlockId} :
    context.condBranch block condition thenBlock elseBlock = .ok result ↔
      context.Builds [.block block, .value condition, .block thenBlock, .block elseBlock] block
        (.condBranch condition.index thenBlock.index elseBlock.index) "" result := by
  rw [condBranch_eq_ok]
  constructor
  · rintro ⟨home, truth, found, conditionOwn, isTruth, thenLive, elseLive, equal⟩
    obtain ⟨type, isResult, appended⟩ := (canonical.appendTerminator_iff rfl).mp equal
    exact ⟨by simp [live_of_resolveBlock found, conditionOwn.live, thenLive, elseLive],
      home.function, type, parent?_of_resolveBlock found, ⟨truth, isTruth, conditionOwn.2⟩,
      isResult, appended⟩
  · rintro ⟨live, function, type, parent, ⟨truth, isTruth, conditionHas⟩, isResult, appended⟩
    obtain ⟨home, found, rfl⟩ := resolveBlock_of_parent? (live (.block block) (by simp)) parent
    exact ⟨home, truth, found, ⟨(live (.value condition) (by simp)).1, conditionHas⟩, isTruth,
      live (.block thenBlock) (by simp), live (.block elseBlock) (by simp),
      (canonical.appendTerminator_iff rfl).mpr ⟨type, isResult, appended⟩⟩

theorem unreachable_iff (canonical : context.Canonical settings) :
    context.unreachable block = .ok result ↔
      context.Builds [.block block] block .unreachable "" result := by
  rw [unreachable_eq_ok]
  constructor
  · rintro ⟨home, found, equal⟩
    obtain ⟨type, isResult, appended⟩ := (canonical.appendTerminator_iff rfl).mp equal
    exact ⟨by simp [live_of_resolveBlock found], home.function, type,
      parent?_of_resolveBlock found, trivial, isResult, appended⟩
  · rintro ⟨live, function, type, parent, _, isResult, appended⟩
    obtain ⟨home, found, rfl⟩ := resolveBlock_of_parent? (live (.block block) (by simp)) parent
    exact ⟨home, found, (canonical.appendTerminator_iff rfl).mpr ⟨type, isResult, appended⟩⟩

/-- Where the rule holds, the instruction has a type. -/
theorem Canonical.exists_result (canonical : context.Canonical settings) {home : ValueRef}
    {code : Instruction} (admits : context.Admits home code) :
    ∃ type, context.Results (context.ready code).shape? type code := by
  cases code with
  | binary operator left right =>
      obtain ⟨type, _, leftHas, _⟩ := admits
      exact ⟨type, leftHas⟩
  | select condition thenValue elseValue =>
      obtain ⟨_, type, _, thenHas, _⟩ := admits
      exact ⟨type, thenHas⟩
  | call callee arguments =>
      obtain ⟨result, parameters, variadic, signs, _⟩ := admits
      exact ⟨result, parameters, variadic, signs⟩
  | _ => exact ⟨_, canonical.intern_unique.mpr rfl⟩

end Building

/-! ### What is appended -/

/-- One value has been added, at the end of one block, and the function of that block is
unverified. -/
structure Appends (function : ValueRef) (block : BlockRef) (type : TypeRef) (code : Instruction)
    (name : String) (before after : Context) : Prop where
  result : before.Results after.shape? type code
  values : ∀ value, after.value? value =
    if value = before.values.size then some ⟨type, .instruction block code, name⟩
    else before.value? value
  valuesSize : after.values.size = before.values.size + 1
  extended : after.block? block = (before.block? block).map fun home =>
    { home with instructions := home.instructions ++ [before.values.size] }
  blocks : ∀ other, other ≠ block → after.block? other = before.block? other
  blocksSize : after.blocks.size = before.blocks.size
  functions : after.functions = before.functions.map fun entry =>
    if entry.self = function then { entry with state := .unverified } else entry
  /-- The type of conditions or of no value is added if it was missing. -/
  types : after.types = before.types ∨ ∃ shape, code.resultShape? = some shape ∧
    (∀ known, before.shape? known ≠ some shape) ∧ after.types = before.types.push shape
  moduleName : after.moduleName = before.moduleName
  id : after.id = before.id
  native : after.native = before.native

theorem ready_cases (context : Context) (code : Instruction) :
    context.ready code = context ∨ ∃ shape, code.resultShape? = some shape ∧
      (∀ known, context.shape? known ≠ some shape) ∧
      context.ready code = { context with types := context.types.push shape } := by
  unfold ready
  cases needed : code.resultShape? with
  | none => exact .inl rfl
  | some shape =>
      dsimp only
      unfold intern
      cases found : context.findType? shape with
      | some stored => exact .inl rfl
      | none => exact .inr ⟨shape, rfl, findType?_eq_none found, rfl⟩

theorem Builds.appends {handles : List Handle} {block : BlockId} {code : Instruction}
    {name : String} {value : ValueId}
    (builds : context.Builds handles block code name (value, after)) :
    ∃ function type, context.parent? block.index = some function ∧
      value = context.valueId context.values.size ∧
      Appends function block.index type code name context after := by
  obtain ⟨_, function, type, parent, _, result, equal⟩ := builds
  obtain ⟨types, frame, added⟩ : ∃ types, context.ready code = { context with types := types } ∧
      (types = context.types ∨ ∃ shape, code.resultShape? = some shape ∧
        (∀ known, context.shape? known ≠ some shape) ∧ types = context.types.push shape) := by
    rcases context.ready_cases code with same | ⟨shape, needed, missing, pushed⟩
    · exact ⟨context.types, same, .inl rfl⟩
    · exact ⟨_, pushed, .inr ⟨shape, needed, missing, rfl⟩⟩
  rw [frame] at result equal
  obtain ⟨rfl, rfl⟩ := Prod.mk.inj equal
  refine ⟨function, type, parent, rfl, ?_⟩
  exact
    { result := result
      values := fun other => Table.get?_push _ _ _
      valuesSize := Table.size_push _ _
      extended := block?_appendInstruction.trans (if_pos rfl)
      blocks := fun other apart => block?_appendInstruction.trans (if_neg apart)
      blocksSize := Table.size_modify _ _ _
      functions := rfl
      types := added
      moduleName := rfl
      id := rfl
      native := rfl }

end Context

end TypedIR
