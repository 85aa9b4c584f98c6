import TypedIR.Print.Module
import TypedIR.Proofs.Print.Locals
import TypedIR.Proofs.Types.Tree

/-!
Contract: printing succeeds wherever the invariants hold.

Owns:
- types, operands and instructions: a released entry is printed as a mark, and the
  budget for constants never runs out;
- functions and modules: every parameter and every block of a function has a name;
- the text of an operand from the texts of its parts, without a budget, and that any budget above a
  position gives the same text.

A constant may contain constants, which may contain constants in turn. All of them stand before
it in the table, so the recursion ends whatever else the table holds.
-/

/-! ## Success -/

namespace TypedIR.Context

variable {settings : Settings} {context : Context}

/-! ### Types and operands -/

section Operands

variable (canonical : context.Canonical settings) (grounded : context.Grounded)

include canonical grounded

theorem requireTypeText_succeeds {type : TypeRef} (inside : type < context.types.size) :
    Succeeds (context.requireTypeText type) := by
  have issued : context.Issued (.type (context.typeId type)) := ⟨rfl, inside⟩
  obtain ⟨tree, _, formatted⟩ := canonical.formatType_ok grounded issued
  exact ⟨tree.text, formatted⟩

/-- A part of a constant is printed behind its type if it can be printed at all. -/
theorem part_succeeds (names : LocalNames) {budget : Nat} {part : ValueRef}
    (printed : Succeeds (context.operandWithin names budget part)) :
    Succeeds (match context.value? part with
      | none => pure releasedMark
      | some entry => do
          let type ← context.requireTypeText entry.type
          let text ← context.operandWithin names budget part
          return type ++ " " ++ text) := by
  cases live : context.value? part with
  | none => exact succeeds_pure _
  | some entry =>
      apply (requireTypeText_succeeds canonical grounded (grounded.type_lt_size live)).bind
      intro _ _
      apply printed.bind
      intro _ _
      exact succeeds_pure _

/-- The parts of a constant stand before it, so a budget above its position is enough. -/
theorem operandWithin_succeeds (names : LocalNames) {budget : Nat} {value : ValueRef}
    (enough : value < budget) : Succeeds (context.operandWithin names budget value) := by
  induction budget generalizing value with
  | zero => exact absurd enough (Nat.not_lt_zero value)
  | succ budget inductionHypothesis =>
      rw [operandWithin]
      cases names.name? (.value value) with
      | some name => exact succeeds_pure _
      | none =>
          cases live : context.value? value with
          | none => exact succeeds_pure _
          | some entry =>
              obtain ⟨type, kind, name⟩ := entry
              obtain ⟨inside, below⟩ := grounded.values _ _ _ (.of_value? live)
              have typed : ∀ part, part < value → Succeeds _ := fun part earlier =>
                part_succeeds canonical grounded names
                  (inductionHypothesis (Nat.lt_of_lt_of_le earlier (Nat.le_of_lt_succ enough)))
              cases kind with
              | integer number =>
                  apply (resolveType_succeeds inside).bind
                  intro _ _
                  exact succeeds_pure _
              | array elements =>
                  apply (succeeds_mapM fun part listed => typed part (below part listed)).bind
                  intro _ _
                  exact succeeds_pure _
              | struct fields =>
                  apply (succeeds_mapM fun part listed => typed part (below part listed)).bind
                  intro _ _
                  have packed : Succeeds (context.isPacked type) := by
                    apply (resolveType_succeeds inside).bind
                    intro shape _
                    cases shape <;> exact succeeds_pure _
                  apply packed.bind
                  intro _ _
                  exact succeeds_pure _
              | _ => exact succeeds_pure _

theorem operandText_succeeds (names : LocalNames) (value : ValueRef) :
    Succeeds (context.operandText names value) :=
  operandWithin_succeeds canonical grounded names (Nat.lt_succ_self value)

theorem typedOperand_succeeds (names : LocalNames) (value : ValueRef) :
    Succeeds (context.typedOperand names value) := by
  unfold typedOperand
  cases live : context.value? value with
  | none => exact succeeds_pure _
  | some entry =>
      apply (requireTypeText_succeeds canonical grounded (grounded.type_lt_size live)).bind
      intro _ _
      apply (operandText_succeeds canonical grounded names value).bind
      intro _ _
      exact succeeds_pure _

/-! ### Instructions -/

theorem codeText_succeeds (names : LocalNames) {type : TypeRef} (code : Instruction)
    (inside : type < context.types.size) : Succeeds (context.codeText names type code) := by
  have typed := typedOperand_succeeds canonical grounded names
  cases code with
  | binary operator left right =>
      exact (typed left).bind fun _ _ =>
        (operandText_succeeds canonical grounded names right).bind fun _ _ => succeeds_pure _
  | compare predicate left right =>
      exact (typed left).bind fun _ _ =>
        (operandText_succeeds canonical grounded names right).bind fun _ _ => succeeds_pure _
  | select condition thenValue elseValue =>
      exact (typed condition).bind fun _ _ => (typed thenValue).bind fun _ _ =>
        (typed elseValue).bind fun _ _ => succeeds_pure _
  | call callee arguments =>
      exact (succeeds_mapM fun argument _ => typed argument).bind fun _ _ =>
        (requireTypeText_succeeds canonical grounded inside).bind fun _ _ => succeeds_pure _
  | ret value =>
      cases value with
      | none => exact succeeds_pure _
      | some value => exact (typed value).bind fun _ _ => succeeds_pure _
  | branch target => exact succeeds_pure _
  | condBranch condition thenBlock elseBlock =>
      exact (typed condition).bind fun _ _ => succeeds_pure _
  | unreachable => exact succeeds_pure _

theorem instructionText_succeeds (names : LocalNames) {value : ValueRef} {entry : Value}
    (live : context.value? value = some entry) :
    Succeeds (context.instructionText names value) := by
  have resolved : context.resolveValue (context.valueId value) = .ok entry :=
    resolveValue_eq_ok.mpr ⟨rfl, live⟩
  apply Succeeds.bind ⟨entry, resolved⟩
  intro other same
  obtain rfl := Except.ok.inj (resolved.symm.trans same)
  have inside := grounded.type_lt_size live
  obtain ⟨type, kind, name⟩ := entry
  cases kind with
  | instruction block code =>
      apply (codeText_succeeds canonical grounded names code inside).bind
      intro _ _
      cases names.name? (.value value) <;> exact succeeds_pure _
  | _ => exact operandText_succeeds canonical grounded names value

end Operands

/-! ### Functions and modules -/

section Functions

variable (canonical : context.Canonical settings) (coherent : context.Coherent)

include canonical coherent

theorem parameterTexts_succeeds {entry : FunctionEntry} (member : entry ∈ context.functions)
    {names : LocalNames} {parameters : List ValueRef} (position : Nat)
    (owned : ∀ parameter ∈ parameters, parameter ∈ entry.parameters)
    (named : ∀ parameter ∈ entry.parameters, (names.name? (.value parameter)).isSome) :
    Succeeds (context.parameterTexts entry names position parameters) := by
  induction parameters generalizing position with
  | nil => exact succeeds_pure _
  | cons parameter rest inductionHypothesis =>
      have listed := owned parameter List.mem_cons_self
      have text : Succeeds (context.parameterText entry names position parameter) := by
        obtain ⟨value, resolved⟩ := live_parameter coherent member listed
        apply Succeeds.bind ⟨value, resolved⟩
        intro other same
        obtain rfl := Except.ok.inj (resolved.symm.trans same)
        have inside := coherent.grounded.type_lt_size (resolveValue_eq_ok.mp resolved).2
        apply (requireTypeText_succeeds canonical coherent.grounded inside).bind
        intro _ _
        obtain ⟨name, known⟩ := Option.isSome_iff_exists.mp (named parameter listed)
        rw [known]
        cases entry.isDefinition <;> exact succeeds_pure _
      apply text.bind
      intro _ _
      apply (inductionHypothesis (position + 1)
        fun other later => owned other (List.mem_cons_of_mem _ later)).bind
      intro _ _
      exact succeeds_pure _

theorem headText_succeeds {entry : FunctionEntry} (member : entry ∈ context.functions)
    {names : LocalNames}
    (named : ∀ parameter ∈ entry.parameters, (names.name? (.value parameter)).isSome) :
    Succeeds (context.headText entry names) := by
  obtain ⟨result, types, variadic, known, _⟩ := coherent.owned.functions.parameters entry member
  have resolved : context.resultOf entry = .ok (result, variadic) :=
    bind_eq_ok.mpr ⟨_, resolveType_eq_ok.mpr ⟨rfl, known⟩, rfl⟩
  apply Succeeds.bind ⟨_, resolved⟩
  intro other same
  obtain rfl := Except.ok.inj (resolved.symm.trans same)
  apply (parameterTexts_succeeds canonical coherent member 0 (fun _ listed => listed) named).bind
  intro _ _
  have earlier := coherent.grounded.components _ _ known result List.mem_cons_self
  have inside : result < context.types.size := Nat.lt_trans earlier (lt_size_of_shape? known)
  apply (requireTypeText_succeeds canonical coherent.grounded inside).bind
  intro _ _
  exact succeeds_pure _

theorem blockLines_succeeds {entry : FunctionEntry} (member : entry ∈ context.functions)
    {names : LocalNames} {block : BlockRef} (listed : block ∈ entry.blocks)
    (named : (names.name? (.block block)).isSome) : Succeeds (context.blockLines names block) := by
  obtain ⟨home, found⟩ := live_block coherent member listed
  apply Succeeds.bind ⟨home, found⟩
  intro other same
  obtain rfl := Except.ok.inj (found.symm.trans same)
  obtain ⟨name, known⟩ := Option.isSome_iff_exists.mp named
  rw [known]
  have lines : Succeeds (home.instructions.mapM (context.instructionText names)) := by
    apply succeeds_mapM
    intro value among
    obtain ⟨instruction, live⟩ := live_instruction coherent found among
    exact instructionText_succeeds canonical coherent.grounded names live
  apply lines.bind
  intro _ _
  exact succeeds_pure _

/-- A live function can be printed, whatever its instructions refer to. -/
theorem functionText_succeeds {entry : FunctionEntry} (member : entry ∈ context.functions) :
    Succeeds (context.functionText entry) := by
  obtain ⟨names, done, named⟩ := coherent.namesLocals member
  have parametersNamed : ∀ parameter ∈ entry.parameters, (names.name? (.value parameter)).isSome :=
    fun _ listed => named.isSome_name?.mpr (value_mem_locals.mpr (.inl listed))
  have blocksNamed : ∀ block ∈ entry.blocks, (names.name? (.block block)).isSome :=
    fun _ listed => named.isSome_name?.mpr (block_mem_locals.mpr listed)
  apply Succeeds.bind ⟨names, done⟩
  intro other same
  obtain rfl := Except.ok.inj (done.symm.trans same)
  apply (headText_succeeds canonical coherent member parametersNamed).bind
  intro _ _
  by_cases defined : entry.isDefinition = true
  · rw [if_pos defined]
    have blocks : Succeeds (entry.blocks.mapM (context.blockLines names)) :=
      succeeds_mapM fun block listed =>
        blockLines_succeeds canonical coherent member listed (blocksNamed block listed)
    apply blocks.bind
    intro _ _
    exact succeeds_pure _
  · rw [if_neg defined]
    exact succeeds_pure _

theorem moduleText_succeeds : Succeeds context.moduleText := by
  have functions : Succeeds (context.functions.mapM context.functionText) :=
    succeeds_mapM fun entry member => functionText_succeeds canonical coherent member
  apply functions.bind
  intro _ _
  exact succeeds_pure _

end Functions

end TypedIR.Context

/-! ## Constants -/

namespace TypedIR.Context

variable {context : Context} {names : LocalNames}

/-- The text of an operand, given the texts of the values that it is made of. -/
def operandFrom (context : Context) (names : LocalNames) (text : ValueRef → Except Fault String)
    (value : ValueRef) : Except Fault String :=
  let typed (part : ValueRef) : Except Fault String := do
    match context.value? part with
    | none => return releasedMark
    | some entry =>
        let type ← context.requireTypeText entry.type
        let text ← text part
        return type ++ " " ++ text
  match names.name? (.value value) with
  | some name => return "%" ++ name
  | none =>
  match context.value? value with
  | none => return releasedMark
  | some ⟨type, kind, name⟩ =>
      match kind with
      | .integer number => context.integerText type number
      | .array elements => do
          let parts ← elements.mapM typed
          return "[" ++ Text.joined ", " parts ++ "]"
      | .bytes content => return "c\"" ++ String.ofList (Text.escapeBytes content) ++ "\""
      | .struct fields => do
          let parts ← fields.mapM typed
          let packed ← context.isPacked type
          return TypeTree.structText packed parts
      | .undefined => return "undef"
      | .function => return context.symbol value
      | .parameter _ _ => return context.foreignLocalText value name
      | .instruction _ _ => return context.foreignLocalText value name

theorem operandWithin_succ (budget : Nat) (value : ValueRef) :
    context.operandWithin names (budget + 1) value =
      context.operandFrom names (context.operandWithin names budget) value := by
  rw [operandWithin, operandFrom]
  cases names.name? (.value value) with
  | some name => rfl
  | none =>
      cases context.value? value with
      | none => rfl
      | some entry =>
          obtain ⟨type, kind, name⟩ := entry
          cases kind <;> rfl

theorem mapM_congr {α β : Type} {one two : α → Except Fault β} {items : List α}
    (same : ∀ item ∈ items, one item = two item) : items.mapM one = items.mapM two := by
  induction items with
  | nil => rfl
  | cons first rest inductionHypothesis =>
      rw [List.mapM_cons, List.mapM_cons, same first List.mem_cons_self,
        inductionHypothesis fun item member => same item (List.mem_cons_of_mem _ member)]

/-- Only the texts of the parts matter. -/
theorem operandFrom_congr {one two : ValueRef → Except Fault String} {value : ValueRef}
    (same : ∀ type kind, context.Holds value type kind → ∀ part ∈ kind.parts, one part = two part) :
    context.operandFrom names one value = context.operandFrom names two value := by
  unfold operandFrom
  cases names.name? (.value value) with
  | some name => rfl
  | none =>
      cases found : context.value? value with
      | none => rfl
      | some entry =>
          obtain ⟨type, kind, name⟩ := entry
          have parts := same type kind ⟨name, found⟩
          cases kind with
          | array elements =>
              refine congrArg (· >>= _) (mapM_congr fun part member => ?_)
              rw [parts part member]
          | struct fields =>
              refine congrArg (· >>= _) (mapM_congr fun part member => ?_)
              rw [parts part member]
          | _ => rfl

/-- Any budget above the position is enough. -/
theorem Grounded.operandWithin_eq (grounded : context.Grounded) {value : ValueRef} {budget : Nat}
    (enough : value < budget) :
    context.operandWithin names budget value = context.operandText names value := by
  induction value using Nat.strongRecOn generalizing budget with
  | ind value inductionHypothesis =>
      cases budget with
      | zero => exact absurd enough (Nat.not_lt_zero value)
      | succ budget =>
          rw [operandText, operandWithin_succ, operandWithin_succ]
          refine operandFrom_congr fun type kind held part member => ?_
          have earlier := (grounded.values value type kind held).2.parts part member
          have within : part < budget := Nat.lt_of_lt_of_le earlier (Nat.le_of_lt_succ enough)
          rw [inductionHypothesis part earlier within, inductionHypothesis part earlier earlier]

/-- The text of an operand is made of the texts of its parts. -/
theorem Grounded.operandText_eq (grounded : context.Grounded) (value : ValueRef) :
    context.operandText names value =
      context.operandFrom names (context.operandText names) value := by
  rw [operandText, operandWithin_succ]
  refine operandFrom_congr fun type kind held part member => ?_
  exact grounded.operandWithin_eq ((grounded.values value type kind held).2.parts part member)

end TypedIR.Context
