import TypedIR.Proofs.Description.Modules
import TypedIR.Proofs.Workspace.Natives

/-!
Contract: constructions make no context and no native handle come or go.

Owns:
- constructions that make elementary changes of the draft's context and add silent events only, and
  how they compose;
- that every phase of a build is one of them, whether it succeeds or not.

Nothing is asked of the description, of the draft or of the engine here.
-/

namespace TypedIR.Description

variable {settings : Settings}

/-- The later draft has elementary changes of its context and silent events more. -/
structure Draft.Keeps (settings : Settings) (before after : Draft) : Prop where
  course : Course settings before.context after.context
  events : ∃ later, after.events = before.events ++ later ∧ Silent later

theorem Draft.Keeps.refl (draft : Draft) : draft.Keeps settings draft :=
  ⟨.refl, [], (List.append_nil _).symm, .nil⟩

theorem Draft.Keeps.trans {before between after : Draft} (first : before.Keeps settings between)
    (second : between.Keeps settings after) : before.Keeps settings after := by
  obtain ⟨early, grown, earlySilent⟩ := first.events
  obtain ⟨late, longer, lateSilent⟩ := second.events
  refine ⟨first.course.trans second.course, early ++ late, ?_, earlySilent.append lateSilent⟩
  rw [longer, grown, List.append_assoc]

namespace Construction

variable {α β : Type}

/-- From whatever draft, the construction makes elementary changes and silent events only. -/
def Idle (settings : Settings) (construction : Construction α) : Prop :=
  ∀ draft : Draft, draft.Keeps settings (construction.outcome draft).2

theorem idle_pure (value : α) : Idle settings (pure value) := fun draft => .refl draft

theorem idle_fail (cause : Cause) : Idle settings (fail cause : Construction α) :=
  fun draft => .refl draft

theorem idle_context : Idle settings Construction.context := fun draft => .refl draft

theorem idle_inspect (query : Context → Except Fault α) : Idle settings (inspect query) := by
  intro draft
  rw [outcome_inspect]
  cases query draft.context <;> exact .refl draft

theorem idle_emit {events : List Event} (silent : Silent events) : Idle settings (emit events) :=
  fun _ => ⟨.refl, events, rfl, silent⟩

theorem Idle.bind {first : Construction α} {next : α → Construction β} (one : Idle settings first)
    (two : ∀ value, Idle settings (next value)) : Idle settings (first >>= next) := by
  intro draft
  have early := one draft
  rw [outcome_bind]
  cases came : first.outcome draft with
  | mk result between =>
      rw [came] at early
      cases result with
      | error fault => exact early
      | ok value => exact early.trans (two value between)

theorem Idle.within {construction : Construction α} (idle : Idle settings construction)
    (place : Place) : Idle settings (within place construction) := by
  intro draft
  have kept := idle draft
  rw [outcome_within]
  cases came : construction.outcome draft with
  | mk result after =>
      rw [came] at kept
      cases result <;> exact kept

theorem idle_forM {items : List β} {each : β → Construction Unit}
    (idle : ∀ item, Idle settings (each item)) : Idle settings (items.forM each) := by
  induction items with
  | nil => exact idle_pure ()
  | cons item rest inductionHypothesis => exact (idle item).bind fun _ => inductionHypothesis

theorem idle_mapM {items : List β} {each : β → Construction α}
    (idle : ∀ item, Idle settings (each item)) : Idle settings (items.mapM each) := by
  induction items with
  | nil =>
      rw [List.mapM_nil]
      exact idle_pure []
  | cons item rest inductionHypothesis =>
      rw [List.mapM_cons]
      exact (idle item).bind fun _ => inductionHypothesis.bind fun _ => idle_pure _

theorem idle_perform {operation : Operation α} (idle : operation.Idle settings) :
    Idle settings (perform operation) := by
  intro draft
  have silent := idle.reports draft.context
  have course := idle.course draft.context
  rw [outcome_perform]
  cases operation.screen with
  | error fault => exact .refl draft
  | ok passed =>
      cases done : operation.effect draft.context with
      | mk result events =>
          rw [done] at silent course
          cases result with
          | error fault => exact ⟨.refl, events, rfl, silent⟩
          | ok made => exact ⟨course made.1 made.2 rfl, events, rfl, silent⟩

/-- An operation that a client could have asked for as an edit. -/
theorem idle_edit {operation : Operation α} {view : α → Answer} (edit : Edit)
    (same : edit.operation settings = operation.map view) : Idle settings (perform operation) := by
  have idle := edit.idle settings
  rw [same] at idle
  exact idle_perform idle.of_map

end Construction

/-! ### The phases of a build -/

open Construction

mutual

theorem lowerType_idle (terms : Terms) :
    ∀ term : TypeTerm, Idle terms.settings (lowerType terms term)
  | .void => idle_context.bind fun context =>
      idle_edit (.voidType context.id) rfl
  | .integer bits => idle_context.bind fun context =>
      idle_edit (.integerType context.id bits) rfl
  | .array element length => (lowerType_idle terms element).bind fun type =>
      idle_edit (.arrayType type length) rfl
  | .struct fields packed => (lowerTypes_idle terms fields).bind fun types =>
      idle_context.bind fun context =>
        idle_edit (.structType context.id types packed) rfl

theorem lowerTypes_idle (terms : Terms) :
    ∀ list : List TypeTerm, Idle terms.settings (lowerTypes terms list)
  | [] => idle_pure []
  | term :: rest => (lowerType_idle terms term).bind fun _ =>
      (lowerTypes_idle terms rest).bind fun _ => idle_pure _

end

variable {terms : Terms}

theorem findFunction_idle (written : String) : Idle settings (findFunction written) := by
  refine idle_context.bind fun context => ?_
  cases context.functionNamed? (withoutMark '@' written) with
  | some function => exact idle_pure _
  | none => exact idle_fail _

namespace Scope

variable (scope : Scope)

theorem findLocal_idle (name : String) : Idle settings (scope.findLocal name) := by
  unfold findLocal
  cases scope.locals.lookup name with
  | some value => exact idle_pure value
  | none => exact idle_fail _

theorem findBlock_idle (written : String) : Idle settings (scope.findBlock written) := by
  unfold findBlock
  dsimp only
  cases scope.blocks.lookup (withoutMark '%' written) with
  | some block => exact idle_pure block
  | none => exact idle_fail _

end Scope

theorem attachParameter_idle (function : FunctionId) (position : Nat) (parameter : Parameter) :
    Idle settings (attachParameter function position parameter) := by
  have renamed : ∀ value, Idle settings (perform (.rename value parameter.name)) :=
    fun value => idle_edit (.rename value parameter.name) rfl
  refine (idle_inspect _).bind fun value => ?_
  dsimp only
  cases parameter.align with
  | none =>
      split
      · exact (renamed value).bind fun _ => idle_pure ()
      · exact idle_pure ()
  | some align =>
      have aligned : Idle settings (perform (.setAlignment value align)) :=
        idle_edit (.setAlignment value align) rfl
      split
      · exact (renamed value).bind fun _ => aligned
      · exact aligned

theorem attachParameters_idle (function : FunctionId) (parameters : List Parameter) :
    ∀ position, Idle settings (attachParameters function position parameters) := by
  induction parameters with
  | nil => exact fun _ => idle_pure ()
  | cons parameter rest inductionHypothesis =>
      exact fun position => (attachParameter_idle function position parameter).bind fun _ =>
        inductionHypothesis (position + 1)

theorem attach_idle (function : FunctionId) (described : Function) :
    Idle terms.settings (attach terms function described) := by
  have convention : Idle terms.settings (attachConvention terms function described.convention) := by
    cases described.convention with
    | some convention =>
        exact idle_perform (Operation.idle_setConvention terms.settings _ _ function _)
    | none => exact idle_pure ()
  have collector : Idle terms.settings (attachCollector function described.collector) := by
    cases described.collector with
    | some strategy => exact idle_edit (.setCollector function strategy) rfl
    | none => exact idle_pure ()
  rw [attach_eq]
  refine convention.bind fun _ => collector.bind fun _ => idle_forM fun placed => ?_
  exact idle_edit (.addAttribute function placed.site placed.value) rfl

theorem declare_idle (described : Function) : Idle terms.settings (declare terms described) := by
  refine (lowerType_idle terms _).bind fun result => (lowerTypes_idle terms _).bind fun taken => ?_
  refine (idle_edit (.signatureType result taken described.variadic) rfl).bind
    fun signature => idle_context.bind fun context => ?_
  refine (idle_edit (.declare context.id described.name signature) rfl).bind
    fun function => ?_
  exact (attachParameters_idle function described.parameters 0).bind fun _ =>
    (attach_idle function described).bind fun _ => idle_pure _

theorem setPersonality_idle (function : FunctionId) (described : Function) :
    Idle settings (setPersonality function described) := by
  unfold setPersonality
  cases described.personality with
  | some written =>
      exact (findFunction_idle written).bind fun personality =>
        idle_edit (.setPersonality function personality) rfl
  | none => exact idle_pure ()

/-! ### Bodies -/

theorem buildOperand_idle (scope : Scope) (operand : Operand) :
    Idle terms.settings (buildOperand terms scope operand) := by
  cases operand with
  | reference text =>
      rw [buildOperand]
      split
      · exact scope.findLocal_idle _
      · exact (findFunction_idle text).bind fun _ => idle_pure _
      · exact idle_fail _
  | integer number type =>
      exact (lowerType_idle terms type).bind fun type =>
        idle_edit (.integerConstant type number) rfl
  | bytes text terminated =>
      exact idle_context.bind fun context => idle_edit
        (.bytesConstant context.id text.toUTF8.toList terminated) rfl

theorem buildInstruction_idle (scope : Scope) (block : BlockId) (instruction : Instruction) :
    Idle terms.settings (buildInstruction terms scope block instruction) := by
  have operand := @buildOperand_idle terms scope
  have appended : ∀ {operation : Operation ValueId} (edit : Edit),
      edit.operation terms.settings = operation.map Edit.valueAnswer →
        Idle terms.settings (perform operation) := fun edit same => idle_edit edit same
  cases instruction with
  | binary operator left right name =>
      exact (operand left).bind fun left => (operand right).bind fun right =>
        appended (.binary block operator left right name) rfl
  | compare predicate left right name =>
      exact (operand left).bind fun left => (operand right).bind fun right =>
        appended (.compare block predicate left right name) rfl
  | select condition thenValue elseValue name =>
      exact (operand condition).bind fun condition => (operand thenValue).bind fun thenValue =>
        (operand elseValue).bind fun elseValue =>
          appended (.select block condition thenValue elseValue name) rfl
  | call callee arguments name =>
      exact (findFunction_idle callee).bind fun callee => (idle_mapM operand).bind fun arguments =>
        appended (.call block callee arguments name) rfl
  | ret value =>
      have returned : Idle terms.settings (value.mapM (buildOperand terms scope)) := by
        cases value with
        | none => exact idle_pure none
        | some value =>
            rw [Option.mapM_some]
            exact (operand value).bind fun value => idle_pure (some value)
      exact returned.bind fun value => appended (.ret block value) rfl
  | branch target =>
      exact (scope.findBlock_idle target).bind fun target => appended (.branch block target) rfl
  | condBranch condition thenBlock elseBlock =>
      exact (operand condition).bind fun condition =>
        (scope.findBlock_idle thenBlock).bind fun thenBlock =>
          (scope.findBlock_idle elseBlock).bind fun elseBlock =>
            appended (.condBranch block condition thenBlock elseBlock) rfl
  | unreachable => exact appended (.unreachable block) rfl

theorem buildInstructions_idle (block : BlockId) (instructions : List Instruction) :
    ∀ scope, Idle terms.settings (buildInstructions terms scope block instructions) := by
  induction instructions with
  | nil => exact fun scope => idle_pure scope
  | cons instruction rest inductionHypothesis =>
      exact fun scope => (buildInstruction_idle scope block instruction).bind fun value =>
        inductionHypothesis _

theorem appendBlocks_idle (function : FunctionId) (blocks : List Block) :
    ∀ before, Idle settings (appendBlocks function before blocks) := by
  induction blocks with
  | nil => exact fun before => idle_pure before
  | cons block rest inductionHypothesis =>
      intro before
      refine (idle_edit (.appendBlock function block.name) rfl).bind fun appended => ?_
      by_cases taken : (before.lookup block.name).isSome = true
      · rw [if_pos taken]
        exact (idle_fail _).bind fun _ => inductionHypothesis _
      · rw [if_neg taken]
        exact inductionHypothesis _

theorem buildBlocks_idle (list : List (BlockId × Block)) :
    ∀ scope, Idle terms.settings (buildBlocks terms scope list) := by
  induction list with
  | nil => exact fun _ => idle_pure ()
  | cons item rest inductionHypothesis =>
      exact fun scope => ((buildInstructions_idle _ _ scope).within _).bind fun after =>
        inductionHypothesis after

theorem buildBody_idle (function : FunctionId) (described : Function) :
    Idle terms.settings (buildBody terms function described) := by
  have locals : Idle terms.settings (parameterLocals function) :=
    (idle_inspect _).bind fun _ => idle_pure _
  exact locals.bind fun _ => (appendBlocks_idle function described.blocks []).bind fun blocks =>
    buildBlocks_idle _ _

/-! ### Modules -/

theorem declareAll_idle (list : List Function) : Idle terms.settings (declareAll terms list) := by
  induction list with
  | nil => exact idle_pure []
  | cons described rest inductionHypothesis =>
      exact ((declare_idle described).within _).bind fun _ =>
        inductionHypothesis.bind fun _ => idle_pure _

/-- Whatever is described, a build does all it does inside its own context. -/
theorem populate_idle (terms : Terms) (description : Module) :
    Idle terms.settings (populate terms description) := by
  have personalities : ∀ list, Idle terms.settings (setPersonalities list) := by
    intro list
    rw [setPersonalities_eq]
    exact idle_forM fun item => setPersonality_idle item.1 item.2
  have bodies : ∀ list, Idle terms.settings (buildBodies terms list) := by
    intro list
    rw [buildBodies_eq]
    exact idle_forM fun item => (buildBody_idle item.1 item.2).within _
  exact (declareAll_idle description.functions).bind fun functions =>
    (personalities _).bind fun _ => (bodies _).bind fun _ => idle_emit (.single ⟨rfl, rfl⟩)

end TypedIR.Description
