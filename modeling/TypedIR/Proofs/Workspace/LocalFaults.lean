import TypedIR.Proofs.Check.Local
import TypedIR.Proofs.Description.Operands
import TypedIR.Proofs.Workspace.Builds
import TypedIR.Proofs.Workspace.Judgements
import TypedIR.Proofs.Workspace.Tasks
import TypedIR.Proofs.Workspace.Verification

/-!
Contract: what verification can find wrong with a module that was just built.

Owns:
- names that stand for what a function may use, kept from instruction to instruction;
- that a function of a built module refers to live functions, to live constants, to its own
  parameters and instructions, and to its own blocks;
- the verdict on a module as that of the structural check, function by function;
- that in a built module nothing released or foreign is found, so that it is valid exactly if all of
  its functions keep the rules that concern one block at a time and the routes between blocks.

Shadowed names are no exception, since each name stands for something usable at any time.
-/

/-! ## References of built functions -/

namespace TypedIR.Description

variable {context : Context} {entry : FunctionEntry} {locals : Locals ValueRef}
  {blocks : List (String × BlockRef)}

/-- Whatever a name stands for, the function may use it. -/
def Locals.Usable (context : Context) (entry : FunctionEntry) (locals : Locals ValueRef) : Prop :=
  ∀ name value, (name, value) ∈ locals → context.Usable entry value

theorem Locals.Usable.define {name : String} {value : ValueRef}
    (usable : locals.Usable context entry) (own : context.Usable entry value) :
    (locals.define name value).Usable context entry := by
  unfold Locals.define
  split
  · exact usable
  · intro other meaning listed
    rcases List.mem_cons.mp listed with same | earlier
    · obtain ⟨_, rfl⟩ := Prod.mk.inj same
      exact own
    · exact usable other meaning earlier

/-! ### Operands and instructions -/

theorem usable_of_isFunction (owned : context.Owned) {function : ValueRef}
    (live : context.IsFunction function) : context.Usable entry function := by
  obtain ⟨type, held⟩ := (owned.functions.values function).mp live
  exact ⟨type, .function, held, .inl rfl⟩

theorem isFunction_of_named {name : String} {function : ValueRef}
    (found : context.functionNamed? name = some function) : context.IsFunction function :=
  (Context.functionName?_eq_some.mp (Context.functionName?_of_functionNamed? found).2).1

theorem Operand.Denotes.usable (owned : context.Owned) (usable : locals.Usable context entry)
    {operand : Operand} {value : ValueRef} (denotes : operand.Denotes context locals value) :
    context.Usable entry value := by
  cases denotes with
  | named latest => exact usable _ _ (mem_of_lookup latest)
  | function found => exact usable_of_isFunction owned (isFunction_of_named found)
  | integer held known => exact ⟨_, _, .of_value? held, .inl rfl⟩
  | bytes held known => exact ⟨_, _, .of_value? held, .inl rfl⟩

theorem Instruction.Denotes.tied (owned : context.Owned) (usable : locals.Usable context entry)
    (own : ∀ name block, (name, block) ∈ blocks → block ∈ entry.blocks) {instruction : Instruction}
    {code : TypedIR.Instruction} (denotes : instruction.Denotes context locals blocks code) :
    context.CodeTied entry code := by
  have usableOperand : ∀ {operand : Operand} {value : ValueRef},
      operand.Denotes context locals value → context.Usable entry value :=
    fun denotes => denotes.usable owned usable
  have ownTarget : ∀ {name : String} {block : BlockRef}, blocks.lookup name = some block →
      block ∈ entry.blocks := fun found => own _ _ (mem_of_lookup found)
  cases denotes with
  | binary left right | compare left right =>
      refine ⟨by rintro _ ⟨⟩, ?_, List.forall_mem_nil _⟩
      exact List.forall_mem_cons.mpr
        ⟨usableOperand left, List.forall_mem_singleton.mpr (usableOperand right)⟩
  | select condition first second =>
      refine ⟨by rintro _ ⟨⟩, ?_, List.forall_mem_nil _⟩
      exact List.forall_mem_cons.mpr ⟨usableOperand condition, List.forall_mem_cons.mpr
        ⟨usableOperand first, List.forall_mem_singleton.mpr (usableOperand second)⟩⟩
  | call found arguments =>
      refine ⟨?_, fun value used => ?_, List.forall_mem_nil _⟩
      · rintro _ ⟨⟩
        exact isFunction_of_named found
      · obtain ⟨operand, _, denotes⟩ := exists_of_mem_right arguments used
        exact usableOperand denotes
  | retVoid | unreachable => exact ⟨by rintro _ ⟨⟩, List.forall_mem_nil _, List.forall_mem_nil _⟩
  | ret value =>
      exact ⟨by rintro _ ⟨⟩, List.forall_mem_singleton.mpr (usableOperand value),
        List.forall_mem_nil _⟩
  | branch found =>
      exact ⟨by rintro _ ⟨⟩, List.forall_mem_nil _, List.forall_mem_singleton.mpr (ownTarget found)⟩
  | condBranch condition first second =>
      exact ⟨by rintro _ ⟨⟩, List.forall_mem_singleton.mpr (usableOperand condition),
        List.forall_mem_cons.mpr
          ⟨ownTarget first, List.forall_mem_singleton.mpr (ownTarget second)⟩⟩

/-! ### Bodies -/

section Bodies

variable (owned : context.Owned) (own : ∀ name block, (name, block) ∈ blocks → block ∈ entry.blocks)

include owned own

/-- The instructions of a block have their references in order, and the names behind them stand for
something usable as those before them do. -/
theorem InstructionsBuilt.tied {block : BlockRef} (listed : block ∈ entry.blocks)
    {last : Locals ValueRef} {instructions : List Instruction} {values : List ValueRef}
    (built : InstructionsBuilt context blocks block locals instructions values last)
    (usable : locals.Usable context entry) :
    (∀ value ∈ values, ∀ code, context.instruction? value = some code →
        context.CodeTied entry code) ∧ last.Usable context entry := by
  induction built with
  | nil => exact ⟨List.forall_mem_nil _, usable⟩
  | @cons locals _ _ _ value _ type code held denotes _ inductionHypothesis =>
      have holds : context.Holds value type (.instruction block code) := .of_value? held
      have itself : context.Usable entry value :=
        ⟨type, _, holds, .inr (.inr ⟨block, listed, code, rfl⟩)⟩
      obtain ⟨others, usableLast⟩ := inductionHypothesis (usable.define itself)
      refine ⟨List.forall_mem_cons.mpr ⟨fun found isCode => ?_, others⟩, usableLast⟩
      have same := Context.instruction?_eq_some.mpr ⟨type, block, holds⟩
      rw [← Option.some.inj (same.symm.trans isCode)]
      exact denotes.tied owned usable own

theorem BlocksBuilt.tied {home : ValueRef} {described : List Block} {positions : List BlockRef}
    (built : BlocksBuilt context blocks home locals described positions)
    (listed : ∀ block ∈ positions, block ∈ entry.blocks) (usable : locals.Usable context entry) :
    ∀ block ∈ positions, ∀ value code, context.StandsIn block value code →
      context.CodeTied entry code := by
  induction built with
  | nil => exact List.forall_mem_nil _
  | @cons _ _ _ _ position _ values found body _ inductionHypothesis =>
      obtain ⟨here, others⟩ := List.forall_mem_cons.mp listed
      obtain ⟨ties, usableNext⟩ := body.tied owned own here usable
      refine List.forall_mem_cons.mpr ⟨fun value code stands => ?_, inductionHypothesis others
        usableNext⟩
      obtain ⟨home, same, inside, isCode⟩ := stands
      obtain rfl := Option.some.inj (found.symm.trans same)
      exact ties value inside code isCode

end Bodies

/-- A function of a built module has its references in order. -/
theorem Function.Built.tied {settings : Settings} {function : Function} (owned : context.Owned)
    (member : entry ∈ context.functions) (built : function.Built settings context entry) :
    context.Tied entry := by
  have parameters : (function.parameterValues entry).Usable context entry := by
    intro name value listed
    have among := (List.mem_filter.mp (List.mem_reverse.mp listed)).1
    obtain ⟨type, position, held⟩ :=
      owned.functions.holds_parameter member (List.of_mem_zip among).2
    exact ⟨type, _, held, .inr (.inl ⟨position, rfl⟩)⟩
  exact built.blocks.tied owned (fun name block listed => (List.of_mem_zip listed).2)
    (fun _ listed => listed) parameters

end TypedIR.Description

/-! ## Verification of built modules -/

namespace TypedIR.Workspace

open Description

/-- At all times lists are in the order of the tables. -/
theorem Reachable.ascending {σ : Type} {engine : Engine σ} {initial : σ} {workspace : Workspace σ}
    (reachable : Reachable engine initial workspace) {id : ContextId} {context : Context}
    (found : workspace.store.context? id = some context) : context.Ascending := by
  obtain ⟨settings, commands, rfl⟩ := reachable
  have kept : Context.Invariant settings Context.Ascending :=
    fun _ _ _ coherent ascending change => ascending.step coherent.owned change
  exact (Store.lasting_every Context.ascending_empty kept).afterAll (.start settings initial)
    commands id context found

variable {initial : ReferenceState} {workspace : Workspace ReferenceState} {id : ContextId}
  {context : Context} {description : Module}

/-- The verdicts of the reference engine on the functions of a context are those of the check. -/
theorem Reachable.verdicts_eq (reachable : Reachable Engine.reference initial workspace)
    (found : workspace.store.context? id = some context) :
    workspace.verdicts Engine.reference context =
      context.functions.map (context.verdict workspace.store.settings.reportUnreachable) := by
  obtain ⟨sameId, coherent⟩ := reachable.coherent found
  refine List.map_congr_left fun entry member => ?_
  have live : context.function? entry.self = some entry :=
    Context.function?_of_mem coherent.owned.functions.distinct member
  have home : workspace.store.context? (context.functionId entry.self).context = some context := by
    rw [← found, ← sameId]
    rfl
  have named := reachable.names found member
  have asked := (@Action.verify_named _ Engine.reference _ _ named).1
  exact Except.ok.inj (asked.symm.trans (Action.verify_live home rfl coherent.owned live).1)

/-- What verification finds in a module whose functions have all their references in order. -/
structure FailsLocally (workspace : Workspace ReferenceState) (id : ContextId) (context : Context) :
    Prop where
  /-- The result collects the verdicts of the check, which are read off its findings. -/
  result : (Action.verifyModule Engine.reference id workspace).result =
    .ok (.ofReasons ((context.functions.map
      (context.verdict workspace.store.settings.reportUnreachable)).flatMap Verdict.reasons))
  /-- No finding is about something released or about something of another function. -/
  findings : ∀ entry ∈ context.functions,
    ∀ finding ∈ context.findings workspace.store.settings.reportUnreachable entry,
      finding.violation.isDangling = false
  valid : (Action.verifyModule Engine.reference id workspace).result = .ok .valid ↔
    ∀ entry ∈ context.functions, context.LocallyFit entry

theorem Reachable.failsLocally (reachable : Reachable Engine.reference initial workspace)
    (found : workspace.store.context? id = some context)
    (tied : ∀ entry ∈ context.functions, context.Tied entry) :
    FailsLocally workspace id context := by
  have coherent := (reachable.coherent found).2
  have ascending := reachable.ascending found
  have verdicts := reachable.verdicts_eq found
  have result := (reachable.verifyModule Engine.reference_ignoresRecords found).1
  refine ⟨verdicts ▸ result, fun entry member =>
    Context.findings_held coherent.owned member (tied entry member), ?_⟩
  rw [result, Except.ok.injEq, ofReasons_eq_valid, verdicts, List.forall_mem_map]
  refine forall₂_congr fun entry member => ?_
  rw [Context.verdict_eq_valid, Context.findings_clean_iff coherent.owned member]
  exact (tied entry member).wellFormed_iff coherent ascending member

/-- A module that was just built can fail to be valid for local reasons alone. -/
theorem built_fails_locally (reachable : Reachable Engine.reference initial workspace)
    (built : (build Engine.reference description workspace).result = .ok (.ok id)) :
    ∃ context, (build Engine.reference description workspace).workspace.store.context? id =
        some context ∧
      FailsLocally (build Engine.reference description workspace).workspace id context := by
  have later := reachable.build reference_accepts description
  rcases reachable.build_cases reference_accepts description with
    ⟨other, context, done, lives, _, holds⟩ | ⟨fault, done, _⟩
  · obtain rfl := Except.ok.inj (Except.ok.inj (done.symm.trans built))
    refine ⟨context, lives, later.failsLocally lives fun entry member => ?_⟩
    obtain ⟨function, _, each⟩ := exists_of_mem_right holds.functions member
    exact each.tied (later.coherent lives).2.owned member
  · cases Except.ok.inj (done.symm.trans built)

theorem maxModule_fails_locally :
    (build Engine.reference maxModule (start .standard .start)).result = .ok (.ok ⟨0, 0⟩) ∧
      ∃ context,
        (build Engine.reference maxModule (start .standard .start)).workspace.store.context?
          ⟨0, 0⟩ = some context ∧
        FailsLocally (build Engine.reference maxModule (start .standard .start)).workspace ⟨0, 0⟩
          context :=
  ⟨maxModule_built, built_fails_locally ⟨.standard, [], rfl⟩ maxModule_built⟩

end TypedIR.Workspace
