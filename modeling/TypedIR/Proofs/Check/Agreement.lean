import TypedIR.Proofs.Check.Findings
import TypedIR.Proofs.Ownership.References

/-!
Contract: what the check of a function reads.

Owns:
- agreement of two contexts on a function: its own parts and blocks, the kinds of all
  issued values, the owners of all issued blocks, and which functions are live;
- the same findings in contexts that agree, and the same report if the function has
  the same name in both.

Names occur in the texts of a report, never in its findings.
-/

namespace TypedIR

/-- The parts of a function that a check of it reads. -/
structure FunctionEntry.SameBody (before after : FunctionEntry) : Prop where
  self : after.self = before.self
  blocks : after.blocks = before.blocks
  personality : after.personality = before.personality
  attributes : after.attributes = before.attributes

namespace Context

/-- The second context, with its entry of a function, looks to a check of that function like the
first one. -/
structure Agree (before : Context) (entry : FunctionEntry) (after : Context)
    (changed : FunctionEntry) : Prop extends FunctionEntry.SameBody entry changed where
  id : after.id = before.id
  block? : ∀ block ∈ entry.blocks, after.block? block = before.block? block
  values : ∀ value, value < before.values.size → ∀ type kind,
    (after.Holds value type kind ↔ before.Holds value type kind)
  parents : ∀ block, block < before.blocks.size → after.parent? block = before.parent? block
  functions : ∀ function, function < before.values.size →
    (after.IsFunction function ↔ before.IsFunction function)

variable {before after : Context} {entry changed : FunctionEntry}

/-! ### Reading values -/

theorem instruction?_congr {value : ValueRef}
    (same : ∀ type kind, after.Holds value type kind ↔ before.Holds value type kind) :
    after.instruction? value = before.instruction? value := by
  apply Option.ext
  intro code
  simp only [instruction?_eq_some, same]

theorem definingBlock?_congr {value : ValueRef}
    (same : ∀ type kind, after.Holds value type kind ↔ before.Holds value type kind) :
    after.definingBlock? value = before.definingBlock? value := by
  apply Option.ext
  intro block
  simp only [definingBlock?_eq_some, same]

theorem isSome_function?_congr {function : ValueRef}
    (same : after.IsFunction function ↔ before.IsFunction function) :
    (after.function? function).isSome = (before.function? function).isSome := by
  rw [Bool.eq_iff_iff, isSome_function?, isSome_function?, same]

namespace Agree

variable (agree : before.Agree entry after changed) (owned : before.Owned)
  (grounded : before.Grounded) (member : entry ∈ before.functions)

include agree

theorem functionId (function : ValueRef) :
    after.functionId function = before.functionId function := by
  rw [Context.functionId, Context.functionId, agree.id]

theorem valueId (value : ValueRef) : after.valueId value = before.valueId value := by
  rw [Context.valueId, Context.valueId, agree.id]

theorem blockId (block : BlockRef) : after.blockId block = before.blockId block := by
  rw [Context.blockId, Context.blockId, agree.id]

theorem targetViolations (target : BlockRef) :
    after.targetViolations changed target = before.targetViolations entry target := by
  rw [Context.targetViolations, Context.targetViolations, agree.blocks, agree.blockId]

include grounded in
theorem operandViolations {opcode : String} {operand : ValueRef}
    (issued : operand < before.values.size) :
    after.operandViolations changed opcode operand =
      before.operandViolations entry opcode operand := by
  have same := agree.values operand issued
  unfold Context.operandViolations
  rw [agree.valueId, agree.self]
  cases found : before.value? operand with
  | none =>
      cases later : after.value? operand with
      | none => rfl
      | some value =>
          obtain ⟨_, live⟩ := (same value.type value.kind).mp (.of_value? later)
          rw [found] at live
          cases live
  | some value =>
      obtain ⟨type, kind, name⟩ := value
      have held : before.Holds operand type kind := ⟨name, found⟩
      obtain ⟨laterName, later⟩ := (same type kind).mpr held
      have owner : after.owner? ⟨type, kind, laterName⟩ = before.owner? ⟨type, kind, name⟩ := by
        cases kind with
        | instruction block code =>
            exact agree.parents block (grounded.values operand type _ held).2.1
        | _ => rfl
      simp only [later, owner]

theorem calleeViolations {code : Instruction}
    (issued : ∀ callee, code.callee? = some callee → callee < before.values.size) :
    after.calleeViolations code = before.calleeViolations code := by
  unfold Context.calleeViolations
  cases calls : code.callee? with
  | none => rfl
  | some callee =>
      dsimp only
      rw [isSome_function?_congr (agree.functions callee (issued callee calls)), agree.functionId]

include grounded

theorem instructionViolations {isLast : Bool} {value : ValueRef}
    (issued : value < before.values.size) :
    after.instructionViolations changed isLast value =
      before.instructionViolations entry isLast value := by
  unfold Context.instructionViolations
  rw [instruction?_congr (agree.values value issued), agree.valueId]
  cases isCode : before.instruction? value with
  | none => rfl
  | some code =>
      obtain ⟨type, block, held⟩ := instruction?_eq_some.mp isCode
      obtain ⟨_, operandsBelow, calleesBelow, _⟩ := (grounded.values value type _ held).2
      have operands : code.operands.flatMap (after.operandViolations changed code.opcode) =
          code.operands.flatMap (before.operandViolations entry code.opcode) := by
        apply List.flatMap_congr
        intro operand used
        exact agree.operandViolations grounded (Nat.lt_trans (operandsBelow operand used) issued)
      have callees := agree.calleeViolations fun callee calls =>
        Nat.lt_trans (calleesBelow callee calls) issued
      have targets : code.successors.flatMap (after.targetViolations changed) =
          code.successors.flatMap (before.targetViolations entry) :=
        List.flatMap_congr fun target _ => agree.targetViolations target
      simp only [operands, callees, targets]

theorem sequenceViolations {values : List ValueRef}
    (issued : ∀ value ∈ values, value < before.values.size) :
    after.sequenceViolations changed values = before.sequenceViolations entry values := by
  induction values with
  | nil => rfl
  | cons value rest inductionHypothesis =>
      rw [Context.sequenceViolations, Context.sequenceViolations,
        agree.instructionViolations grounded (issued value List.mem_cons_self),
        inductionHypothesis fun other listed => issued other (List.mem_cons_of_mem _ listed)]

include owned

omit agree grounded in
/-- The instructions of a live block were issued. -/
theorem item_issued {block : BlockRef} {home : Block} (found : before.block? block = some home) :
    ∀ value ∈ home.instructions, value < before.values.size := by
  intro value listed
  obtain ⟨_, _, held⟩ := ((owned.instructions.lists block home found).2 value).mp listed
  exact held.lt_size

theorem blockFindings {block : BlockRef} (listed : block ∈ entry.blocks) :
    after.blockFindings changed block = before.blockFindings entry block := by
  unfold Context.blockFindings Context.blockViolations
  rw [agree.block? block listed, agree.blockId]
  cases found : before.block? block with
  | none => rfl
  | some home =>
      obtain ⟨function, name, instructions⟩ := home
      cases instructions with
      | nil => rfl
      | cons first rest =>
          dsimp only
          rw [agree.sequenceViolations grounded (item_issued owned found)]

omit grounded in
theorem blockEdges {block : BlockRef} (listed : block ∈ entry.blocks) :
    after.blockEdges changed block = before.blockEdges entry block := by
  unfold Context.blockEdges
  rw [agree.block? block listed, agree.blocks]
  cases found : before.block? block with
  | none => rfl
  | some home =>
      rw [Option.bind_some]
      cases last : home.instructions.getLast? with
      | none => rfl
      | some value =>
          have issued := item_issued owned found value (List.mem_of_getLast? last)
          dsimp only
          rw [instruction?_congr (agree.values value issued)]

omit grounded in
theorem flowGraph : after.flowGraph changed = before.flowGraph entry := by
  unfold Context.flowGraph
  rw [agree.blocks]
  exact congrArg (fun lists => Flow.Graph.ofLists lists.toArray)
    (List.map_congr_left fun block listed => agree.blockEdges owned listed)

omit owned in
theorem sequenceUseFindings {parents : Flow.Parents} {position : Nat} {block : BlockRef}
    {earlier values : List ValueRef} (issued : ∀ value ∈ values, value < before.values.size) :
    after.sequenceUseFindings changed parents position block earlier values =
      before.sequenceUseFindings entry parents position block earlier values := by
  induction values generalizing earlier with
  | nil => rfl
  | cons value rest inductionHypothesis =>
      have valueIssued := issued value List.mem_cons_self
      rw [Context.sequenceUseFindings, Context.sequenceUseFindings,
        inductionHypothesis fun other listed => issued other (List.mem_cons_of_mem _ listed),
        instruction?_congr (agree.values value valueIssued)]
      cases isCode : before.instruction? value with
      | none => rfl
      | some code =>
          obtain ⟨type, home, held⟩ := instruction?_eq_some.mp isCode
          obtain ⟨_, operandsBelow, _⟩ := (grounded.values value type _ held).2
          refine congrArg (· ++ _) (List.flatMap_congr fun operand used => ?_)
          have operandIssued := Nat.lt_trans (operandsBelow operand used) valueIssued
          unfold useFindings
          rw [definingBlock?_congr (agree.values operand operandIssued), agree.blocks,
            agree.valueId]

theorem dominanceFindings {parents : Flow.Parents} {position : Nat} :
    after.dominanceFindings changed parents position =
      before.dominanceFindings entry parents position := by
  unfold Context.dominanceFindings
  rw [agree.blocks]
  cases place : entry.blocks[position]? with
  | none => rfl
  | some block =>
      dsimp only
      rw [agree.block? block (List.mem_of_getElem? place)]
      cases found : before.block? block with
      | none => rfl
      | some home =>
          obtain ⟨function, name, instructions⟩ := home
          exact agree.sequenceUseFindings grounded (item_issued owned found)

include member

/-- Contexts that agree on a function have the same findings about it. -/
theorem findings (reportUnreachable : Bool) :
    after.findings reportUnreachable changed = before.findings reportUnreachable entry := by
  have personality : after.personalityFindings changed = before.personalityFindings entry := by
    unfold personalityFindings
    rw [agree.personality]
    cases named : entry.personality with
    | none => rfl
    | some personality =>
        have live := owned.functions.personalities entry member personality named
        have issued := owned.functions.lt_size live
        dsimp only
        rw [isSome_function?_congr (agree.functions personality issued), agree.functionId]
  have body : after.bodyFindings reportUnreachable changed =
      before.bodyFindings reportUnreachable entry := by
    unfold bodyFindings unreachableFindings
    rw [agree.flowGraph owned, agree.blocks]
    have blocks : entry.blocks.flatMap (after.blockFindings changed) =
        entry.blocks.flatMap (before.blockFindings entry) :=
      List.flatMap_congr fun block listed => agree.blockFindings owned grounded listed
    have uses : (before.flowGraph entry).reversePostorder.flatMap
        (after.dominanceFindings changed (before.flowGraph entry).dominators) =
        (before.flowGraph entry).reversePostorder.flatMap
          (before.dominanceFindings entry (before.flowGraph entry).dominators) :=
      List.flatMap_congr fun position _ => agree.dominanceFindings owned grounded
    simp only [blocks, uses]
  unfold Context.findings FunctionEntry.isDefinition
  rw [agree.attributes, agree.blocks, personality, body]

end Agree

/-! ### Reports -/

theorem Agree.report (agree : before.Agree entry after changed) (owned : before.Owned)
    (grounded : before.Grounded) (member : entry ∈ before.functions)
    (sameName : after.value? entry.self = before.value? entry.self) (reportUnreachable : Bool) :
    after.report reportUnreachable changed = before.report reportUnreachable entry := by
  have symbol : after.symbolInMessages changed = before.symbolInMessages entry := by
    unfold symbolInMessages
    rw [agree.self, sameName, agree.functionId]
  have place : ∀ place, (∀ block, place = .block block → block ∈ entry.blocks) →
      after.placeText changed place = before.placeText entry place := by
    intro place listed
    cases place with
    | function => exact symbol
    | block block =>
        unfold placeText blockText
        dsimp only
        rw [symbol, agree.block? block (listed block rfl), agree.blockId]
  unfold Context.report
  rw [agree.findings owned grounded member]
  refine congrArg Report.mk (List.map_congr_left fun finding listed => ?_)
  have names := findings_names finding listed
  unfold diagnostic
  rw [place finding.place fun block here => names block (.inl here)]
  cases related : finding.violation.relatedPlace? with
  | none => rfl
  | some other =>
      simp only [Option.map_some]
      rw [place other fun block here => names block (.inr (here ▸ related))]

end Context

end TypedIR
