import TypedIR.Engine.Reference
import TypedIR.Proofs.Check.Agreement
import TypedIR.Proofs.Ownership.Names
import TypedIR.Proofs.Text.Lines

/-!
Contract: the verdict of the reference engine on a function, and its reasons.

Owns:
- the verdict, read off the report of the structural check;
- a verdict is favourable exactly for well-formed functions;
- contexts that agree on a function agree on whether it is valid, and on the whole
  verdict if it has the same name in both;
- the verdict in full: its reasons are the lines of the errors, in their order;
- names without line feeds, under which every error is one line.

Line feeds come into the text of an error with the names that tell its place.
-/

/-! ## Verdicts -/

namespace TypedIR

/-- The verdict of the reference engine on a function of the context. -/
def Context.verdict (context : Context) (reportUnreachable : Bool) (entry : FunctionEntry) :
    Verdict :=
  .ofJudgement Engine.reference.name ((context.functionName? entry.self).getD "")
    (.ofReport (context.functionId entry.self) (context.report reportUnreachable entry))

namespace Verdict

theorem ofJudgement_cases (engine function : String) (judgement : Judgement) :
    (judgement.broken = false ∧ ofJudgement engine function judgement = .valid) ∨
      (judgement.broken = true ∧
        ∃ reasons, ofJudgement engine function judgement = .invalid reasons) := by
  unfold ofJudgement
  cases judgement.broken with
  | false => exact .inl ⟨rfl, rfl⟩
  | true =>
      refine .inr ⟨rfl, ?_⟩
      rw [if_pos rfl]
      split
      · exact ⟨_, rfl⟩
      · exact ⟨_, rfl⟩

theorem state_eq_verified {verdict : Verdict} : verdict.state = .verified ↔ verdict = .valid := by
  cases verdict <;> simp [state]

end Verdict

namespace Context

variable {context before after : Context} {entry changed : FunctionEntry} {reportUnreachable : Bool}

theorem verdict_eq_valid :
    context.verdict reportUnreachable entry = .valid ↔
      ∀ finding ∈ context.findings reportUnreachable entry, finding.isError = false := by
  rw [← report_hasErrors]
  rcases Verdict.ofJudgement_cases Engine.reference.name
      ((context.functionName? entry.self).getD "")
      (.ofReport (context.functionId entry.self) (context.report reportUnreachable entry))
    with ⟨sound, valid⟩ | ⟨broken, reasons, invalid⟩
  · exact iff_of_true valid sound
  · refine iff_of_false (fun valid => ?_) fun sound => ?_
    · cases invalid.symm.trans valid
    · exact Bool.false_ne_true (sound.symm.trans broken)

/-- The verdict is favourable exactly on well-formed functions, and gives reasons otherwise. -/
theorem verdict_cases (owned : context.Owned) (member : entry ∈ context.functions) :
    (context.WellFormed entry ∧ context.verdict reportUnreachable entry = .valid) ∨
      (¬ context.WellFormed entry ∧
        ∃ reasons, context.verdict reportUnreachable entry = .invalid reasons) := by
  have faithful : context.verdict reportUnreachable entry = .valid ↔ context.WellFormed entry :=
    verdict_eq_valid.trans (findings_clean_iff owned member)
  cases verdict : context.verdict reportUnreachable entry with
  | valid => exact .inl ⟨faithful.mp verdict, rfl⟩
  | invalid reasons =>
      refine .inr ⟨fun wellFormed => ?_, reasons, rfl⟩
      cases verdict.symm.trans (faithful.mpr wellFormed)

/-! ### Agreement -/

namespace Agree

variable (agree : before.Agree entry after changed) (owned : before.Owned)
  (grounded : before.Grounded) (member : entry ∈ before.functions)

include agree owned grounded member

/-- Contexts that agree on a function agree on whether it is valid. -/
theorem verdict_eq_valid :
    after.verdict reportUnreachable changed = .valid ↔
      before.verdict reportUnreachable entry = .valid := by
  rw [Context.verdict_eq_valid, Context.verdict_eq_valid, agree.findings owned grounded member]

theorem verdict (sameName : after.value? entry.self = before.value? entry.self) :
    after.verdict reportUnreachable changed = before.verdict reportUnreachable entry := by
  have live : before.IsFunction entry.self := ⟨entry, member, rfl⟩
  have lives := (agree.functions _ (owned.functions.lt_size live)).mpr live
  have name : after.functionName? entry.self = before.functionName? entry.self := by
    rw [functionName?_of_isFunction live, functionName?_of_isFunction lives, sameName]
  unfold Context.verdict
  rw [agree.self, agree.functionId, name, agree.report owned grounded member sameName]

end Agree

end Context

end TypedIR

/-! ## Reasons -/

namespace TypedIR

open Text

/-! ### Words -/

theorem AttributeKind.oneLine_word (kind : AttributeKind) : OneLine kind.word := by
  cases kind <;> decide

theorem BinaryOperator.oneLine_word (operator : BinaryOperator) : OneLine operator.word := by
  cases operator <;> decide

theorem Instruction.oneLine_opcode (code : Instruction) : OneLine code.opcode := by
  cases code with
  | binary operator left right => exact operator.oneLine_word
  | _ =>
      rw [opcode]
      decide

theorem Site.oneLine_text (site : Site) : OneLine site.text := by
  cases site with
  | parameter position => exact .append (by decide) (oneLine_toString position)
  | _ => decide

theorem Site.ended_text (site : Site) : Ended site.text := by
  cases site with
  | parameter position => exact .append _ (ended_toString position)
  | _ => decide

theorem ContextId.oneLine_text (id : ContextId) : OneLine id.text :=
  .append (.append (.append (by decide) (oneLine_toString _)) (by decide)) (oneLine_toString _)

theorem oneLine_entryText {kind : String} (one : OneLine kind) (index : Nat) (id : ContextId) :
    OneLine (entryText kind index id) :=
  .append (.append (.append (.append one (by decide)) (oneLine_toString _)) (by decide))
    id.oneLine_text

theorem ended_entryText (kind : String) (index : Nat) (id : ContextId) :
    Ended (entryText kind index id) :=
  .append _ (.append _ (ended_toString _))

theorem ValueId.oneLine_text (id : ValueId) : OneLine id.text :=
  oneLine_entryText (by decide) _ _

theorem FunctionId.oneLine_text (id : FunctionId) : OneLine id.text :=
  oneLine_entryText (by decide) _ _

theorem BlockId.oneLine_text (id : BlockId) : OneLine id.text :=
  oneLine_entryText (by decide) _ _

/-! ### Messages -/

theorem Violation.ended_message (violation : Violation) : Ended violation.message := by
  cases violation with
  | misplacedAttribute kind site => exact .append _ site.ended_text
  | releasedCallee callee => exact .append _ (ended_entryText _ _ _)
  | emptyBlock | entryTarget | unreachableBlock => decide
  | _ => exact .append _ (by decide)

/-- The words that the violation quotes are an opcode or the text of a kind of attribute. -/
def Violation.Worded : Violation → Prop
  | .unevenAlignment value => ∃ kind number, value = .enumerated kind number
  | .innerTerminator opcode | .missingTerminator opcode | .releasedOperand _ opcode
  | .foreignOperand _ opcode | .undominatedUse _ opcode _ =>
      ∃ code : Instruction, opcode = code.opcode
  | _ => True

theorem Violation.Worded.oneLine_message {violation : Violation} (worded : violation.Worded) :
    OneLine violation.message := by
  cases violation with
  | misplacedAttribute kind site =>
      exact .append (.append (.append (by decide) kind.oneLine_word) (by decide)) site.oneLine_text
  | unevenAlignment value =>
      obtain ⟨kind, number, rfl⟩ := worded
      have text : OneLine (Attribute.enumerated kind number).text := by
        rw [Attribute.text]
        split
        · exact .append (.append kind.oneLine_word (by decide)) (oneLine_toString _)
        · exact kind.oneLine_word
      exact .append (.append (by decide) text) (by decide)
  | releasedPersonality personality =>
      exact .append (.append (by decide) personality.oneLine_text) (by decide)
  | releasedBlock block => exact .append block.oneLine_text (by decide)
  | releasedInstruction value => exact .append (.append (by decide) value.oneLine_text) (by decide)
  | innerTerminator opcode | missingTerminator opcode =>
      obtain ⟨code, rfl⟩ := worded
      exact .append (.append (by decide) code.oneLine_opcode) (by decide)
  | releasedCallee callee => exact .append (by decide) callee.oneLine_text
  | releasedOperand value opcode | foreignOperand value opcode | undominatedUse value opcode home =>
      obtain ⟨code, rfl⟩ := worded
      exact .append (.append (.append (.append (by decide) value.oneLine_text) (by decide))
        code.oneLine_opcode) (by decide)
  | foreignTarget target => exact .append (.append (by decide) target.oneLine_text) (by decide)
  | emptyBlock | entryTarget | unreachableBlock => decide

theorem Diagnostic.ended_reason {diagnostic : Diagnostic} (ended : Ended diagnostic.message) :
    Ended diagnostic.reason := by
  unfold reason
  split
  · exact ended
  · exact .append _ ended

theorem Diagnostic.oneLine_reason {diagnostic : Diagnostic} (place : OneLine diagnostic.location)
    (message : OneLine diagnostic.message) : OneLine diagnostic.reason := by
  unfold reason
  split
  · exact message
  · exact .append (.append place (by decide)) message

namespace Context

variable {context : Context} {entry : FunctionEntry} {reportUnreachable : Bool}

/-! ### What the check quotes -/

theorem attributeFindings_worded {attached : AttributeEntry} :
    ∀ finding ∈ attributeFindings attached, finding.violation.Worded := by
  unfold attributeFindings
  split
  · next kind number same =>
      rw [List.forall_mem_append]
      constructor
      · split <;> simp [Violation.Worded]
      · split <;> simp [Violation.Worded, same]
  · simp

theorem personalityFindings_worded :
    ∀ finding ∈ context.personalityFindings entry, finding.violation.Worded := by
  unfold personalityFindings
  split
  · split <;> simp [Violation.Worded]
  · simp

theorem operandViolations_worded {code : Instruction} {operand : ValueRef} :
    ∀ violation ∈ context.operandViolations entry code.opcode operand, violation.Worded := by
  have quoted : ∃ other : Instruction, code.opcode = other.opcode := ⟨code, rfl⟩
  unfold operandViolations
  split
  · simp [Violation.Worded, quoted]
  · split
    · split <;> simp [Violation.Worded, quoted]
    · simp

theorem targetViolations_worded {target : BlockRef} :
    ∀ violation ∈ context.targetViolations entry target, violation.Worded := by
  unfold targetViolations
  split <;> simp [Violation.Worded]

theorem calleeViolations_worded {code : Instruction} :
    ∀ violation ∈ context.calleeViolations code, violation.Worded := by
  unfold calleeViolations
  split
  · split <;> simp [Violation.Worded]
  · simp

theorem instructionViolations_worded {isLast : Bool} {value : ValueRef} :
    ∀ violation ∈ context.instructionViolations entry isLast value, violation.Worded := by
  unfold instructionViolations
  split
  · simp [Violation.Worded]
  · next code _ =>
      have quoted : ∃ other : Instruction, code.opcode = other.opcode := ⟨code, rfl⟩
      simp only [List.forall_mem_append, List.forall_mem_flatMap]
      refine ⟨⟨⟨⟨?_, ?_⟩, calleeViolations_worded⟩, ?_⟩, ?_⟩
      · split <;> simp [Violation.Worded, quoted]
      · split <;> simp [Violation.Worded, quoted]
      · exact fun _ _ => operandViolations_worded
      · exact fun _ _ => targetViolations_worded

theorem sequenceViolations_worded {values : List ValueRef} :
    ∀ violation ∈ context.sequenceViolations entry values, violation.Worded := by
  induction values with
  | nil => simp [sequenceViolations]
  | cons value rest inductionHypothesis =>
      rw [sequenceViolations, List.forall_mem_append]
      exact ⟨instructionViolations_worded, inductionHypothesis⟩

theorem blockFindings_worded {block : BlockRef} :
    ∀ finding ∈ context.blockFindings entry block, finding.violation.Worded := by
  unfold blockFindings blockViolations
  rw [List.forall_mem_map]
  split
  · simp [Violation.Worded]
  · simp [Violation.Worded]
  · exact sequenceViolations_worded

theorem useFindings_worded {parents : Flow.Parents} {position : Nat} {block : BlockRef}
    {earlier : List ValueRef} {code : Instruction} {operand : ValueRef} :
    ∀ finding ∈ context.useFindings entry parents position block earlier code.opcode operand,
      finding.violation.Worded := by
  unfold useFindings
  split
  · simp
  · split
    · simp
    · intro finding member
      rw [List.mem_singleton.mp (List.mem_ite_nil_left.mp member).2]
      exact ⟨code, rfl⟩

theorem sequenceUseFindings_worded {parents : Flow.Parents} {position : Nat} {block : BlockRef}
    {earlier values : List ValueRef} :
    ∀ finding ∈ context.sequenceUseFindings entry parents position block earlier values,
      finding.violation.Worded := by
  induction values generalizing earlier with
  | nil => simp [sequenceUseFindings]
  | cons value rest inductionHypothesis =>
      rw [sequenceUseFindings, List.forall_mem_append]
      refine ⟨?_, inductionHypothesis⟩
      split
      · simp
      · exact List.forall_mem_flatMap.mpr fun _ _ => useFindings_worded

theorem dominanceFindings_worded {parents : Flow.Parents} {position : Nat} :
    ∀ finding ∈ context.dominanceFindings entry parents position, finding.violation.Worded := by
  unfold dominanceFindings
  split
  · simp
  · split
    · simp
    · exact sequenceUseFindings_worded

/-- All messages of the check are of its own words. -/
theorem findings_worded :
    ∀ finding ∈ context.findings reportUnreachable entry, finding.violation.Worded := by
  unfold findings
  simp only [List.forall_mem_append, List.forall_mem_flatMap]
  refine ⟨⟨fun _ _ => attributeFindings_worded, personalityFindings_worded⟩, ?_⟩
  split
  · unfold bodyFindings
    simp only [List.forall_mem_append, List.forall_mem_flatMap]
    refine ⟨⟨fun _ _ => blockFindings_worded, ?_⟩, fun _ _ => dominanceFindings_worded⟩
    split
    · intro finding member
      obtain ⟨_, _, found⟩ := List.mem_filterMap.mp member
      obtain ⟨_, _, rfl⟩ := Option.map_eq_some_iff.mp found
      exact trivial
    · exact List.forall_mem_nil _
  · exact List.forall_mem_nil _

/-! ### Errors and reasons -/

/-- Every line of the report belongs to a finding. -/
theorem exists_finding {error : Diagnostic}
    (listed : error ∈ (context.report reportUnreachable entry).errors) :
    ∃ finding ∈ context.findings reportUnreachable entry,
      error = context.diagnostic entry finding := by
  obtain ⟨finding, found, same⟩ := List.mem_map.mp (List.mem_filter.mp listed).1
  exact ⟨finding, found, same.symm⟩

theorem ended_reasons :
    ∀ reason ∈ (context.report reportUnreachable entry).errors.map Diagnostic.reason,
      Ended reason := by
  intro reason member
  obtain ⟨error, listed, rfl⟩ := List.mem_map.mp member
  obtain ⟨finding, _, rfl⟩ := exists_finding listed
  exact Diagnostic.ended_reason finding.violation.ended_message

/-- The reasons of a verdict are the lines of the errors, one error after the other. -/
theorem verdict_eq :
    context.verdict reportUnreachable entry =
      if (context.report reportUnreachable entry).hasErrors then
        .invalid ((context.report reportUnreachable entry).errors.flatMap fun error =>
          lines error.reason)
      else .valid := by
  have cut : lines (Judgement.ofReport (context.functionId entry.self)
      (context.report reportUnreachable entry)).message =
      (context.report reportUnreachable entry).errors.flatMap fun error => lines error.reason := by
    show lines (joined "\n" _) = _
    rw [lines_joined ended_reasons, List.flatMap_map]
  unfold verdict Verdict.ofJudgement
  rw [cut]
  show (if (context.report reportUnreachable entry).hasErrors then _ else _) = _
  by_cases failed : (context.report reportUnreachable entry).hasErrors = true
  · rw [if_pos failed, if_pos failed]
    split
    · next none =>
        -- There is an error, and it has a line.
        exfalso
        obtain ⟨error, listed⟩ := List.exists_mem_of_ne_nil
          (context.report reportUnreachable entry).errors (by simpa [Report.hasErrors] using failed)
        have nonempty := length_lines (ended_reasons _ (List.mem_map_of_mem listed))
        rw [List.flatMap_eq_nil_iff.mp none error listed] at nonempty
        cases nonempty
    · rfl
  · rw [if_neg failed, if_neg failed]

/-- The function and its blocks have names of one line. -/
structure NamedInLines (context : Context) (entry : FunctionEntry) : Prop where
  function : ∀ value, context.value? entry.self = some value → OneLine value.name
  blocks : ∀ block ∈ entry.blocks, ∀ home, context.block? block = some home → OneLine home.name

namespace NamedInLines

variable (named : context.NamedInLines entry)

include named

theorem oneLine_symbolInMessages : OneLine (context.symbolInMessages entry) := by
  unfold symbolInMessages
  split
  · next found =>
      split
      · exact .append (by decide) (FunctionId.oneLine_text _)
      · exact .append (by decide) (named.function _ found)
  · exact .append (by decide) (FunctionId.oneLine_text _)

theorem oneLine_placeText {place : Place}
    (inside : ∀ block, place = .block block → block ∈ entry.blocks) :
    OneLine (context.placeText entry place) := by
  cases place with
  | function => exact named.oneLine_symbolInMessages
  | block block =>
      refine .append (.append named.oneLine_symbolInMessages (by decide)) ?_
      unfold blockText
      split
      · next found =>
          split
          · exact BlockId.oneLine_text _
          · exact named.blocks block (inside block rfl) _ found
      · exact BlockId.oneLine_text _

theorem oneLine_reasons :
    ∀ reason ∈ (context.report reportUnreachable entry).errors.map Diagnostic.reason,
      OneLine reason := by
  intro reason member
  obtain ⟨error, listed, rfl⟩ := List.mem_map.mp member
  obtain ⟨finding, found, rfl⟩ := exists_finding listed
  refine Diagnostic.oneLine_reason (named.oneLine_placeText fun block here => ?_)
    (findings_worded finding found).oneLine_message
  exact findings_names finding found block (.inl here)

end NamedInLines

end Context

end TypedIR
