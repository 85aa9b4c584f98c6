import TypedIR.Proofs.Check.Uses

/-!
Contract: the whole check finds no error exactly in well-formed functions.

Owns:
- which findings are errors: all but those about blocks that no path reaches;
- the equivalence of a report without errors and well-formedness.
-/

namespace TypedIR

theorem Finding.isError_eq_false {finding : Finding} :
    finding.isError = false ↔ finding.violation = .unreachableBlock := by
  obtain ⟨violation, place⟩ := finding
  cases violation <;> simp [isError, Violation.severity]

/-- An error that names no place beside its own. -/
def Violation.Plain (violation : Violation) : Prop :=
  violation ≠ .unreachableBlock ∧ violation.relatedPlace? = none

/-- The finding is about a use in the block of something defined in another block of the
function, or later in the same one. -/
def Finding.Uses (finding : Finding) (entry : FunctionEntry) (block : BlockRef) : Prop :=
  ∃ value opcode, ∃ home ∈ entry.blocks,
    finding = ⟨.undominatedUse value opcode (.block home), .block block⟩

theorem Finding.Uses.isError {finding : Finding} {entry : FunctionEntry} {block : BlockRef}
    (uses : finding.Uses entry block) : finding.violation ≠ .unreachableBlock := by
  obtain ⟨_, _, _, _, rfl⟩ := uses
  exact fun equal => by cases equal

/-- Among findings that are all errors, none is a mere warning. -/
theorem clean_iff_nil {findings : List Finding}
    (errors : ∀ finding ∈ findings, finding.violation ≠ .unreachableBlock) :
    (∀ finding ∈ findings, finding.isError = false) ↔ findings = [] := by
  constructor
  · intro clean
    apply List.eq_nil_iff_forall_not_mem.mpr
    intro finding member
    exact errors finding member (Finding.isError_eq_false.mp (clean finding member))
  · rintro rfl finding member
    cases member

namespace Context

variable {context : Context} {entry : FunctionEntry} {reportUnreachable : Bool}

/-! ### Findings of single checks -/

theorem operandViolations_plain {opcode : String} {operand : ValueRef} :
    ∀ violation ∈ context.operandViolations entry opcode operand, violation.Plain := by
  unfold operandViolations
  split
  · simp [Violation.Plain, Violation.relatedPlace?]
  · split
    · split <;> simp [Violation.Plain, Violation.relatedPlace?]
    · simp

theorem targetViolations_plain {target : BlockRef} :
    ∀ violation ∈ context.targetViolations entry target, violation.Plain := by
  unfold targetViolations
  split <;> simp [Violation.Plain, Violation.relatedPlace?]

theorem calleeViolations_plain {code : Instruction} :
    ∀ violation ∈ context.calleeViolations code, violation.Plain := by
  unfold calleeViolations
  split
  · split <;> simp [Violation.Plain, Violation.relatedPlace?]
  · simp

theorem instructionViolations_plain {isLast : Bool} {value : ValueRef} :
    ∀ violation ∈ context.instructionViolations entry isLast value, violation.Plain := by
  unfold instructionViolations
  split
  · simp [Violation.Plain, Violation.relatedPlace?]
  · simp only [List.forall_mem_append, List.forall_mem_flatMap]
    refine ⟨⟨⟨⟨?_, ?_⟩, calleeViolations_plain⟩, ?_⟩, ?_⟩
    · split <;> simp [Violation.Plain, Violation.relatedPlace?]
    · split <;> simp [Violation.Plain, Violation.relatedPlace?]
    · exact fun _ _ => operandViolations_plain
    · exact fun _ _ => targetViolations_plain

theorem sequenceViolations_plain {values : List ValueRef} :
    ∀ violation ∈ context.sequenceViolations entry values, violation.Plain := by
  induction values with
  | nil => simp [sequenceViolations]
  | cons value rest inductionHypothesis =>
      rw [sequenceViolations, List.forall_mem_append]
      exact ⟨instructionViolations_plain, inductionHypothesis⟩

theorem blockViolations_plain {block : BlockRef} :
    ∀ violation ∈ context.blockViolations entry block, violation.Plain := by
  unfold blockViolations
  split
  · simp [Violation.Plain, Violation.relatedPlace?]
  · simp [Violation.Plain, Violation.relatedPlace?]
  · exact sequenceViolations_plain

/-- The attachments are of the function as a whole. -/
theorem attributeFindings_plain {attached : AttributeEntry} :
    ∀ finding ∈ attributeFindings attached,
      finding.violation.Plain ∧ finding.place = .function := by
  unfold attributeFindings
  split
  · rw [List.forall_mem_append]
    constructor
    · split <;> simp [Violation.Plain, Violation.relatedPlace?]
    · split <;> simp [Violation.Plain, Violation.relatedPlace?]
  · simp

theorem personalityFindings_plain :
    ∀ finding ∈ context.personalityFindings entry,
      finding.violation.Plain ∧ finding.place = .function := by
  unfold personalityFindings
  split
  · split <;> simp [Violation.Plain, Violation.relatedPlace?]
  · simp

theorem blockFindings_plain {block : BlockRef} :
    ∀ finding ∈ context.blockFindings entry block,
      finding.violation.Plain ∧ finding.place = .block block := by
  intro finding member
  obtain ⟨violation, listed, rfl⟩ := List.mem_map.mp member
  exact ⟨blockViolations_plain violation listed, rfl⟩

/-- A finding about a use stands in the block of the use and names the block of the
definition. -/
theorem useFindings_uses {parents : Flow.Parents} {position : Nat} {block : BlockRef}
    {earlier : List ValueRef} {opcode : String} {operand : ValueRef} :
    ∀ finding ∈ context.useFindings entry parents position block earlier opcode operand,
      finding.Uses entry block := by
  unfold useFindings
  split
  · simp
  · next home _ =>
      split
      · simp
      · next place =>
          have listed : home ∈ entry.blocks := by
            apply Decidable.byContradiction
            intro absent
            rw [List.idxOf?_eq_none_iff.mpr absent] at place
            cases place
          intro finding member
          rw [List.mem_singleton.mp (List.mem_ite_nil_left.mp member).2]
          exact ⟨_, _, home, listed, rfl⟩

theorem sequenceUseFindings_uses {parents : Flow.Parents} {position : Nat} {block : BlockRef}
    {earlier values : List ValueRef} :
    ∀ finding ∈ context.sequenceUseFindings entry parents position block earlier values,
      finding.Uses entry block := by
  induction values generalizing earlier with
  | nil => simp [sequenceUseFindings]
  | cons value rest inductionHypothesis =>
      rw [sequenceUseFindings, List.forall_mem_append]
      refine ⟨?_, inductionHypothesis⟩
      split
      · simp
      · intro finding member
        obtain ⟨operand, _, listed⟩ := List.mem_flatMap.mp member
        exact useFindings_uses finding listed

theorem dominanceFindings_uses {parents : Flow.Parents} {position : Nat} :
    ∀ finding ∈ context.dominanceFindings entry parents position,
      ∃ block ∈ entry.blocks, finding.Uses entry block := by
  unfold dominanceFindings
  split
  · simp
  · next block place =>
      split
      · simp
      · intro finding member
        exact ⟨block, List.mem_of_getElem? place, sequenceUseFindings_uses finding member⟩

theorem dominanceFindings_errors {parents : Flow.Parents} {position : Nat} :
    ∀ finding ∈ context.dominanceFindings entry parents position,
      finding.violation ≠ .unreachableBlock := by
  intro finding member
  obtain ⟨_, _, uses⟩ := dominanceFindings_uses finding member
  exact uses.isError

/-! ### The whole check -/

theorem flatMap_clean_iff {α : Type} {items : List α} {find : α → List Finding}
    (errors : ∀ item, ∀ finding ∈ find item, finding.violation ≠ .unreachableBlock) :
    (∀ finding ∈ items.flatMap find, finding.isError = false) ↔ ∀ item ∈ items, find item = [] := by
  rw [clean_iff_nil, List.flatMap_eq_nil_iff]
  intro finding member
  obtain ⟨item, _, listed⟩ := List.mem_flatMap.mp member
  exact errors item finding listed

theorem unreachableFindings_clean {order : List Nat} :
    ∀ finding ∈ unreachableFindings entry order, finding.isError = false := by
  intro finding member
  obtain ⟨position, _, found⟩ := List.mem_filterMap.mp member
  obtain ⟨block, _, rfl⟩ := Option.map_eq_some_iff.mp found
  rfl

theorem bodyFindings_clean_iff :
    (∀ finding ∈ context.bodyFindings reportUnreachable entry, finding.isError = false) ↔
      (∀ block ∈ entry.blocks, context.blockViolations entry block = []) ∧
        ∀ position ∈ (context.flowGraph entry).reversePostorder,
          context.dominanceFindings entry (context.flowGraph entry).dominators position = [] := by
  have unreachable : ∀ finding ∈ (if reportUnreachable then unreachableFindings entry
      (context.flowGraph entry).reversePostorder else []), finding.isError = false := by
    split
    · exact unreachableFindings_clean
    · simp
  unfold bodyFindings
  rw [List.forall_mem_append, List.forall_mem_append,
    flatMap_clean_iff fun _ finding listed => (blockFindings_plain finding listed).1.1,
    flatMap_clean_iff fun _ => dominanceFindings_errors]
  simp only [blockFindings, List.map_eq_nil_iff]
  exact and_congr_left fun _ => and_iff_left unreachable

/-- The check finds no error exactly when the function is well formed. -/
theorem findings_clean_iff (owned : context.Owned) (member : entry ∈ context.functions) :
    (∀ finding ∈ context.findings reportUnreachable entry, finding.isError = false) ↔
      context.WellFormed entry := by
  unfold findings
  rw [List.forall_mem_append, List.forall_mem_append,
    flatMap_clean_iff fun _ finding listed => (attributeFindings_plain finding listed).1.1,
    clean_iff_nil fun finding listed => (personalityFindings_plain finding listed).1.1]
  simp only [attributeFindings_eq_nil, personalityFindings_eq_nil]
  by_cases defined : entry.blocks = []
  · have none : ∀ finding ∈ (if entry.isDefinition then
        context.bodyFindings reportUnreachable entry else []), finding.isError = false := by
      simp [FunctionEntry.isDefinition, defined]
    rw [and_iff_left none]
    constructor
    · rintro ⟨attributes, personality⟩
      refine ⟨attributes, personality, by simp [defined], ?_⟩
      -- Without blocks there is no walk.
      intro visited point value code operand walk
      exfalso
      induction walk with
      | start first => simp [defined] at first
      | step _ _ _ inductionHypothesis => exact inductionHypothesis
    · exact fun wellFormed => ⟨wellFormed.attributes, wellFormed.personality⟩
  · have inhabited : 0 < entry.blocks.length := List.length_pos_of_ne_nil defined
    have isDefinition : entry.isDefinition = true := by
      simp [FunctionEntry.isDefinition, defined]
    rw [if_pos isDefinition, bodyFindings_clean_iff]
    simp only [blockViolations_eq_nil owned member]
    constructor
    · rintro ⟨⟨attributes, personality⟩, blocks, uses⟩
      exact ⟨attributes, personality, blocks,
        (covered_iff_passed owned member blocks inhabited).mp uses⟩
    · intro wellFormed
      exact ⟨⟨wellFormed.attributes, wellFormed.personality⟩, wellFormed.blocks,
        (covered_iff_passed owned member wellFormed.blocks inhabited).mpr wellFormed.dominance⟩

theorem report_hasErrors :
    (context.report reportUnreachable entry).hasErrors = false ↔
      ∀ finding ∈ context.findings reportUnreachable entry, finding.isError = false := by
  unfold Report.hasErrors Report.errors report
  simp [List.filter_eq_nil_iff, diagnostic, Finding.isError]

/-! ### Places -/

/-- All blocks that the finding names are blocks of the function. -/
def Names (entry : FunctionEntry) (finding : Finding) : Prop :=
  ∀ block, finding.place = .block block ∨
    finding.violation.relatedPlace? = some (.block block) → block ∈ entry.blocks

theorem names_of_plain {finding : Finding} (plain : finding.violation.Plain)
    (place : ∀ block, finding.place = .block block → block ∈ entry.blocks) :
    Names entry finding := by
  rintro block (here | related)
  · exact place block here
  · rw [plain.2] at related
    cases related

theorem findings_names :
    ∀ finding ∈ context.findings reportUnreachable entry, Names entry finding := by
  have ofFunction : ∀ {finding : Finding}, finding.violation.Plain ∧ finding.place = .function →
      Names entry finding := by
    rintro finding ⟨plain, place⟩
    apply names_of_plain plain
    intro block here
    rw [place] at here
    cases here
  unfold findings
  rw [List.forall_mem_append, List.forall_mem_append]
  refine ⟨⟨?_, fun finding member => ofFunction (personalityFindings_plain finding member)⟩, ?_⟩
  · intro finding member
    obtain ⟨attached, _, listed⟩ := List.mem_flatMap.mp member
    exact ofFunction (attributeFindings_plain finding listed)
  · split
    · unfold bodyFindings
      rw [List.forall_mem_append, List.forall_mem_append]
      refine ⟨⟨?_, ?_⟩, ?_⟩
      · intro finding member
        obtain ⟨block, blockListed, listed⟩ := List.mem_flatMap.mp member
        obtain ⟨plain, place⟩ := blockFindings_plain finding listed
        apply names_of_plain plain
        intro other here
        rw [place] at here
        cases here
        exact blockListed
      · split
        · intro finding member
          obtain ⟨position, _, found⟩ := List.mem_filterMap.mp member
          obtain ⟨block, place, rfl⟩ := Option.map_eq_some_iff.mp found
          rintro other (here | related)
          · cases here
            exact List.mem_of_getElem? place
          · cases related
        · simp
      · intro finding member
        obtain ⟨position, _, listed⟩ := List.mem_flatMap.mp member
        obtain ⟨block, blockListed, _, _, home, homeListed, rfl⟩ :=
          dominanceFindings_uses finding listed
        rintro other (here | related)
        · cases here
          exact blockListed
        · cases related
          exact homeListed
    · simp

end Context

end TypedIR
