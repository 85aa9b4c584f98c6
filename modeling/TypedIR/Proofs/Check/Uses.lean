import TypedIR.Proofs.Check.Blocks
import TypedIR.Proofs.Check.Paths
import TypedIR.Proofs.Flow.Dominance

/-!
Contract: the check of uses finds nothing exactly when on every walk each used
instruction was passed before.

Owns:
- what the check of one block asks of each operand;
- the equivalence with walks, for functions whose blocks are sound one by one.

A use in the block of its definition is decided by the order inside the block, any
other use by dominance in the flow graph.
-/

namespace TypedIR.Context

variable {context : Context} {entry : FunctionEntry} {parents : Flow.Parents}

/-- What is asked of an operand of the instruction at an offset of the block at a position. -/
def Covered (context : Context) (entry : FunctionEntry) (parents : Flow.Parents)
    (position : Nat) (earlier : List ValueRef) (operand : ValueRef) : Prop :=
  ∀ home, context.definingBlock? operand = some home →
    ∀ definition, entry.blocks.idxOf? home = some definition →
      (definition = position ∧ operand ∈ earlier) ∨
        (definition ≠ position ∧ parents.dominates definition position = true)

theorem useFindings_eq_nil {position : Nat} {block : BlockRef} {earlier : List ValueRef}
    {opcode : String} {operand : ValueRef} :
    context.useFindings entry parents position block earlier opcode operand = [] ↔
      context.Covered entry parents position earlier operand := by
  unfold useFindings Covered
  cases context.definingBlock? operand with
  | none => simp
  | some home =>
      cases place : entry.blocks.idxOf? home with
      | none => simp [place]
      | some definition =>
          simp only [Option.some.injEq, forall_eq', place]
          by_cases same : definition = position
          · simp [same]
          · simp [same]

theorem sequenceUseFindings_eq_nil {position : Nat} {block : BlockRef}
    {earlier values : List ValueRef} :
    context.sequenceUseFindings entry parents position block earlier values = [] ↔
      ∀ (offset : Nat) value code operand, values[offset]? = some value →
        context.instruction? value = some code → operand ∈ code.operands →
        context.Covered entry parents position (earlier ++ values.take offset) operand := by
  induction values generalizing earlier with
  | nil => simp [sequenceUseFindings]
  | cons first rest inductionHypothesis =>
      rw [sequenceUseFindings, List.append_eq_nil_iff, inductionHypothesis]
      constructor
      · rintro ⟨here, others⟩ offset value code operand atOffset isCode member
        cases offset with
        | zero =>
            obtain rfl : first = value := by simpa using atOffset
            rw [isCode] at here
            have covered := useFindings_eq_nil.mp (List.flatMap_eq_nil_iff.mp here operand member)
            simpa using covered
        | succ offset =>
            have later := others offset value code operand (by simpa using atOffset) isCode member
            simpa using later
      · intro all
        constructor
        · cases isCode : context.instruction? first with
          | none => rfl
          | some code =>
              refine List.flatMap_eq_nil_iff.mpr fun operand member => useFindings_eq_nil.mpr ?_
              simpa using all 0 first code operand rfl isCode member
        · intro offset value code operand atOffset isCode member
          have later := all (offset + 1) value code operand (by simpa using atOffset) isCode member
          simpa using later

theorem dominanceFindings_eq_nil {position : Nat} :
    context.dominanceFindings entry parents position = [] ↔
      ∀ (offset : Nat) value code operand,
        (context.bodyAt entry position)[offset]? = some value →
        context.instruction? value = some code → operand ∈ code.operands →
        context.Covered entry parents position ((context.bodyAt entry position).take offset)
          operand := by
  unfold dominanceFindings bodyAt
  cases entry.blocks[position]? with
  | none => simp
  | some block =>
      rw [Option.bind_some]
      cases found : context.block? block with
      | none => simp [found]
      | some home =>
          obtain ⟨function, name, instructions⟩ := home
          simp only [found, sequenceUseFindings_eq_nil, Option.map_some, Option.getD_some,
            List.nil_append]

/-! ### Uses and walks -/

theorem definingBlock?_eq_some {value : ValueRef} {block : BlockRef} :
    context.definingBlock? value = some block ↔
      ∃ type code, context.Holds value type (.instruction block code) := by
  unfold definingBlock? Holds
  cases found : context.value? value with
  | none => simp
  | some held =>
      obtain ⟨type, kind, name⟩ := held
      cases kind <;> simp [eq_comm]

theorem isSome_instruction? {value : ValueRef} :
    (context.instruction? value).isSome ↔ ∃ block, context.definingBlock? value = some block := by
  unfold instruction? definingBlock?
  cases context.value? value with
  | none => simp
  | some held =>
      obtain ⟨type, kind, name⟩ := held
      cases kind <;> simp

section Owned

variable (owned : context.Owned) (member : entry ∈ context.functions)

include owned

/-- An instruction stands in the block that it names, and in no other. -/
theorem mem_bodyAt {position : Nat} {block : BlockRef} {value : ValueRef}
    (place : entry.blocks[position]? = some block) :
    value ∈ context.bodyAt entry position ↔ context.definingBlock? value = some block := by
  rw [definingBlock?_eq_some]
  unfold bodyAt
  rw [place, Option.bind_some]
  cases found : context.block? block with
  | none =>
      apply iff_of_false (by simp)
      rintro ⟨type, code, held⟩
      obtain ⟨home, live⟩ := owned.instructions.owners value type block code held
      rw [found] at live
      cases live
  | some home =>
      rw [Option.map_some, Option.getD_some]
      exact (owned.instructions.lists block home found).2 value

include member

theorem blocks_nodup : entry.blocks.Nodup := (owned.blocks.lists entry member).1

/-- The position of a value's block is the only one with the value in its body. -/
theorem position_unique {position other : Nat} {home : BlockRef} {value : ValueRef}
    (defined : context.definingBlock? value = some home)
    (place : entry.blocks[position]? = some home) (inBody : value ∈ context.bodyAt entry other) :
    other = position := by
  cases otherPlace : entry.blocks[other]? with
  | none => simp [bodyAt, otherPlace] at inBody
  | some block =>
      have same := ((mem_bodyAt owned otherPlace).mp inBody).symm.trans defined
      rw [Option.some.inj same] at otherPlace
      obtain ⟨inside, _⟩ := List.getElem?_eq_some_iff.mp otherPlace
      exact (List.getElem?_inj inside (blocks_nodup owned member)).mp (otherPlace.trans place.symm)

variable (fits : ∀ block ∈ entry.blocks, context.BlockFits entry block)

include fits

omit owned member in
/-- What a fitting block uses is defined in a block of the function. -/
theorem definition_position {position offset : Nat} {block home : BlockRef}
    {value operand : ValueRef} {code : Instruction} (place : entry.blocks[position]? = some block)
    (here : (context.bodyAt entry position)[offset]? = some value)
    (isCode : context.instruction? value = some code) (used : operand ∈ code.operands)
    (defined : context.definingBlock? operand = some home) :
    ∃ definition : Nat, entry.blocks[definition]? = some home := by
  obtain ⟨_, each⟩ := (fits block (List.mem_of_getElem? place)).bodyAt_fits place
  obtain ⟨found, isFound, rules⟩ := each offset value here
  obtain rfl := Option.some.inj (isFound.symm.trans isCode)
  obtain ⟨type, kind, held, usable⟩ := rules.operands operand used
  obtain ⟨otherType, otherCode, other⟩ := definingBlock?_eq_some.mp defined
  obtain ⟨_, rfl⟩ := held.unique other
  rcases usable with constant | ⟨_, parameter⟩ | ⟨listed, member, _, same⟩
  · cases constant
  · cases parameter
  · obtain ⟨rfl, _⟩ := ValueKind.instruction.inj same
    exact List.getElem?_of_mem member

/-- If all reached uses are covered, the used instruction was passed on every walk. -/
theorem passed_of_covered (inhabited : 0 < entry.blocks.length)
    (clean : ∀ position ∈ (context.flowGraph entry).reversePostorder,
      context.dominanceFindings entry (context.flowGraph entry).dominators position = [])
    {visited : List ValueRef} {point : Point} {value operand : ValueRef} {code : Instruction}
    (walk : context.Walk entry visited point) (here : context.instructionAt? point = some value)
    (isCode : context.instruction? value = some code) (used : operand ∈ code.operands)
    (isInstruction : (context.instruction? operand).isSome) : operand ∈ visited := by
  have distinct := blocks_nodup owned member
  have populated : 0 < (context.flowGraph entry).size := by rwa [size_flowGraph]
  obtain ⟨position, earlier, place, path, rfl, inside⟩ := walk.to_path distinct fits
  rw [instructionAt?_eq place] at here
  have reached : (context.flowGraph entry).Reaches 0 position := ⟨_, path⟩
  have listed := ((context.flowGraph entry).mem_reversePostorder_iff populated).mpr reached
  have covered := dominanceFindings_eq_nil.mp (clean position listed) point.offset value code
    operand here isCode used
  obtain ⟨home, defined⟩ := isSome_instruction?.mp isInstruction
  obtain ⟨definition, homePlace⟩ := definition_position fits place here isCode used defined
  rcases covered home defined definition ((idxOf?_eq_some_iff_of_nodup distinct).mpr homePlace)
    with ⟨rfl, before⟩ | ⟨apart, dominates⟩
  · exact List.mem_append_right _ before
  · have dominator := ((context.flowGraph entry).dominates_iff populated reached).mp dominates
    have passed : definition ∈ earlier := by
      rcases List.mem_append.mp (dominator _ path) with left | last
      · exact left
      · exact absurd (List.mem_singleton.mp last) apart
    refine List.mem_append_left _ (List.mem_flatMap.mpr ⟨definition, passed, ?_⟩)
    exact (mem_bodyAt owned homePlace).mpr defined

/-- If the used instruction was passed on every walk to a use, the use is covered. -/
theorem covered_of_passed (inhabited : 0 < entry.blocks.length) {position offset : Nat}
    {value operand : ValueRef} (here : (context.bodyAt entry position)[offset]? = some value)
    (passed : ∀ visited block, context.Walk entry visited ⟨block, offset⟩ →
      context.instructionAt? ⟨block, offset⟩ = some value → operand ∈ visited)
    (reached : (context.flowGraph entry).Reaches 0 position) :
    context.Covered entry (context.flowGraph entry).dominators position
      ((context.bodyAt entry position).take offset) operand := by
  have distinct := blocks_nodup owned member
  have populated : 0 < (context.flowGraph entry).size := by rwa [size_flowGraph]
  intro home defined definition found
  have homePlace := (idxOf?_eq_some_iff_of_nodup distinct).mp found
  obtain ⟨offsetInside, _⟩ := List.getElem?_eq_some_iff.mp here
  -- Wherever a walk to the use comes from, it has passed the block of the definition.
  have onPath : ∀ earlier, (context.flowGraph entry).Path 0 (earlier ++ [position]) position →
      definition ∈ earlier ∨
        (definition = position ∧ operand ∈ (context.bodyAt entry position).take offset) := by
    intro earlier path
    obtain ⟨block, place, walk⟩ := walk_of_path distinct fits path inhabited offsetInside
    have point : context.instructionAt? ⟨block, offset⟩ = some value := by
      rw [instructionAt?_eq place, here]
    rcases List.mem_append.mp (passed _ block walk point) with before | inBlock
    · obtain ⟨other, otherPassed, inOther⟩ := List.mem_flatMap.mp before
      exact .inl (position_unique owned member defined homePlace inOther ▸ otherPassed)
    · have inPosition := List.mem_of_mem_take inBlock
      exact .inr ⟨(position_unique owned member defined homePlace inPosition).symm, inBlock⟩
  obtain ⟨visited, path⟩ := reached
  obtain ⟨front, short, avoids, _⟩ := path.to_first_visit
  by_cases same : definition = position
  · rcases onPath front short with otherPassed | ⟨_, before⟩
    · exact absurd (same ▸ otherPassed) avoids
    · exact .inl ⟨same, before⟩
  · refine .inr ⟨same, ((context.flowGraph entry).dominates_iff populated ⟨_, path⟩).mpr ?_⟩
    intro blocks other
    obtain ⟨earlier, rfl⟩ := other.eq_snoc
    rcases onPath earlier other with otherPassed | ⟨here, _⟩
    · exact List.mem_append_left _ otherPassed
    · exact absurd here same

/-- Each use in a block that the entry reaches is covered exactly when on every walk the used
instruction was passed. -/
theorem covered_iff_passed (inhabited : 0 < entry.blocks.length) :
    (∀ position ∈ (context.flowGraph entry).reversePostorder,
      context.dominanceFindings entry (context.flowGraph entry).dominators position = []) ↔
    ∀ visited point value code operand, context.Walk entry visited point →
      context.instructionAt? point = some value → context.instruction? value = some code →
      operand ∈ code.operands → (context.instruction? operand).isSome → operand ∈ visited := by
  have populated : 0 < (context.flowGraph entry).size := by rwa [size_flowGraph]
  constructor
  · intro clean visited point value code operand
    exact passed_of_covered owned member fits inhabited clean
  · intro passed position listed
    have reached := ((context.flowGraph entry).mem_reversePostorder_iff populated).mp listed
    apply dominanceFindings_eq_nil.mpr
    intro offset value code operand here isCode used home defined
    have isInstruction := isSome_instruction?.mpr ⟨home, defined⟩
    refine covered_of_passed owned member fits inhabited here ?_ reached home defined
    intro visited block walk point
    exact passed visited ⟨block, offset⟩ value code operand walk point isCode used isInstruction

end Owned

end TypedIR.Context
