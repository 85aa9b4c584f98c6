import TypedIR.Proofs.Check.Findings
import TypedIR.Proofs.Check.Order

/-!
Contract: what can still be wrong with a function whose references are all in order.

Owns:
- references in order: every callee is live, every operand is a live constant or belongs to the
  function, every target is a block of it;
- that then no finding is about something released or foreign;
- the rules that are left, block by block and with routes of blocks in place of walks, and that
  the function is well formed exactly if it keeps them.

A use in the block of its definition needs no rule, since operands come before their uses.
-/

namespace TypedIR

/-- The violation is that something was released or belongs to another function. -/
def Violation.isDangling : Violation → Bool
  | .releasedPersonality _ | .releasedBlock _ | .releasedInstruction _ | .releasedCallee _
  | .releasedOperand _ _ | .foreignOperand _ _ | .foreignTarget _ => true
  | _ => false

namespace Context

variable {context : Context} {entry : FunctionEntry} {block target : BlockRef} {value : ValueRef}
  {code : Instruction}

/-! ### References in order -/

/-- The instruction stands in the block. -/
def StandsIn (context : Context) (block : BlockRef) (value : ValueRef) (code : Instruction) :
    Prop :=
  ∃ home, context.block? block = some home ∧ value ∈ home.instructions ∧
    context.instruction? value = some code

theorem StandsIn.isCode (stands : context.StandsIn block value code) :
    context.instruction? value = some code := by
  obtain ⟨_, _, _, isCode⟩ := stands
  exact isCode

/-- What an instruction of the function refers to is there, and is the function's own where it has
to be. -/
structure CodeTied (context : Context) (entry : FunctionEntry) (code : Instruction) : Prop where
  callee : ∀ callee, code.callee? = some callee → context.IsFunction callee
  operands : ∀ operand ∈ code.operands, context.Usable entry operand
  targets : ∀ target ∈ code.successors, target ∈ entry.blocks

/-- All instructions of the function have their references in order. -/
def Tied (context : Context) (entry : FunctionEntry) : Prop :=
  ∀ block ∈ entry.blocks, ∀ value code, context.StandsIn block value code →
    context.CodeTied entry code

section Dangling

variable {reportUnreachable : Bool}

theorem attributeFindings_held {attached : AttributeEntry} :
    ∀ finding ∈ attributeFindings attached, finding.violation.isDangling = false := by
  unfold attributeFindings
  split
  · rw [List.forall_mem_append]
    constructor
    · split <;> simp [Violation.isDangling]
    · split <;> simp [Violation.isDangling]
  · simp

theorem targetViolations_held (inside : target ∈ entry.blocks) :
    ∀ violation ∈ context.targetViolations entry target, violation.isDangling = false := by
  unfold targetViolations
  cases place : entry.blocks.idxOf? target with
  | none => exact absurd inside (List.idxOf?_eq_none_iff.mp place)
  | some position => cases position <;> simp [Violation.isDangling]

variable (owned : context.Owned) (member : entry ∈ context.functions)

include owned member

theorem instructionViolations_held {isLast : Bool} (isCode : context.instruction? value = some code)
    (tied : context.CodeTied entry code) :
    ∀ violation ∈ context.instructionViolations entry isLast value,
      violation.isDangling = false := by
  have operands : ∀ operand ∈ code.operands,
      context.operandViolations entry code.opcode operand = [] :=
    fun operand used => (operandViolations_eq_nil owned member).mpr (tied.operands operand used)
  unfold instructionViolations
  rw [isCode]
  simp only [List.forall_mem_append, List.forall_mem_flatMap]
  refine ⟨⟨⟨⟨?_, ?_⟩, ?_⟩, fun operand used => ?_⟩, fun target successor => ?_⟩
  · split <;> simp [Violation.isDangling]
  · split <;> simp [Violation.isDangling]
  · rw [calleeViolations_eq_nil.mpr tied.callee]
    exact fun _ listed => absurd listed List.not_mem_nil
  · rw [operands operand used]
    exact fun _ listed => absurd listed List.not_mem_nil
  · exact targetViolations_held (tied.targets target successor)

theorem sequenceViolations_held {values : List ValueRef}
    (each : ∀ value ∈ values, ∃ code, context.instruction? value = some code ∧
      context.CodeTied entry code) :
    ∀ violation ∈ context.sequenceViolations entry values, violation.isDangling = false := by
  induction values with
  | nil => simp [sequenceViolations]
  | cons first rest inductionHypothesis =>
      rw [sequenceViolations, List.forall_mem_append]
      obtain ⟨here, others⟩ := List.forall_mem_cons.mp each
      obtain ⟨code, isCode, tied⟩ := here
      exact ⟨instructionViolations_held owned member isCode tied, inductionHypothesis others⟩

omit member in
/-- The listed blocks of a function are there, and so are their instructions. -/
theorem standsIn_of_listed {home : Block} (found : context.block? block = some home)
    (listed : value ∈ home.instructions) : ∃ code, context.StandsIn block value code := by
  obtain ⟨type, code, held⟩ := ((owned.instructions.lists block home found).2 value).mp listed
  exact ⟨code, home, found, listed, instruction?_eq_some.mpr ⟨type, block, held⟩⟩

theorem blockViolations_held (tied : context.Tied entry) (listed : block ∈ entry.blocks) :
    ∀ violation ∈ context.blockViolations entry block, violation.isDangling = false := by
  obtain ⟨home, found⟩ := owned.blocks.exists_block member listed
  have each : ∀ value ∈ home.instructions, ∃ code, context.instruction? value = some code ∧
      context.CodeTied entry code := by
    intro value inside
    obtain ⟨code, stands⟩ := standsIn_of_listed owned found inside
    exact ⟨code, stands.isCode, tied block listed value code stands⟩
  unfold blockViolations
  rw [found]
  obtain ⟨function, name, instructions⟩ := home
  cases instructions with
  | nil => simp [Violation.isDangling]
  | cons first rest => exact sequenceViolations_held owned member each

/-- Where all references are in order, nothing is found released or foreign. -/
theorem findings_held (tied : context.Tied entry) :
    ∀ finding ∈ context.findings reportUnreachable entry, finding.violation.isDangling = false := by
  unfold findings
  rw [List.forall_mem_append, List.forall_mem_append]
  refine ⟨⟨fun finding listed => ?_, ?_⟩, ?_⟩
  · obtain ⟨attached, _, among⟩ := List.mem_flatMap.mp listed
    exact attributeFindings_held finding among
  · rw [personalityFindings_eq_nil.mpr (owned.functions.personalities entry member)]
    exact fun _ listed => absurd listed List.not_mem_nil
  · split
    · unfold bodyFindings
      rw [List.forall_mem_append, List.forall_mem_append]
      refine ⟨⟨fun finding listed => ?_, ?_⟩, fun finding listed => ?_⟩
      · obtain ⟨block, blockListed, among⟩ := List.mem_flatMap.mp listed
        obtain ⟨violation, violated, rfl⟩ := List.mem_map.mp among
        exact blockViolations_held owned member tied blockListed violation violated
      · split
        · intro finding listed
          rw [Finding.isError_eq_false.mp (unreachableFindings_clean finding listed)]
          rfl
        · exact fun _ listed => absurd listed List.not_mem_nil
      · obtain ⟨position, _, among⟩ := List.mem_flatMap.mp listed
        obtain ⟨_, _, _, _, _, _, rfl⟩ := dominanceFindings_uses finding among
        rfl
    · exact fun _ listed => absurd listed List.not_mem_nil

end Dangling

/-! ### Routes -/

/-- The last instruction of a block names the target. -/
def Leads (context : Context) (block target : BlockRef) : Prop :=
  ∃ home last code, context.block? block = some home ∧ home.instructions.getLast? = some last ∧
    context.instruction? last = some code ∧ target ∈ code.successors

/-- Blocks one after the other, from the first one of a function along targets, the block that is
reached among them. -/
inductive Route (context : Context) (entry : FunctionEntry) : List BlockRef → BlockRef → Prop where
  | start {block : BlockRef} (first : entry.blocks.head? = some block) :
      Route context entry [block] block
  | step {passed : List BlockRef} {block target : BlockRef}
      (route : Route context entry passed block) (leads : context.Leads block target) :
      Route context entry (passed ++ [target]) target

/-- The rules that are left for a function whose references are all in order. -/
structure LocallyFit (context : Context) (entry : FunctionEntry) : Prop where
  attributes : ∀ attached ∈ entry.attributes.entries, AttributeFits attached
  filled : ∀ block ∈ entry.blocks, ∀ home, context.block? block = some home →
    home.instructions ≠ []
  /-- The last instruction of a block, and no other, is a terminator. -/
  terminators : ∀ block ∈ entry.blocks, ∀ home, context.block? block = some home →
    ∀ (offset : Nat) value code, home.instructions[offset]? = some value →
      context.instruction? value = some code →
        (code.isTerminator = true ↔ offset + 1 = home.instructions.length)
  targets : ∀ block ∈ entry.blocks, ∀ value code, context.StandsIn block value code →
    ∀ target ∈ code.successors, entry.blocks.head? ≠ some target
  /-- Whatever route leads to a use of something from another block, it passes that block. -/
  uses : ∀ passed block value code operand definition, context.Route entry passed block →
    context.StandsIn block value code → operand ∈ code.operands →
      context.definingBlock? operand = some definition → definition ≠ block → definition ∈ passed

/-- An instruction of a fitting block keeps the rules of its place. -/
theorem BlockFits.fitsAt {home : Block} {offset : Nat} (fits : context.BlockFits entry block)
    (found : context.block? block = some home) (here : home.instructions[offset]? = some value)
    (isCode : context.instruction? value = some code) :
    context.InstructionFits entry (offset + 1 == home.instructions.length) code := by
  obtain ⟨other, same, _, each⟩ := fits
  obtain rfl := Option.some.inj (found.symm.trans same)
  obtain ⟨rule, isRule, rules⟩ := each offset value here
  obtain rfl := Option.some.inj (isRule.symm.trans isCode)
  exact rules

section Routes

open TypedIR.Flow (Graph)

variable (owned : context.Owned) (member : entry ∈ context.functions)
  (fits : ∀ block ∈ entry.blocks, context.BlockFits entry block)

include owned member fits

/-- The blocks of a route are those at the positions of a path. -/
theorem Route.to_path {passed : List BlockRef} (route : context.Route entry passed block) :
    ∃ visited position, (context.flowGraph entry).Path 0 visited position ∧
      entry.blocks[position]? = some block ∧
      ∀ between ∈ visited, ∃ other ∈ passed, entry.blocks[between]? = some other := by
  induction route with
  | @start block first =>
      rw [List.head?_eq_getElem?] at first
      refine ⟨[0], 0, .single 0, first, fun between only => ?_⟩
      rw [List.mem_singleton.mp only]
      exact ⟨block, List.mem_cons_self, first⟩
  | @step passed block target route leads inductionHypothesis =>
      obtain ⟨visited, position, path, place, inside⟩ := inductionHypothesis
      obtain ⟨home, last, code, found, ends, isCode, successor⟩ := leads
      rw [List.getLast?_eq_getElem?] at ends
      have rules := (fits block (List.mem_of_getElem? place)).fitsAt found ends isCode
      obtain ⟨targetListed, notFirst⟩ := rules.targets target successor
      obtain ⟨next, nextPlace⟩ := List.getElem?_of_mem targetListed
      have edge : next ∈ (context.flowGraph entry).successors position := by
        refine (mem_successors (blocks_nodup owned member)
          (List.getElem?_eq_some_iff.mp place).1).mpr ⟨last, code, target, ?_, isCode, successor,
            nextPlace, ?_⟩
        · rw [bodyAt_eq place found, List.getLast?_eq_getElem?, ends]
        · rintro rfl
          exact notFirst (List.head?_eq_getElem?.trans nextPlace)
      refine ⟨visited ++ [next], next, path.snoc edge, nextPlace, fun between among => ?_⟩
      rcases List.mem_append.mp among with earlier | only
      · obtain ⟨other, otherPassed, otherPlace⟩ := inside between earlier
        exact ⟨other, List.mem_append_left _ otherPassed, otherPlace⟩
      · rw [List.mem_singleton.mp only]
        exact ⟨target, List.mem_append_right _ List.mem_cons_self, nextPlace⟩

omit fits in
/-- A route goes on along a path from the block that it has reached. -/
theorem Route.along_path {source target : Nat} {visited : List Nat}
    (path : (context.flowGraph entry).Path source visited target) {passed : List BlockRef}
    (place : entry.blocks[source]? = some block) (route : context.Route entry passed block) :
    ∃ longer last, entry.blocks[target]? = some last ∧ context.Route entry longer last ∧
      ∀ other ∈ longer, other ∈ passed ∨
        ∃ between ∈ visited, entry.blocks[between]? = some other := by
  induction path generalizing passed block with
  | single only => exact ⟨passed, block, place, route, fun other listed => .inl listed⟩
  | @cons source next target visited edge rest inductionHypothesis =>
      obtain ⟨inside, _⟩ := List.getElem?_eq_some_iff.mp place
      obtain ⟨value, code, nextBlock, ends, isCode, successor, nextPlace, _⟩ :=
        (mem_successors (blocks_nodup owned member) inside).mp edge
      have leads : context.Leads block nextBlock := by
        obtain ⟨home, found⟩ := owned.blocks.exists_block member (List.mem_of_getElem? place)
        rw [bodyAt_eq place found] at ends
        exact ⟨home, value, code, found, ends, isCode, successor⟩
      obtain ⟨longer, last, lastPlace, longerRoute, among⟩ :=
        inductionHypothesis nextPlace (route.step leads)
      refine ⟨longer, last, lastPlace, longerRoute, fun other listed => ?_⟩
      rcases among other listed with before | ⟨between, later, otherPlace⟩
      · rcases List.mem_append.mp before with early | only
        · exact .inl early
        · rw [List.mem_singleton.mp only]
          exact .inr ⟨next, List.mem_cons_of_mem _ (rest.source_mem), nextPlace⟩
      · exact .inr ⟨between, List.mem_cons_of_mem _ later, otherPlace⟩

/-- If routes pass the blocks of what is used from elsewhere, walks pass what is used. -/
theorem passed_of_routes (coherent : context.Coherent) (ascending : context.Ascending)
    (routes : ∀ passed block value code operand definition, context.Route entry passed block →
      context.StandsIn block value code → operand ∈ code.operands →
        context.definingBlock? operand = some definition → definition ≠ block →
          definition ∈ passed) {visited : List ValueRef} {point : Point} {operand : ValueRef}
    (walk : context.Walk entry visited point) (here : context.instructionAt? point = some value)
    (isCode : context.instruction? value = some code) (used : operand ∈ code.operands)
    (isInstruction : (context.instruction? operand).isSome) : operand ∈ visited := by
  have distinct := blocks_nodup owned member
  obtain ⟨definition, defined⟩ := isSome_instruction?.mp isInstruction
  obtain ⟨position, earlier, place, path, rfl, _⟩ := walk.to_path distinct fits
  obtain ⟨home, found⟩ := owned.blocks.exists_block member (List.mem_of_getElem? place)
  rw [instructionAt?_eq place, bodyAt_eq place found] at here
  by_cases same : definition = point.block
  · -- In the block of its definition the operand stands before the use.
    obtain ⟨inside, atOffset⟩ := List.getElem?_eq_some_iff.mp here
    have split : home.instructions = home.instructions.take point.offset ++
        value :: home.instructions.drop (point.offset + 1) := by
      rw [← atOffset, List.getElem_cons_drop, List.take_append_drop]
    have before := coherent.operand_earlier ascending found split isCode used (same ▸ defined)
    refine List.mem_append_right _ ?_
    rw [bodyAt_eq place found]
    exact before
  · obtain ⟨inside, _⟩ := List.getElem?_eq_some_iff.mp place
    have first : entry.blocks[0]? = some entry.blocks[0] := List.getElem?_eq_getElem _
    obtain ⟨passed, last, lastPlace, route, among⟩ := Route.along_path owned member path first
      (.start (List.head?_eq_getElem?.trans first))
    obtain rfl := Option.some.inj (lastPlace.symm.trans place)
    have onRoute := routes passed _ value code operand definition route
      ⟨home, found, List.mem_of_getElem? here, isCode⟩ used defined same
    obtain ⟨between, listed, betweenPlace⟩ : ∃ between ∈ earlier ++ [position],
        entry.blocks[between]? = some definition := by
      rcases among definition onRoute with start | later
      · rw [List.mem_singleton.mp start]
        exact ⟨0, path.source_mem, first⟩
      · exact later
    rcases List.mem_append.mp listed with before | only
    · refine List.mem_append_left _ (List.mem_flatMap.mpr ⟨between, before, ?_⟩)
      exact (mem_bodyAt owned betweenPlace).mpr defined
    · rw [List.mem_singleton.mp only, place] at betweenPlace
      exact absurd (Option.some.inj betweenPlace).symm same

/-- If walks pass what is used, routes pass the blocks of what is used from elsewhere. -/
theorem mem_of_walks
    (walks : ∀ visited point value code operand, context.Walk entry visited point →
      context.instructionAt? point = some value → context.instruction? value = some code →
      operand ∈ code.operands → (context.instruction? operand).isSome → operand ∈ visited)
    {passed : List BlockRef} {operand : ValueRef} {definition : BlockRef}
    (route : context.Route entry passed block) (stands : context.StandsIn block value code)
    (used : operand ∈ code.operands) (defined : context.definingBlock? operand = some definition)
    (elsewhere : definition ≠ block) : definition ∈ passed := by
  obtain ⟨visited, position, path, place, inside⟩ := route.to_path owned member fits
  obtain ⟨home, found, listed, isCode⟩ := stands
  obtain ⟨offset, here⟩ := List.getElem?_of_mem listed
  obtain ⟨earlier, rfl⟩ := path.eq_snoc
  rw [← bodyAt_eq place found] at here
  have inhabited : 0 < entry.blocks.length :=
    Nat.lt_of_le_of_lt (Nat.zero_le _) (List.getElem?_eq_some_iff.mp place).1
  obtain ⟨last, lastPlace, walk⟩ := walk_of_path (blocks_nodup owned member) fits path inhabited
    (List.getElem?_eq_some_iff.mp here).1
  obtain rfl := Option.some.inj (lastPlace.symm.trans place)
  have passedUse := walks _ _ value code operand walk ((instructionAt?_eq place).trans here) isCode
    used (isSome_instruction?.mpr ⟨definition, defined⟩)
  -- What was passed stands in a block of the path, and the block of the use is not that block.
  rcases List.mem_append.mp passedUse with before | inBlock
  · obtain ⟨between, among, inBody⟩ := List.mem_flatMap.mp before
    obtain ⟨other, otherPassed, otherPlace⟩ := inside between (List.mem_append_left _ among)
    have same := ((mem_bodyAt owned otherPlace).mp inBody).symm.trans defined
    rwa [← Option.some.inj same]
  · have same := ((mem_bodyAt owned place).mp (List.mem_of_mem_take inBlock)).symm.trans defined
    exact absurd (Option.some.inj same).symm elsewhere

end Routes

/-- A well-formed function has its references in order. -/
theorem WellFormed.tied (wellFormed : context.WellFormed entry) : context.Tied entry := by
  intro block listed value code stands
  obtain ⟨home, found, inside, isCode⟩ := stands
  obtain ⟨offset, here⟩ := List.getElem?_of_mem inside
  have rules := (wellFormed.blocks block listed).fitsAt found here isCode
  exact ⟨rules.callee, rules.operands, fun target successor => (rules.targets target successor).1⟩

/-- A function whose references are in order is well formed exactly if it keeps the rules that are
left. -/
theorem Tied.wellFormed_iff (tied : context.Tied entry) (coherent : context.Coherent)
    (ascending : context.Ascending) (member : entry ∈ context.functions) :
    context.WellFormed entry ↔ context.LocallyFit entry := by
  have owned := coherent.owned
  constructor
  · intro wellFormed
    refine ⟨wellFormed.attributes, fun block listed home found => ?_,
      fun block listed home found offset value code here isCode => ?_,
      fun block listed value code stands target successor => ?_,
      fun passed block value code operand definition =>
        mem_of_walks owned member wellFormed.blocks wellFormed.dominance⟩
    · obtain ⟨other, same, inhabited, _⟩ := wellFormed.blocks block listed
      obtain rfl := Option.some.inj (found.symm.trans same)
      exact inhabited
    · rw [((wellFormed.blocks block listed).fitsAt found here isCode).terminator, beq_iff_eq]
    · obtain ⟨home, found, inside, isCode⟩ := stands
      obtain ⟨offset, here⟩ := List.getElem?_of_mem inside
      have rules := (wellFormed.blocks block listed).fitsAt found here isCode
      exact (rules.targets target successor).2
  · intro fit
    have fits : ∀ block ∈ entry.blocks, context.BlockFits entry block := by
      intro block listed
      obtain ⟨home, found⟩ := owned.blocks.exists_block member listed
      refine ⟨home, found, fit.filled block listed home found, fun offset value here => ?_⟩
      have inside := List.mem_of_getElem? here
      obtain ⟨code, stands⟩ := standsIn_of_listed owned found inside
      have own := tied block listed value code stands
      refine ⟨code, stands.isCode, ⟨?_, own.callee, own.operands, fun target successor => ?_⟩⟩
      · rw [Bool.eq_iff_iff, beq_iff_eq]
        exact fit.terminators block listed home found offset value code here stands.isCode
      · exact ⟨own.targets target successor,
          fit.targets block listed value code stands target successor⟩
    exact ⟨fit.attributes, owned.functions.personalities entry member, fits,
      fun visited point value code operand walk here isCode used isInstruction =>
        passed_of_routes owned member fits coherent ascending fit.uses walk here isCode used
          isInstruction⟩

end Context

end TypedIR
