import TypedIR.Proofs.Check.Uses
import TypedIR.Proofs.Ownership.Typing

/-!
Contract: walks through a well-formed function are safe.

Owns:
- what is safe at a point of a walk: where it can go on, where it can stop, and
  that callees and operands are there and of the right types;
- safety at every point of every walk.

Types come from the rule that was checked when the instruction was appended, the
rest from well-formedness: an operand that is still live has the type it had.
-/

namespace TypedIR.Context

/-- The instruction at the point can be executed after the visited ones, and the walk stays in
the function after it. -/
structure SafeAt (context : Context) (entry : FunctionEntry) (visited : List ValueRef)
    (point : Point) (type : TypeRef) (code : Instruction) : Prop where
  inside : point.block ∈ entry.blocks
  /-- The end of a block is a terminator, and nothing stands behind one. -/
  ending : code.isTerminator = true ↔
    context.instructionAt? ⟨point.block, point.offset + 1⟩ = none
  /-- Only a return or an unreachable instruction stops the walk. -/
  stopping : (∃ next, context.Step point next) ∨ (∃ value, code = .ret value) ∨
    code = .unreachable
  /-- The walk stays in the function, and enters the first block only from inside it. -/
  staying : ∀ next, context.Step point next → next.block ∈ entry.blocks ∧
    (entry.blocks.head? = some next.block → next = ⟨point.block, point.offset + 1⟩)
  callee : ∀ callee, code.callee? = some callee → context.IsFunction callee
  operands : ∀ operand ∈ code.operands, ∃ type kind, context.Holds operand type kind ∧
    (kind.isConstant = true ∨ (∃ position, kind = .parameter entry.self position) ∨
      (kind.isInstruction = true ∧ operand ∈ visited))
  /-- All operands are live and have exactly the types that the instruction demands. -/
  typed : context.Types entry.self type code

variable {context : Context} {entry : FunctionEntry} {visited : List ValueRef} {point : Point}

/-! ### Types -/

theorem HadType.hasType {value : ValueRef} {type other : TypeRef} {kind : ValueKind}
    (typed : context.HadType value type) (held : context.Holds value other kind) :
    context.HasType value type := by
  obtain ⟨name, found⟩ := held
  exact ⟨⟨other, kind, name⟩, found, typed.2 other kind ⟨name, found⟩⟩

theorem HadType.hasSignature (owned : context.Owned) {function : ValueRef} {signature : TypeRef}
    (typed : context.HadType function signature) (live : context.IsFunction function) :
    context.HasSignature function signature := by
  obtain ⟨entry, member, rfl⟩ := live
  exact ⟨entry, function?_of_mem owned.functions.distinct member,
    typed.2 _ _ (owned.functions.signed entry member)⟩

/-- The typing rule in full, once everything that the instruction mentions is live. -/
theorem typed_of_live (coherent : context.Coherent) (member : entry ∈ context.functions)
    {value : ValueRef} {type : TypeRef} {block : BlockRef} {code : Instruction}
    (held : context.Holds value type (.instruction block code))
    (named : context.parent? block = some entry.self)
    (callees : ∀ callee, code.callee? = some callee → context.IsFunction callee)
    (operands : ∀ operand ∈ code.operands, context.Usable entry operand) :
    context.Types entry.self type code := by
  have had := coherent.wellTyped value type block code entry.self held named
  refine had.mono (fun _ _ known => known) ?_ ?_ ?_
  · intro operand used other typed
    obtain ⟨_, _, live, _⟩ := operands operand used
    exact typed.hasType live
  · intro callee calls signature typed
    exact typed.hasSignature coherent.owned (callees callee calls)
  · intro signature typed
    exact typed.hasSignature coherent.owned ⟨entry, member, rfl⟩

/-! ### Steps -/

/-- A terminator with a successor leads on, and so does an instruction that is no terminator. -/
theorem step_or_stop {block : BlockRef} {offset : Nat} {value : ValueRef} {code : Instruction}
    (here : context.instructionAt? ⟨block, offset⟩ = some value)
    (isCode : context.instruction? value = some code)
    (ending : code.isTerminator = true ↔ context.instructionAt? ⟨block, offset + 1⟩ = none) :
    (∃ next, context.Step ⟨block, offset⟩ next) ∨ (∃ value, code = .ret value) ∨
      code = .unreachable := by
  cases behind : context.instructionAt? ⟨block, offset + 1⟩ with
  | some following => exact .inl ⟨_, .next behind⟩
  | none =>
      have terminator := ending.mpr behind
      cases code with
      | ret value => exact .inr (.inl ⟨value, rfl⟩)
      | unreachable => exact .inr (.inr rfl)
      | branch target => exact .inl ⟨_, .jump here behind isCode List.mem_cons_self⟩
      | condBranch condition thenBlock elseBlock =>
          exact .inl ⟨_, .jump here behind isCode List.mem_cons_self⟩
      | binary operator left right => cases terminator
      | compare predicate left right => cases terminator
      | select condition thenValue elseValue => cases terminator
      | call callee arguments => cases terminator

theorem staying_of_targets {block : BlockRef} {offset : Nat} {value : ValueRef}
    {code : Instruction} (inside : block ∈ entry.blocks)
    (here : context.instructionAt? ⟨block, offset⟩ = some value)
    (isCode : context.instruction? value = some code)
    (targets : ∀ target ∈ code.successors,
      target ∈ entry.blocks ∧ entry.blocks.head? ≠ some target)
    {next : Point} (step : context.Step ⟨block, offset⟩ next) :
    next.block ∈ entry.blocks ∧
      (entry.blocks.head? = some next.block → next = ⟨block, offset + 1⟩) := by
  cases step with
  | next behind => exact ⟨inside, fun _ => rfl⟩
  | jump there last known successor =>
      obtain rfl := Option.some.inj (here.symm.trans there)
      obtain rfl := Option.some.inj (isCode.symm.trans known)
      obtain ⟨member, notFirst⟩ := targets _ successor
      exact ⟨member, fun first => absurd first notFirst⟩

/-- Every point of a walk through a well-formed function holds an instruction, and it is safe
there. -/
theorem WellFormed.safe (wellFormed : context.WellFormed entry) (coherent : context.Coherent)
    (member : entry ∈ context.functions) (walk : context.Walk entry visited point) :
    ∃ value type code, context.instructionAt? point = some value ∧
      context.Holds value type (.instruction point.block code) ∧
      context.SafeAt entry visited point type code := by
  have distinct := blocks_nodup coherent.owned member
  obtain ⟨position, earlier, place, _, _, inside⟩ := walk.to_path distinct wellFormed.blocks
  have blockMember := List.mem_of_getElem? place
  obtain ⟨_, each⟩ := (wellFormed.blocks point.block blockMember).bodyAt_fits place
  have atOffset := List.getElem?_eq_getElem inside
  obtain ⟨code, isCode, rules⟩ := each point.offset _ atOffset
  have here := (instructionAt?_eq place).trans atOffset
  have defined := (mem_bodyAt coherent.owned place).mp (List.getElem_mem inside)
  obtain ⟨type, otherCode, held⟩ := definingBlock?_eq_some.mp defined
  obtain ⟨_, _, other⟩ := instruction?_eq_some.mp isCode
  obtain rfl := (ValueKind.instruction.inj (held.unique other).2).2
  refine ⟨_, type, otherCode, here, held, ?_⟩
  have ending : otherCode.isTerminator = true ↔
      context.instructionAt? ⟨point.block, point.offset + 1⟩ = none := by
    rw [rules.terminator, beq_iff_eq, instructionAt?_eq place, List.getElem?_eq_none_iff]
    omega
  have named := ((coherent.owned.blocks.lists entry member).2 point.block).mp blockMember
  exact
    { inside := blockMember
      ending := ending
      stopping := step_or_stop here isCode ending
      staying := fun _ => staying_of_targets blockMember here isCode rules.targets
      callee := rules.callee
      operands := by
        intro operand used
        obtain ⟨operandType, kind, live, usable⟩ := rules.operands operand used
        refine ⟨operandType, kind, live, ?_⟩
        rcases usable with constant | parameter | ⟨home, _, operandCode, rfl⟩
        · exact .inl constant
        · exact .inr (.inl parameter)
        · have isInstruction := instruction?_eq_some.mpr ⟨operandType, home, live⟩
          refine .inr (.inr ⟨rfl, ?_⟩)
          exact wellFormed.dominance visited point _ otherCode operand walk here isCode used
            (by rw [isInstruction]; rfl)
      typed := typed_of_live coherent member held named rules.callee rules.operands }

end TypedIR.Context
