import Mathlib.Logic.Relation
import TypedIR.Proofs.Check.Uses
import TypedIR.Proofs.Ownership.Stability

/-!
Contract: the order of references, and what the check of uses makes of it.

Owns:
- what a value refers to, released or not: always something before it, so there are no cycles;
- operands from the same block stand earlier in it;
- the check of uses has nothing to say about uses in the block of the definition.

Does not own: uses across blocks.
-/

namespace TypedIR

/-- The values that an instruction or a composite constant refers to: operands, callee and parts. -/
def ValueKind.references : ValueKind → List ValueRef
  | .instruction _ code => code.operands ++ code.callee?.toList
  | kind => kind.parts

theorem ValueKind.Below.references {kind : ValueKind} {values blocks : Nat}
    (below : kind.Below values blocks) : ∀ part ∈ kind.references, part < values := by
  intro part member
  cases kind with
  | instruction block code =>
      obtain ⟨_, operands, callee, _⟩ := below
      rcases List.mem_append.mp member with operand | called
      · exact operands part operand
      · exact callee part (Option.mem_toList.mp called)
  | _ => exact below.parts part member

namespace Context

variable {context : Context}

/-- The value is live, and refers to the part, which may have been released. -/
def RefersTo (context : Context) (value part : ValueRef) : Prop :=
  ∃ type kind, context.Holds value type kind ∧ part ∈ kind.references

theorem Grounded.refersTo_lt (grounded : context.Grounded) {value part : ValueRef}
    (refers : context.RefersTo value part) : part < value := by
  obtain ⟨type, kind, held, member⟩ := refers
  exact (grounded.values value type kind held).2.references part member

/-- Along references, positions descend. -/
theorem Grounded.transGen_lt (grounded : context.Grounded) {value part : ValueRef}
    (refers : Relation.TransGen context.RefersTo value part) : part < value := by
  induction refers with
  | single refers => exact grounded.refersTo_lt refers
  | tail _ refers inductionHypothesis =>
      exact Nat.lt_trans (grounded.refersTo_lt refers) inductionHypothesis

/-! ### Order in a block -/

/-- In an increasing list, a smaller member stands earlier. -/
theorem mem_front_of_lt {front back : List Nat} {smaller larger : Nat}
    (ascending : (front ++ larger :: back).Pairwise (· < ·))
    (member : smaller ∈ front ++ larger :: back) (less : smaller < larger) : smaller ∈ front := by
  rcases List.mem_append.mp member with earlier | later
  · exact earlier
  · rcases List.mem_cons.mp later with rfl | behind
    · exact absurd less (Nat.lt_irrefl _)
    · have after := (List.pairwise_cons.mp (List.pairwise_append.mp ascending).2.1).1 _ behind
      exact absurd less (Nat.lt_asymm after)

/-- An operand that is defined in the block of its use stands before the use. -/
theorem Coherent.operand_earlier (coherent : context.Coherent) (ascending : context.Ascending)
    {block : BlockRef} {home : Block} {front back : List ValueRef} {value operand : ValueRef}
    {code : Instruction} (found : context.block? block = some home)
    (place : home.instructions = front ++ value :: back)
    (isCode : context.instruction? value = some code) (used : operand ∈ code.operands)
    (defined : context.definingBlock? operand = some block) : operand ∈ front := by
  obtain ⟨type, other, held⟩ := instruction?_eq_some.mp isCode
  have earlier : operand < value := coherent.grounded.refersTo_lt
    ⟨type, _, held, List.mem_append_left _ used⟩
  have inBlock := ((coherent.owned.instructions.lists block home found).2 operand).mpr
    (definingBlock?_eq_some.mp defined)
  have increasing := ascending.instructions block home found
  rw [place] at inBlock increasing
  exact mem_front_of_lt increasing inBlock earlier

/-! ### The check of uses -/

section Findings

variable {entry : FunctionEntry} {parents : Flow.Parents} {position : Nat} {finding : Finding}

theorem mem_useFindings {block : BlockRef} {earlier : List ValueRef} {opcode : String}
    {operand : ValueRef}
    (member : finding ∈ context.useFindings entry parents position block earlier opcode operand) :
    ∃ home definition, context.definingBlock? operand = some home ∧
      entry.blocks.idxOf? home = some definition ∧
      (definition = position → operand ∉ earlier) ∧
      finding = ⟨.undominatedUse (context.valueId operand) opcode (.block home), .block block⟩ := by
  unfold useFindings at member
  cases defined : context.definingBlock? operand with
  | none => simp [defined] at member
  | some home =>
      cases place : entry.blocks.idxOf? home with
      | none => simp [defined, place] at member
      | some definition =>
          simp only [defined, place] at member
          obtain ⟨undominated, only⟩ := List.mem_ite_nil_left.mp member
          refine ⟨home, definition, rfl, place, ?_, List.mem_singleton.mp only⟩
          rintro rfl
          simpa using undominated

theorem mem_sequenceUseFindings {block : BlockRef} {earlier values : List ValueRef}
    (member : finding ∈
      context.sequenceUseFindings entry parents position block earlier values) :
    ∃ front value back code operand, values = front ++ value :: back ∧
      context.instruction? value = some code ∧ operand ∈ code.operands ∧
      finding ∈ context.useFindings entry parents position block (earlier ++ front) code.opcode
        operand := by
  induction values generalizing earlier with
  | nil => cases member
  | cons first rest inductionHypothesis =>
      rcases List.mem_append.mp member with here | later
      · cases isCode : context.instruction? first with
        | none => simp [isCode] at here
        | some code =>
            simp only [isCode] at here
            obtain ⟨operand, used, found⟩ := List.mem_flatMap.mp here
            exact ⟨[], first, rest, code, operand, rfl, isCode, used, by simpa using found⟩
      · obtain ⟨front, value, back, code, operand, rfl, isCode, used, found⟩ :=
          inductionHypothesis later
        exact ⟨first :: front, value, back, code, operand, rfl, isCode, used, by simpa using found⟩

/-- A use that is found is in another block than the definition. -/
theorem Coherent.dominanceFindings_elsewhere (coherent : context.Coherent)
    (ascending : context.Ascending) (member : entry ∈ context.functions)
    (listed : finding ∈ context.dominanceFindings entry parents position) :
    ∃ value opcode home block,
      finding = ⟨.undominatedUse value opcode (.block home), .block block⟩ ∧ home ≠ block := by
  unfold dominanceFindings at listed
  cases place : entry.blocks[position]? with
  | none => simp [place] at listed
  | some block =>
      cases found : context.block? block with
      | none => simp [place, found] at listed
      | some home =>
          simp only [place, found] at listed
          obtain ⟨front, value, back, code, operand, split, isCode, used, reported⟩ :=
            mem_sequenceUseFindings listed
          obtain ⟨definedIn, definition, defined, defines, unseen, rfl⟩ := mem_useFindings reported
          refine ⟨_, _, definedIn, block, rfl, ?_⟩
          rintro rfl
          -- The block has one position only, and in it the operand stands before its use.
          have distinct := blocks_nodup coherent.owned member
          have sameBlock := (idxOf?_eq_some_iff_of_nodup distinct).mp defines
          obtain ⟨inside, _⟩ := List.getElem?_eq_some_iff.mp place
          have same := (List.getElem?_inj inside distinct).mp (place.trans sameBlock.symm)
          exact unseen same.symm (coherent.operand_earlier ascending found split isCode used defined)

end Findings

end Context

end TypedIR
