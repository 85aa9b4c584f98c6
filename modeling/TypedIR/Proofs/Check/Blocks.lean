import TypedIR.Check.Structure
import TypedIR.Proofs.Check.WellFormed
import TypedIR.Proofs.Ownership.Invariant

/-!
Contract: the checks of attachments and of single blocks find nothing exactly when
their rules hold.

Owns: one equivalence for each check, from operands up to whole blocks.

The equivalences for operands and blocks use ownership: the check compares owners,
the rule speaks of the blocks of the function.
-/

namespace TypedIR

theorem isPowerOfTwo_iff {number : Nat} :
    isPowerOfTwo number = true ↔ ∃ exponent, number = Nat.pow 2 exponent := by
  unfold isPowerOfTwo
  rw [beq_iff_eq]
  constructor
  · intro power
    exact ⟨number.log2, power.symm⟩
  · rintro ⟨exponent, rfl⟩
    have logarithm : (Nat.pow 2 exponent).log2 = exponent := Nat.log2_two_pow
    rw [logarithm]

namespace Context

variable {context : Context} {entry : FunctionEntry}

/-! ### Attachments -/

theorem attributeFindings_eq_nil {attached : AttributeEntry} :
    attributeFindings attached = [] ↔ AttributeFits attached := by
  unfold attributeFindings AttributeFits
  cases form : attached.value with
  | string key value => simp
  | enumerated kind number =>
      have placed : (if kind.isValidAt attached.site then []
          else [(⟨.misplacedAttribute kind attached.site, .function⟩ : Finding)]) = [] ↔
            kind.isValidAt attached.site = true := by
        cases kind.isValidAt attached.site <;> simp
      have even : (if kind.isAlignment && !isPowerOfTwo number.toNat then
          [(⟨.unevenAlignment attached.value, .function⟩ : Finding)] else []) = [] ↔
            (kind.isAlignment = true → ∃ exponent, number.toNat = Nat.pow 2 exponent) := by
        rw [← isPowerOfTwo_iff]
        cases kind.isAlignment <;> cases isPowerOfTwo number.toNat <;> simp
      rw [form] at even
      rw [List.append_eq_nil_iff, placed, even]
      constructor
      · intro fits otherKind otherNumber same
        obtain ⟨rfl, rfl⟩ := Attribute.enumerated.inj same
        exact fits
      · exact fun all => all kind number rfl

theorem personalityFindings_eq_nil :
    context.personalityFindings entry = [] ↔
      ∀ personality, entry.personality = some personality → context.IsFunction personality := by
  unfold personalityFindings
  cases entry.personality with
  | none => simp
  | some personality =>
      simp only [Option.some.injEq, forall_eq']
      rw [← isSome_function?]
      cases (context.function? personality).isSome <;> simp

/-! ### Instructions -/

theorem instruction?_eq_some {value : ValueRef} {code : Instruction} :
    context.instruction? value = some code ↔
      ∃ type block, context.Holds value type (.instruction block code) := by
  unfold instruction? Holds
  cases found : context.value? value with
  | none => simp
  | some held =>
      obtain ⟨type, kind, name⟩ := held
      cases kind <;> simp

theorem operandViolations_eq_nil (owned : context.Owned) (member : entry ∈ context.functions)
    {opcode : String} {operand : ValueRef} :
    context.operandViolations entry opcode operand = [] ↔ context.Usable entry operand := by
  unfold operandViolations Usable
  cases found : context.value? operand with
  | none =>
      apply iff_of_false (by simp)
      rintro ⟨type, kind, ⟨name, held⟩, _⟩
      rw [found] at held
      cases held
  | some value =>
      have self : context.Holds operand value.type value.kind := .of_value? found
      have only : ∀ type kind, context.Holds operand type kind → kind = value.kind :=
        fun type kind held => (held.unique self).2
      obtain ⟨type, kind, name⟩ := value
      constructor
      · intro clean
        refine ⟨type, kind, self, ?_⟩
        cases kind with
        | parameter function position =>
            simp only [owner?] at clean
            split at clean
            · next same => exact .inr (.inl ⟨position, by rw [same]⟩)
            · cases clean
        | instruction block code =>
            obtain ⟨home, live⟩ := owned.instructions.owners operand type block code self
            simp only [owner?, live, Option.map_some] at clean
            split at clean
            · next same =>
                have named : context.parent? block = some entry.self := by
                  rw [parent?, live, Option.map_some, same]
                exact .inr (.inr ⟨block, ((owned.blocks.lists entry member).2 block).mpr named,
                  code, rfl⟩)
            · cases clean
        | _ => exact .inl rfl
      · rintro ⟨otherType, otherKind, held, usable⟩
        obtain rfl := only otherType otherKind held
        rcases usable with constant | ⟨position, rfl⟩ | ⟨block, listed, code, rfl⟩
        · cases otherKind <;> first | rfl | cases constant
        · simp [owner?]
        · have named := ((owned.blocks.lists entry member).2 block).mp listed
          have owner : context.owner? ⟨type, .instruction block code, name⟩ = some entry.self :=
            named
          simp [owner]

theorem targetViolations_eq_nil {target : BlockRef} :
    context.targetViolations entry target = [] ↔
      target ∈ entry.blocks ∧ entry.blocks.head? ≠ some target := by
  unfold targetViolations
  cases blocks : entry.blocks with
  | nil => simp
  | cons first rest =>
      by_cases same : first = target
      · simp [List.idxOf?_cons, same]
      · cases place : rest.idxOf? target with
        | none =>
            have absent : target ∉ rest := List.idxOf?_eq_none_iff.mp place
            simp [List.idxOf?_cons, same, place, Ne.symm same, absent]
        | some position =>
            have present : target ∈ rest := by
              apply Decidable.byContradiction
              intro absent
              rw [List.idxOf?_eq_none_iff.mpr absent] at place
              cases place
            simp [List.idxOf?_cons, same, place, present]

theorem calleeViolations_eq_nil {code : Instruction} :
    context.calleeViolations code = [] ↔
      ∀ callee, code.callee? = some callee → context.IsFunction callee := by
  unfold calleeViolations
  cases code.callee? with
  | none => simp
  | some callee =>
      simp only [Option.some.injEq, forall_eq']
      rw [← isSome_function?]
      cases (context.function? callee).isSome <;> simp

theorem instructionViolations_eq_nil (owned : context.Owned) (member : entry ∈ context.functions)
    {isLast : Bool} {value : ValueRef} :
    context.instructionViolations entry isLast value = [] ↔
      ∃ code, context.instruction? value = some code ∧
        context.InstructionFits entry isLast code := by
  unfold instructionViolations
  cases context.instruction? value with
  | none => simp
  | some code =>
      simp only [List.append_eq_nil_iff, List.flatMap_eq_nil_iff, calleeViolations_eq_nil,
        operandViolations_eq_nil owned member, targetViolations_eq_nil, Option.some.injEq,
        exists_eq_left']
      constructor
      · rintro ⟨⟨⟨⟨inner, missing⟩, callee⟩, operands⟩, targets⟩
        refine ⟨?_, callee, operands, targets⟩
        cases isLast <;> cases terminator : code.isTerminator <;> simp_all
      · rintro ⟨terminator, callee, operands, targets⟩
        refine ⟨⟨⟨⟨?_, ?_⟩, callee⟩, operands⟩, targets⟩
        · cases isLast <;> simp [terminator]
        · cases isLast <;> simp [terminator]

/-! ### Blocks -/

theorem sequenceViolations_eq_nil (owned : context.Owned) (member : entry ∈ context.functions)
    {values : List ValueRef} :
    context.sequenceViolations entry values = [] ↔
      ∀ (offset : Nat) value, values[offset]? = some value →
        ∃ code, context.instruction? value = some code ∧
          context.InstructionFits entry (offset + 1 == values.length) code := by
  induction values with
  | nil => simp [sequenceViolations]
  | cons first rest inductionHypothesis =>
      rw [sequenceViolations, List.append_eq_nil_iff, inductionHypothesis,
        instructionViolations_eq_nil owned member]
      have lastFirst : rest.isEmpty = (0 + 1 == (first :: rest).length) := by
        cases rest <;> rfl
      have lastRest : ∀ offset : Nat,
          (offset + 1 + 1 == (first :: rest).length) = (offset + 1 == rest.length) := by
        intro offset
        rw [List.length_cons, Bool.eq_iff_iff, beq_iff_eq, beq_iff_eq, Nat.add_right_cancel_iff]
      constructor
      · rintro ⟨fits, others⟩ offset value atOffset
        cases offset with
        | zero =>
            obtain rfl : first = value := by simpa using atOffset
            rwa [lastFirst] at fits
        | succ offset =>
            rw [lastRest]
            exact others offset value (by simpa using atOffset)
      · intro all
        refine ⟨?_, fun offset value atOffset => ?_⟩
        · rw [lastFirst]
          exact all 0 first rfl
        · rw [← lastRest]
          exact all (offset + 1) value (by simpa using atOffset)

theorem blockViolations_eq_nil (owned : context.Owned) (member : entry ∈ context.functions)
    {block : BlockRef} :
    context.blockViolations entry block = [] ↔ context.BlockFits entry block := by
  unfold blockViolations BlockFits
  cases context.block? block with
  | none => simp
  | some home =>
      obtain ⟨function, name, instructions⟩ := home
      cases instructions with
      | nil => simp
      | cons first rest =>
          simp only [Option.some.injEq, exists_eq_left']
          rw [sequenceViolations_eq_nil owned member]
          simp

end Context

end TypedIR
