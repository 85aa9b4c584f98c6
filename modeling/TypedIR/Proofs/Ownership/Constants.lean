import Mathlib.Logic.Relation
import TypedIR.Proofs.Types.Canonical

/-!
Contract: constants keep their type and stay as long as their context.

Owns:
- constants other than functions, which no change of a context releases;
- the invariant that each of them still obeys the rule it was made by;
- the type and the parts of a constant, by its kind, and the range of integers;
- constants are made of such constants only, at any depth.

A function counts as a constant and can be deleted. Its type is not sized, though, and the
parts of composite constants are of sized types.
-/

namespace TypedIR

/-! ### The range of integers -/

/-- A residue modulo an even number lies between minus and plus its half. -/
theorem bmod_double_range {half : Nat} (positive : 0 < half) (number : Int) :
    -(half : Int) ≤ number.bmod (half * 2) ∧ number.bmod (half * 2) < half := by
  have doubled : 0 < half * 2 := Nat.mul_pos positive (by decide)
  have least := Int.le_bmod (x := number) doubled
  have greatest := Int.bmod_lt (x := number) doubled
  push_cast at least greatest
  omega

/-- The number is one of those that a signed integer of the width can be. -/
def SignedRange (bits : UInt32) (number : Int) : Prop :=
  -((Nat.pow 2 (bits.toNat - 1) : Nat) : Int) ≤ number ∧
    number < (Nat.pow 2 (bits.toNat - 1) : Nat)

/-- Below 64 bits, the residue nearest to zero fits a number of 64 bits. -/
theorem toInt_truncate {bits : UInt32} (narrow : bits < 64) (number : Int64) :
    (truncate bits number).toInt = number.toInt.bmod (Nat.pow 2 bits.toNat) := by
  have word : Nat.pow 2 63 = 9223372036854775808 := rfl
  have below : bits.toNat < 64 := UInt32.lt_iff_toNat_lt.mp narrow
  have range : Nat.pow 2 bits.toNat ≤ Nat.pow 2 63 :=
    Nat.pow_le_pow_right (by decide) (Nat.le_of_lt_succ below)
  have positive : 0 < Nat.pow 2 bits.toNat := Nat.two_pow_pos _
  have least := Int.le_bmod (x := number.toInt) positive
  have greatest := Int.bmod_lt (x := number.toInt) positive
  rw [truncate, if_neg (UInt32.not_le.mpr narrow), Int64.toInt_ofInt_of_le (by omega) (by omega)]

/-- The stored number is in the signed range of its width. -/
theorem truncate_range {bits : UInt32} (positive : 0 < bits) (number : Int64) :
    SignedRange bits (truncate bits number).toInt := by
  unfold SignedRange
  by_cases wide : 64 ≤ bits
  · have least := number.le_toInt
    have greatest := number.toInt_lt
    have word : Nat.pow 2 63 = 9223372036854775808 := rfl
    have range : Nat.pow 2 63 ≤ Nat.pow 2 (bits.toNat - 1) := Nat.pow_le_pow_right (by decide)
      (Nat.le_sub_one_of_lt (UInt32.le_iff_toNat_le.mp wide))
    rw [truncate, if_pos wide]
    omega
  · have doubled : Nat.pow 2 bits.toNat = Nat.pow 2 (bits.toNat - 1) * 2 := by
      have split : bits.toNat - 1 + 1 = bits.toNat :=
        Nat.sub_add_cancel (UInt32.lt_iff_toNat_lt.mp positive)
      exact (congrArg (Nat.pow 2) split).symm
    rw [toInt_truncate (UInt32.not_le.mp wide), doubled]
    exact bmod_double_range (Nat.two_pow_pos _) number.toInt

/-! ### Constants other than functions -/

/-- A constant that is not a function. -/
def ValueKind.isData : ValueKind → Bool
  | .function => false
  | kind => kind.isConstant

namespace Context

variable {settings : Settings} {effect : Effect} {context before after : Context}
  {value part : ValueRef} {type : TypeRef} {kind : ValueKind}

/-- A live constant of exactly the type, and not a function. -/
def HoldsData (context : Context) (value : ValueRef) (type : TypeRef) : Prop :=
  ∃ kind, context.Holds value type kind ∧ kind.isData = true

theorem HoldsData.isConstantOf (data : context.HoldsData value type) :
    context.IsConstantOf value type := by
  obtain ⟨kind, ⟨name, found⟩, isData⟩ := data
  refine ⟨_, found, rfl, ?_⟩
  cases kind with
  | function => cases isData
  | _ => exact isData

/-! ### Functions are not sized -/

theorem Owned.not_sized_of_function (owned : context.Owned)
    (held : context.Holds value type .function) : ¬ SizedBy context.shape? type := by
  rintro ⟨shape, known, sized⟩
  obtain ⟨entry, member, rfl⟩ := (owned.functions.values value).mpr ⟨type, held⟩
  obtain ⟨_, _, _, signed, _⟩ := owned.functions.parameters entry member
  rw [(held.unique (owned.functions.signed entry member)).1, signed] at known
  obtain rfl := Option.some.inj known
  cases sized

/-- A constant of a sized type is not a function. -/
theorem IsConstantOf.data (owned : context.Owned) (constant : context.IsConstantOf value type)
    (sized : SizedBy context.shape? type) : context.HoldsData value type := by
  obtain ⟨entry, found, rfl, isConstant⟩ := constant
  have held := Holds.of_value? found
  refine ⟨entry.kind, held, ?_⟩
  cases same : entry.kind with
  | function => exact absurd sized (owned.not_sized_of_function (same ▸ held))
  | _ =>
      rw [same] at isConstant
      exact isConstant

/-! ### Every change -/

/-- No change releases a constant other than a function, not even the deletion of one. -/
theorem Owned.data_step (owned : before.Owned) (change : Change settings effect before after)
    (held : before.Holds value type kind) (isData : kind.isData = true) :
    after.Holds value type kind := by
  cases change with
  | constant other otherKind formed => exact holds_pushValue.mpr (.inl held)
  | declare name shape free => exact holds_withFunction.mpr (.inl held)
  | rename name found free => exact holds_withName.mpr held
  | append name found typed targets => exact holds_appendInstruction.mpr (.inl held)
  | @delete _ function entry found =>
      obtain ⟨member, rfl⟩ := mem_of_function? found
      refine holds_withoutFunction.mpr ⟨held, fun released => ?_⟩
      rcases (owned.released_iff member held).mp released with rfl | ⟨_, rfl⟩ | ⟨_, _, _, rfl⟩
      · have self := (held.unique (owned.functions.signed entry member)).2
        rw [self] at isData
        cases isData
      · cases isData
      · cases isData
  | _ => exact held

theorem HoldsData.step (data : before.HoldsData value type) (owned : before.Owned)
    (change : Change settings effect before after) : after.HoldsData value type := by
  obtain ⟨kind, held, isData⟩ := data
  exact ⟨kind, owned.data_step change held isData, isData⟩

/-- The rule for a constant still holds after a change, for each of its parts is still there. -/
theorem FormsConstant.step (owned : before.Owned) (change : Change settings effect before after)
    (formed : before.FormsConstant type kind) : after.FormsConstant type kind := by
  have shapes := change.persists.shapes
  have kept : ∀ {part : ValueRef} {type : TypeRef}, SizedBy before.shape? type →
      before.IsConstantOf part type → after.IsConstantOf part type :=
    fun sized constant => ((constant.data owned sized).step owned change).isConstantOf
  cases kind with
  | integer number =>
      obtain ⟨bits, known, residue⟩ := formed
      exact ⟨bits, shapes _ _ known, residue⟩
  | array elements =>
      obtain ⟨element, length, known, counted, sized, parts⟩ := formed
      exact ⟨element, length, shapes _ _ known, counted, sized.mono shapes,
        fun part member => kept sized (parts part member)⟩
  | bytes content =>
      obtain ⟨byte, length, known, counted, isByte⟩ := formed
      exact ⟨byte, length, shapes _ _ known, counted, shapes _ _ isByte⟩
  | struct fields =>
      obtain ⟨types, packed, known, sized, parts⟩ := formed
      refine ⟨types, packed, shapes _ _ known,
        fun type member => (sized type member).mono shapes, ?_⟩
      have each := (List.forall₂_and_left _ _).mpr ⟨sized, parts.flip⟩
      exact (each.imp fun _ _ ⟨isSized, constant⟩ => kept isSized constant).flip
  | undefined => exact SizedBy.mono shapes formed
  | _ => exact formed.elim

/-- Every constant other than a function obeys the rule that it was made by. -/
def ConstantsFormed (context : Context) : Prop :=
  ∀ value type kind, context.Holds value type kind → kind.isData = true →
    context.FormsConstant type kind

theorem constantsFormed_empty (id : ContextId) (native : NativeHandle) (moduleName : String) :
    (empty id native moduleName).ConstantsFormed := by
  simp [ConstantsFormed, Holds, empty, value?]

theorem ConstantsFormed.step (formed : before.ConstantsFormed) (owned : before.Owned)
    (change : Change settings effect before after) : after.ConstantsFormed := by
  intro value type kind held isData
  -- A constant that was there keeps its rule, and only one change brings a new one.
  have kept : before.FormsConstant type kind → after.FormsConstant type kind :=
    fun made => made.step owned change
  have old : before.Holds value type kind → after.FormsConstant type kind :=
    fun heldBefore => kept (formed value type kind heldBefore isData)
  cases change with
  | constant type kind made =>
      rcases holds_pushValue.mp held with heldBefore | ⟨_, rfl, rfl⟩
      · exact old heldBefore
      · exact kept made
  | declare name shape free =>
      rcases holds_withFunction.mp held with heldBefore | ⟨_, _, rfl⟩ | ⟨_, _, rfl, _⟩
      · exact old heldBefore
      · cases isData
      · cases isData
  | append name found typed targets =>
      rcases holds_appendInstruction.mp held with heldBefore | ⟨_, _, rfl⟩
      · exact old heldBefore
      · cases isData
  | rename name found free => exact old (holds_withName.mp held)
  | delete found => exact old (holds_withoutFunction.mp held).1
  | _ => exact old held

/-! ### Types and parts -/

/-- The type that a constant of the kind has, with its parts. Elements and fields are of sized
types, also where there is no element. -/
def TypesConstant (context : Context) (type : TypeRef) : ValueKind → Prop
  | .integer number => ∃ bits, context.shape? type = some (.integer bits) ∧ 0 < bits ∧
      SignedRange bits number.toInt
  | .array elements => ∃ element length, context.shape? type = some (.array element length) ∧
      elements.length = length.toNat ∧ SizedBy context.shape? element ∧
        ∀ part ∈ elements, context.HoldsData part element
  | .bytes content => ∃ byte length, context.shape? type = some (.array byte length) ∧
      content.length = length.toNat ∧ context.shape? byte = some (.integer 8)
  | .struct fields => ∃ types packed, context.shape? type = some (.struct types packed) ∧
      (∀ type ∈ types, SizedBy context.shape? type) ∧ List.Forall₂ context.HoldsData fields types
  | .undefined => SizedBy context.shape? type
  | .function | .parameter _ _ | .instruction _ _ => True

theorem FormsConstant.types (formed : context.FormsConstant type kind)
    (canonical : context.Canonical settings) (owned : context.Owned) :
    context.TypesConstant type kind := by
  cases kind with
  | integer number =>
      obtain ⟨bits, known, source, rfl⟩ := formed
      have positive := (Settings.checkWidth_eq_ok.mp (canonical.formed type _ known)).1
      exact ⟨bits, known, positive, truncate_range positive source⟩
  | array elements =>
      obtain ⟨element, length, known, counted, sized, parts⟩ := formed
      exact ⟨element, length, known, counted, sized,
        fun part member => (parts part member).data owned sized⟩
  | bytes content => exact formed
  | struct fields =>
      obtain ⟨types, packed, known, sized, parts⟩ := formed
      have each := (List.forall₂_and_left _ _).mpr ⟨sized, parts.flip⟩
      exact ⟨types, packed, known, sized,
        (each.imp fun _ _ ⟨isSized, constant⟩ => IsConstantOf.data owned constant isSized).flip⟩
  | undefined => exact formed
  | _ => exact formed.elim

/-- The parts of a constant are constants other than functions. -/
theorem TypesConstant.parts (typed : context.TypesConstant type kind) (member : part ∈ kind.parts) :
    ∃ type, context.HoldsData part type := by
  cases kind with
  | array elements =>
      obtain ⟨element, _, _, _, _, parts⟩ := typed
      exact ⟨element, parts part member⟩
  | struct fields =>
      obtain ⟨types, _, _, _, parts⟩ := typed
      have each : List.Forall₂ (fun field type => (∃ type, context.HoldsData field type) ∧
          context.HoldsData field type) fields types :=
        parts.imp fun field type data => ⟨⟨type, data⟩, data⟩
      exact ((List.forall₂_and_left _ _).mp each).1 part member
  | _ => cases member

end Context

end TypedIR
