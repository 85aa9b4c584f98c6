import TypedIR.Proofs.Description.Operands

/-!
Contract: what it says of operands that they have been built.

Owns:
- contexts in which operands have been built, and values that stand for them there;
- operands that are built one after the other;
- that the values at hand have the types that the rules of instructions speak of,
  those of a call's arguments among them.

Does not own: the instructions themselves.
-/

namespace TypedIR.Description

open Construction

variable {terms : Terms} {description : Module} {scope : Scope} {types : Locals TypeTree}
  {context before between after : Context}

/-! ### Where operands have been built -/

/-- Nothing but constants and types has come since. -/
structure Ready (settings : Settings) (before between : Context) : Prop where
  drafted : between.Drafted settings
  grown : before.Grown between
  blocks : between.block? = before.block?

theorem Ready.refl {settings : Settings} (drafted : context.Drafted settings) :
    Ready settings context context := ⟨drafted, .refl context, rfl⟩

theorem Ready.interned {settings : Settings} (ready : Ready settings before between)
    {shape : TypeShape} {type : TypeId} (interned : Interned settings between shape type after) :
    Ready settings before after where
  drafted := ready.drafted.interned interned
  grown := ready.grown.trans (Context.grown_of_interned ready.drafted interned)
  blocks := interned.blocks.trans ready.blocks

theorem Ready.resolveBlock {settings : Settings} (ready : Ready settings before between)
    {block : BlockId} {current : TypedIR.Block}
    (resolved : before.resolveBlock block = .ok current) :
    between.resolveBlock block = .ok current := by
  obtain ⟨tagged, found⟩ := Context.resolveBlock_eq_ok.mp resolved
  exact Context.resolveBlock_eq_ok.mpr
    ⟨tagged.trans ready.grown.id.symm, (congrFun ready.blocks _).trans found⟩

namespace Operand.Stands

variable {limit : UInt32} {locals : Locals ValueRef} {operand : Operand} {value : ValueId}

theorem onward (stands : operand.Stands limit description types locals before value)
    (goes : before.Onward after) : operand.Stands limit description types locals after value := by
  obtain ⟨⟨type, typed, carries⟩, denotes⟩ := stands
  exact ⟨⟨type, typed, carries.onward goes⟩, denotes.onward goes⟩

variable {settings : Settings} (regular : context.Regular settings)
  (stands : operand.Stands limit description types locals context value)

include regular stands

/-- The type of the value has the tree that the operand has as its type. -/
theorem hasType {type : TypeRef} (own : context.Own value type) :
    ∃ tree, operand.HasType limit description types tree ∧ context.tree? type = some tree := by
  obtain ⟨tree, typed, carries⟩ := stands.typed
  exact ⟨tree, typed, (carries.own_iff regular).mp own⟩

theorem hasType_of_tree {type : TypeRef} (own : context.Own value type) {tree : TypeTree}
    (known : context.tree? type = some tree) : operand.HasType limit description types tree := by
  obtain ⟨other, typed, otherKnown⟩ := stands.hasType regular own
  rwa [Option.some.inj (known.symm.trans otherKnown)]

omit regular in
theorem carries (distinct : description.DistinctNames) {tree : TypeTree}
    (typed : operand.HasType limit description types tree) : context.Carries value tree := by
  obtain ⟨other, otherTyped, carries⟩ := stands.typed
  rwa [Operand.hasType_unique distinct typed otherTyped]

theorem own (distinct : description.DistinctNames) {tree : TypeTree}
    (typed : operand.HasType limit description types tree) {type : TypeRef}
    (known : context.tree? type = some tree) : context.Own value type :=
  ((stands.carries distinct typed).own_iff regular).mpr known

/-- A value is a condition if the operand has the type of one. -/
theorem condition_iff (distinct : description.DistinctNames) :
    (∃ truth, context.Own value truth ∧ context.shape? truth = some (.integer 1)) ↔
      operand.HasType limit description types (.integer 1) := by
  have grounded := regular.coherent.grounded
  constructor
  · rintro ⟨truth, own, shape⟩
    exact stands.hasType_of_tree regular own (grounded.shape_integer_iff.mp shape)
  · intro typed
    obtain ⟨truth, own, known⟩ := stands.carries distinct typed
    exact ⟨truth, own, grounded.shape_integer_iff.mpr known⟩

end Operand.Stands

section Rules

variable {β : Type} {possible : Prop} {ensures : β → Context → Prop}
  (ready : Ready terms.settings context between)
  (knows : scope.Knows terms.settings description types context)

include ready knows

/-- An operand is built, and the rest is judged with a value that stands for it. -/
theorem operand_bind {next : ValueId → Construction β} (operand : Operand)
    (implied : possible →
      ∃ type, operand.HasType terms.settings.maxIntegerWidth description types type)
    (rest : ∀ value last, Ready terms.settings context last → between.Onward last →
      operand.Stands terms.settings.maxIntegerWidth description types scope.values last value →
      Meets terms (next value) last possible ensures) :
    Meets terms (buildOperand terms scope operand >>= next) between possible ensures := by
  apply (buildOperand_meets ready.drafted (knows.onward ready.grown) operand).bind implied
  intro value last steps _ built
  exact rest value last ⟨steps.drafted ready.drafted, ready.grown.trans built.grown,
    built.blocks.trans ready.blocks⟩ built.grown.toOnward built.toStands

/-- Two operands are built, and both values stand in the last context. -/
theorem operandPair_bind {next : ValueId → ValueId → Construction β} (left right : Operand)
    (implied : possible →
      (∃ type, left.HasType terms.settings.maxIntegerWidth description types type) ∧
        ∃ type, right.HasType terms.settings.maxIntegerWidth description types type)
    (rest : ∀ first second last, Ready terms.settings context last → between.Onward last →
      left.Stands terms.settings.maxIntegerWidth description types scope.values last first →
      right.Stands terms.settings.maxIntegerWidth description types scope.values last second →
      Meets terms (next first second) last possible ensures) :
    Meets terms (buildOperand terms scope left >>= fun first =>
      buildOperand terms scope right >>= next first) between possible ensures := by
  apply operand_bind ready knows left fun holds => (implied holds).1
  intro first middle readyMiddle goes firstStands
  apply operand_bind readyMiddle knows right fun holds => (implied holds).2
  intro second last readyLast goesOn secondStands
  exact rest first second last readyLast (goes.trans goesOn) (firstStands.onward goesOn)
    secondStands

theorem buildOperands_meets (operands : List Operand) :
    Meets terms (operands.mapM (buildOperand terms scope)) between
      (∃ list, List.Forall₂
        (Operand.HasType terms.settings.maxIntegerWidth description types) operands list)
      fun values last => Ready terms.settings context last ∧ between.Onward last ∧
        List.Forall₂ (fun operand value => Operand.Stands terms.settings.maxIntegerWidth description
          types scope.values last operand value) operands values := by
  induction operands generalizing between with
  | nil =>
      rw [List.mapM_nil]
      exact meets_pure ⟨[], .nil⟩ ⟨ready, .refl between, .nil⟩
  | cons operand operands inductionHypothesis =>
      rw [List.mapM_cons]
      apply operand_bind ready knows operand
      · rintro ⟨_, _ | ⟨typed, _⟩⟩
        exact ⟨_, typed⟩
      · intro value between readyBetween goes stands
        apply (inductionHypothesis readyBetween).bind
        · rintro ⟨_, _ | ⟨_, others⟩⟩
          exact ⟨_, others⟩
        · rintro values last _ ⟨list, others⟩ ⟨readyLast, goesOn, each⟩
          obtain ⟨type, typed, _⟩ := stands.typed
          exact meets_pure ⟨type :: list, .cons typed others⟩
            ⟨readyLast, goes.trans goesOn, .cons (stands.onward goesOn) each⟩

end Rules

/-! ### Arguments -/

/-- A list related to two lists one behind the other is made of two lists itself. -/
theorem forall₂_append_left {α β : Type} {related : α → β → Prop} {first second : List α}
    {all : List β} (each : List.Forall₂ related (first ++ second) all) :
    ∃ front back, all = front ++ back ∧ List.Forall₂ related first front ∧
      List.Forall₂ related second back := by
  refine ⟨all.take first.length, all.drop first.length, (List.take_append_drop _ _).symm, ?_, ?_⟩
  · exact (List.forall₂_take_append all first second each.flip).flip
  · exact (List.forall₂_drop_append all first second each.flip).flip

section Arguments

variable {settings : Settings} {limit : UInt32} {locals : Locals ValueRef}
  {operands : List Operand} {values : List ValueId} (regular : context.Regular settings)
  (stand : List.Forall₂ (fun operand value =>
    Operand.Stands limit description types locals context operand value) operands values)

include regular stand

theorem trees_of_owns {list : List TypeRef} (owns : List.Forall₂ context.Own values list) :
    ∃ trees, List.Forall₂ (Operand.HasType limit description types) operands trees ∧
      List.Forall₂ (fun type tree => context.tree? type = some tree) list trees := by
  induction stand generalizing list with
  | nil =>
      cases owns
      exact ⟨[], .nil, .nil⟩
  | cons stands _ inductionHypothesis =>
      obtain ⟨type, rest, own, others, rfl⟩ := List.forall₂_cons_left_iff.mp owns
      obtain ⟨tree, typed, known⟩ := stands.hasType regular own
      obtain ⟨trees, othersTyped, othersKnown⟩ := inductionHypothesis others
      exact ⟨tree :: trees, .cons typed othersTyped, .cons known othersKnown⟩

omit regular in
theorem owns_of_trees (distinct : description.DistinctNames) {trees : List TypeTree}
    (typed : List.Forall₂ (Operand.HasType limit description types) operands trees) :
    ∃ list, List.Forall₂ context.Own values list ∧
      List.Forall₂ (fun type tree => context.tree? type = some tree) list trees := by
  induction stand generalizing trees with
  | nil =>
      cases typed
      exact ⟨[], .nil, .nil⟩
  | cons stands _ inductionHypothesis =>
      obtain ⟨tree, rest, headTyped, others, rfl⟩ := List.forall₂_cons_left_iff.mp typed
      obtain ⟨type, own, known⟩ := stands.carries distinct headTyped
      obtain ⟨list, owns, othersKnown⟩ := inductionHypothesis others
      exact ⟨type :: list, .cons own owns, .cons known othersKnown⟩

/-- The values can be passed for parameters of the given types, and for more if more may follow,
exactly if the operands have the types in full. -/
theorem arguments_iff (distinct : description.DistinctNames) {taken : List TypeRef}
    {parameters : List TypeTree} (variadic : Bool)
    (known : List.Forall₂ (fun type tree => context.tree? type = some tree) taken parameters) :
    (∃ extra, List.Forall₂ context.Own values (taken ++ extra) ∧
        (∀ type ∈ extra, SizedBy context.shape? type) ∧ (extra = [] ∨ variadic = true)) ↔
      ∃ extra, List.Forall₂ (Operand.HasType limit description types) operands
          (parameters ++ extra) ∧
        (∀ type ∈ extra, type.isSized = true) ∧ (extra = [] ∨ variadic = true) := by
  have grounded := regular.coherent.grounded
  constructor
  · rintro ⟨extra, owns, sized, surplus⟩
    obtain ⟨trees, typed, all⟩ := trees_of_owns regular stand owns
    obtain ⟨front, back, rfl, first, second⟩ := forall₂_append_left all
    obtain rfl : front = parameters := List.right_unique_forall₂'
      (fun _ _ _ one other => Option.some.inj (one.symm.trans other)) first known
    refine ⟨back, typed, fun tree member => ?_, surplus.imp_left fun none => ?_⟩
    · obtain ⟨type, listed, treeKnown⟩ := exists_of_mem_right second member
      exact (grounded.sized_iff treeKnown).mp (sized type listed)
    · rw [none] at second
      exact List.forall₂_nil_left_iff.mp second
  · rintro ⟨extra, typed, sized, surplus⟩
    obtain ⟨list, owns, all⟩ := owns_of_trees stand distinct typed
    obtain ⟨front, back, rfl, first, second⟩ := forall₂_append_left all.flip
    have unique : Relator.LeftUnique fun (type : TypeRef) (tree : TypeTree) =>
        context.tree? type = some tree :=
      fun _ _ _ one other => regular.canonical.tree?_injective grounded one other
    obtain rfl : front = taken := List.left_unique_forall₂' unique first.flip known
    refine ⟨back, owns, fun type member => ?_, surplus.imp_left fun none => ?_⟩
    · obtain ⟨tree, listed, treeKnown⟩ := exists_of_mem_right second member
      exact (grounded.sized_iff treeKnown).mpr (sized tree listed)
    · rw [none] at second
      exact List.forall₂_nil_left_iff.mp second

end Arguments

end TypedIR.Description
