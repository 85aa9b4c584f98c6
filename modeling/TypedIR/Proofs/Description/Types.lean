import TypedIR.Proofs.Context.Conditions
import TypedIR.Proofs.Description.Construction
import TypedIR.Proofs.Types.Reading
import TypedIR.Proofs.Workspace.Commands

/-!
Contract: the types of a context for type terms.

Owns:
- sized terms, the terms of types whose values can be stored, by the widths allowed;
- which terms can be lowered: the sized ones and `void`;
- what lowering gives: a type with the tree that the term denotes, in a context where
  nothing but types has come.
-/

namespace TypedIR

/-- Built from integers of a width within the limit by arrays and structs, without `void`. -/
inductive TypeTerm.Sized (limit : UInt32) : TypeTerm → Prop where
  | integer {bits : UInt32} (positive : 0 < bits) (fits : bits ≤ limit) : Sized limit (.integer bits)
  | array {element : TypeTerm} {length : UInt32} (sized : Sized limit element) :
      Sized limit (.array element length)
  | struct {fields : List TypeTerm} {packed : Bool} (sized : ∀ field ∈ fields, Sized limit field) :
      Sized limit (.struct fields packed)

namespace TypeTerm

variable {limit : UInt32}

theorem sized_integer_iff {bits : UInt32} :
    Sized limit (.integer bits) ↔ 0 < bits ∧ bits ≤ limit := by
  refine ⟨fun whole => ?_, fun ⟨positive, fits⟩ => .integer positive fits⟩
  cases whole with
  | integer positive fits => exact ⟨positive, fits⟩

theorem sized_array_iff {element : TypeTerm} {length : UInt32} :
    Sized limit (.array element length) ↔ Sized limit element := by
  refine ⟨fun whole => ?_, .array⟩
  cases whole with
  | array sized => exact sized

theorem sized_struct_iff {fields : List TypeTerm} {packed : Bool} :
    Sized limit (.struct fields packed) ↔ ∀ field ∈ fields, Sized limit field := by
  refine ⟨fun whole => ?_, .struct⟩
  cases whole with
  | struct sized => exact sized

/-- A term of a result type of functions. -/
def Returnable (limit : UInt32) (term : TypeTerm) : Prop :=
  term = .void ∨ term.Sized limit

/-- Of the terms that are not void, a result type is sized. -/
theorem returnable_iff {term : TypeTerm} (other : term ≠ .void) :
    term.Returnable limit ↔ term.Sized limit := or_iff_right other

theorem Sized.isSized {term : TypeTerm} (sized : term.Sized limit) :
    term.tree.isSized = true := by
  cases sized <;> rfl

theorem tree_eq_void {term : TypeTerm} : term.tree = .void ↔ term = .void := by
  cases term <;> simp [tree]

/-- Among the terms of result types, the form tells the sized ones. -/
theorem Returnable.isSized_iff {term : TypeTerm} (returnable : term.Returnable limit) :
    term.tree.isSized = true ↔ term.Sized limit := by
  refine ⟨fun isSized => ?_, Sized.isSized⟩
  rcases returnable with rfl | sized
  · cases isSized
  · exact sized

end TypeTerm

/-- Functions return a value if their result type is not of the term `void`. -/
theorem Context.Grounded.returnedBy_iff {context : Context} (grounded : context.Grounded)
    {type : TypeRef} {term : TypeTerm} (known : context.tree? type = some term.tree) :
    ReturnedBy context.shape? type ↔ term ≠ .void := by
  have isVoid : context.shape? type = some .void ↔ term = .void := by
    rw [grounded.shape_void_iff, known, Option.some.injEq, TypeTerm.tree_eq_void]
  rw [ne_eq, ← isVoid]
  obtain ⟨shape, stored, _⟩ := grounded.shape_of_tree known
  unfold ReturnedBy
  rw [stored]
  cases shape <;> simp [TypeShape.isVoid]

namespace Description

open Construction

variable {terms : Terms} {context before after : Context}

/-- Nothing but types has come. -/
def Retyped (before after : Context) : Prop := after = { before with types := after.types }

theorem Retyped.trans {between : Context} (first : Retyped before between)
    (second : Retyped between after) : Retyped before after := by
  unfold Retyped at first second ⊢
  rw [second, first]

/-- A type of the context with the tree, where nothing but types has come. -/
structure Lowered (before : Context) (tree : TypeTree) (type : TypeId) (after : Context) :
    Prop where
  retyped : Retyped before after
  tagged : type.context = before.id
  known : after.tree? type.index = some tree

/-- Types for terms, one after the other. -/
structure LoweredAll (before : Context) (list : List TypeTerm) (types : List TypeId)
    (after : Context) : Prop where
  retyped : Retyped before after
  each : List.Forall₂ (fun type term =>
    type.context = before.id ∧ after.tree? type.index = some term.tree) types list

/-- An operation that interns a structure lowers the tree that the structure expands to. -/
theorem meets_intern (regular : context.Regular terms.settings) {operation : Operation TypeId}
    {possible : Prop} {tree : TypeTree} (edit : Edit) (shape : TypeShape)
    (same : edit.operation terms.settings = operation.map Edit.typeAnswer)
    (home : operation.home = context.id) (passes : possible → operation.screen = .ok ())
    (applied : ∀ result, (operation.effect context).1 = .ok result ↔
      possible ∧ context.intern shape = result)
    (formed : possible → context.Forms terms.settings shape)
    (expands : possible → ∀ after : Context,
      (∀ type tree, context.tree? type = some tree → after.tree? type = some tree) →
        shape.expand after.tree? = some tree) :
    Meets terms (perform operation) context possible (Lowered context tree) := by
  apply meets_perform edit same home passes
  · intro type after _ done
    obtain ⟨holds, equal⟩ := (applied (type, after)).mp done
    have interned := Context.intern_interned (formed holds)
    rw [equal] at interned
    refine ⟨holds, interned.frame, interned.tagged, ?_⟩
    rw [interned.tree regular]
    exact expands holds after fun _ _ known => regular.tree?_mono interned.changes known
  · intro holds
    exact ⟨_, _, (applied _).mpr ⟨holds, rfl⟩⟩

theorem requireHomeType_head {home : ContextId} {types : List TypeId}
    (tagged : ∀ type ∈ types, type.context = home) :
    Operation.requireHomeType home types.head? = .ok () := by
  cases types with
  | nil => rfl
  | cons first rest => exact Operation.requireHomeType_of_home (tagged first List.mem_cons_self)

/-- Types that stay are those of the earlier context. -/
theorem Lowered.since {between : Context} {tree : TypeTree} {type : TypeId}
    (lowered : Lowered between tree type after) (retyped : Retyped before between)
    (sameId : between.id = before.id) : Lowered before tree type after :=
  ⟨retyped.trans lowered.retyped, lowered.tagged.trans sameId, lowered.known⟩

/-- Which lowered types can be stored. -/
theorem sizedBy_iff (regular : context.Regular terms.settings) {term : TypeTerm} {type : TypeRef}
    (returnable : term.Returnable terms.settings.maxIntegerWidth)
    (known : context.tree? type = some term.tree) :
    SizedBy context.shape? type ↔ term.Sized terms.settings.maxIntegerWidth := by
  rw [regular.coherent.grounded.sized_iff known, returnable.isSized_iff]

theorem sizedAll_iff (regular : context.Regular terms.settings) {list : List TypeTerm}
    {types : List TypeId}
    (returnable : ∀ term ∈ list, term.Returnable terms.settings.maxIntegerWidth)
    (each : List.Forall₂ (fun type term =>
      type.context = context.id ∧ context.tree? type.index = some term.tree) types list) :
    (∀ type ∈ types, type.context = context.id ∧ SizedBy context.shape? type.index) ↔
      ∀ term ∈ list, term.Sized terms.settings.maxIntegerWidth := by
  induction each with
  | nil => simp
  | cons known _ inductionHypothesis =>
      obtain ⟨first, others⟩ := List.forall_mem_cons.mp returnable
      rw [List.forall_mem_cons, List.forall_mem_cons, inductionHypothesis others,
        and_iff_right known.1, sizedBy_iff regular first known.2]

/-- The trees of lowered types, read in a later context. -/
theorem mapM_tree? {list : List TypeTerm} {types : List TypeId}
    (each : List.Forall₂ (fun type term =>
      type.context = context.id ∧ context.tree? type.index = some term.tree) types list)
    (kept : ∀ type tree, context.tree? type = some tree → after.tree? type = some tree) :
    (types.map (·.index)).mapM after.tree? = some (list.map TypeTerm.tree) := by
  rw [mapM_eq_some, List.forall₂_map_left_iff, List.forall₂_map_right_iff]
  exact each.imp fun type term known => kept _ _ known.2

/-! ### Types of lowered parts -/

section Parts

variable (regular : context.Regular terms.settings)

include regular

theorem arrayType_meets {element : TypeTerm} {part : TypeId} (length : UInt32)
    (lowers : element.Returnable terms.settings.maxIntegerWidth)
    (tagged : part.context = context.id)
    (known : context.tree? part.index = some element.tree) :
    Meets terms (perform (.arrayType part length)) context
      (element.Sized terms.settings.maxIntegerWidth)
      (Lowered context (.array element.tree length)) := by
  have sized := sizedBy_iff regular lowers known
  apply meets_intern regular (.arrayType part length) (.array part.index length) rfl tagged
    fun _ => rfl
  · intro result
    rw [← sized]
    exact Context.arrayType_eq_ok.trans (and_congr_left' (and_iff_right tagged))
  · exact sized.mpr
  · intro _ after kept
    rw [TypeShape.expand, kept _ _ known]
    rfl

theorem structType_meets {fields : List TypeTerm} {parts : List TypeId} (packed : Bool)
    (lowers : ∀ field ∈ fields, field.Returnable terms.settings.maxIntegerWidth)
    (known : List.Forall₂ (fun type term =>
      type.context = context.id ∧ context.tree? type.index = some term.tree) parts fields) :
    Meets terms (perform (.structType context.id parts packed)) context
      (∀ field ∈ fields, field.Sized terms.settings.maxIntegerWidth)
      (Lowered context (.struct (fields.map TypeTerm.tree) packed)) := by
  have sized := sizedAll_iff regular lowers known
  apply meets_intern regular (.structType context.id parts packed)
    (.struct (parts.map (·.index)) packed) rfl rfl
  · intro allSized
    exact Operation.guarded_passes
      (requireHomeType_head fun part member => (sized.mpr allSized part member).1) rfl
  · intro result
    rw [← sized]
    exact Context.structType_eq_ok
  · intro allSized position member
    obtain ⟨part, listed, rfl⟩ := List.mem_map.mp member
    exact (sized.mpr allSized part listed).2
  · intro _ after kept
    rw [TypeShape.expand, mapM_tree? known kept]
    rfl

theorem signatureType_meets {result : TypeTerm}
    {parameters : List TypeTerm} {returned : TypeId} {taken : List TypeId} {variadic : Bool}
    (returns : result.Returnable terms.settings.maxIntegerWidth)
    (lowers : ∀ term ∈ parameters, term.Returnable terms.settings.maxIntegerWidth)
    (returnedKnown : returned.context = context.id ∧ context.tree? returned.index = some result.tree)
    (takenKnown : List.Forall₂ (fun type term =>
      type.context = context.id ∧ context.tree? type.index = some term.tree) taken parameters) :
    Meets terms (perform (.signatureType returned taken variadic)) context
      (∀ term ∈ parameters, term.Sized terms.settings.maxIntegerWidth)
      (Lowered context (.function result.tree (parameters.map TypeTerm.tree) variadic)) := by
  have grounded := regular.coherent.grounded
  have sized := sizedAll_iff regular lowers takenKnown
  have returnable : SizedBy context.shape? returned.index ∨
      context.shape? returned.index = some .void := by
    rcases returns with rfl | isSized
    · exact .inr (grounded.shape_void_iff.mpr returnedKnown.2)
    · exact .inl ((sizedBy_iff regular (.inr isSized) returnedKnown.2).mpr isSized)
  apply meets_intern regular (.signatureType returned taken variadic)
    (.function returned.index (taken.map (·.index)) variadic) rfl returnedKnown.1 fun _ => rfl
  · intro answer
    rw [← sized]
    refine Context.signatureType_eq_ok.trans ?_
    rw [and_iff_right returnedKnown.1, and_iff_right returnable]
  · intro allSized
    refine ⟨returnable, fun position member => ?_⟩
    obtain ⟨type, listed, rfl⟩ := List.mem_map.mp member
    exact (sized.mpr allSized type listed).2
  · intro _ after kept
    rw [TypeShape.expand, kept _ _ returnedKnown.2, mapM_tree? takenKnown kept]
    rfl

end Parts

/-! ### Lowering -/

mutual

/-- A term can be lowered if it is sized or void, and gives a type with its tree. -/
theorem lowerType_meets (term : TypeTerm) {context : Context}
    (regular : context.Regular terms.settings) :
    Meets terms (lowerType terms term) context
      (term.Returnable terms.settings.maxIntegerWidth) (Lowered context term.tree) :=
  match term with
  | .void => by
      apply meets_bind_context
      apply meets_intern regular (.voidType context.id) .void rfl rfl (fun _ => rfl)
      · intro result
        show Except.ok (context.intern .void) = _ ↔ _
        rw [Except.ok.injEq]
        exact (and_iff_right (.inl rfl)).symm
      · exact fun _ => trivial
      · exact fun _ _ _ => rfl
  | .integer bits => by
      apply meets_bind_context
      have fits : (TypeTerm.integer bits).Returnable terms.settings.maxIntegerWidth ↔
          terms.settings.checkWidth bits = .ok () := by
        rw [TypeTerm.returnable_iff (by simp), TypeTerm.sized_integer_iff,
          Settings.checkWidth_eq_ok]
      apply meets_intern regular (.integerType context.id bits) (.integer bits) rfl rfl
      · exact fun returnable => Operation.guarded_passes (fits.mp returnable) rfl
      · intro result
        rw [fits]
        exact Context.integerType_eq_ok
      · exact fits.mp
      · exact fun _ _ _ => rfl
  | .array element length => by
      have returnable : (TypeTerm.array element length).Returnable terms.settings.maxIntegerWidth ↔
          element.Sized terms.settings.maxIntegerWidth := by
        rw [TypeTerm.returnable_iff (by simp), TypeTerm.sized_array_iff]
      apply (lowerType_meets element regular).bind fun whole => .inr (returnable.mp whole)
      intro part between steps lowers lowered
      have later := steps.regular regular
      have tagged : part.context = between.id := lowered.tagged.trans steps.id_eq.symm
      refine (arrayType_meets later length lowers tagged lowered.known).weaken returnable ?_
      exact fun _ _ _ _ done => done.since lowered.retyped steps.id_eq
  | .struct fields packed => by
      have returnable : (TypeTerm.struct fields packed).Returnable terms.settings.maxIntegerWidth ↔
          ∀ field ∈ fields, field.Sized terms.settings.maxIntegerWidth := by
        rw [TypeTerm.returnable_iff (by simp), TypeTerm.sized_struct_iff]
      apply (lowerTypes_meets fields regular).bind fun whole field member =>
        .inr (returnable.mp whole field member)
      intro parts between steps lowers lowered
      apply meets_bind_context
      have later := steps.regular regular
      have each : List.Forall₂ (fun part field => part.context = between.id ∧
          between.tree? part.index = some (TypeTerm.tree field)) parts fields :=
        lowered.each.imp fun _ _ known => ⟨known.1.trans steps.id_eq.symm, known.2⟩
      refine (structType_meets later packed lowers each).weaken returnable ?_
      intro type after _ _ done
      rw [TypeTerm.tree, TypeTerm.trees_eq_map]
      exact done.since lowered.retyped steps.id_eq

theorem lowerTypes_meets (list : List TypeTerm) {context : Context}
    (regular : context.Regular terms.settings) :
    Meets terms (lowerTypes terms list) context
      (∀ term ∈ list, term.Returnable terms.settings.maxIntegerWidth)
      (LoweredAll context list) :=
  match list with
  | [] => meets_pure (by simp) ⟨rfl, .nil⟩
  | term :: rest => by
      apply (lowerType_meets term regular).bind fun whole => whole term List.mem_cons_self
      intro type between steps lowers lowered
      have later := steps.regular regular
      apply (lowerTypes_meets rest later).bind fun whole other member =>
        whole other (List.mem_cons_of_mem _ member)
      intro types after moreSteps restLowers restLowered
      apply meets_pure (List.forall_mem_cons.mpr ⟨lowers, restLowers⟩)
      refine ⟨lowered.retyped.trans restLowered.retyped, .cons ?_ ?_⟩
      · exact ⟨lowered.tagged, moreSteps.tree? later lowered.known⟩
      · exact restLowered.each.imp fun _ _ done => ⟨done.1.trans steps.id_eq, done.2⟩

end

end Description

end TypedIR
