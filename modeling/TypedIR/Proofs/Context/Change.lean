import Mathlib.Logic.Relation
import TypedIR.Context.Instructions
import TypedIR.Proofs.Context.Rules

/-!
Contract: the elementary changes of a context.

Owns:
- one relation, with a constructor for each way in which an operation changes the
  tables, under all that the operation has checked;
- sequences of such changes;
- interning as a change.

Does not own: which operation makes which changes.

Whatever holds of a fresh context and is kept by each elementary change holds of
every context, so an invariant needs one case for each constructor here.
-/

namespace TypedIR

/-- What a change is about: a new name for a value, a verdict on a function, or neither. -/
inductive Effect where
  | plain
  | rename (value : ValueRef)
  | record (function : ValueRef)
deriving DecidableEq, Repr

/-- Anything but a verdict. -/
def Effect.IsEdit (effect : Effect) : Prop := ∀ function, effect ≠ .record function

/-- The parts of a function that stay from its declaration to its deletion. -/
structure FunctionEntry.SameHead (before after : FunctionEntry) : Prop where
  self : after.self = before.self
  signature : after.signature = before.signature
  parameters : after.parameters = before.parameters

/-- The parts of a function that no setting changes. -/
structure FunctionEntry.SameFrame (before after : FunctionEntry) : Prop
    extends FunctionEntry.SameHead before after where
  blocks : after.blocks = before.blocks

namespace Context

/-- The context with a new function and its parameters. -/
def withFunction (context : Context) (convention : UInt32) (name : String) (signature : TypeRef)
    (parameters : List TypeRef) : Context :=
  let self := context.values.size
  { context with
    values := (context.values.push ⟨signature, .function, name⟩).pushAll
      (parameters.mapIdx fun position type => ⟨type, .parameter self position, ""⟩)
    functions := context.functions ++ [FunctionEntry.declared self signature
      (List.range' (self + 1) parameters.length) convention] }

/-- The context with a value under another name. -/
def withName (context : Context) (value : ValueRef) (name : String) : Context :=
  { context with
    values := context.values.modify value fun entry => { entry with name := name } }

/-- The context with a new block at the end of a function. -/
def withBlock (context : Context) (function : ValueRef) (name : String) : Context :=
  { context with
    blocks := context.blocks.push ⟨function, name, []⟩ }.updateFunction function fun entry =>
      { entry with blocks := entry.blocks ++ [context.blocks.size] }.edited

/-- The context without a function and what it owns, all other functions unverified. -/
def withoutFunction (context : Context) (entry : FunctionEntry) : Context :=
  { context with
    values := context.values.releaseAll
      (context.instructionsOf entry ++ entry.parameters ++ [entry.self])
    blocks := context.blocks.releaseAll entry.blocks
    functions := (context.functions.filter fun other => other.self ≠ entry.self).map
      (forgetFunction entry.self) }

end Context

/-- One change, with what has been checked before it. -/
inductive Change (settings : Settings) : Effect → Context → Context → Prop where
  | moduleName {context : Context} (name : String) :
      Change settings .plain context { context with moduleName := name }
  | type {context : Context} (shape : TypeShape) (fresh : context.findType? shape = none)
      (formed : context.Forms settings shape) :
      Change settings .plain context { context with types := context.types.push shape }
  | constant {context : Context} (type : TypeRef) (kind : ValueKind)
      (formed : context.FormsConstant type kind) :
      Change settings .plain context (context.pushValue ⟨type, kind, ""⟩).2
  | declare {context : Context} {signature result : TypeRef} {parameters : List TypeRef}
      {variadic : Bool} (name : String)
      (shape : context.shape? signature = some (.function result parameters variadic))
      (free : context.functionNamed? name = none) :
      Change settings .plain context
        (context.withFunction settings.convention.code name signature parameters)
  | rename {context : Context} {value : ValueRef} {entry : Value} (name : String)
      (found : context.value? value = some entry)
      (free : entry.kind = .function →
        ∀ holder, context.functionNamed? name = some holder → holder = value) :
      Change settings (.rename value) context (context.withName value name)
  | block {context : Context} {function : ValueRef} {entry : FunctionEntry} (name : String)
      (found : context.function? function = some entry) :
      Change settings .plain context (context.withBlock function
        (Label.ofBlock (entry.blocks.filterMap fun block => (context.block? block).map (·.name))
          name))
  | configure {context : Context} {function : ValueRef} {entry : FunctionEntry}
      (change : FunctionEntry → FunctionEntry)
      (found : context.function? function = some entry)
      (frame : ∀ entry : FunctionEntry, entry.SameFrame (change entry))
      (personality : ∀ (entry : FunctionEntry) personality,
        (change entry).personality = some personality →
          entry.personality = some personality ∨ context.IsFunction personality) :
      Change settings .plain context
        (context.updateFunction function fun entry => (change entry).edited)
  | delete {context : Context} {function : ValueRef} {entry : FunctionEntry}
      (found : context.function? function = some entry) :
      Change settings .plain context (context.withoutFunction entry)
  | append {context : Context} {block : BlockRef} {home : Block} {type : TypeRef}
      {code : Instruction} (name : String) (found : context.block? block = some home)
      (typed : context.Types home.function type code)
      (targets : ∀ target ∈ code.successors, (context.block? target).isSome) :
      Change settings .plain context
        (context.appendInstruction home.function block type code name).2
  | record {context : Context} (function : ValueRef) (state : VerificationState) :
      Change settings (.record function) context (context.recordState function state)

/-- Changes of one effect, one after the other. -/
def Changes (settings : Settings) (effect : Effect) : Context → Context → Prop :=
  Relation.ReflTransGen (Change settings effect)

variable {settings : Settings} {effect : Effect} {before after last : Context}

namespace Changes

theorem refl : Changes settings effect before before := Relation.ReflTransGen.refl

theorem single (change : Change settings effect before after) :
    Changes settings effect before after := Relation.ReflTransGen.single change

theorem trans (first : Changes settings effect before after)
    (second : Changes settings effect after last) : Changes settings effect before last :=
  Relation.ReflTransGen.trans first second

end Changes

theorem Change.id_eq (change : Change settings effect before after) : after.id = before.id := by
  cases change <;> rfl

theorem Changes.id_eq (changes : Changes settings effect before after) : after.id = before.id := by
  induction changes with
  | refl => rfl
  | tail _ change inductionHypothesis => exact change.id_eq.trans inductionHypothesis

theorem Change.native_eq (change : Change settings effect before after) :
    after.native = before.native := by
  cases change <;> rfl

/-- Changes of any effects, one after the other, verdicts apart. -/
def Course (settings : Settings) : Context → Context → Prop :=
  Relation.ReflTransGen fun before after =>
    ∃ effect : Effect, effect.IsEdit ∧ Change settings effect before after

theorem Course.refl : Course settings before before := Relation.ReflTransGen.refl

theorem Course.trans (first : Course settings before after)
    (second : Course settings after last) : Course settings before last :=
  Relation.ReflTransGen.trans first second

theorem Changes.course (isEdit : effect.IsEdit) (changes : Changes settings effect before after) :
    Course settings before after := by
  induction changes with
  | refl => exact .refl
  | tail _ change inductionHypothesis =>
      exact Relation.ReflTransGen.tail inductionHypothesis ⟨effect, isEdit, change⟩

theorem Course.id_eq (course : Course settings before after) : after.id = before.id := by
  induction course with
  | refl => rfl
  | tail _ step inductionHypothesis =>
      obtain ⟨_, _, change⟩ := step
      exact change.id_eq.trans inductionHypothesis

theorem Course.native_eq (course : Course settings before after) :
    after.native = before.native := by
  induction course with
  | refl => rfl
  | tail _ step inductionHypothesis =>
      obtain ⟨_, _, change⟩ := step
      exact change.native_eq.trans inductionHypothesis

/-! ### Interning -/

/-- After interning, the structure has a position, and all that changed is the end of the table
of types. -/
structure Interned (settings : Settings) (before : Context) (shape : TypeShape) (type : TypeId)
    (after : Context) : Prop where
  changes : Changes settings .plain before after
  known : after.shape? type.index = some shape
  tagged : type.context = before.id
  frame : after = { before with types := after.types }
  kept : ∀ other shape, before.shape? other = some shape → after.shape? other = some shape

namespace Interned

variable {shape : TypeShape} {type : TypeId} (interned : Interned settings before shape type after)

include interned

theorem values : after.value? = before.value? := by rw [interned.frame]; rfl

theorem blocks : after.block? = before.block? := by rw [interned.frame]; rfl

theorem functions : after.function? = before.function? := by rw [interned.frame]; rfl

theorem hasType {value : ValueRef} {type : TypeRef} (known : before.HasType value type) :
    after.HasType value type := by
  rwa [Context.HasType, interned.values]

theorem hasSignature {function : ValueRef} {signature : TypeRef}
    (known : before.HasSignature function signature) : after.HasSignature function signature := by
  rwa [Context.HasSignature, interned.functions]

end Interned

theorem Context.findType?_eq_some {context : Context} {shape : TypeShape} {type : TypeRef}
    (found : context.findType? shape = some type) : context.shape? type = some shape := by
  obtain ⟨inside, same, _⟩ := Array.findIdx?_eq_some_iff_getElem.mp found
  rw [shape?, Array.getElem?_eq_getElem inside]
  exact congrArg some (of_decide_eq_true same)

theorem Context.shape?_push {context : Context} {shape other : TypeShape} {type : TypeRef}
    (known : context.shape? type = some shape) :
    ({ context with types := context.types.push other } : Context).shape? type = some shape := by
  have inside : type < context.types.size := by
    apply Decidable.byContradiction
    intro outside
    rw [shape?, Array.getElem?_eq_none (Nat.le_of_not_lt outside)] at known
    cases known
  rw [shape?, Array.getElem?_push, if_neg (Nat.ne_of_lt inside)]
  exact known

theorem Context.intern_interned {context : Context} {shape : TypeShape}
    (formed : context.Forms settings shape) :
    Interned settings context shape (context.intern shape).1 (context.intern shape).2 := by
  unfold intern
  cases found : context.findType? shape with
  | some type =>
      exact
        { changes := .refl
          known := findType?_eq_some found
          tagged := rfl
          frame := rfl
          kept := fun _ _ known => known }
  | none =>
      exact
        { changes := .single (.type shape found formed)
          known := by simp [shape?, typeId]
          tagged := rfl
          frame := rfl
          kept := fun _ _ known => shape?_push known }

end TypedIR
