import TypedIR.Arena.Values
import TypedIR.Proofs.Arena.Transactions
import TypedIR.Proofs.Context.Operations
import TypedIR.Proofs.Ownership.Integers

/-!
Contract: types and constants made in place.

Owns:
- each constructor of types, which interns behind its checks;
- each constructor of constants, which stores a value, and before that a type if it needs one of
  its own.

Numbers are narrowed by two shifts in place, and to a residue otherwise.
-/

namespace TypedIR

/-! ### Handles of one context -/

theorem eq_map_typeId {context : Context} {types : List TypeId}
    (home : ∀ type ∈ types, type.context = context.id) :
    types = (types.map (·.index)).map (TypeId.mk context.id) := by
  rw [List.map_map]
  refine (List.map_id types).symm.trans (List.map_congr_left fun type listed => ?_)
  rw [Function.comp_apply, ← home type listed]
  rfl

theorem eq_map_valueId {context : Context} {values : List ValueId}
    (home : ∀ value ∈ values, value.context = context.id) :
    values = (values.map (·.index)).map (ValueId.mk context.id) := by
  rw [List.map_map]
  refine (List.map_id values).symm.trans (List.map_congr_left fun value listed => ?_)
  rw [Function.comp_apply, ← home value listed]
  rfl

theorem mapM_map_result {α β γ : Type} {action : α → Except Fault β} {view : β → γ}
    {items : List α} :
    (items.mapM fun item => (action item).map view) = (items.mapM action).map (List.map view) := by
  induction items with
  | nil => rfl
  | cons first rest inductionHypothesis =>
      rw [List.mapM_cons, List.mapM_cons, inductionHypothesis]
      cases action first with
      | error fault => rfl
      | ok value => cases rest.mapM action <;> rfl

/-- The two shifts leave the residue of a number. -/
theorem narrowed_eq {bits : UInt32} (positive : 0 < bits) (number : Int64) :
    Arena.narrowed bits number = truncate bits number := by
  unfold Arena.narrowed
  by_cases wide : 64 ≤ bits
  · rw [if_pos wide, truncate_of_wide wide]
  · rw [if_neg wide, truncate_eq_shifts positive (UInt32.not_le.mp wide)]

open InPlace

namespace Store.Holds

variable {store : Store} {context : Context} (holds : store.Holds context)

include holds

/-! ### Types -/

theorem integerType (bits : UInt32) : (Arena.integerType context.id bits).Realizes
    (context.integerType store.settings bits) store context := by
  apply realizes_check rfl
  intro _ _
  exact (holds.intern (.integer bits)).realizes

theorem arrayType (element : TypeRef) (length : UInt32) :
    (Arena.arrayType (context.typeId element) length).Realizes
      (context.arrayType (context.typeId element) length) store context := by
  apply realizes_check (holds.requireSized _)
  intro _ _
  exact (holds.intern (.array element length)).realizes

theorem requireSizedEach (types : List TypeId) :
    types.forM (store.arena.requireSized context.id) = types.forM context.requireSized :=
  congrArg (List.forM types) (funext holds.requireSized)

theorem structType (fields : List TypeId) (packed : Bool) :
    (Arena.structType context.id fields packed).Realizes (context.structType fields packed) store
      context := by
  apply realizes_check (holds.requireSizedEach fields)
  intro _ sized
  have home := fun field listed => (Context.forM_requireSized_eq_ok.mp sized field listed).1
  have interned := holds.intern (.struct (fields.map (·.index)) packed)
  rw [TypeShape.tagged, ← eq_map_typeId home] at interned
  exact interned.realizes

theorem signatureType (result : TypeRef) (parameters : List TypeId) (variadic : Bool) :
    (Arena.signatureType (context.typeId result) parameters variadic).Realizes
      (context.signatureType (context.typeId result) parameters variadic) store context := by
  apply realizes_read (holds.typeIn _)
  intro shape _
  rw [TypeShape.isSized_tagged, TypeShape.isVoid_tagged]
  apply realizes_ite
  · intro _
    apply realizes_check (holds.requireSizedEach parameters)
    intro _ sized
    have home := fun type listed => (Context.forM_requireSized_eq_ok.mp sized type listed).1
    have interned := holds.intern (.function result (parameters.map (·.index)) variadic)
    rw [TypeShape.tagged, ← eq_map_typeId home] at interned
    exact interned.realizes
  · intro _
    exact realizes_throw (congrArg _ (holds.typeExpectation rfl))

/-! ### Constants -/

section Constants

variable {settings : Settings} (inside : context.FunctionsInside)

include inside

/-- A constant of a type that was just interned. -/
theorem pushInterned {shape : TypeShape} {type : TypeId} {middle : Context}
    (typed : Interned settings context shape type middle) (kind : ValueKind) :
    (Arena.pushConstant context.id type (kind.tagged context.id)).Completes
      (middle.pushConstant type kind) (store.put context.id.index middle) middle := by
  have same := typed.changes.id_eq
  have tag : type = middle.typeId type.index := by
    rw [Context.typeId, same, ← typed.tagged]
  have stays : middle.FunctionsInside := by
    rw [typed.frame]
    exact inside
  have pushed := (holds.put same).pushConstant stays type.index kind
  rw [← tag, same] at pushed
  exact pushed

theorem integerConstant (canonical : context.Canonical settings) (type : TypeRef)
    (number : Int64) : (Arena.integerConstant (context.typeId type) number).Realizes
      (context.integerConstant (context.typeId type) number) store context := by
  apply realizes_read (holds.typeKind rfl)
  intro shape known
  have formed := canonical.formed type shape (Context.resolveType_eq_ok.mp known).2
  cases shape with
  | integer bits =>
      have positive := (Settings.checkWidth_eq_ok.mp formed).1
      have pushed := holds.pushConstant inside type (.integer (truncate bits number))
      have narrow : (ValueKind.integer (truncate bits number)).tagged context.id =
          .integer (Arena.narrowed bits number) := by
        rw [narrowed_eq positive]
        rfl
      rw [narrow] at pushed
      exact pushed.realizes
  | _ => exact realizes_throw (congrArg _ (holds.typeExpectation rfl))

theorem undefined (type : TypeRef) : (Arena.undefined (context.typeId type)).Realizes
    (context.undefined (context.typeId type)) store context := by
  have unfolded : context.undefined (context.typeId type) =
      (context.resolveType (context.typeId type) >>= fun shape =>
        if shape.isSized then pure (context.pushConstant (context.typeId type) .undefined)
        else throw (.mismatch .sized (context.typeExpectation type))) := by
    unfold Context.undefined Context.requireSized
    cases context.resolveType (context.typeId type) with
    | error fault => rfl
    | ok shape =>
        rw [ok_bind, ok_bind]
        cases shape.isSized <;> rfl
  rw [unfolded]
  apply realizes_read (holds.typeKind rfl)
  intro shape _
  rw [TypeShape.isSized_tagged]
  apply realizes_ite
  · intro _
    exact (holds.pushConstant inside type .undefined).realizes
  · intro _
    exact realizes_throw (congrArg _ (holds.typeExpectation rfl))

theorem arrayConstant (element : TypeRef) (values : List ValueId) :
    (Arena.arrayConstant (context.typeId element) values).Realizes
      (context.arrayConstant (context.typeId element) values) store context := by
  apply realizes_check rfl
  intro length _
  apply realizes_read (holds.typeKind rfl)
  intro _ _
  have checked : values.forM (store.arena.requireConstantOf context.id (context.typeId element)) =
      values.forM (context.requireConstantOf (context.typeId element)) :=
    congrArg (List.forM values) (funext (holds.requireConstantOf element))
  apply realizes_check checked
  intro _ constants
  have home : ∀ value ∈ values, value.context = context.id := fun value listed =>
    (Context.requireConstantOf_eq_ok.mp (forM_eq_ok.mp constants value listed)).1
  apply (holds.arrayType element length).bind
  rintro ⟨type, middle⟩ interned
  have typed := (Context.arrayType_ok .standard interned).2.2
  have pushed := holds.pushInterned inside typed (.array (values.map (·.index)))
  rw [ValueKind.tagged, ← eq_map_valueId home] at pushed
  exact ⟨typed.changes.id_eq, _, rfl, pushed⟩

theorem structConstant (values : List ValueId) (packed : Bool) :
    (Arena.structConstant context.id values packed).Realizes
      (context.structConstant values packed) store context := by
  have checked : values.mapM (store.arena.requireConstant context.id) =
      (values.mapM context.requireConstant).map (List.map (Value.tagged context.id)) := by
    rw [← mapM_map_result]
    exact congrArg (List.mapM · values) (funext holds.requireConstant)
  apply realizes_read checked
  intro entries constants
  have parts : List.Forall₂ (fun value entry => value.context = context.id ∧
      context.requireConstant value = .ok entry) values entries :=
    (mapM_eq_ok.mp constants).imp fun _ _ done =>
      ⟨(Context.requireConstant_eq_ok.mp done).1, done⟩
  have home : ∀ value ∈ values, value.context = context.id :=
    ((List.forall₂_and_left _ _).mp parts).1
  have types : (entries.map (Value.tagged context.id)).map (fun entry => entry.type) =
      entries.map fun entry => context.typeId entry.type := List.map_map
  rw [types]
  apply (holds.structType _ packed).bind
  rintro ⟨type, middle⟩ interned
  have typed := (Context.structType_ok .standard interned).2
  have pushed := holds.pushInterned inside typed (.struct (values.map (·.index)))
  rw [ValueKind.tagged, ← eq_map_valueId home] at pushed
  exact ⟨typed.changes.id_eq, _, rfl, pushed⟩

/-- The byte type that was just interned is there, and sized. -/
theorem bytesConstant (content : List UInt8) (terminated : Bool) :
    (Arena.bytesConstant context.id content terminated).Realizes
      (context.bytesConstant store.settings content terminated) store context := by
  have counted : (if terminated then content ++ [0] else content).length =
      content.length + if terminated then 1 else 0 := by
    cases terminated <;> simp
  have unfolded : context.bytesConstant store.settings content terminated =
      (lengthOf (content.length + if terminated then 1 else 0) >>= fun length =>
        context.integerType store.settings 8 >>= fun byte =>
          byte.2.arrayType byte.1 length >>= fun array =>
            pure (array.2.pushConstant array.1
              (.bytes (if terminated then content ++ [0] else content)))) := by
    rw [← counted]
    rfl
  rw [unfolded]
  apply realizes_check rfl
  intro length _
  apply (holds.integerType 8).bind
  rintro ⟨byte, middle⟩ interned
  have typed := Context.integerType_ok interned
  have same : middle.id = context.id := typed.changes.id_eq
  have tag : byte = middle.typeId byte.index := by
    rw [Context.typeId, same, ← typed.tagged]
  have sized : middle.requireSized byte = .ok () :=
    Context.requireSized_eq_ok.mpr ⟨typed.tagged.trans same.symm, .integer 8, typed.known, rfl⟩
  obtain ⟨⟨type, last⟩, done⟩ : ∃ result, middle.arrayType byte length = .ok result := by
    rw [Context.arrayType, sized]
    exact ⟨_, rfl⟩
  have array := (Context.arrayType_ok store.settings done).2.2
  have stays : middle.FunctionsInside := by
    rw [typed.frame]
    exact inside
  have later := holds.put same
  have written := later.arrayType byte.index length
  rw [← tag] at written
  have pushed := later.pushInterned stays array
    (.bytes (if terminated then content ++ [0] else content))
  have place : Arena.pushConstant context.id = Arena.pushConstant middle.id := by rw [same]
  rw [place, done]
  exact ⟨same, _, rfl, (written.completes done array.changes.id_eq).bind pushed⟩

end Constants

end Store.Holds

end TypedIR
