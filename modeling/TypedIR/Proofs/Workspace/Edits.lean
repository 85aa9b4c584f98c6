import TypedIR.Proofs.Context.Instructions
import TypedIR.Proofs.Context.Operations
import TypedIR.Workspace.Command

/-!
Contract: what an edit does to its home when it succeeds.

Owns:
- the handles that an edit is given, and what it is about;
- one statement for all edits: the handles are live in the home, and the home
  changes by elementary changes.
-/

namespace TypedIR

namespace Edit

/-- Only a rename touches a name. -/
def effect : Edit → Effect
  | .rename value _ => .rename value.index
  | _ => .plain

/-- The handles that the edit is given. -/
def handles : Edit → List Handle
  | .setModuleName context _ => [.context context]
  | .voidType context => [.context context]
  | .labelType context => [.context context]
  | .integerType context _ => [.context context]
  | .arrayType element _ => [.type element]
  | .structType context fields _ => .context context :: fields.map .type
  | .signatureType result parameters _ => .type result :: parameters.map .type
  | .integerConstant type _ => [.type type]
  | .arrayConstant element values => .type element :: values.map .value
  | .bytesConstant context _ _ => [.context context]
  | .structConstant context values _ => .context context :: values.map .value
  | .undefined type => [.type type]
  | .declare context _ signature => [.context context, .type signature]
  | .rename value _ => [.value value]
  | .appendBlock function _ => [.function function]
  | .setPersonality function personality => [.function function, .function personality]
  | .clearPersonality function => [.function function]
  | .setCollector function _ => [.function function]
  | .deleteFunction function => [.function function]
  | .addAttribute function _ _ => [.function function]
  | .addTargetAttribute function _ _ => [.function function]
  | .removeAttribute function _ _ => [.function function]
  | .setAlignment value _ => [.value value]
  | .binary block _ left right _ => [.block block, .value left, .value right]
  | .compare block _ left right _ => [.block block, .value left, .value right]
  | .select block condition thenValue elseValue _ =>
      [.block block, .value condition, .value thenValue, .value elseValue]
  | .call block callee arguments _ =>
      .block block :: .function callee :: arguments.map .value
  | .ret block value => .block block :: value.toList.map .value
  | .branch block target => [.block block, .block target]
  | .condBranch block condition thenBlock elseBlock =>
      [.block block, .value condition, .block thenBlock, .block elseBlock]
  | .unreachable block => [.block block]

theorem effect_isEdit (edit : Edit) : edit.effect.IsEdit := by
  cases edit <;> exact fun _ equal => by cases equal

end Edit

/-! ### Results of operations -/

namespace Operation

variable {α β : Type} {home : ContextId} {context after : Context}

theorem map_eq_ok {view : α → β} {operation : Operation α} {answer : β} :
    ((operation.map view).effect context).1 = .ok (answer, after) ↔
      ∃ value, (operation.effect context).1 = .ok (value, after) ∧ view value = answer := by
  show (operation.effect context).1.map _ = _ ↔ _
  cases (operation.effect context).1 with
  | error fault => simp [Except.map]
  | ok result =>
      obtain ⟨value, changed⟩ := result
      simp [Except.map, and_comm]

theorem map_eq_error {view : α → β} {operation : Operation α} {fault : Fault} :
    ((operation.map view).effect context).1 = .error fault ↔
      (operation.effect context).1 = .error fault := by
  show (operation.effect context).1.map _ = _ ↔ _
  cases (operation.effect context).1 <;> simp [Except.map]

theorem reported_effect {apply : Context → Except Fault (α × Context)}
    {report : Context → α → List Event} :
    ((reported home apply report).effect context).1 = apply context := rfl

/-! What a successful operation did in its home, whatever was refused ahead of it, whatever it
reports, and however its result is seen. -/

variable {view : α → β} {answer : β} {apply : Context → Except Fault (α × Context)}

theorem reported_done {report : Context → α → List Event}
    (done : (((reported home apply report).map view).effect context).1 = .ok (answer, after)) :
    ∃ value, apply context = .ok (value, after) := by
  obtain ⟨value, applied, _⟩ := map_eq_ok.mp done
  rw [reported_effect] at applied
  exact ⟨value, applied⟩

theorem quiet_done
    (done : (((quiet home apply).map view).effect context).1 = .ok (answer, after)) :
    ∃ value, apply context = .ok (value, after) :=
  reported_done done

theorem guarded_effect {operation : Operation α} {screen : Except Fault Unit} :
    (operation.guarded screen).effect = operation.effect := rfl

theorem guarded_done {operation : Operation α} {screen : Except Fault Unit}
    (done : (((operation.guarded screen).map view).effect context).1 = .ok (answer, after)) :
    ((operation.map view).effect context).1 = .ok (answer, after) := done

end Operation

/-! ### Every edit -/

/-- A successful edit changes the context that it runs in by elementary changes. In its home, it was
given live handles only. -/
theorem Edit.operation_done {settings : Settings} {edit : Edit} {context after : Context}
    {answer : Answer} (done : ((edit.operation settings).effect context).1 = .ok (answer, after)) :
    (context.id = (edit.operation settings).home → ∀ handle ∈ edit.handles, context.Live handle) ∧
      Changes settings edit.effect context after := by
  cases edit with
  | setModuleName target name =>
      obtain ⟨_, applied⟩ := Operation.quiet_done done
      obtain ⟨_, rfl⟩ := Prod.mk.inj (Except.ok.inj applied)
      exact ⟨fun home => List.forall_mem_singleton.mpr home.symm, .single (.moduleName name)⟩
  | voidType target =>
      obtain ⟨type, applied⟩ := Operation.quiet_done done
      obtain ⟨_, rfl⟩ := Prod.mk.inj (Except.ok.inj applied)
      have formed : context.Forms settings .void := trivial
      exact ⟨fun home => List.forall_mem_singleton.mpr home.symm,
        (Context.intern_interned formed).changes⟩
  | labelType target =>
      obtain ⟨type, applied⟩ := Operation.quiet_done done
      obtain ⟨_, rfl⟩ := Prod.mk.inj (Except.ok.inj applied)
      have formed : context.Forms settings .label := trivial
      exact ⟨fun home => List.forall_mem_singleton.mpr home.symm,
        (Context.intern_interned formed).changes⟩
  | integerType target bits =>
      obtain ⟨type, applied⟩ := Operation.quiet_done (Operation.guarded_done done)
      exact ⟨fun home => List.forall_mem_singleton.mpr home.symm,
        (Context.integerType_ok applied).changes⟩
  | arrayType element length =>
      obtain ⟨type, applied⟩ := Operation.quiet_done done
      obtain ⟨live, _, interned⟩ := Context.arrayType_ok settings applied
      exact ⟨fun _ => List.forall_mem_singleton.mpr live, interned.changes⟩
  | structType target fields packed =>
      obtain ⟨type, applied⟩ := Operation.quiet_done (Operation.guarded_done done)
      obtain ⟨sized, interned⟩ := Context.structType_ok settings applied
      have fieldsLive := List.forall_mem_map.mpr fun field member => (sized field member).1
      exact ⟨fun home => List.forall_mem_cons.mpr ⟨home.symm, fieldsLive⟩, interned.changes⟩
  | signatureType result parameters variadic =>
      obtain ⟨type, applied⟩ := Operation.quiet_done done
      obtain ⟨live, sized, interned⟩ := Context.signatureType_ok applied
      have parametersLive := List.forall_mem_map.mpr sized
      exact ⟨fun _ => List.forall_mem_cons.mpr ⟨live, parametersLive⟩, interned.changes⟩
  | integerConstant type number =>
      obtain ⟨value, applied⟩ := Operation.reported_done done
      obtain ⟨live, changes⟩ := Context.integerConstant_ok applied
      exact ⟨fun _ => List.forall_mem_singleton.mpr live, changes⟩
  | arrayConstant element values =>
      obtain ⟨value, applied⟩ := Operation.reported_done (Operation.guarded_done done)
      obtain ⟨live, partsLive, changes⟩ := Context.arrayConstant_ok applied
      exact ⟨fun _ => List.forall_mem_cons.mpr ⟨live, List.forall_mem_map.mpr partsLive⟩, changes⟩
  | bytesConstant target content terminated =>
      obtain ⟨value, applied⟩ := Operation.reported_done (Operation.guarded_done done)
      exact ⟨fun home => List.forall_mem_singleton.mpr home.symm, Context.bytesConstant_ok applied⟩
  | structConstant target values packed =>
      obtain ⟨value, applied⟩ := Operation.reported_done (Operation.guarded_done done)
      obtain ⟨partsLive, changes⟩ := Context.structConstant_ok applied
      exact ⟨fun home => List.forall_mem_cons.mpr ⟨home.symm, List.forall_mem_map.mpr partsLive⟩,
        changes⟩
  | undefined type =>
      obtain ⟨value, applied⟩ := Operation.reported_done done
      obtain ⟨live, changes⟩ := Context.undefined_ok applied
      exact ⟨fun _ => List.forall_mem_singleton.mpr live, changes⟩
  | declare target name signature =>
      obtain ⟨function, applied⟩ := Operation.reported_done (Operation.guarded_done done)
      obtain ⟨live, changes⟩ := Context.declare_ok applied
      exact ⟨fun home => List.forall_mem_cons.mpr ⟨home.symm, List.forall_mem_singleton.mpr live⟩,
        changes⟩
  | rename value name =>
      obtain ⟨_, applied⟩ := Operation.reported_done done
      obtain ⟨live, changes⟩ := Context.rename_ok applied
      exact ⟨fun _ => List.forall_mem_singleton.mpr live, changes⟩
  | appendBlock function name =>
      obtain ⟨block, applied⟩ := Operation.reported_done done
      obtain ⟨live, changes⟩ := Context.appendBlock_ok applied
      exact ⟨fun _ => List.forall_mem_singleton.mpr live, changes⟩
  | setPersonality function personality =>
      obtain ⟨_, applied⟩ := Operation.quiet_done (Operation.guarded_done done)
      obtain ⟨live, otherLive, changes⟩ := Context.setPersonality_ok applied
      exact ⟨fun _ => List.forall_mem_cons.mpr ⟨live, List.forall_mem_singleton.mpr otherLive⟩,
        changes⟩
  | clearPersonality function =>
      obtain ⟨_, applied⟩ := Operation.quiet_done done
      obtain ⟨live, changes⟩ := Context.clearPersonality_ok applied
      exact ⟨fun _ => List.forall_mem_singleton.mpr live, changes⟩
  | setCollector function strategy =>
      obtain ⟨_, applied⟩ := Operation.quiet_done done
      obtain ⟨live, changes⟩ := Context.setCollector_ok applied
      exact ⟨fun _ => List.forall_mem_singleton.mpr live, changes⟩
  | deleteFunction function =>
      obtain ⟨_, applied⟩ := Operation.reported_done done
      obtain ⟨live, changes⟩ := Context.deleteFunction_ok applied
      exact ⟨fun _ => List.forall_mem_singleton.mpr live, changes⟩
  | addAttribute function site added =>
      obtain ⟨_, applied⟩ := Operation.reported_done done
      obtain ⟨live, changes⟩ := Context.addAttribute_ok applied
      exact ⟨fun _ => List.forall_mem_singleton.mpr live, changes⟩
  | addTargetAttribute function key content =>
      obtain ⟨_, applied⟩ := Operation.reported_done done
      obtain ⟨live, changes⟩ := Context.addAttribute_ok applied
      exact ⟨fun _ => List.forall_mem_singleton.mpr live, changes⟩
  | removeAttribute function site key =>
      obtain ⟨_, applied⟩ := Operation.quiet_done done
      obtain ⟨live, changes⟩ := Context.removeAttribute_ok applied
      exact ⟨fun _ => List.forall_mem_singleton.mpr live, changes⟩
  | setAlignment value align =>
      obtain ⟨_, applied⟩ := Operation.reported_done done
      obtain ⟨live, changes⟩ := Context.setAlignment_ok applied
      exact ⟨fun _ => List.forall_mem_singleton.mpr live, changes⟩
  | binary block operator left right name =>
      obtain ⟨value, applied⟩ := Operation.reported_done done
      obtain ⟨blockLive, leftLive, rightLive, changes⟩ := Context.binary_ok applied
      exact ⟨fun _ => by simp [handles, blockLive, leftLive, rightLive], changes⟩
  | compare block predicate left right name =>
      obtain ⟨value, applied⟩ := Operation.reported_done done
      obtain ⟨blockLive, leftLive, rightLive, changes⟩ := Context.compare_ok applied
      exact ⟨fun _ => by simp [handles, blockLive, leftLive, rightLive], changes⟩
  | select block condition thenValue elseValue name =>
      obtain ⟨value, applied⟩ := Operation.reported_done done
      obtain ⟨blockLive, conditionLive, thenLive, elseLive, changes⟩ :=
        Context.select_ok applied
      refine ⟨fun _ => ?_, changes⟩
      simp [handles, blockLive, conditionLive, thenLive, elseLive]
  | call block callee arguments name =>
      obtain ⟨value, applied⟩ := Operation.reported_done done
      obtain ⟨blockLive, calleeLive, argumentsLive, changes⟩ := Context.call_ok applied
      refine ⟨fun _ => List.forall_mem_cons.mpr ⟨blockLive, ?_⟩, changes⟩
      exact List.forall_mem_cons.mpr ⟨calleeLive, List.forall_mem_map.mpr argumentsLive⟩
  | ret block returned =>
      obtain ⟨value, applied⟩ := Operation.reported_done done
      obtain ⟨blockLive, returnedLive, changes⟩ := Context.ret_ok applied
      refine ⟨fun _ => List.forall_mem_cons.mpr ⟨blockLive, List.forall_mem_map.mpr ?_⟩, changes⟩
      exact fun other member => returnedLive other (Option.mem_toList.mp member)
  | branch block target =>
      obtain ⟨value, applied⟩ := Operation.reported_done done
      obtain ⟨blockLive, targetLive, changes⟩ := Context.branch_ok applied
      exact ⟨fun _ => by simp [handles, blockLive, targetLive], changes⟩
  | condBranch block condition thenBlock elseBlock =>
      obtain ⟨value, applied⟩ := Operation.reported_done done
      obtain ⟨blockLive, conditionLive, thenLive, elseLive, changes⟩ :=
        Context.condBranch_ok applied
      refine ⟨fun _ => ?_, changes⟩
      simp [handles, blockLive, conditionLive, thenLive, elseLive]
  | unreachable block =>
      obtain ⟨value, applied⟩ := Operation.reported_done done
      obtain ⟨blockLive, changes⟩ := Context.unreachable_ok applied
      exact ⟨fun _ => List.forall_mem_singleton.mpr blockLive, changes⟩

/-- A successful edit was given live handles of its home only, and changes the home by elementary
changes. -/
theorem Edit.operation_ok {settings : Settings} {edit : Edit} {context after : Context}
    {answer : Answer} (home : context.id = (edit.operation settings).home)
    (done : ((edit.operation settings).effect context).1 = .ok (answer, after)) :
    (∀ handle ∈ edit.handles, context.Live handle) ∧
      Changes settings edit.effect context after :=
  ⟨(Edit.operation_done done).1 home, (Edit.operation_done done).2⟩

end TypedIR
