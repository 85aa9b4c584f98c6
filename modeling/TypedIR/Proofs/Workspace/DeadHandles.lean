import TypedIR.Proofs.Workspace.Atomicity
import TypedIR.Proofs.Workspace.Commands

/-!
Contract: nothing can be done with a dead handle, ever again.

Owns:
- the refusal of a handle by every command, query and verification, none of which
  changes anything;
- the report of a released context, by all of them that are given nothing else;
- dead handles of destroyed contexts and deleted functions after any later commands,
  and identities of contexts, which are given out once.
-/

namespace TypedIR

namespace Workspace

variable {initial : ReferenceState} {workspace : Workspace ReferenceState} {handle : Handle}

/-- The action is refused and changes nothing. -/
def Rejects {α : Type} (workspace : Workspace ReferenceState) (action : Action ReferenceState α) :
    Prop :=
  ∃ fault, (action workspace).result = .error fault ∧ (action workspace).workspace = workspace

/-- Whatever is given the handle is refused and changes nothing. -/
structure Refuses (workspace : Workspace ReferenceState) (handle : Handle) : Prop where
  commands : ∀ command : Command, handle ∈ command.handles →
    workspace.Rejects (command.run Engine.reference)
  queries : ∀ query : Query, query.handle = handle →
    ∃ fault, query.answer workspace.store = .error fault
  verifyOrAbort : ∀ function, handle = .function function →
    workspace.Rejects (Action.verifyOrAbort Engine.reference function)
  verifyModuleOrAbort : ∀ context, handle = .context context →
    workspace.Rejects (Action.verifyModuleOrAbort Engine.reference context)

/-- Whatever is given handles of the context only, and other arguments in range, reports that the
context is released. -/
structure Reports (workspace : Workspace ReferenceState) (id : ContextId) : Prop where
  commands : ∀ command : Command, command.handles ≠ [] →
    (∀ handle ∈ command.handles, handle.tag = id) →
    command.Admissible workspace.store.settings →
    (command.run Engine.reference workspace).result = .error (.released (.context id))
  queries : ∀ query : Query, query.handle.tag = id →
    query.answer workspace.store = .error (.released (.context id))
  verifyOrAbort : ∀ function : FunctionId, function.context = id →
    (Action.verifyOrAbort Engine.reference function workspace).result =
      .error (.released (.context id))
  verifyModuleOrAbort :
    (Action.verifyModuleOrAbort Engine.reference id workspace).result =
      .error (.released (.context id))

theorem reports_of_gone {id : ContextId} (gone : workspace.store.context? id = none) :
    workspace.Reports id where
  commands := fun _ => Command.run_released gone
  queries := by
    rintro query rfl
    exact Query.answer_released gone
  verifyOrAbort := by
    rintro function rfl
    exact Action.verifyOrAbort_released gone
  verifyModuleOrAbort := Action.verifyModuleOrAbort_released gone

/-! ### Refusals -/

/-- A command that is given a dead handle changes nothing: verdicts are recorded only for
functions of a live context. -/
theorem after_of_dead (reachable : Reachable Engine.reference initial workspace)
    (dead : workspace.store.Dead handle) {command : Command} (given : handle ∈ command.handles)
    {fault : Fault} (refused : (command.run Engine.reference workspace).result = .error fault) :
    workspace.after Engine.reference command = workspace := by
  rcases after_refused reachable refused with unchanged | ⟨id, _, rfl, _, recorded⟩
  · exact unchanged
  · obtain rfl := List.mem_singleton.mp given
    obtain ⟨context, _, found, _⟩ := recorded.store
    exact absurd (reachable.live_context found) dead.not_live

theorem Reachable.refuses (reachable : Reachable Engine.reference initial workspace)
    (dead : workspace.store.Dead handle) : workspace.Refuses handle where
  commands := by
    intro command given
    cases done : (command.run Engine.reference workspace).result with
    | ok answer => exact absurd (reachable.live_of_run done handle given) dead.not_live
    | error fault => exact ⟨fault, done, after_of_dead reachable dead given done⟩
  queries := by
    rintro query rfl
    cases done : query.answer workspace.store with
    | ok fact => exact absurd (reachable.live_of_answer done) dead.not_live
    | error fault => exact ⟨fault, rfl⟩
  verifyOrAbort := by
    rintro function rfl
    cases done : (Action.verifyOrAbort Engine.reference function workspace).result with
    | ok outcome => exact absurd (live_of_verifyOrAbort done) dead.not_live
    | error fault => exact ⟨fault, done, verifyOrAbort_refused done⟩
  verifyModuleOrAbort := by
    rintro context rfl
    cases done : (Action.verifyModuleOrAbort Engine.reference context workspace).result with
    | ok outcome => exact absurd (reachable.live_of_verifyModuleOrAbort done) dead.not_live
    | error fault => exact ⟨fault, done, verifyModuleOrAbort_refused reachable done⟩

/-! ### Any later commands -/

theorem dead_handles_stay_dead (reachable : Reachable Engine.reference initial workspace) :
    (∀ id answer,
      ((Command.destroyContext id).run Engine.reference workspace).result = .ok answer →
        ∀ commands, let last := workspace.afterAll Engine.reference (.destroyContext id :: commands)
          last.store.isAlive id = false ∧
            (∀ handle : Handle, handle.tag = id → last.Refuses handle) ∧ last.Reports id) ∧
      (∀ function answer,
        ((Command.edit (.deleteFunction function)).run Engine.reference workspace).result =
            .ok answer →
          ∃ context entry, workspace.store.context? function.context = some context ∧
            context.function? function.index = some entry ∧
            Handle.function function ∈ context.belongings entry ∧
            ∀ handle ∈ context.belongings entry, ∀ commands,
              (workspace.afterAll Engine.reference
                (.edit (.deleteFunction function) :: commands)).Refuses handle) ∧
      ∀ first second commands id other,
        ((Command.createContext first).run Engine.reference workspace).result =
            .ok (.handle (.context id)) →
          ((Command.createContext second).run Engine.reference
            (workspace.afterAll Engine.reference (.createContext first :: commands))).result =
              .ok (.handle (.context other)) →
            id ≠ other := by
  refine ⟨?_, ?_, ?_⟩
  · intro id answer done commands
    have later := reachable.after_command (.destroyContext id)
    have last := later.after_commands commands
    have dead : ∀ handle : Handle, handle.tag = id →
        (workspace.afterAll Engine.reference (.destroyContext id :: commands)).store.Dead handle :=
      fun handle tagged => later.dead_afterAll (reachable.dead_of_destroyed done tagged) commands
    have gone := last.gone_of_dead (dead (.context id) rfl)
    refine ⟨?_, fun handle tagged => last.refuses (dead handle tagged), reports_of_gone gone⟩
    exact congrArg Option.isSome gone
  · intro function answer done
    obtain ⟨context, entry, found, lookup, own, dead⟩ := reachable.dead_of_deleted done
    refine ⟨context, entry, found, lookup, own, ?_⟩
    intro handle belongs commands
    have later := reachable.after_command (.edit (.deleteFunction function))
    exact (later.after_commands commands).refuses
      (later.dead_afterAll (dead handle belongs) commands)
  · intro first second commands id other done doneLater
    exact reachable.created_apart done doneLater

/-- The sample's context is destroyed, and its slot is used again for a context with a function in
the same place: the old handle of that place is refused, though the new one is not. Instead, the
sample's function is deleted, and another one gets its name: its second block is refused. -/
theorem sampleRun_dead_handles :
    let workspace := afterAll Engine.reference (start .standard .start) sampleRun
    let creation : List Command := [.createContext "next", .edit (.voidType ⟨0, 1⟩),
      .edit (.signatureType ⟨⟨0, 1⟩, 0⟩ [] false), .edit (.declare ⟨0, 1⟩ "f" ⟨⟨0, 1⟩, 1⟩)]
    let reused := workspace.afterAll Engine.reference (.destroyContext ⟨0, 0⟩ :: creation)
    let renewed := workspace.afterAll Engine.reference [.edit (.deleteFunction ⟨⟨0, 0⟩, 0⟩),
      .edit (.declare ⟨0, 0⟩ "f" ⟨⟨0, 0⟩, 1⟩)]
    ((Query.functionName ⟨⟨0, 1⟩, 0⟩).answer reused.store = .ok (.text "f") ∧
      reused.store.isAlive ⟨0, 0⟩ = false ∧
      (Query.functionName ⟨⟨0, 0⟩, 0⟩).answer reused.store = .error (.released (.context ⟨0, 0⟩)) ∧
      reused.Refuses (.function ⟨⟨0, 0⟩, 0⟩)) ∧
      (Query.functionName ⟨⟨0, 0⟩, 5⟩).answer renewed.store = .ok (.text "f") ∧
      renewed.Refuses (.block ⟨⟨0, 0⟩, 1⟩) := by
  intro workspace creation reused renewed
  have stays := dead_handles_stay_dead (⟨.standard, sampleRun, rfl⟩ :
    Reachable Engine.reference .start workspace)
  constructor
  · have destroyed : ((Command.destroyContext ⟨0, 0⟩).run Engine.reference workspace).result =
        .ok .done := by decide +kernel
    have named : (Query.functionName ⟨⟨0, 1⟩, 0⟩).answer reused.store = .ok (.text "f") := by
      decide +kernel
    have dead := stays.1 ⟨0, 0⟩ .done destroyed creation
    exact ⟨named, dead.1, dead.2.2.queries _ rfl, dead.2.1 _ rfl⟩
  · have deleted : ((Command.edit (.deleteFunction ⟨⟨0, 0⟩, 0⟩)).run Engine.reference
        workspace).result = .ok .done := by decide +kernel
    have named : (Query.functionName ⟨⟨0, 0⟩, 5⟩).answer renewed.store = .ok (.text "f") := by
      decide +kernel
    have belongs : (workspace.store.context? ⟨0, 0⟩).map (fun context =>
        (context.function? 0).map fun entry =>
          decide (Handle.block ⟨⟨0, 0⟩, 1⟩ ∈ context.belongings entry)) = some (some true) := by
      decide +kernel
    obtain ⟨context, entry, found, lookup, _, dead⟩ := stays.2.1 ⟨⟨0, 0⟩, 0⟩ .done deleted
    rw [found, Option.map_some, lookup, Option.map_some] at belongs
    have member := of_decide_eq_true (Option.some.inj (Option.some.inj belongs))
    exact ⟨named, dead _ member _⟩

end Workspace

end TypedIR
