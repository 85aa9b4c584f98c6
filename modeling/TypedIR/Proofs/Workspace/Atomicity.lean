import TypedIR.Proofs.Print.Total
import TypedIR.Proofs.Workspace.Records
import TypedIR.Proofs.Workspace.Types
import TypedIR.Workspace.Abort

/-!
Contract: refused commands leave the workspace as it was.

Owns:
- verification of a module, which is not refused once it has started, and which
  changes recorded verdicts only;
- the one exception: emission refused for its verdicts, which are recorded by then;
- verification that may abort.

Does not own: the writes that a command is made of.
-/

namespace TypedIR

variable {σ α : Type}

/-! ### Recorded verdicts -/

namespace Context

variable {settings : Settings} {context before after last : Context}

/-- The context without its recorded verdicts. -/
def unrecorded (context : Context) : Context :=
  { context with functions := context.functions.map FunctionEntry.edited }

theorem unrecorded_recordState (function : ValueRef) (state : VerificationState) :
    (context.recordState function state).unrecorded = context.unrecorded := by
  have functions : (context.recordState function state).functions.map FunctionEntry.edited =
      context.functions.map FunctionEntry.edited := by
    unfold recordState updateFunction
    rw [List.map_map]
    apply List.map_congr_left
    intro entry _
    show (if entry.self = function then { entry with state := state } else entry).edited = _
    by_cases same : entry.self = function
    · rw [if_pos same]
      rfl
    · rw [if_neg same]
  rw [unrecorded, functions]
  rfl

end Context

namespace Workspace

variable {initial : ReferenceState} {workspace : Workspace ReferenceState}

/-- At most recorded verdicts on functions of one live context differ. -/
structure SameButVerdicts (id : ContextId) (before after : Workspace ReferenceState) : Prop where
  native : after.native = before.native
  store : ∃ context changed, before.store.context? id = some context ∧
    changed.unrecorded = context.unrecorded ∧ after.store = before.store.put id.index changed

namespace SameButVerdicts

variable {id : ContextId} {before middle after : Workspace ReferenceState}

theorem refl {context : Context} (found : workspace.store.context? id = some context) :
    SameButVerdicts id workspace workspace where
  native := rfl
  store := ⟨context, context, found, rfl, (Store.put_self found).symm⟩

theorem trans (first : SameButVerdicts id before middle)
    (second : SameButVerdicts id middle after) : SameButVerdicts id before after := by
  obtain ⟨context, between, found, firstSame, written⟩ := first.store
  obtain ⟨between', changed, foundAgain, secondSame, writtenAgain⟩ := second.store
  rw [written, Store.context?_put found, if_pos rfl] at foundAgain
  obtain rfl := Option.some.inj foundAgain
  refine ⟨second.native.trans first.native, context, changed, found, secondSame.trans firstSame, ?_⟩
  rw [writtenAgain, written, Store.put_put]

/-- Verification of a live function writes its record. -/
theorem verify {settings : Settings} {function : FunctionId}
    (every : workspace.Every settings Context.Coherent) (live : workspace.Live function) :
    (∃ verdict, (Action.verify Engine.reference function workspace).result = .ok verdict) ∧
      SameButVerdicts function.context workspace
        (Action.verify Engine.reference function workspace).workspace := by
  obtain ⟨context, entry, found, lookup⟩ := live
  obtain ⟨sameId, coherent⟩ := every.contexts _ context found
  obtain ⟨result, recorded⟩ := Action.verify_live found sameId coherent.owned lookup
  rw [recorded, Store.recordState_eq found]
  exact ⟨⟨_, result⟩, rfl, context, _, found, Context.unrecorded_recordState _ _, rfl⟩

end SameButVerdicts

/-- The functions of a live context are verified one after the other, and none of these
verifications is refused. -/
theorem verifyEach_live {settings : Settings} {id : ContextId} {functions : List FunctionId}
    (every : workspace.Every settings Context.Coherent)
    (alive : ∃ context, workspace.store.context? id = some context)
    (homes : ∀ function ∈ functions, function.context = id)
    (live : ∀ function ∈ functions, workspace.Live function) :
    (∃ reasons, (Action.verifyEach Engine.reference functions workspace).result = .ok reasons) ∧
      SameButVerdicts id workspace
        (Action.verifyEach Engine.reference functions workspace).workspace := by
  induction functions generalizing workspace with
  | nil =>
      obtain ⟨context, found⟩ := alive
      exact ⟨⟨[], rfl⟩, .refl found⟩
  | cons first rest inductionHypothesis =>
      have firstLive := live first List.mem_cons_self
      obtain ⟨⟨verdict, result⟩, recorded⟩ := SameButVerdicts.verify every firstLive
      rw [homes first List.mem_cons_self] at recorded
      obtain ⟨context, changed, found, _, written⟩ := recorded.store
      have laterAlive : ∃ context,
          (Action.verify Engine.reference first workspace).workspace.store.context? id =
            some context := by
        rw [written, Store.context?_put found, if_pos rfl]
        exact ⟨changed, rfl⟩
      have later := inductionHypothesis
        (Every.verified (keptBy_coherent Engine.reference settings) first _ every) laterAlive
        (fun other listed => homes other (List.mem_cons_of_mem _ listed))
        (fun other listed => (live other (List.mem_cons_of_mem _ listed)).verify every firstLive)
      obtain ⟨⟨reasons, restResult⟩, restRecorded⟩ := later
      have unfolded : Action.verifyEach Engine.reference (first :: rest) workspace =
          (Action.verify Engine.reference first >>= fun verdict =>
            Action.verifyEach Engine.reference rest >>= fun reasons =>
              pure (verdict.reasons ++ reasons)) workspace := rfl
      rw [unfolded]
      constructor
      · refine ⟨verdict.reasons ++ reasons, ?_⟩
        rw [Action.result_bind result]
        exact (Action.result_bind_pure _ _ _).trans (congrArg _ restResult)
      · rw [Action.workspace_bind result, Action.workspace_bind_quiet fun _ _ => rfl]
        exact recorded.trans restRecorded

/-- Verification of a module is refused if its context is released, and else gives a verdict. -/
theorem verifyModule_cases (reachable : Reachable Engine.reference initial workspace)
    (id : ContextId) :
    ((∃ fault, (Action.verifyModule Engine.reference id workspace).result = .error fault) ∧
        (Action.verifyModule Engine.reference id workspace).workspace = workspace) ∨
      ((∃ verdict, (Action.verifyModule Engine.reference id workspace).result = .ok verdict) ∧
        SameButVerdicts id workspace
          (Action.verifyModule Engine.reference id workspace).workspace) := by
  cases found : workspace.store.context? id with
  | none =>
      have refused : (Action.inspect (Action.functionsOf id) workspace).result =
          .error (.released (.context id)) := by
        show workspace.store.resolve id >>= _ = _
        rw [Store.resolve, found]
        rfl
      left
      exact ⟨⟨_, (Action.bind_of_error refused).1⟩, (Action.bind_of_error refused).2⟩
  | some context =>
      obtain ⟨sameId, coherent⟩ := reachable.coherent found
      have functions : (Action.inspect (Action.functionsOf id) workspace).result =
          .ok (context.functions.map fun entry => context.functionId entry.self) :=
        bind_eq_ok.mpr ⟨context, Store.resolve_eq_ok.mpr found, rfl⟩
      have homes : ∀ function ∈ context.functions.map fun entry => context.functionId entry.self,
          function.context = id := by
        intro function listed
        obtain ⟨entry, _, rfl⟩ := List.mem_map.mp listed
        exact sameId
      have live : ∀ function ∈ context.functions.map fun entry => context.functionId entry.self,
          workspace.Live function := by
        intro function listed
        have home := homes function listed
        obtain ⟨entry, member, rfl⟩ := List.mem_map.mp listed
        exact ⟨context, entry, home ▸ found,
          Context.function?_of_mem coherent.owned.functions.distinct member⟩
      obtain ⟨⟨reasons, result⟩, recorded⟩ :=
        verifyEach_live reachable.every ⟨context, found⟩ homes live
      right
      unfold Action.verifyModule
      constructor
      · refine ⟨.ofReasons reasons, ?_⟩
        rw [Action.result_bind functions]
        exact (Action.result_bind_pure _ _ _).trans (congrArg _ result)
      · rw [Action.workspace_bind functions, Action.workspace_bind_quiet fun _ _ => rfl]
        exact recorded

/-! ### Emission -/

/-- The module of a live context can be written. -/
theorem write_succeeds (reachable : Reachable Engine.reference initial workspace) {id : ContextId}
    {context : Context} (found : workspace.store.context? id = some context) :
    Succeeds (Engine.reference.write workspace.native workspace.store id) := by
  obtain ⟨text, printed⟩ :=
    Context.moduleText_succeeds (reachable.canonical found) (reachable.coherent found).2
  have written : workspace.store.moduleText id = .ok text :=
    bind_eq_ok.mpr ⟨context, Store.resolve_eq_ok.mpr found, printed⟩
  exact ⟨text.toUTF8.toList, bind_eq_ok.mpr ⟨text, written, rfl⟩⟩

/-- Refused emission has changed nothing, or has recorded the verdicts it is refused for. -/
theorem emitModule_refused (reachable : Reachable Engine.reference initial workspace)
    {id : ContextId} {fault : Fault}
    (refused : (Action.emitModule Engine.reference id workspace).result = .error fault) :
    (Action.emitModule Engine.reference id workspace).workspace = workspace ∨
      (∃ reasons, fault = .invalid reasons) ∧ SameButVerdicts id workspace
        (Action.emitModule Engine.reference id workspace).workspace := by
  have settings : (Action.inspect (fun store => .ok store.settings) workspace :
      Outcome ReferenceState Settings).result = .ok workspace.store.settings := rfl
  by_cases verifies : workspace.store.settings.verifyBeforeEmit = true
  · rw [Action.workspace_emitModule verifies]
    unfold Action.emitModule at refused
    rw [Action.result_bind settings, if_pos verifies] at refused
    rcases verifyModule_cases reachable id with ⟨_, unchanged⟩ | ⟨⟨verdict, result⟩, recorded⟩
    · exact .inl unchanged
    · right
      have judged := (Action.result_bind result).symm.trans refused
      cases verdict with
      | invalid reasons => exact ⟨⟨reasons, (Except.error.inj judged).symm⟩, recorded⟩
      | valid =>
          have later := reachable.after_command (.verifyModule id)
          have verified : workspace.after Engine.reference (.verifyModule id) =
              (Action.verifyModule Engine.reference id workspace).workspace :=
            Action.workspace_bind_quiet (fun _ _ => rfl) _
          rw [verified] at later
          obtain ⟨context, changed, found, _, written⟩ := recorded.store
          have laterFound :
              (Action.verifyModule Engine.reference id workspace).workspace.store.context? id =
                some changed := by
            rw [written, Store.context?_put found, if_pos rfl]
          obtain ⟨bytes, done⟩ := write_succeeds later laterFound
          cases judged.symm.trans done
  · left
    unfold Action.emitModule
    rw [Action.workspace_bind settings, if_neg verifies]
    rfl

/-! ### Every command -/

theorem perform_refused {operation : Operation α} {workspace : Workspace σ} {fault : Fault}
    (refused : (Action.perform operation workspace).result = .error fault) :
    (Action.perform operation workspace).workspace = workspace := by
  rcases Action.perform_cases operation workspace with ⟨_, _, unchanged⟩ | performed
  · exact unchanged
  · obtain ⟨_, value, _, _, _, done, _⟩ := performed
    cases refused.symm.trans done

theorem destroyContext_refused {engine : Engine σ} {workspace : Workspace σ} {id : ContextId}
    {fault : Fault} (refused : (Action.destroyContext engine id workspace).result = .error fault) :
    (Action.destroyContext engine id workspace).workspace = workspace := by
  rcases Action.destroyContext_cases engine id workspace with ⟨_, _, unchanged⟩ | destroyed
  · exact unchanged
  · obtain ⟨_, _, _, done, _⟩ := destroyed
    cases refused.symm.trans done

/-- Refused verification has not started. -/
theorem verify_refused {function : FunctionId} {fault : Fault}
    (refused : (Action.verify Engine.reference function workspace).result = .error fault) :
    (Action.verify Engine.reference function workspace).workspace = workspace := by
  rcases Action.verify_cases Engine.reference function workspace with ⟨_, _, unchanged⟩ | verified
  · exact unchanged
  · obtain ⟨_, _, _, _, _, _, done, _⟩ := verified
    cases refused.symm.trans done

theorem verifyModule_refused (reachable : Reachable Engine.reference initial workspace)
    {id : ContextId} {fault : Fault}
    (refused : (Action.verifyModule Engine.reference id workspace).result = .error fault) :
    (Action.verifyModule Engine.reference id workspace).workspace = workspace := by
  rcases verifyModule_cases reachable id with ⟨_, unchanged⟩ | ⟨⟨verdict, done⟩, _⟩
  · exact unchanged
  · cases refused.symm.trans done

theorem after_refused (reachable : Reachable Engine.reference initial workspace)
    {command : Command} {fault : Fault}
    (refused : (command.run Engine.reference workspace).result = .error fault) :
    workspace.after Engine.reference command = workspace ∨
      ∃ id reasons, command = .emitModule id ∧ fault = .invalid reasons ∧
        SameButVerdicts id workspace (workspace.after Engine.reference command) := by
  cases command with
  | createContext name => cases refused
  | destroyContext id =>
      left
      have failed := Action.bind_refused (fun _ _ => ⟨_, rfl⟩) refused
      exact failed.2.trans (destroyContext_refused failed.1)
  | edit change =>
      left
      exact perform_refused refused
  | setConvention function code =>
      left
      have failed := Action.bind_refused (fun _ _ => ⟨_, rfl⟩) refused
      exact failed.2.trans (perform_refused failed.1)
  | verify function =>
      left
      have failed := Action.bind_refused (fun _ _ => ⟨_, rfl⟩) refused
      exact failed.2.trans (verify_refused failed.1)
  | verifyModule id =>
      left
      have failed := Action.bind_refused (fun _ _ => ⟨_, rfl⟩) refused
      exact failed.2.trans (verifyModule_refused reachable failed.1)
  | emitModule id =>
      have failed := Action.bind_refused (fun _ _ => ⟨_, rfl⟩) refused
      have same : workspace.after Engine.reference (.emitModule id) =
          (Action.emitModule Engine.reference id workspace).workspace := failed.2
      rw [same]
      rcases emitModule_refused reachable failed.1 with unchanged | ⟨⟨reasons, invalid⟩, recorded⟩
      · exact .inl unchanged
      · exact .inr ⟨id, reasons, rfl, invalid, recorded⟩

/-! ### Verification that may abort -/

theorem settle_succeeds (subject : Subject) (verdict : Verdict) (workspace : Workspace σ) :
    ∃ outcome, (Action.settle subject verdict workspace).result = .ok outcome := by
  cases verdict <;> exact ⟨_, rfl⟩

theorem verifyOrAbort_refused {function : FunctionId} {fault : Fault}
    (refused : (Action.verifyOrAbort Engine.reference function workspace).result =
      .error fault) :
    (Action.verifyOrAbort Engine.reference function workspace).workspace = workspace := by
  unfold Action.verifyOrAbort at refused ⊢
  cases named : workspace.store.read function.context
      fun context => context.functionName function with
  | error other => exact (Action.bind_of_error named).2
  | ok name =>
      rw [Action.result_bind named] at refused
      rw [Action.workspace_bind named]
      have failed := Action.bind_refused (settle_succeeds _) refused
      exact failed.2.trans (verify_refused failed.1)

theorem verifyModuleOrAbort_refused (reachable : Reachable Engine.reference initial workspace)
    {id : ContextId} {fault : Fault}
    (refused : (Action.verifyModuleOrAbort Engine.reference id workspace).result =
      .error fault) :
    (Action.verifyModuleOrAbort Engine.reference id workspace).workspace = workspace := by
  unfold Action.verifyModuleOrAbort at refused ⊢
  cases named : workspace.store.read id fun home => .ok home.moduleName with
  | error other => exact (Action.bind_of_error named).2
  | ok name =>
      rw [Action.result_bind named] at refused
      rw [Action.workspace_bind named]
      have failed := Action.bind_refused (settle_succeeds _) refused
      exact failed.2.trans (verifyModule_refused reachable failed.1)

end Workspace

end TypedIR
