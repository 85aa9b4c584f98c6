import TypedIR.Proofs.Types.Canonical
import TypedIR.Proofs.Workspace.Queries
import TypedIR.Workspace.Abort

/-!
Contract: what commands need of the handles that they are given.

Owns:
- the handles of a command, and when its other arguments are in range;
- the fault of a command about a released context;
- that a command that succeeds was given live handles;
- the same for the verifications that may abort the run.
-/

namespace TypedIR

variable {σ α : Type}

/-- The arguments besides the handles are in range: widths within the settings, and lengths that
fit 32 bits. -/
def Edit.Admissible (settings : Settings) : Edit → Prop
  | .integerType _ bits => 1 ≤ bits ∧ bits ≤ settings.maxIntegerWidth
  | .bytesConstant _ content terminated =>
      8 ≤ settings.maxIntegerWidth ∧
        content.length + (if terminated then 1 else 0) < UInt32.size
  | .arrayConstant _ values => values.length < UInt32.size
  | _ => True

namespace Command

/-- The handles that the command is given. -/
def handles : Command → List Handle
  | .createContext _ => []
  | .destroyContext context | .verifyModule context | .emitModule context => [.context context]
  | .edit change => change.handles
  | .setConvention function _ | .verify function => [.function function]

def Admissible (settings : Settings) : Command → Prop
  | .edit change => change.Admissible settings
  | _ => True

end Command

/-! ### Released contexts -/

theorem lengthOf_of_lt {count : Nat} (fits : count < UInt32.size) :
    lengthOf count = .ok (UInt32.ofNat count) := by
  rw [lengthOf, if_pos fits]

namespace Operation

variable {operation : Operation α} {screen : Except Fault Unit} {home : ContextId}

theorem guarded_passes (passed : screen = .ok ()) (rest : operation.screen = .ok ()) :
    (operation.guarded screen).screen = .ok () := by
  show (screen >>= fun _ => operation.screen) = _
  rw [passed]
  exact rest

theorem requireHomeType_of_home {type : TypeId} (same : type.context = home) :
    requireHomeType home (some type) = .ok () := by
  rw [requireHomeType, if_neg (not_not_intro same)]

theorem requireHomeValue_of_home {handle : Handle} (same : handle.tag = home) :
    requireHomeValue home (some handle) = .ok () := by
  rw [requireHomeValue, if_neg (not_not_intro same)]

end Operation

/-- An edit in range, with handles of one context only, is not refused ahead of a look at that
context. -/
theorem Edit.screen_eq_ok {settings : Settings} {id : ContextId} {change : Edit}
    (tagged : ∀ handle ∈ change.handles, handle.tag = id)
    (admissible : change.Admissible settings) :
    (change.operation settings).home = id ∧ (change.operation settings).screen = .ok () := by
  cases change with
  | integerType context bits =>
      have fits : settings.checkWidth bits = .ok () :=
        Settings.checkWidth_eq_ok.mpr ⟨admissible.1, admissible.2⟩
      exact ⟨tagged _ List.mem_cons_self, Operation.guarded_passes fits rfl⟩
  | structType context fields packed =>
      have home : context = id := tagged _ List.mem_cons_self
      refine ⟨home, Operation.guarded_passes ?_ rfl⟩
      cases fields with
      | nil => rfl
      | cons first rest =>
          have firstHome : first.context = id :=
            tagged (.type first) (List.mem_cons_of_mem _ List.mem_cons_self)
          exact Operation.requireHomeType_of_home (firstHome.trans home.symm)
  | arrayConstant element values =>
      refine ⟨tagged _ List.mem_cons_self, Operation.guarded_passes ?_ rfl⟩
      rw [lengthOf_of_lt admissible]
      rfl
  | bytesConstant context content terminated =>
      refine ⟨tagged _ List.mem_cons_self, Operation.guarded_passes ?_ rfl⟩
      rw [lengthOf_of_lt admissible.2]
      exact Settings.checkWidth_eq_ok.mpr ⟨by decide, admissible.1⟩
  | structConstant context values packed =>
      have home : context = id := tagged _ List.mem_cons_self
      refine ⟨home, Operation.guarded_passes ?_ rfl⟩
      cases values with
      | nil => rfl
      | cons first rest =>
          have firstHome : first.context = id :=
            tagged (.value first) (List.mem_cons_of_mem _ List.mem_cons_self)
          exact Operation.requireHomeValue_of_home (firstHome.trans home.symm)
  | declare context name signature =>
      have home : context = id := tagged _ List.mem_cons_self
      have signatureHome : signature.context = id :=
        tagged (.type signature) (List.mem_cons_of_mem _ List.mem_cons_self)
      refine ⟨home, Operation.guarded_passes ?_ rfl⟩
      exact Operation.requireHomeType_of_home (signatureHome.trans home.symm)
  | setPersonality function personality =>
      have home : function.context = id := tagged _ List.mem_cons_self
      have otherHome : personality.context = id :=
        tagged (.function personality) (List.mem_cons_of_mem _ List.mem_cons_self)
      refine ⟨home, Operation.guarded_passes ?_ rfl⟩
      exact Operation.requireHomeValue_of_home (otherHome.trans home.symm)
  | _ => exact ⟨tagged _ List.mem_cons_self, rfl⟩

namespace Action

variable {workspace : Workspace σ} {engine : Engine σ} {id : ContextId}

theorem perform_released {operation : Operation α} (screen : operation.screen = .ok ())
    (gone : workspace.store.context? operation.home = none) :
    (perform operation workspace).result = .error (.released (.context operation.home)) := by
  unfold perform
  rw [screen]
  dsimp only
  rw [gone]

theorem verify_released {function : FunctionId}
    (gone : workspace.store.context? function.context = none) :
    (verify engine function workspace).result =
      .error (.released (.context function.context)) := by
  unfold verify
  rw [Store.read_released gone]

theorem verifyModule_released (gone : workspace.store.context? id = none) :
    (verifyModule engine id workspace).result = .error (.released (.context id)) :=
  (bind_of_error (Store.read_released gone _)).1

theorem emitModule_released {workspace : Workspace ReferenceState}
    (gone : workspace.store.context? id = none) :
    (emitModule Engine.reference id workspace).result = .error (.released (.context id)) := by
  have settings : (inspect (fun store => .ok store.settings) workspace :
      Outcome ReferenceState Settings).result = .ok workspace.store.settings := rfl
  have written : workspace.store.moduleText id = .error (.released (.context id)) :=
    Store.read_released gone _
  unfold emitModule
  rw [result_bind settings]
  by_cases verifies : workspace.store.settings.verifyBeforeEmit = true
  · rw [if_pos verifies]
    exact (bind_of_error (verifyModule_released gone)).1
  · rw [if_neg verifies]
    show (workspace.store.moduleText id >>= fun text => _) = _
    rw [written]
    rfl

theorem verifyOrAbort_released {function : FunctionId}
    (gone : workspace.store.context? function.context = none) :
    (verifyOrAbort engine function workspace).result =
      .error (.released (.context function.context)) :=
  (bind_of_error (Store.read_released gone _)).1

theorem verifyModuleOrAbort_released (gone : workspace.store.context? id = none) :
    (verifyModuleOrAbort engine id workspace).result = .error (.released (.context id)) :=
  (bind_of_error (Store.read_released gone _)).1

end Action

/-- A command with handles of a released context only reports that context, if its other arguments
are in range. -/
theorem Command.run_released {workspace : Workspace ReferenceState} {command : Command}
    {id : ContextId} (gone : workspace.store.context? id = none) (given : command.handles ≠ [])
    (tagged : ∀ handle ∈ command.handles, handle.tag = id)
    (admissible : command.Admissible workspace.store.settings) :
    (command.run Engine.reference workspace).result = .error (.released (.context id)) := by
  cases command with
  | createContext name => exact absurd rfl given
  | destroyContext target =>
      obtain rfl : target = id := tagged _ List.mem_cons_self
      have refused : (Action.destroyContext Engine.reference target workspace).result =
          .error (.released (.context target)) := by
        have failed : workspace.store.destroy target = .error (.released (.context target)) :=
          Store.read_released gone _
        unfold Action.destroyContext
        rw [failed]
      exact (Action.bind_of_error refused).1
  | edit change =>
      obtain ⟨rfl, screen⟩ := Edit.screen_eq_ok tagged admissible
      exact Action.perform_released screen gone
  | setConvention function code =>
      obtain rfl : function.context = id := tagged _ List.mem_cons_self
      have refused := @Action.perform_released _ _ workspace (.setConvention
        (Engine.reference.accepts workspace.native) Engine.reference.name function code) rfl gone
      exact (Action.bind_of_error refused).1
  | verify function =>
      obtain rfl : function.context = id := tagged _ List.mem_cons_self
      exact (Action.bind_of_error (Action.verify_released gone)).1
  | verifyModule target =>
      obtain rfl : target = id := tagged _ List.mem_cons_self
      exact (Action.bind_of_error (Action.verifyModule_released gone)).1
  | emitModule target =>
      obtain rfl : target = id := tagged _ List.mem_cons_self
      exact (Action.bind_of_error (Action.emitModule_released gone)).1

/-! ### Success -/

namespace Workspace

variable {engine : Engine σ} {initial : σ} {workspace : Workspace σ}

/-- A function that has a name is live. -/
theorem live_of_name {function : FunctionId} {name : String}
    (named : (workspace.store.read function.context fun context => context.functionName function) =
      .ok name) : workspace.store.Live (.function function) := by
  obtain ⟨context, found, read⟩ := Store.read_done named
  obtain ⟨entry, resolved, _⟩ := bind_eq_ok.mp read
  exact ⟨context, found, Context.live_of_resolveFunction resolved⟩

theorem live_of_verify {function : FunctionId} {verdict : Verdict}
    (done : (Action.verify engine function workspace).result = .ok verdict) :
    workspace.store.Live (.function function) := by
  rcases Action.verify_cases engine function workspace with ⟨fault, refused, _⟩ | verified
  · cases refused.symm.trans done
  · obtain ⟨context, name, _, found, named, _⟩ := verified
    exact live_of_name (bind_eq_ok.mpr ⟨context, Store.resolve_eq_ok.mpr found, named⟩)

theorem live_of_verifyOrAbort {function : FunctionId} {outcome : Except AbortNotice Verdict}
    (done : (Action.verifyOrAbort engine function workspace).result = .ok outcome) :
    workspace.store.Live (.function function) := by
  obtain ⟨name, named⟩ := Action.ok_of_bind done
  exact live_of_name named

theorem Reachable.live_of_verifyModuleOrAbort (reachable : Reachable engine initial workspace)
    {id : ContextId} {outcome : Except AbortNotice Verdict}
    (done : (Action.verifyModuleOrAbort engine id workspace).result = .ok outcome) :
    workspace.store.Live (.context id) := by
  obtain ⟨name, named⟩ := Action.ok_of_bind done
  obtain ⟨context, found, _⟩ := Store.read_done named
  exact reachable.live_context found

theorem Reachable.live_of_edit (reachable : Reachable engine initial workspace) {change : Edit}
    {answer : Answer} (done : ((Command.edit change).run engine workspace).result = .ok answer) :
    ∀ handle ∈ change.handles, workspace.store.Live handle := by
  intro handle given
  obtain ⟨home, changed, found, applied⟩ := Action.perform_done done
  obtain ⟨sameId, _⟩ := reachable.coherent found
  have live := (Edit.operation_ok sameId applied).1 handle given
  rw [← live.tag_eq.trans sameId] at found
  exact ⟨home, found, live⟩

theorem live_of_setConvention {function : FunctionId} {code : UInt32} {result : Unit}
    (done : (Action.setConvention engine function code workspace).result = .ok result) :
    workspace.store.Live (.function function) := by
  obtain ⟨home, changed, found, applied⟩ := Action.perform_done done
  exact ⟨home, found, (@Context.setConvention_ok workspace.store.settings _ _ _ _ _ _ _ applied).1⟩

/-- A command about a context is refused if the context is released. -/
theorem Reachable.live_of_run_context {initial : ReferenceState}
    {workspace : Workspace ReferenceState}
    (reachable : Reachable Engine.reference initial workspace) {command : Command} {id : ContextId}
    {answer : Answer} (done : (command.run Engine.reference workspace).result = .ok answer)
    (given : command.handles = [.context id])
    (admissible : command.Admissible workspace.store.settings) :
    workspace.store.Live (.context id) := by
  cases found : workspace.store.context? id with
  | some context => exact reachable.live_context found
  | none =>
      have tagged : ∀ handle ∈ command.handles, handle.tag = id := by
        rw [given]
        exact List.forall_mem_singleton.mpr rfl
      have refused := Command.run_released found (given ▸ List.cons_ne_nil _ _) tagged admissible
      cases refused.symm.trans done

/-- A command that succeeds was given live handles only. -/
theorem Reachable.live_of_run {initial : ReferenceState} {workspace : Workspace ReferenceState}
    (reachable : Reachable Engine.reference initial workspace) {command : Command} {answer : Answer}
    (done : (command.run Engine.reference workspace).result = .ok answer) :
    ∀ handle ∈ command.handles, workspace.store.Live handle := by
  cases command with
  | createContext name => exact List.forall_mem_nil _
  | destroyContext id | verifyModule id | emitModule id =>
      exact List.forall_mem_singleton.mpr (reachable.live_of_run_context done rfl trivial)
  | edit change => exact reachable.live_of_edit done
  | setConvention function code =>
      obtain ⟨result, set⟩ := Action.ok_of_bind done
      exact List.forall_mem_singleton.mpr (live_of_setConvention set)
  | verify function =>
      obtain ⟨verdict, verified⟩ := Action.ok_of_bind done
      exact List.forall_mem_singleton.mpr (live_of_verify verified)

end Workspace

end TypedIR
