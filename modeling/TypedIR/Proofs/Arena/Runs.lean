import TypedIR.Arena.Reference
import TypedIR.Proofs.Arena.Edits
import TypedIR.Proofs.Workspace.Reachable

/-!
Contract: runs of commands in place.

Owns:
- the system of a workspace, and when a computation in place follows an action;
- when an engine over arenas mirrors one over stores; every engine over arenas mirrors one, and
  the reference engine mirrors the reference engine;
- that every command in place follows the command, and every run the run: the systems that can
  be reached are those of the workspaces that can be reached.

What is shown of workspaces is shown of systems this way. What a system stores besides is what
the contents of a context are made of.
-/

namespace TypedIR

open InPlace

variable {σ α β : Type}

/-- The arena of the store, and the same state of the engine. -/
def Workspace.system (workspace : Workspace σ) : System σ :=
  ⟨workspace.store.arena, workspace.native⟩

/-! ### Consistency in every reachable workspace -/

namespace Context

variable {settings : Settings} {effect : Effect} {before after : Context}

theorem consistent_empty (settings : Settings) (id : ContextId) (native : NativeHandle)
    (moduleName : String) : (empty id native moduleName).Consistent settings where
  coherent := coherent_empty id native moduleName
  canonical := canonical_empty settings id native moduleName
  distinct := distinctNames_empty id native moduleName

theorem Consistent.step (consistent : before.Consistent settings)
    (change : Change settings effect before after) : after.Consistent settings where
  coherent := consistent.coherent.step change
  canonical := consistent.canonical.step change
  distinct := consistent.distinct.step consistent.coherent.owned change

end Context

namespace Workspace

variable {engine : Engine σ} {initial : σ} {workspace : Workspace σ} {settings : Settings}

theorem keptBy_consistent (engine : Engine σ) (settings : Settings) :
    KeptBy engine settings (fun _ effect => effect.IsEdit) (Context.Consistent settings) :=
  keptBy_of_step engine (Context.consistent_empty settings) fun consistent change =>
    consistent.step change

theorem Reachable.every_consistent (reachable : Reachable engine initial workspace) :
    workspace.Every workspace.store.settings (Context.Consistent workspace.store.settings) := by
  obtain ⟨settings, commands, rfl⟩ := reachable
  have every : Every settings (Context.Consistent settings)
      (afterAll engine (start settings initial) commands) :=
    every_afterAll (keptBy_consistent engine settings) commands
  rwa [every.settings]

theorem Every.consistent (every : workspace.Every settings (Context.Consistent settings)) :
    workspace.store.Consistent := by
  intro id context found
  rw [every.settings]
  exact every.contexts id context found

end Workspace

/-! ### Views -/

/-- A view of the arena of a store shows the store. -/
theorem Store.Consistent.view_arena {store : Store} (consistent : store.Consistent) :
    store.arena.view = store := by
  have slots : (store.slots.map Slot.arena).map
      (fun slot => (⟨slot.generation, slot.contents.map Arena.Contents.view⟩ : Slot)) =
        store.slots := by
    apply Array.ext_getElem?
    intro index
    rw [Array.getElem?_map, Array.getElem?_map]
    cases lookup : store.slots[index]? with
    | none => rfl
    | some slot =>
        obtain ⟨generation, context⟩ := slot
        cases context with
        | none => rfl
        | some context =>
            have found : store.context? ⟨index, generation⟩ = some context :=
              context?_eq_some.mpr ⟨_, lookup, rfl, rfl⟩
            have distinct := (consistent _ _ found).2.coherent.owned.functions.distinct
            show some (Slot.mk generation (some context.contents.view)) = _
            rw [Context.view_contents distinct]
  rw [arena, Arena.view, slots]

/-! ### Engines -/

namespace Arena.Engine

/-- The answers of an engine over arenas about a store. -/
def onStores (engine : Arena.Engine σ) : TypedIR.Engine σ where
  name := engine.name
  create := engine.create
  dispose := engine.dispose
  accepts := engine.accepts
  verify native store function := engine.verify native store.arena function
  write native store context := engine.write native store.arena context

/-- The engines give the same answers, one about a store and the other one about its arena. -/
structure Mirrors (outer : Arena.Engine σ) (inner : TypedIR.Engine σ) : Prop where
  name : outer.name = inner.name
  create : outer.create = inner.create
  dispose : outer.dispose = inner.dispose
  accepts : outer.accepts = inner.accepts
  verify : ∀ native store function, store.Consistent →
    outer.verify native store.arena function = inner.verify native store function
  write : ∀ native store context, store.Consistent →
    outer.write native store.arena context = inner.write native store context

theorem mirrors_onStores (engine : Arena.Engine σ) : engine.Mirrors engine.onStores :=
  ⟨rfl, rfl, rfl, rfl, fun _ _ _ _ => rfl, fun _ _ _ _ => rfl⟩

theorem mirrors_ofStores (engine : TypedIR.Engine σ) : (ofStores engine).Mirrors engine where
  name := rfl
  create := rfl
  dispose := rfl
  accepts := rfl
  verify native store function consistent := by
    show engine.verify native store.arena.view function = _
    rw [consistent.view_arena]
  write native store context consistent := by
    show engine.write native store.arena.view context = _
    rw [consistent.view_arena]

theorem mirrors_reference : reference.Mirrors .reference := mirrors_ofStores .reference

end Arena.Engine

/-! ### Actions -/

namespace InPlace

/-- The computation does to the system of a workspace what the action does to the workspace. -/
def Follows (work : InPlace (System σ) α) (action : Action σ α) (workspace : Workspace σ) : Prop :=
  work workspace.system = ((action workspace).result, (action workspace).workspace.system)

variable {workspace : Workspace σ}

theorem follows_pure (value : α) :
    (pure value : InPlace (System σ) α).Follows (Action.pure value) workspace := rfl

theorem Follows.bind {first : InPlace (System σ) α} {next : α → InPlace (System σ) β}
    {action : Action σ α} {further : α → Action σ β} (start : first.Follows action workspace)
    (rest : ∀ value, (action workspace).result = .ok value →
      (next value).Follows (further value) (action workspace).workspace) :
    (first >>= next).Follows (action >>= further) workspace := by
  cases result : (action workspace).result with
  | error fault =>
      have stopped := @Action.bind_of_error _ _ _ _ further _ _ result
      have failed : first workspace.system =
          (.error fault, (action workspace).workspace.system) := by
        rw [start, result]
      rw [Follows, bind_of_error failed, stopped.1, stopped.2]
  | ok value =>
      have done : first workspace.system = (.ok value, (action workspace).workspace.system) := by
        rw [start, result]
      rw [Follows, bind_of_ok done, Action.result_bind result, Action.workspace_bind result]
      exact rest value result

/-- A look at the system finds out what a look at the store does. -/
theorem follows_look {γ : Type} {query : System σ → Except Fault α} {look : Store → Except Fault γ}
    {next : α → InPlace (System σ) β} {further : γ → Action σ β}
    (refused : ∀ fault, look workspace.store = .error fault →
      query workspace.system = .error fault)
    (answered : ∀ value, look workspace.store = .ok value →
      ∃ seen, query workspace.system = .ok seen ∧ (next seen).Follows (further value) workspace) :
    (InPlace.read query >>= next).Follows (Action.inspect look >>= further) workspace := by
  cases found : look workspace.store with
  | error fault =>
      have stopped := @Action.bind_of_error _ _ _ (Action.inspect look) further workspace _ found
      rw [Follows, stopped.1, stopped.2]
      exact read_bind_of_error (refused fault found)
  | ok value =>
      obtain ⟨seen, answer, follows⟩ := answered value found
      have done : (Action.inspect look workspace).result = .ok value := found
      rw [Follows, Action.result_bind done, Action.workspace_bind done]
      exact (read_bind_of_ok answer).trans follows

theorem follows_perform {work : InPlace Arena α} {operation : Operation α}
    (consistent : workspace.store.Consistent)
    (carries : work.CarriesOut operation workspace.store) :
    (System.onArena work).Follows (Action.perform operation) workspace := by
  have run : System.onArena work workspace.system =
      ((work workspace.store.arena).1, ⟨(work workspace.store.arena).2, workspace.native⟩) := rfl
  rw [Follows, run]
  unfold Action.perform
  cases screen : operation.screen with
  | error fault =>
      rw [carries.screened fault screen]
      rfl
  | ok _ =>
      cases found : workspace.store.context? operation.home with
      | none =>
          have gone : workspace.store.arena.contents? operation.home = none := by
            rw [Store.arena_contents?, found]
            rfl
          rw [carries.awaits screen gone]
          rfl
      | some context =>
          have home := (consistent _ _ found).1
          have holds : workspace.store.Holds context := by
            rw [Store.Holds, home]
            exact found
          have written : work workspace.store.arena = _ :=
            carries.realizes screen context holds home
          rw [written]
          dsimp only
          cases done : operation.effect context with
          | mk result events =>
              cases result with
              | error fault => rfl
              | ok changed =>
                  rw [← home]
                  rfl

end InPlace

/-! ### Contexts -/

theorem Context.contents_empty (id : ContextId) (native : NativeHandle) (moduleName : String) :
    (Context.empty id native moduleName).contents = .empty id native moduleName := by
  apply Arena.Contents.ext <;> try rfl
  · exact Array.map_empty
  · ext kind : 1
    exact Array.findIdx?_empty
  · exact congrArg Table.mk Array.map_empty
  · exact congrArg Table.mk Array.map_empty
  · ext name : 1
    have unnamed : (empty id native moduleName).functionNamed? name = none := by
      unfold functionNamed?
      split <;> rfl
    rw [contents_names, unnamed]
    rfl

namespace Store

variable {store : Store}

theorem arena_create (native : NativeHandle) (moduleName : String) :
    store.arena.create native moduleName =
      ((store.create native moduleName).1, (store.create native moduleName).2.arena) := by
  unfold Arena.create Store.create Store.nextId
  have free : store.arena.free = store.free := rfl
  have size : store.arena.slots.size = store.slots.size := Array.size_map
  rw [free]
  cases store.free with
  | nil =>
      dsimp only
      rw [size, ← Context.contents_empty]
      have pushed : ∀ slot : Slot, store.arena.slots.push slot.arena =
          (store.slots.push slot).map Slot.arena := fun slot => Array.map_push.symm
      exact Prod.ext rfl (congrArg (Arena.mk store.settings · []) (pushed ⟨0, some _⟩))
  | cons index rest =>
      dsimp only
      have generation : store.arena.slots[index]?.map (·.generation) =
          store.slots[index]?.map (·.generation) := by
        rw [arena, Array.getElem?_map, Option.map_map]
        rfl
      rw [generation, ← Context.contents_empty, arena_put]
      rfl

theorem arena_destroy_released {id : ContextId} (gone : store.context? id = none) :
    Arena.destroy id store.arena = (.error (.released (.context id)), store.arena) := by
  have missing : store.arena.contents? id = none := by
    rw [arena_contents?, gone]
    rfl
  exact read_bind_of_error (Arena.contents_released missing)

theorem arena_destroy {id : ContextId} {context : Context} {after : Store}
    (done : store.destroy id = .ok (context, after)) :
    Arena.destroy id store.arena = (.ok context.contents, after.arena) := by
  obtain ⟨found, rfl⟩ := destroy_done done
  have live : store.arena.contents id = .ok context.contents := by
    rw [arena_contents, resolve_eq_ok.mpr found]
    rfl
  have emptied : ∀ generation, store.arena.slots.setIfInBounds id.index ⟨generation, none⟩ =
      (store.slots.setIfInBounds id.index ⟨generation, none⟩).map Slot.arena := by
    intro generation
    rw [Array.map_setIfInBounds]
    rfl
  unfold Arena.destroy
  refine (bind_of_ok (congrArg (·, store.arena) live)).trans ?_
  by_cases more : id.generation < maxGeneration
  · rw [if_pos more, if_pos more, write_bind, emptied]
    rfl
  · rw [if_neg more, if_neg more, write_bind, emptied]
    rfl

end Store

theorem Store.Consistent.arena_functionName {store : Store} (consistent : store.Consistent)
    (function : FunctionId) : store.arena.functionName function =
      store.read function.context fun context => context.functionName function := by
  cases found : store.context? function.context with
  | none =>
      have missing : store.arena.contents? function.context = none := by
        rw [arena_contents?, found]
        rfl
      rw [Arena.functionName_released function missing, read, resolve, found]
      rfl
  | some context =>
      have home := (consistent _ _ found).1
      have holds : store.Holds context := by
        rw [Holds, home]
        exact found
      rw [holds.functionName home.symm, read, resolve, found]
      rfl

/-! ### Commands -/

namespace System

open Workspace (Every)

variable {workspace : Workspace σ}

theorem contents_found {id : ContextId} {context : Context}
    (found : workspace.store.context? id = some context) :
    workspace.system.arena.contents id = .ok context.contents := by
  show workspace.store.arena.contents id = _
  rw [Store.arena_contents, Store.resolve_eq_ok.mpr found]
  rfl

/-- What reading from a released context complains about. -/
theorem contents_refused {id : ContextId} {query : Context → Except Fault α} {fault : Fault}
    (answers : ∀ context, Succeeds (query context))
    (refused : workspace.store.read id query = .error fault) :
    workspace.system.arena.contents id = .error fault := by
  show workspace.store.arena.contents id = _
  rw [Store.arena_contents]
  unfold Store.read at refused
  cases resolved : workspace.store.resolve id with
  | error other =>
      rw [resolved] at refused
      exact congrArg _ (Except.error.inj refused)
  | ok context =>
      obtain ⟨value, answer⟩ := answers context
      rw [resolved, ok_bind, answer] at refused
      cases refused

theorem settle_follows (subject : Subject) (verdict : Verdict) :
    (return settle subject verdict : InPlace (System σ) _).Follows
      (Action.settle subject verdict) workspace := by
  cases verdict <;> rfl

variable {outer : Arena.Engine σ} {inner : Engine σ} (mirrors : outer.Mirrors inner)
  {settings : Settings}
  (every : workspace.Every settings (Context.Consistent settings))

include mirrors

theorem createContext_follows (moduleName : String) :
    (createContext outer moduleName).Follows (Action.createContext inner moduleName) workspace := by
  unfold createContext
  rw [mirrors.create]
  show ((.ok (workspace.store.arena.create _ moduleName).1,
    (⟨(workspace.store.arena.create _ moduleName).2, _⟩ : System σ)) :
      Except Fault ContextId × _) = _
  rw [Store.arena_create]
  rfl

theorem destroyContext_follows (id : ContextId) :
    (destroyContext outer id).Follows (Action.destroyContext inner id) workspace := by
  have run : onArena (Arena.destroy id) workspace.system =
      ((Arena.destroy id workspace.store.arena).1,
        ⟨(Arena.destroy id workspace.store.arena).2, workspace.native⟩) := rfl
  unfold destroyContext
  rw [mirrors.dispose]
  cases found : workspace.store.context? id with
  | none =>
      have refused : workspace.store.destroy id = .error (.released (.context id)) := by
        rw [Store.destroy, Store.resolve, found]
        rfl
      rw [Store.arena_destroy_released found] at run
      rw [Follows, bind_of_error run]
      unfold Action.destroyContext
      rw [refused]
      rfl
  | some context =>
      obtain ⟨after, destroyed⟩ := Store.destroy_of_live found
      rw [Store.arena_destroy destroyed] at run
      rw [Follows, bind_of_ok run]
      unfold Action.destroyContext
      rw [destroyed]
      rfl

include every

theorem verify_follows (function : FunctionId) :
    (verify outer function).Follows (Action.verify inner function) workspace := by
  have consistent := every.consistent
  cases named : workspace.store.read function.context
      fun context => context.functionName function with
  | error fault =>
      have refused : workspace.system.arena.functionName function = .error fault :=
        (consistent.arena_functionName function).trans named
      have looked : (InPlace.read fun system : System σ => system.arena.functionName function)
          workspace.system = (.error fault, workspace.system) := congrArg (·, _) refused
      unfold Follows Action.verify
      rw [named]
      exact bind_of_error looked
  | ok name =>
      have answer : workspace.system.arena.functionName function = .ok name :=
        (consistent.arena_functionName function).trans named
      obtain ⟨context, found, known⟩ := Store.read_done named
      have home := (consistent _ _ found).1
      have holds : workspace.store.Holds context := by
        rw [Store.Holds, home]
        exact found
      let verdict := Verdict.ofJudgement inner.name name
        (inner.verify workspace.native workspace.store function)
      have judged : Verdict.ofJudgement outer.name name
          (outer.verify workspace.native workspace.store.arena function) = verdict := by
        rw [mirrors.name, mirrors.verify _ _ _ consistent]
      have looked : (InPlace.read fun system : System σ => system.arena.functionName function)
          workspace.system = (.ok name, workspace.system) := congrArg (·, _) answer
      obtain ⟨entry, resolved, _⟩ := bind_eq_ok.mp known
      have written : Arena.alterBody function
          (fun body => { body with state := verdict.state }) workspace.store.arena =
            (.ok (), (workspace.store.recordState function verdict.state).arena) := by
        have realizes := @Store.Holds.alterBody _ _ holds
          (fun entry => { entry with state := verdict.state })
          (fun body => { body with state := verdict.state }) (fun _ => rfl) (fun _ => rfl)
          function home.symm
        rw [resolved] at realizes
        rw [Store.recordState_eq found, ← home]
        exact realizes
      have recorded : onArena (Arena.alterBody function
          fun body => { body with state := verdict.state }) workspace.system =
            (.ok (), ⟨(workspace.store.recordState function verdict.state).arena,
              workspace.native⟩) := by
        show ((Arena.alterBody function _ workspace.store.arena).1,
          System.mk (Arena.alterBody function _ workspace.store.arena).2 workspace.native) = _
        rw [written]
      unfold Follows Action.verify
      rw [named]
      refine (bind_of_ok looked).trans ?_
      show (onArena (Arena.alterBody function fun body =>
        { body with state := (Verdict.ofJudgement outer.name name
          (outer.verify workspace.native workspace.store.arena function)).state }) >>=
            fun _ => Pure.pure (Verdict.ofJudgement outer.name name
              (outer.verify workspace.native workspace.store.arena function))) workspace.system = _
      rw [judged]
      exact bind_of_ok recorded

theorem verifyEach_follows (functions : List FunctionId) :
    (verifyEach outer functions).Follows (Action.verifyEach inner functions) workspace := by
  induction functions generalizing workspace with
  | nil => rfl
  | cons function rest inductionHypothesis =>
      apply (verify_follows mirrors every function).bind
      intro verdict _
      have later := Every.verified (Workspace.keptBy_consistent inner settings) function _ every
      apply (inductionHypothesis later).bind
      intro reasons _
      exact follows_pure _

theorem verifyModule_follows (id : ContextId) :
    (verifyModule outer id).Follows (Action.verifyModule inner id) workspace := by
  apply follows_look
  · intro fault refused
    exact contents_refused (fun _ => succeeds_pure _) refused
  · intro functions listed
    obtain ⟨context, found, rfl⟩ := Action.functionsOf_done listed
    refine ⟨context.contents, contents_found found, ?_⟩
    apply (verifyEach_follows mirrors every _).bind
    intro reasons _
    exact follows_pure _

theorem emitModule_follows (id : ContextId) :
    (emitModule outer id).Follows (Action.emitModule inner id) workspace := by
  have consistent := every.consistent
  have written : ∀ (workspace : Workspace σ), workspace.store.Consistent →
      (InPlace.read fun system => outer.write system.native system.arena id).Follows
        (Action.writeModule inner id) workspace := by
    intro workspace consistent
    show (outer.write workspace.native workspace.store.arena id, workspace.system) =
      (inner.write workspace.native workspace.store id, workspace.system)
    rw [mirrors.write _ _ _ consistent]
  show (if workspace.store.settings.verifyBeforeEmit then _ else _ : InPlace (System σ) _)
    workspace.system = _
  unfold Action.emitModule
  rw [Action.bind_settings]
  by_cases gated : workspace.store.settings.verifyBeforeEmit
  · rw [if_pos gated, if_pos gated]
    apply (verifyModule_follows mirrors every id).bind
    intro verdict _
    cases verdict with
    | valid =>
        have verified : ∀ function, Action.Preserves (Every settings (Context.Consistent settings))
            (Action.verify inner function) := fun function =>
          Every.verified (Workspace.keptBy_consistent inner settings) function
        have later := Action.preserves_verifyModule verified id workspace every
        exact written _ later.consistent
    | invalid reasons => rfl
  · rw [if_neg gated, if_neg gated]
    exact written _ consistent

theorem verifyOrAbort_follows (function : FunctionId) :
    (verifyOrAbort outer function).Follows (Action.verifyOrAbort inner function) workspace := by
  have consistent := every.consistent
  apply follows_look
  · intro fault refused
    exact (consistent.arena_functionName function).trans refused
  · intro name named
    refine ⟨name, (consistent.arena_functionName function).trans named, ?_⟩
    apply (verify_follows mirrors every function).bind
    intro verdict _
    exact settle_follows _ _

theorem verifyModuleOrAbort_follows (id : ContextId) :
    (verifyModuleOrAbort outer id).Follows (Action.verifyModuleOrAbort inner id) workspace := by
  apply follows_look
  · intro fault refused
    exact contents_refused (fun _ => succeeds_pure _) refused
  · intro name named
    obtain ⟨context, found, done⟩ := Store.read_done named
    obtain rfl := Except.ok.inj done
    refine ⟨context.contents, contents_found found, ?_⟩
    apply (verifyModule_follows mirrors every id).bind
    intro verdict _
    exact settle_follows _ _

theorem setConvention_follows (function : FunctionId) (code : UInt32) :
    (setConvention outer function code).Follows (Action.setConvention inner function code)
      workspace := by
  obtain ⟨home, function⟩ := function
  show (onArena (Arena.setConvention (outer.accepts workspace.native) outer.name _ code)).Follows
    (Action.perform (.setConvention (inner.accepts workspace.native) inner.name _ code)) workspace
  rw [mirrors.accepts, mirrors.name]
  apply follows_perform every.consistent
  refine carriesOut_open home rfl rfl
    ((awaits_read (Arena.body_released ⟨home, function⟩)).bind _) ?_
  rintro context holds rfl
  exact holds.setConvention _ _ function code

end System

namespace Command

open Workspace (Every)

variable {outer : Arena.Engine σ} {inner : Engine σ} (mirrors : outer.Mirrors inner)
  {settings : Settings} {workspace : Workspace σ}
  (every : workspace.Every settings (Context.Consistent settings))

include mirrors every

theorem inPlace_follows (command : Command) :
    (command.inPlace outer).Follows (command.run inner) workspace := by
  cases command with
  | createContext moduleName =>
      apply (System.createContext_follows mirrors moduleName).bind
      intro _ _
      exact follows_pure _
  | destroyContext id =>
      apply (System.destroyContext_follows mirrors id).bind
      intro _ _
      exact follows_pure _
  | edit change => exact follows_perform every.consistent (change.carriesOut every.consistent)
  | setConvention function code =>
      apply (System.setConvention_follows mirrors every function code).bind
      intro _ _
      exact follows_pure _
  | verify function =>
      apply (System.verify_follows mirrors every function).bind
      intro _ _
      exact follows_pure _
  | verifyModule id =>
      apply (System.verifyModule_follows mirrors every id).bind
      intro _ _
      exact follows_pure _
  | emitModule id =>
      apply (System.emitModule_follows mirrors every id).bind
      intro _ _
      exact follows_pure _

end Command

/-! ### Runs -/

namespace System

variable {outer : Arena.Engine σ} {inner : Engine σ} {initial : σ} {settings : Settings}
  {workspace : Workspace σ}

theorem after_system (mirrors : outer.Mirrors inner)
    (every : workspace.Every settings (Context.Consistent settings)) (command : Command) :
    after outer workspace.system command = (workspace.after inner command).system :=
  congrArg Prod.snd (command.inPlace_follows mirrors every)

theorem afterAll_system (mirrors : outer.Mirrors inner)
    (every : workspace.Every settings (Context.Consistent settings)) (commands : List Command) :
    afterAll outer workspace.system commands = (workspace.afterAll inner commands).system := by
  induction commands generalizing workspace with
  | nil => rfl
  | cons command rest inductionHypothesis =>
      have kept := Workspace.keptBy_consistent inner settings
      have later : (workspace.after inner command).Every settings (Context.Consistent settings) :=
        Workspace.Every.command kept (command.meets_isEdit settings) workspace every
      show afterAll outer (after outer workspace.system command) rest = _
      rw [after_system mirrors every command, inductionHypothesis later]
      rfl

/-- The systems that commands in place lead to are those of the workspaces that the commands lead
to. -/
theorem reachable_iff (mirrors : outer.Mirrors inner) {system : System σ} :
    Reachable outer initial system ↔
      ∃ workspace, Workspace.Reachable inner initial workspace ∧ system = workspace.system := by
  have run : ∀ settings commands, afterAll outer (start settings initial) commands =
      (Workspace.afterAll inner (Workspace.start settings initial) commands).system := by
    intro settings commands
    have empty : start settings initial = (Workspace.start settings initial).system := by
      rw [start, ← Store.arena_empty]
      rfl
    rw [empty, afterAll_system mirrors (Workspace.every_start settings _)]
  constructor
  · rintro ⟨settings, commands, rfl⟩
    exact ⟨_, ⟨settings, commands, rfl⟩, run settings commands⟩
  · rintro ⟨_, ⟨settings, commands, rfl⟩, rfl⟩
    exact ⟨settings, commands, (run settings commands).symm⟩

/-- A live context of a reachable system is one of a reachable workspace. -/
theorem Reachable.live_workspace {system : System σ} (reachable : Reachable outer initial system)
    {id : ContextId} {contents : Arena.Contents}
    (live : system.arena.contents? id = some contents) :
    ∃ (workspace : Workspace σ) (context : Context),
      Workspace.Reachable outer.onStores initial workspace ∧ workspace.system = system ∧
        workspace.store.Consistent ∧ workspace.store.context? id = some context ∧
        context.contents = contents := by
  obtain ⟨workspace, reached, rfl⟩ := (reachable_iff outer.mirrors_onStores).mp reachable
  obtain ⟨context, found, rfl⟩ :=
    Option.map_eq_some_iff.mp ((Store.arena_contents? id).symm.trans live)
  exact ⟨workspace, context, reached, rfl, reached.every_consistent.consistent, found, rfl⟩

end System

end TypedIR
