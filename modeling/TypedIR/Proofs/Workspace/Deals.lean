import TypedIR.Proofs.Workspace.Builds
import TypedIR.Proofs.Workspace.Tasks

/-!
Contract: what one step of a client does to contexts and native handles.

Owns:
- that the calls in a sequence of events are the calls that an engine received;
- the four things that a task can come to: nothing, a context created, one destroyed that it was to
  destroy, or one created and destroyed again;
- that every task comes to one of them, and keeps the store accountable;
- that a context stays in the course of a run until a task is to destroy it.

A build that fails is the one step that both creates and destroys.
-/

namespace TypedIR

variable {σ : Type} {engine : Engine σ} {workspace : Workspace σ}

/-! ### Calls of the engine -/

/-- The engine goes from one state to another by the creations and disposals among the events, in
their order, and each creation gave out the handle of its event. -/
inductive Engine.Serves (engine : Engine σ) : σ → List Event → σ → Prop where
  | done (state : σ) : engine.Serves state [] state
  | create {state last : σ} {rest : List Event}
      (later : engine.Serves (engine.create state).2 rest last) :
      engine.Serves state (.engine (.create (engine.create state).1) :: rest) last
  | dispose {state last : σ} {rest : List Event} (handle : NativeHandle)
      (later : engine.Serves (engine.dispose handle state).1 rest last) :
      engine.Serves state (.engine (.dispose handle) :: rest) last
  | silent {state last : σ} {event : Event} {rest : List Event} (silent : event.IsSilent)
      (later : engine.Serves state rest last) : engine.Serves state (event :: rest) last

namespace Engine.Serves

variable {state between last : σ} {first second events : List Event}

theorem append (one : engine.Serves state first between)
    (two : engine.Serves between second last) : engine.Serves state (first ++ second) last := by
  induction one with
  | done => exact two
  | create _ inductionHypothesis => exact .create (inductionHypothesis two)
  | dispose handle _ inductionHypothesis => exact .dispose handle (inductionHypothesis two)
  | silent silent _ inductionHypothesis => exact .silent silent (inductionHypothesis two)

theorem of_silent (silent : Silent events) : engine.Serves state events state := by
  induction events with
  | nil => exact .done state
  | cons event rest inductionHypothesis =>
      obtain ⟨first, later⟩ := List.forall_mem_cons.mp silent
      exact .silent first (inductionHypothesis later)

end Engine.Serves

/-! ### Steps -/

/-- What a step with a target comes to, by the accounts of live contexts, the state of the engine,
and the handles that the engine gave out and took back. -/
inductive Deal (engine : Engine σ) (target : Option ContextId) (before after : Workspace σ)
    (events : List Event) : Prop where
  | idle (accounts : after.store.accounts = before.store.accounts)
      (native : after.native = before.native) (silent : Silent events)
  | created (id : ContextId)
      (accounts : after.store.accounts.Perm
        ((id, (engine.create before.native).1) :: before.store.accounts))
      (native : after.native = (engine.create before.native).2)
      (created : createdIn events = [(engine.create before.native).1])
      (disposed : disposedIn events = [])
  | destroyed (id : ContextId) (handle : NativeHandle) (aimed : target = some id)
      (accounts : before.store.accounts.Perm ((id, handle) :: after.store.accounts))
      (native : after.native = (engine.dispose handle before.native).1)
      (created : createdIn events = []) (disposed : disposedIn events = [handle])
  | passed (accounts : after.store.accounts.Perm before.store.accounts)
      (native : after.native = (engine.dispose (engine.create before.native).1
        (engine.create before.native).2).1)
      (created : createdIn events = [(engine.create before.native).1])
      (disposed : disposedIn events = [(engine.create before.native).1])

/-- A step has come to one of the four, by the calls that it reports. -/
structure Dealt (engine : Engine σ) (target : Option ContextId) (before after : Workspace σ)
    (events : List Event) : Prop where
  accountable : after.store.Accountable
  deal : Deal engine target before after events
  served : engine.Serves before.native events after.native

/-- A context that is not the target stays, and keeps its native handle. -/
theorem Dealt.stays {target : Option ContextId} {before after : Workspace σ} {events : List Event}
    {id : ContextId} {context : Context} (dealt : Dealt engine target before after events)
    (accountable : before.store.Accountable) (found : before.store.context? id = some context)
    (other : target ≠ some id) :
    ∃ later, after.store.context? id = some later ∧ later.native = context.native := by
  have listed : (id, context.native) ∈ before.store.accounts :=
    accountable.mem_accounts.mpr ⟨context, found, rfl⟩
  apply dealt.accountable.mem_accounts.mp
  cases dealt.deal with
  | idle accounts => exact accounts ▸ listed
  | created made accounts => exact accounts.mem_iff.mpr (List.mem_cons_of_mem _ listed)
  | passed accounts => exact accounts.mem_iff.mpr listed
  | destroyed gone handle aimed accounts =>
      refine (List.mem_cons.mp (accounts.mem_iff.mp listed)).resolve_left fun same => ?_
      obtain ⟨rfl, _⟩ := Prod.mk.inj same
      exact other aimed

theorem Dealt.of_keeps {α : Type} {outcome : Outcome σ α} {target : Option ContextId}
    (accountable : workspace.store.Accountable) (kept : Action.Keeps workspace outcome) :
    Dealt engine target workspace outcome.workspace outcome.events where
  accountable := kept.accountable accountable
  deal := .idle kept.accounts kept.native kept.silent
  served := by
    rw [kept.native]
    exact .of_silent kept.silent

namespace Action

/-! ### Creation and destruction -/

variable {id : ContextId} {context : Context} {after : Store}

/-- The handle of the destroyed context is the only one that is disposed of. -/
theorem destroyContext_of_done (done : workspace.store.destroy id = .ok (context, after)) :
    ∃ events, destroyContext engine id workspace =
        ⟨.ok (), ⟨after, (engine.dispose context.native workspace.native).1⟩, events⟩ ∧
      createdIn events = [] ∧ disposedIn events = [context.native] ∧
      engine.Serves workspace.native events (engine.dispose context.native workspace.native).1 := by
  have rest : Silent ((engine.dispose context.native workspace.native).2.map Event.log ++
      [Event.debug (destructionText context)]) :=
    (Silent.records _).append (.single ⟨rfl, rfl⟩)
  refine ⟨.engine (.dispose context.native) :: _, ?_, rest.created,
    congrArg (context.native :: ·) rest.disposed, .dispose _ (.of_silent rest)⟩
  unfold destroyContext
  rw [done]
  rfl

theorem createContext_serves (name : String) :
    engine.Serves workspace.native (createContext engine name workspace).events
      (createContext engine name workspace).workspace.native :=
  .create (.of_silent (.single ⟨rfl, rfl⟩))

theorem createContext_dealt (accountable : workspace.store.Accountable) (name : String) :
    Dealt engine none workspace (createContext engine name workspace).workspace
      (createContext engine name workspace).events where
  accountable := accountable.create
  deal := .created _ accountable.sound.accounts_create rfl rfl rfl
  served := createContext_serves name

theorem destroyContext_dealt (accountable : workspace.store.Accountable) (id : ContextId) :
    Dealt engine (some id) workspace (destroyContext engine id workspace).workspace
      (destroyContext engine id workspace).events := by
  cases done : workspace.store.destroy id with
  | error fault =>
      have refused : destroyContext engine id workspace = ⟨.error fault, workspace, []⟩ := by
        unfold destroyContext
        rw [done]
      rw [refused]
      exact .of_keeps accountable (keeps_of_unchanged .nil : Keeps workspace ⟨.error fault, _, []⟩)
  | ok result =>
      obtain ⟨context, after⟩ := result
      obtain ⟨events, destroyed, created, disposed, served⟩ :=
        @destroyContext_of_done _ engine _ _ _ _ done
      rw [destroyed]
      have tagged : context.id = id := accountable.tagged id context (Store.destroy_done done).1
      exact ⟨accountable.destroy done,
        .destroyed _ _ (congrArg some tagged.symm) (Store.accounts_destroy done) rfl created disposed,
        served⟩

end Action

namespace Description

/-! ### Builds -/

variable {α : Type} {id : ContextId} {construction : Construction α} {description : Module}

theorem construct_idle {settings : Settings} (idle : construction.Idle settings) :
    Action.Idle (construct id construction : Action σ (Except BuildFault α)) := by
  intro workspace
  unfold construct
  cases found : workspace.store.context? id with
  | none => exact Action.keeps_of_unchanged .nil
  | some context =>
      obtain ⟨course, later, added, silent⟩ := idle ⟨context, []⟩
      refine Action.keeps_put found course.id_eq course.native_eq ?_
      rw [List.nil_append] at added
      exact added ▸ silent

theorem construct_of_live {context : Context} (found : workspace.store.context? id = some context) :
    ∃ result, (construct id construction workspace).result = .ok result := by
  unfold construct
  rw [found]
  exact ⟨_, rfl⟩

section Building

open Workspace

variable (accountable : workspace.store.Accountable)

include accountable

/-- The construction inside a build runs in a fresh context, and comes to an end there. -/
theorem constructed_keeps (engine : Engine σ) (description : Module) :
    (opened engine description workspace).store.Accountable ∧
      Action.Keeps (opened engine description workspace)
        (constructed engine description workspace) ∧
      ∃ result, (constructed engine description workspace).result = .ok result := by
  have created : (opened engine description workspace).store.Accountable := accountable.create
  refine ⟨created, construct_idle (populate_idle _ description) _, ?_⟩
  exact construct_of_live (accountable.sound.context?_created _ _)

/-- During a build there is one account more. -/
theorem accounts_constructed (engine : Engine σ) (description : Module) :
    (constructed engine description workspace).workspace.store.accounts.Perm
      ((openedId engine description workspace, (engine.create workspace.native).1) ::
        workspace.store.accounts) := by
  rw [(constructed_keeps accountable engine description).2.1.accounts]
  exact accountable.sound.accounts_create

theorem constructed_served {events : List Event} {last : σ}
    (later :
      engine.Serves (constructed engine description workspace).workspace.native events last) :
    engine.Serves workspace.native
      ((Action.createContext engine description.name workspace).events ++
        ((constructed engine description workspace).events ++ events)) last := by
  have kept := (constructed_keeps accountable engine description).2.1
  rw [kept.native] at later
  exact (Action.createContext_serves description.name).append
    ((Engine.Serves.of_silent kept.silent).append later)

/-- A build whose construction fails destroys the context that it made, and gives back the native
handle. -/
structure Retracts (engine : Engine σ) (description : Module) (workspace : Workspace σ)
    (fault : BuildFault) : Prop where
  result : (build engine description workspace).result = .ok (.error fault)
  destroyed : ∃ context, context.native = (engine.create workspace.native).1 ∧
    (constructed engine description workspace).workspace.store.destroy
      (openedId engine description workspace) =
        .ok (context, (build engine description workspace).workspace.store)
  native : (build engine description workspace).workspace.native =
    (engine.dispose (engine.create workspace.native).1 (engine.create workspace.native).2).1
  created : createdIn (build engine description workspace).events =
    [(engine.create workspace.native).1]
  disposed : disposedIn (build engine description workspace).events =
    [(engine.create workspace.native).1]
  served : engine.Serves workspace.native (build engine description workspace).events
    (build engine description workspace).workspace.native

theorem retracts_of_fault {fault : BuildFault}
    (done : (constructed engine description workspace).result = .ok (.error fault)) :
    Retracts engine description workspace fault := by
  obtain ⟨opening, kept, _⟩ := constructed_keeps accountable engine description
  have still := kept.accountable opening
  obtain ⟨left, live, sameHandle⟩ := still.mem_accounts.mp
    ((accounts_constructed accountable engine description).mem_iff.mpr List.mem_cons_self)
  obtain ⟨after, emptied⟩ := Store.destroy_of_live live
  obtain ⟨events, destroyed, created, disposed, returned⟩ :=
    @Action.destroyContext_of_done _ engine _ _ _ _ emptied
  rw [sameHandle] at destroyed disposed returned
  have last : concluded engine (openedId engine description workspace) (.error fault)
      (constructed engine description workspace).workspace = ⟨.ok (.error fault), ⟨after,
        (engine.dispose (engine.create workspace.native).1
          (constructed engine description workspace).workspace.native).1⟩, events⟩ := by
    have passed : (Action.destroyContext engine (openedId engine description workspace)
        (constructed engine description workspace).workspace).result = .ok () := by
      rw [destroyed]
    refine (Action.outcome_bind passed).trans ?_
    rw [destroyed]
    exact congrArg _ (List.append_nil events)
  have came := build_of_constructed done
  rw [last] at came
  constructor
  · rw [came]
  · rw [came]
    exact ⟨left, sameHandle, emptied⟩
  · rw [came, kept.native]
    rfl
  · rw [came, createdIn_append, createdIn_append, kept.silent.created, created]
    rfl
  · rw [came, disposedIn_append, disposedIn_append, kept.silent.disposed, disposed]
    rfl
  · rw [came]
    exact constructed_served accountable returned

/-- A build leaves the context that it made, or destroys it again. -/
theorem build_dealt (description : Module) :
    Dealt engine none workspace (build engine description workspace).workspace
      (build engine description workspace).events := by
  obtain ⟨opening, kept, result, done⟩ := constructed_keeps accountable engine description
  have still := kept.accountable opening
  have accounts := accounts_constructed accountable engine description
  cases result with
  | ok _ =>
      rw [build_of_constructed done]
      refine ⟨still, .created _ accounts kept.native ?_ ?_,
        constructed_served accountable (.done _)⟩
      · rw [createdIn_append, createdIn_append, kept.silent.created]
        rfl
      · rw [disposedIn_append, disposedIn_append, kept.silent.disposed]
        rfl
  | error fault =>
      have retracts := retracts_of_fault accountable done
      obtain ⟨context, sameHandle, emptied⟩ := retracts.destroyed
      have gone := (Store.accounts_destroy emptied).symm.trans accounts
      rw [still.tagged _ _ (Store.destroy_done emptied).1, sameHandle] at gone
      exact ⟨still.destroy emptied,
        .passed gone.cons_inv retracts.native retracts.created retracts.disposed, retracts.served⟩

end Building

end Description

/-! ### All steps -/

/-- Every step comes to one of the four. -/
theorem Task.dealt (engine : Engine σ) (accountable : workspace.store.Accountable) (task : Task) :
    Dealt engine task.target? workspace (task.run engine workspace).1
      (task.run engine workspace).2 := by
  cases task with
  | build description => exact Description.build_dealt accountable description
  | request asked =>
      by_cases keeps : asked.keepsContexts = true
      · exact .of_keeps accountable (asked.idle engine keeps workspace)
      · cases asked with
        | command change =>
            cases change with
            | createContext name =>
                exact Action.createContext_dealt accountable name
            | destroyContext id =>
                -- The answer is seen as that of a command, and that as a response.
                have inner := Action.trace_bind_pure (Action.destroyContext engine id)
                  (fun _ => Answer.done) workspace
                have outer := Action.trace_bind_pure
                  ((Command.destroyContext id).run engine) Response.answer workspace
                have same : (Task.request (.command (.destroyContext id))).run engine workspace =
                    ((Action.destroyContext engine id workspace).workspace,
                      (Action.destroyContext engine id workspace).events) :=
                  Prod.ext (outer.1.trans inner.1) (outer.2.trans inner.2)
                rw [same]
                exact Action.destroyContext_dealt accountable id
            | _ => exact absurd rfl keeps
        | _ => exact absurd rfl keeps

/-! ### Runs -/

namespace Workspace

theorem accountable_start (settings : Settings) (native : σ) :
    (start settings native).store.Accountable := Store.accountable_empty settings

theorem accountable_pursue (accountable : workspace.store.Accountable)
    (run : List (Engine σ × Task)) : (workspace.pursue run).1.store.Accountable := by
  induction run generalizing workspace with
  | nil => exact accountable
  | cons step rest inductionHypothesis =>
      exact inductionHypothesis (step.2.dealt step.1 accountable).accountable

/-- A context stays with its native handle until a task is to destroy it. -/
theorem pursue_stays (accountable : workspace.store.Accountable) {id : ContextId}
    {context : Context} (found : workspace.store.context? id = some context)
    {run : List (Engine σ × Task)} (spared : ∀ step ∈ run, step.2.target? ≠ some id) :
    ∃ later, (workspace.pursue run).1.store.context? id = some later ∧
      later.native = context.native := by
  induction run generalizing workspace context with
  | nil => exact ⟨context, found, rfl⟩
  | cons step rest inductionHypothesis =>
      obtain ⟨first, others⟩ := List.forall_mem_cons.mp spared
      have dealt := step.2.dealt step.1 accountable
      obtain ⟨between, lives, native⟩ := dealt.stays accountable found first
      obtain ⟨later, last, same⟩ := inductionHypothesis dealt.accountable lives others
      exact ⟨later, last, same.trans native⟩

end Workspace

end TypedIR
