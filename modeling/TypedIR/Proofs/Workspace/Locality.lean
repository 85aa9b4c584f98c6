import TypedIR.Proofs.Workspace.Commands
import TypedIR.Proofs.Workspace.Requests

/-!
Contract: requests about one context see and change that context alone.

Owns:
- workspaces that agree on one context;
- local actions, which come to the same in all such workspaces, and how they compose;
- engines that look at one context at a time, the reference engine among them;
- that every request is local whose handles are of one context, creation and destruction apart.

Does not own: what requests about different contexts do to each other.
-/

namespace TypedIR

variable {σ α β : Type} {engine : Engine σ} {id : ContextId} {context : Context}

namespace Workspace

/-- The workspace with another context in the place of a live one. -/
def put (workspace : Workspace σ) (id : ContextId) (context : Context) : Workspace σ :=
  { workspace with store := workspace.store.put id.index context }

theorem put_self {workspace : Workspace σ} (found : workspace.store.context? id = some context) :
    workspace.put id context = workspace :=
  congrArg (fun store => (⟨store, workspace.native⟩ : Workspace σ)) (Store.put_self found)

theorem put_put {workspace : Workspace σ} {changed : Context} :
    (workspace.put id context).put id changed = workspace.put id changed :=
  congrArg (fun store => (⟨store, workspace.native⟩ : Workspace σ)) (Store.put_put id.index)

/-- Both workspaces hold the same context, which carries its own identity, under the same settings
and with the same engine state. They may differ in all other contexts. -/
structure Agree (id : ContextId) (context : Context) (first second : Workspace σ) : Prop where
  settings : first.store.settings = second.store.settings
  native : first.native = second.native
  here : first.store.context? id = some context
  there : second.store.context? id = some context
  self : context.id = id

variable {first second : Workspace σ}

theorem agree_refl (found : first.store.context? id = some context) (self : context.id = id) :
    Agree id context first first :=
  ⟨rfl, rfl, found, found, self⟩

theorem Agree.put (agree : Agree id context first second) {changed : Context}
    (self : changed.id = id) : Agree id changed (first.put id changed) (second.put id changed) where
  settings := agree.settings
  native := agree.native
  here := (Store.context?_put agree.here).trans (if_pos rfl)
  there := (Store.context?_put agree.there).trans (if_pos rfl)
  self := self

/-- A change of another context goes unnoticed. -/
theorem Agree.put_other (agree : Agree id context first second) {other : ContextId}
    {held changed : Context} (found : first.store.context? other = some held)
    (apart : id ≠ other) : Agree id context (first.put other changed) second where
  settings := agree.settings
  native := agree.native
  here := (Store.context?_put found).trans ((if_neg apart).trans agree.here)
  there := agree.there
  self := agree.self

theorem Agree.read_eq (agree : Agree id context first second)
    (query : Context → Except Fault α) : first.store.read id query = second.store.read id query := by
  unfold Store.read Store.resolve
  rw [agree.here, agree.there]

end Workspace

/-- What the engine says of a context and its functions, it says in all workspaces that agree on the
context. -/
def Engine.IsLocal (engine : Engine σ) : Prop :=
  ∀ id context first second, Workspace.Agree id context first second →
    engine.write first.native first.store id = engine.write second.native second.store id ∧
      ∀ function, function.context = id →
        engine.verify first.native first.store function =
          engine.verify second.native second.store function

theorem Engine.reference_isLocal : Engine.reference.IsLocal := by
  intro id context first second agree
  constructor
  · have text : first.store.moduleText id = second.store.moduleText id := agree.read_eq _
    unfold Engine.reference
    dsimp only
    rw [text]
  · rintro function rfl
    have report : first.store.report function = second.store.report function := by
      unfold Store.report
      rw [agree.settings, agree.read_eq]
    exact congrArg (Judgement.ofReport function) report

namespace Action

/-- The action comes to the same result and the same context in all workspaces that agree on the
context, and changes nothing else. -/
def Local (id : ContextId) (action : Action σ α) : Prop :=
  ∀ context first second, Workspace.Agree id context first second →
    ∃ result changed events, changed.id = id ∧
      action first = ⟨result, first.put id changed, events⟩ ∧
      action second = ⟨result, second.put id changed, events⟩

/-! ### Composition -/

/-- An action that changes nothing puts the context back. -/
theorem exists_put_of_unchanged {action : Action σ α} {first second : Workspace σ}
    {result : Except Fault α} {events : List Event}
    (agree : Workspace.Agree id context first second)
    (here : action first = ⟨result, first, events⟩)
    (there : action second = ⟨result, second, events⟩) :
    ∃ result changed events, changed.id = id ∧
      action first = ⟨result, first.put id changed, events⟩ ∧
      action second = ⟨result, second.put id changed, events⟩ := by
  refine ⟨result, context, events, agree.self, ?_, ?_⟩
  · rw [Workspace.put_self agree.here, here]
  · rw [Workspace.put_self agree.there, there]

theorem local_pure (value : α) : Local id (pure value : Action σ α) :=
  fun _ _ _ agree => exists_put_of_unchanged agree rfl rfl

theorem local_fail (fault : Fault) : Local id (fail fault : Action σ α) :=
  fun _ _ _ agree => exists_put_of_unchanged agree rfl rfl

theorem local_emit (events : List Event) : Local id (emit events : Action σ Unit) :=
  fun _ _ _ agree => exists_put_of_unchanged agree rfl rfl

theorem local_inspect {query : Store → Except Fault α}
    (same : ∀ context (first second : Workspace σ), Workspace.Agree id context first second →
      query first.store = query second.store) : Local id (inspect query : Action σ α) := by
  intro context first second agree
  refine exists_put_of_unchanged agree rfl ?_
  rw [same context first second agree]
  rfl

theorem local_read (query : Context → Except Fault α) :
    Local id (inspect fun store => store.read id query : Action σ α) :=
  local_inspect fun _ _ _ agree => agree.read_eq query

theorem Local.bind {action : Action σ α} {next : α → Action σ β} (first : Local id action)
    (second : ∀ value, Local id (next value)) : Local id (action >>= next) := by
  intro context one two agree
  obtain ⟨result, changed, events, self, oneDone, twoDone⟩ := first context one two agree
  show ∃ result changed events, _ ∧ Action.bind action next one = _ ∧
    Action.bind action next two = _
  unfold Action.bind
  rw [oneDone, twoDone]
  cases result with
  | error fault => exact ⟨.error fault, changed, events, self, rfl, rfl⟩
  | ok value =>
      obtain ⟨later, last, laterEvents, lastSelf, oneLater, twoLater⟩ :=
        second value _ _ _ (agree.put self)
      rw [Workspace.put_put] at oneLater twoLater
      dsimp only
      rw [oneLater, twoLater]
      exact ⟨later, last, events ++ laterEvents, lastSelf, rfl, rfl⟩

/-! ### Actions -/

theorem local_perform {operation : Operation α} (home : operation.home = id)
    (keeps : ∀ context value changed, context.id = operation.home →
      (operation.effect context).1 = .ok (value, changed) → changed.id = context.id) :
    Local id (perform operation : Action σ α) := by
  intro context first second agree
  subst home
  unfold perform
  cases operation.screen with
  | error fault =>
      refine ⟨.error fault, context, [], agree.self, ?_, ?_⟩
      · rw [Workspace.put_self agree.here]
      · rw [Workspace.put_self agree.there]
  | ok _ =>
      dsimp only
      rw [agree.here, agree.there]
      dsimp only
      cases applied : operation.effect context with
      | mk result events =>
          cases result with
          | error fault =>
              refine ⟨.error fault, context, events, agree.self, ?_, ?_⟩
              · rw [Workspace.put_self agree.here]
              · rw [Workspace.put_self agree.there]
          | ok made =>
              have self : made.2.id = context.id :=
                keeps context made.1 made.2 agree.self (congrArg Prod.fst applied)
              exact ⟨.ok made.1, made.2, events, self.trans agree.self, rfl, rfl⟩

theorem local_verify (isLocal : engine.IsLocal) {function : FunctionId}
    (home : function.context = id) : Local id (verify engine function) := by
  intro context first second agree
  subst home
  have judged := (isLocal _ _ _ _ agree).2 function rfl
  have named := agree.read_eq fun context => context.functionName function
  unfold verify
  rw [← named, ← judged]
  cases first.store.read function.context fun context => context.functionName function with
  | error fault =>
      refine ⟨.error fault, context, [], agree.self, ?_, ?_⟩
      · rw [Workspace.put_self agree.here]
      · rw [Workspace.put_self agree.there]
  | ok name =>
      dsimp only
      rw [Store.recordState_eq agree.here, Store.recordState_eq agree.there]
      exact ⟨_, context.recordState function.index _, _, agree.self, rfl, rfl⟩

theorem local_verifyEach (isLocal : engine.IsLocal) {functions : List FunctionId}
    (home : ∀ function ∈ functions, function.context = id) :
    Local id (verifyEach engine functions) := by
  induction functions with
  | nil => exact local_pure []
  | cons function rest inductionHypothesis =>
      have later := inductionHypothesis fun other listed =>
        home other (List.mem_cons_of_mem _ listed)
      exact (local_verify isLocal (home function List.mem_cons_self)).bind fun _ =>
        later.bind fun _ => local_pure _

/-- The functions of a context are its own, so each of them is verified in the same context. -/
theorem local_verifyModule (isLocal : engine.IsLocal) : Local id (verifyModule engine id) := by
  intro context first second agree
  have listed : ∀ workspace : Workspace σ, workspace.store.context? id = some context →
      verifyModule engine id workspace =
        (verifyEach engine (context.functions.map fun entry => context.functionId entry.self) >>=
          fun reasons => pure (.ofReasons reasons)) workspace := by
    intro workspace found
    show Action.bind (inspect (functionsOf id)) _ workspace = _
    unfold Action.bind inspect
    rw [functionsOf_found found]
    rfl
  rw [listed first agree.here, listed second agree.there]
  refine (local_verifyEach isLocal ?_).bind (fun _ => local_pure _) _ _ _ agree
  intro function member
  obtain ⟨entry, _, rfl⟩ := List.mem_map.mp member
  exact agree.self

theorem local_writeModule (isLocal : engine.IsLocal) : Local id (writeModule engine id) := by
  intro context first second agree
  refine exists_put_of_unchanged agree rfl ?_
  rw [(isLocal _ _ _ _ agree).1]
  rfl

theorem local_emitModule (isLocal : engine.IsLocal) : Local id (emitModule engine id) := by
  have settings : Local id (inspect fun store => .ok store.settings : Action σ Settings) :=
    local_inspect fun _ _ _ agree => congrArg Except.ok agree.settings
  refine settings.bind fun settings => ?_
  by_cases gated : settings.verifyBeforeEmit = true
  · rw [if_pos gated]
    refine (local_verifyModule isLocal).bind fun verdict => ?_
    cases verdict with
    | valid => exact local_writeModule isLocal
    | invalid reasons => exact local_fail _
  · rw [if_neg gated]
    exact local_writeModule isLocal

theorem local_setConvention {function : FunctionId} (home : function.context = id)
    (code : UInt32) : Local id (setConvention engine function code) := by
  intro context first second agree
  have performed : Local id (perform (.setConvention (engine.accepts second.native) engine.name
      function code) : Action σ Unit) := by
    refine local_perform home fun before value changed _ done => ?_
    exact (@Context.setConvention_ok first.store.settings _ _ _ _ _ _ _ done).2.id_eq
  unfold setConvention
  rw [agree.native]
  exact performed _ _ _ agree

theorem local_settle (subject : Subject) (verdict : Verdict) :
    Local id (settle subject verdict : Action σ (Except AbortNotice Verdict)) := by
  cases verdict with
  | valid => exact local_pure _
  | invalid reasons => exact (local_emit _).bind fun _ => local_pure _

end Action

/-- An edit runs in the context of its handles. -/
theorem Edit.home_of_handles {change : Edit} (settings : Settings)
    (tagged : ∀ handle ∈ change.handles, handle.tag = id) :
    (change.operation settings).home = id := by
  cases change with
  | _ => exact tagged _ List.mem_cons_self

theorem Action.local_edit {change : Edit} (tagged : ∀ handle ∈ change.handles, handle.tag = id) :
    Local id fun workspace : Workspace σ =>
      perform (change.operation workspace.store.settings) workspace := by
  intro context first second agree
  have performed : Local id (perform (change.operation second.store.settings) : Action σ Answer) :=
    local_perform (Edit.home_of_handles _ tagged) fun before value changed self done =>
      (Edit.operation_ok self done).2.id_eq
  dsimp only
  rw [agree.settings]
  exact performed _ _ _ agree

/-! ### Requests -/

namespace Request

/-- The handles that the request is given. -/
def handles : Request → List Handle
  | .command change => change.handles
  | .query question => [question.handle]
  | .describeType type => [.type type]
  | .isAlive context | .verifyModuleOrAbort context => [.context context]
  | .verifyOrAbort function => [.function function]

/-- The request neither creates nor destroys a context. -/
def keepsContexts : Request → Bool
  | .command (.createContext _) | .command (.destroyContext _) => false
  | _ => true

/-- All handles of the request are of the context, which it neither creates nor destroys. -/
def isWithin (id : ContextId) (request : Request) : Bool :=
  request.keepsContexts && request.handles.all fun handle => handle.tag == id

theorem tag_of_isWithin {request : Request} (within : request.isWithin id = true) :
    ∀ handle ∈ request.handles, handle.tag = id := by
  intro handle given
  have each := List.all_eq_true.mp (Bool.and_eq_true_iff.mp within).2 handle given
  exact eq_of_beq each

theorem local_command (isLocal : engine.IsLocal) {change : Command}
    (within : (command change).isWithin id = true) : Action.Local id (change.run engine) := by
  have tagged := tag_of_isWithin within
  cases change with
  | createContext name => cases within
  | destroyContext target => cases within
  | edit change => exact Action.local_edit tagged
  | setConvention function code =>
      exact (Action.local_setConvention (tagged _ List.mem_cons_self) code).bind fun _ =>
        Action.local_pure _
  | verify function =>
      exact (Action.local_verify isLocal (tagged _ List.mem_cons_self)).bind fun _ =>
        Action.local_pure _
  | verifyModule target =>
      obtain rfl : target = id := tagged _ List.mem_cons_self
      exact (Action.local_verifyModule isLocal).bind fun _ => Action.local_pure _
  | emitModule target =>
      obtain rfl : target = id := tagged _ List.mem_cons_self
      exact (Action.local_emitModule isLocal).bind fun _ => Action.local_pure _

theorem local_run (isLocal : engine.IsLocal) {request : Request}
    (within : request.isWithin id = true) : Action.Local id (request.run engine) := by
  have tagged := tag_of_isWithin within
  cases request with
  | command change => exact (local_command isLocal within).bind fun _ => Action.local_pure _
  | query question =>
      obtain rfl : question.home = id :=
        question.handle_tag.symm.trans (tagged _ List.mem_cons_self)
      exact (Action.local_read _).bind fun _ => Action.local_pure _
  | describeType type =>
      obtain rfl : type.context = id := tagged _ List.mem_cons_self
      refine (Action.local_inspect fun _ _ _ agree => ?_).bind fun _ => Action.local_pure _
      have answered : (Query.typeText type).answer _ = (Query.typeText type).answer _ :=
        agree.read_eq _
      unfold Store.describeType
      rw [answered]
  | isAlive target =>
      obtain rfl : target = id := tagged _ List.mem_cons_self
      refine (Action.local_inspect fun _ _ _ agree => ?_).bind fun _ => Action.local_pure _
      unfold Store.isAlive
      rw [agree.here, agree.there]
  | verifyOrAbort function =>
      obtain rfl : function.context = id := tagged _ List.mem_cons_self
      have settled : Action.Local function.context (Action.verifyOrAbort engine function) :=
        (Action.local_read _).bind fun name =>
          (Action.local_verify isLocal rfl).bind fun verdict => Action.local_settle _ verdict
      exact settled.bind fun _ => Action.local_pure _
  | verifyModuleOrAbort target =>
      obtain rfl : target = id := tagged _ List.mem_cons_self
      have settled : Action.Local target (Action.verifyModuleOrAbort engine target) :=
        (Action.local_read _).bind fun name =>
          (Action.local_verifyModule isLocal).bind fun verdict => Action.local_settle _ verdict
      exact settled.bind fun _ => Action.local_pure _

end Request

end TypedIR
