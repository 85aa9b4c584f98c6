import TypedIR.Proofs.Workspace.Locality
import TypedIR.Proofs.Workspace.Slots

/-!
Contract: what becomes of native handles in one step.

Owns:
- the handles that a sequence of events gives out and takes back;
- operations, which report neither and make elementary changes only, whatever their home is;
- actions that leave the accounts and the engine's handles alone, and how they compose;
- that only creation and destruction of a context do more, one account at a time.

Does not own: builds, and runs of several steps.
-/

namespace TypedIR

variable {σ α β : Type}

/-! ### Events -/

namespace Event

/-- The handle that the engine has given out. -/
def created? : Event → Option NativeHandle
  | .engine (.create handle) => some handle
  | _ => none

/-- The handle that the engine has been told to take back. -/
def disposed? : Event → Option NativeHandle
  | .engine (.dispose handle) => some handle
  | _ => none

/-- No handle is given out or taken back. -/
def IsSilent (event : Event) : Prop := event.created? = none ∧ event.disposed? = none

end Event

/-- The handles given out, in order. -/
def createdIn (events : List Event) : List NativeHandle := events.filterMap Event.created?

/-- The handles taken back, in order. -/
def disposedIn (events : List Event) : List NativeHandle := events.filterMap Event.disposed?

@[simp] theorem createdIn_append (first second : List Event) :
    createdIn (first ++ second) = createdIn first ++ createdIn second := List.filterMap_append

@[simp] theorem disposedIn_append (first second : List Event) :
    disposedIn (first ++ second) = disposedIn first ++ disposedIn second := List.filterMap_append

/-- All events are silent. -/
def Silent (events : List Event) : Prop := ∀ event ∈ events, event.IsSilent

namespace Silent

variable {first second events : List Event}

theorem nil : Silent [] := fun _ member => by cases member

theorem append (one : Silent first) (two : Silent second) : Silent (first ++ second) := by
  intro event member
  rcases List.mem_append.mp member with early | late
  · exact one event early
  · exact two event late

theorem cons {event : Event} (silent : event.IsSilent) (rest : Silent events) :
    Silent (event :: events) :=
  List.forall_mem_cons.mpr ⟨silent, rest⟩

theorem single {event : Event} (silent : event.IsSilent) : Silent [event] := cons silent nil

theorem records (records : List LogRecord) : Silent (records.map Event.log) := by
  intro event member
  obtain ⟨record, _, rfl⟩ := List.mem_map.mp member
  exact ⟨rfl, rfl⟩

theorem created (silent : Silent events) : createdIn events = [] :=
  List.filterMap_eq_nil_iff.mpr fun event member => (silent event member).1

theorem disposed (silent : Silent events) : disposedIn events = [] :=
  List.filterMap_eq_nil_iff.mpr fun event member => (silent event member).2

end Silent

/-! ### Operations -/

namespace Operation

/-- Whatever the home, the operation reports neither creation nor disposal. -/
def Reports (operation : Operation α) : Prop := ∀ home, Silent (operation.effect home).2

variable {home : ContextId} {apply : Context → Except Fault (α × Context)}

/-- One event for each type that is new. -/
theorem mem_internedEvents {before after : Context} {event : Event} :
    event ∈ internedEvents before after ↔ ∃ type shape,
      event = .interned (after.typeId type) shape ∧ before.types.size ≤ type ∧
        after.shape? type = some shape := by
  simp only [internedEvents, List.mem_mapIdx, List.length_drop, List.getElem_drop,
    Array.length_toList, Array.getElem_toList]
  constructor
  · rintro ⟨offset, inside, rfl⟩
    exact ⟨_, _, rfl, Nat.le_add_right _ _, Array.getElem?_eq_getElem (by omega)⟩
  · rintro ⟨type, shape, rfl, new, known⟩
    obtain ⟨inside, rfl⟩ := Array.getElem?_eq_some_iff.mp known
    refine ⟨type - before.types.size, by omega, ?_⟩
    have whole : before.types.size + (type - before.types.size) = type := by omega
    simp only [whole]

theorem silent_internedEvents (before after : Context) : Silent (internedEvents before after) := by
  intro event listed
  obtain ⟨_, _, rfl, _⟩ := mem_internedEvents.mp listed
  exact ⟨rfl, rfl⟩

theorem reports_reported {report : Context → α → List Event}
    (silent : ∀ context value, Silent (report context value)) :
    (reported home apply report).Reports := by
  intro context
  unfold reported
  dsimp only
  cases apply context with
  | error fault => exact .nil
  | ok result => exact (silent_internedEvents context result.2).append (silent context result.1)

theorem reports_quiet : (quiet home apply).Reports := reports_reported fun _ _ => .nil

theorem reports_appending {block : BlockId} {opcode : String}
    {apply : Context → Except Fault (ValueId × Context)} :
    (appending block opcode apply).Reports :=
  reports_reported fun _ _ => .single ⟨rfl, rfl⟩

theorem Reports.guarded {operation : Operation α} (reports : operation.Reports)
    (screen : Except Fault Unit) : (operation.guarded screen).Reports := reports

theorem Reports.map {operation : Operation α} (reports : operation.Reports) (view : α → β) :
    (operation.map view).Reports := reports

theorem reports_setConvention (accepts : UInt32 → Bool) (engine : String) (function : FunctionId)
    (code : UInt32) : (setConvention accepts engine function code).Reports := by
  intro context
  show Silent (if _ then _ else _)
  split
  · exact .single ⟨rfl, rfl⟩
  · exact .nil

theorem silent_renameEvents (value : ValueId) (name : String) (home : Context) :
    Silent (renameEvents value name home) := by
  unfold renameEvents
  split
  · exact .single ⟨rfl, rfl⟩
  · exact .nil

theorem silent_deletionEvents (function : FunctionId) (home : Context) :
    Silent (deletionEvents function home) := by
  unfold deletionEvents
  split
  · exact .single ⟨rfl, rfl⟩
  · exact .nil

theorem silent_alignmentEvents (value : ValueId) (align : UInt32) (home : Context) :
    Silent (alignmentEvents value align home) := by
  unfold alignmentEvents
  split
  · exact .single ⟨rfl, rfl⟩
  · exact .nil

end Operation

theorem Edit.reports (settings : Settings) (edit : Edit) : (edit.operation settings).Reports := by
  have noted : ∀ {γ : Type} {home : ContextId} {apply : Context → Except Fault (γ × Context)}
      {note : γ → List Event}, (∀ value, Silent (note value)) →
        (Operation.noted home apply note).Reports :=
    fun silent => Operation.reports_reported fun _ value => silent value
  cases edit with
  | integerConstant type number => exact (noted fun _ => .single ⟨rfl, rfl⟩).map _
  | arrayConstant element values =>
      exact ((noted fun _ => .single ⟨rfl, rfl⟩).guarded _).map _
  | bytesConstant context content terminated =>
      exact ((noted fun _ => .single ⟨rfl, rfl⟩).guarded _).map _
  | structConstant context values packed =>
      exact ((noted fun _ => .single ⟨rfl, rfl⟩).guarded _).map _
  | undefined type => exact (noted fun _ => .single ⟨rfl, rfl⟩).map _
  | declare context name signature =>
      exact ((noted fun _ => .single ⟨rfl, rfl⟩).guarded _).map _
  | rename value name =>
      exact (Operation.reports_reported fun home _ =>
        Operation.silent_renameEvents value name home).map _
  | appendBlock function name => exact (noted fun _ => .single ⟨rfl, rfl⟩).map _
  | deleteFunction function =>
      exact (Operation.reports_reported fun home _ =>
        Operation.silent_deletionEvents function home).map _
  | addAttribute function site value => exact (noted fun _ => .single ⟨rfl, rfl⟩).map _
  | addTargetAttribute function key value => exact (noted fun _ => .single ⟨rfl, rfl⟩).map _
  | setAlignment value align =>
      exact (Operation.reports_reported fun home _ =>
        Operation.silent_alignmentEvents value align home).map _
  | binary | compare | select | call | ret | branch | condBranch | unreachable =>
      exact Operation.reports_appending.map _
  | integerType | structType | setPersonality => exact (Operation.reports_quiet.guarded _).map _
  | _ => exact Operation.reports_quiet.map _

/-! ### Operations in place -/

/-- In whatever context it runs, the operation makes elementary changes only, and it reports neither
creation nor disposal. -/
structure Operation.Idle (settings : Settings) (operation : Operation α) : Prop where
  course : ∀ home value changed, (operation.effect home).1 = .ok (value, changed) →
    Course settings home changed
  reports : operation.Reports

/-- How the result is seen makes no difference. -/
theorem Operation.Idle.of_map {settings : Settings} {operation : Operation α} {view : α → β}
    (idle : (operation.map view).Idle settings) : operation.Idle settings where
  course := fun home value changed done =>
    idle.course home (view value) changed (map_eq_ok.mpr ⟨value, done, rfl⟩)
  reports := idle.reports

theorem Edit.idle (settings : Settings) (edit : Edit) :
    (edit.operation settings).Idle settings where
  course := fun _ _ _ done => (Edit.operation_done done).2.course edit.effect_isEdit
  reports := edit.reports settings

theorem Operation.idle_setConvention (settings : Settings) (accepts : UInt32 → Bool)
    (engine : String) (function : FunctionId) (code : UInt32) :
    (setConvention accepts engine function code).Idle settings where
  course := fun _ _ _ done => (Context.setConvention_ok done).2.course fun _ equal => by cases equal
  reports := reports_setConvention accepts engine function code

/-! ### Actions -/

namespace Action

/-- No context and no native handle comes or goes. -/
structure Keeps (before : Workspace σ) (outcome : Outcome σ α) : Prop where
  accountable : before.store.Accountable → outcome.workspace.store.Accountable
  accounts : outcome.workspace.store.accounts = before.store.accounts
  native : outcome.workspace.native = before.native
  silent : Silent outcome.events

/-- In no workspace, the action makes a context or a native handle come or go. -/
def Idle (action : Action σ α) : Prop := ∀ workspace, Keeps workspace (action workspace)

variable {engine : Engine σ}

theorem keeps_of_unchanged {workspace : Workspace σ} {result : Except Fault α} {events : List Event}
    (silent : Silent events) : Keeps workspace (⟨result, workspace, events⟩ : Outcome σ α) :=
  ⟨fun accountable => accountable, rfl, rfl, silent⟩

theorem idle_pure (value : α) : Idle (pure value : Action σ α) := fun _ => keeps_of_unchanged .nil

theorem idle_fail (fault : Fault) : Idle (fail fault : Action σ α) :=
  fun _ => keeps_of_unchanged .nil

theorem idle_inspect (query : Store → Except Fault α) : Idle (inspect query : Action σ α) :=
  fun _ => keeps_of_unchanged .nil

theorem Idle.bind {action : Action σ α} {next : α → Action σ β} (first : Idle action)
    (second : ∀ value, Idle (next value)) : Idle (action >>= next) := by
  intro workspace
  have early := first workspace
  show Keeps workspace (Action.bind action next workspace)
  unfold Action.bind
  cases result : (action workspace).result with
  | error fault =>
      simp only [result]
      exact ⟨early.accountable, early.accounts, early.native, early.silent⟩
  | ok value =>
      have late := second value (action workspace).workspace
      simp only [result]
      exact ⟨fun accountable => late.accountable (early.accountable accountable),
        late.accounts.trans early.accounts, late.native.trans early.native,
        early.silent.append late.silent⟩

/-- A live context changes in place. -/
theorem keeps_put {workspace : Workspace σ} {id : ContextId} {context changed : Context}
    {result : Except Fault α} {events : List Event}
    (found : workspace.store.context? id = some context) (sameId : changed.id = context.id)
    (sameNative : changed.native = context.native) (silent : Silent events) :
    Keeps workspace (⟨result, { workspace with store := workspace.store.put id.index changed },
      events⟩ : Outcome σ α) :=
  ⟨fun accountable => accountable.put found sameId, Store.accounts_put found sameId sameNative, rfl,
    silent⟩

theorem idle_perform {settings : Settings} {operation : Operation α}
    (idle : operation.Idle settings) : Idle (perform operation : Action σ α) := by
  intro workspace
  unfold perform
  cases operation.screen with
  | error fault => exact keeps_of_unchanged .nil
  | ok _ =>
      dsimp only
      cases found : workspace.store.context? operation.home with
      | none => exact keeps_of_unchanged .nil
      | some home =>
          dsimp only
          have silent := idle.reports home
          cases done : operation.effect home with
          | mk result events =>
              rw [done] at silent
              cases result with
              | error fault => exact keeps_of_unchanged silent
              | ok made =>
                  have course := idle.course home made.1 made.2 (congrArg Prod.fst done)
                  exact keeps_put found course.id_eq course.native_eq silent

theorem idle_setConvention (function : FunctionId) (code : UInt32) :
    Idle (setConvention engine function code) := fun workspace =>
  idle_perform (Operation.idle_setConvention workspace.store.settings _ _ function code) workspace

theorem idle_verify (function : FunctionId) : Idle (verify engine function) := by
  intro workspace
  unfold verify
  cases named : workspace.store.read function.context
      fun context => context.functionName function with
  | error fault => exact keeps_of_unchanged .nil
  | ok name =>
      obtain ⟨context, found, _⟩ := Store.read_done named
      dsimp only
      rw [Store.recordState_eq found]
      refine keeps_put found rfl rfl (.cons ⟨rfl, rfl⟩ ?_)
      exact (Silent.records _).append (.single ⟨rfl, rfl⟩)

theorem idle_verifyEach (functions : List FunctionId) : Idle (verifyEach engine functions) := by
  induction functions with
  | nil => exact idle_pure []
  | cons function rest inductionHypothesis =>
      refine (idle_verify function).bind fun verdict => inductionHypothesis.bind fun reasons => ?_
      exact idle_pure _

theorem idle_verifyModule (id : ContextId) : Idle (verifyModule engine id) :=
  (idle_inspect _).bind fun functions => (idle_verifyEach functions).bind fun _ => idle_pure _

theorem idle_writeModule (id : ContextId) : Idle (writeModule engine id) :=
  fun _ => keeps_of_unchanged (.single ⟨rfl, rfl⟩)

theorem idle_emitModule (id : ContextId) : Idle (emitModule engine id) := by
  refine (idle_inspect _).bind fun settings => ?_
  split
  · apply (idle_verifyModule id).bind
    intro verdict
    cases verdict with
    | valid => exact idle_writeModule id
    | invalid reasons => exact idle_fail _
  · exact idle_writeModule id

theorem idle_settle (subject : Subject) (verdict : Verdict) :
    Idle (settle subject verdict : Action σ (Except AbortNotice Verdict)) := by
  cases verdict with
  | valid => exact idle_pure _
  | invalid reasons => exact fun _ => keeps_of_unchanged (.single ⟨rfl, rfl⟩)

end Action

/-- Only creation and destruction of a context are not idle. -/
theorem Request.idle (engine : Engine σ) {request : Request}
    (keeps : request.keepsContexts = true) : Action.Idle (request.run engine) := by
  cases request with
  | command change =>
      refine Action.Idle.bind ?_ fun _ => Action.idle_pure _
      cases change with
      | createContext name => cases keeps
      | destroyContext id => cases keeps
      | edit change =>
          exact fun workspace => Action.idle_perform (change.idle workspace.store.settings) workspace
      | setConvention function code =>
          exact (Action.idle_setConvention function code).bind fun _ => Action.idle_pure _
      | verify function => exact (Action.idle_verify function).bind fun _ => Action.idle_pure _
      | verifyModule id => exact (Action.idle_verifyModule id).bind fun _ => Action.idle_pure _
      | emitModule id => exact (Action.idle_emitModule id).bind fun _ => Action.idle_pure _
  | query question => exact (Action.idle_inspect _).bind fun _ => Action.idle_pure _
  | describeType type => exact (Action.idle_inspect _).bind fun _ => Action.idle_pure _
  | isAlive id => exact (Action.idle_inspect _).bind fun _ => Action.idle_pure _
  | verifyOrAbort function =>
      refine Action.Idle.bind ((Action.idle_inspect _).bind fun name => ?_) fun _ => Action.idle_pure _
      exact (Action.idle_verify function).bind fun verdict => Action.idle_settle _ verdict
  | verifyModuleOrAbort id =>
      refine Action.Idle.bind ((Action.idle_inspect _).bind fun name => ?_) fun _ => Action.idle_pure _
      exact (Action.idle_verifyModule id).bind fun verdict => Action.idle_settle _ verdict

end TypedIR
