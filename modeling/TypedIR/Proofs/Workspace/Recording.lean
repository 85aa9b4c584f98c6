import TypedIR.Proofs.Workspace.Commands
import TypedIR.Proofs.Workspace.Invalidation
import TypedIR.Proofs.Workspace.Judgements
import TypedIR.Proofs.Workspace.Requests

/-!
Contract: what one request does to the record of a function.

Owns:
- which requests judge a function, and which ones mark it as unverified;
- the record of a function after a request of either kind, and after any other one.

Does not own: what the verdicts are.
-/

namespace TypedIR

variable {σ : Type} {engine : Engine σ} {settings : Settings} {workspace : Workspace σ}
  {function : FunctionId} {state : VerificationState}

/-! ### Requests about a function -/

namespace Workspace

/-- Verification of the module comes to the function and has a verdict on it. -/
def JudgesWithin (engine : Engine σ) (workspace : Workspace σ) (id : ContextId)
    (function : FunctionId) (verdict : Verdict) : Prop :=
  ∃ earlier later reasons,
    Action.functionsOf id workspace.store = .ok (earlier ++ function :: later) ∧
    (Action.verifyEach engine earlier workspace).result = .ok reasons ∧
    (Action.verify engine function
      (Action.verifyEach engine earlier workspace).workspace).result = .ok verdict

end Workspace

namespace Command

/-- The command asks the engine about the function and has its verdict. Emission does so if the
settings want verification first. -/
def Judges (engine : Engine σ) (workspace : Workspace σ) (function : FunctionId)
    (verdict : Verdict) : Command → Prop
  | .verify target =>
      target = function ∧ (Action.verify engine function workspace).result = .ok verdict
  | .verifyModule id => workspace.JudgesWithin engine id function verdict
  | .emitModule id => workspace.store.settings.verifyBeforeEmit = true ∧
      workspace.JudgesWithin engine id function verdict
  | _ => False

/-- What the command is about makes the function unverified. -/
def Concerns (workspace : Workspace σ) (function : FunctionId) : Command → Prop
  | .edit change => (change.operation workspace.store.settings).home = function.context ∧
      ∃ context, workspace.store.context? function.context = some context ∧
        change.Invalidates context function.index
  | .setConvention target _ => target = function
  | _ => False

/-- The command succeeds and marks the function as unverified. -/
def Invalidates (engine : Engine σ) (workspace : Workspace σ) (function : FunctionId)
    (command : Command) : Prop :=
  command.Concerns workspace function ∧
    ∃ answer, (command.run engine workspace).result = .ok answer

end Command

namespace Request

def Judges (engine : Engine σ) (workspace : Workspace σ) (function : FunctionId)
    (verdict : Verdict) (request : Request) : Prop :=
  ∃ command, request.command? = some command ∧ command.Judges engine workspace function verdict

def Invalidates (engine : Engine σ) (workspace : Workspace σ) (function : FunctionId)
    (request : Request) : Prop :=
  ∃ command, request.command? = some command ∧ command.Invalidates engine workspace function

end Request

/-! ### Records -/

namespace Context

/-- What is recorded of the function is the state. -/
def Records (context : Context) (function : ValueRef) (state : VerificationState) : Prop :=
  ∃ entry ∈ context.functions, entry.self = function ∧ entry.state = state

variable {context : Context} {index : ValueRef}

theorem Records.unique (owned : context.Owned) {first second : VerificationState}
    (one : context.Records index first) (two : context.Records index second) : first = second := by
  obtain ⟨entry, member, rfl, rfl⟩ := one
  obtain ⟨another, anotherMember, same, rfl⟩ := two
  rw [List.inj_on_of_nodup_map owned.functions.distinct anotherMember member same]

theorem records_recordState {target : ValueRef} {recorded : VerificationState}
    (records : (context.recordState target recorded).Records index state) :
    if index = target then state = recorded else context.Records index state := by
  obtain ⟨entry, member, rfl, rfl⟩ := records
  obtain ⟨old, oldMember, rfl⟩ := mem_updateFunction.mp member
  by_cases here : old.self = target
  · rw [if_pos here, if_pos here]
  · rw [if_neg here, if_neg here]
    exact ⟨old, oldMember, rfl, rfl⟩

end Context

namespace Store

def Records (store : Store) (function : FunctionId) (state : VerificationState) : Prop :=
  ∃ context, store.context? function.context = some context ∧
    context.Records function.index state

theorem records_put {store : Store} {id : ContextId} {context changed : Context}
    (found : store.context? id = some context)
    (records : (store.put id.index changed).Records function state) :
    if function.context = id then changed.Records function.index state
    else store.Records function state := by
  obtain ⟨home, lookup, recorded⟩ := records
  rw [context?_put found] at lookup
  by_cases same : function.context = id
  · rw [if_pos same] at lookup ⊢
    obtain rfl := Option.some.inj lookup
    exact recorded
  · rw [if_neg same] at lookup ⊢
    exact ⟨home, lookup, recorded⟩

/-- A new context has no functions. -/
theorem records_create {store : Store} {native : NativeHandle} {name : String}
    (records : (store.create native name).2.Records function state) :
    store.Records function state := by
  obtain ⟨context, found, entry, member, recorded⟩ := records
  rcases context?_create found with ⟨_, rfl⟩ | old
  · cases member
  · exact ⟨context, old, entry, member, recorded⟩

/-- What the query for the state of a function tells is recorded of it. -/
theorem records_of_answer {store : Store}
    (told : (Query.state function).answer store = .ok (.state state)) :
    store.Records function state := by
  obtain ⟨context, found, answered⟩ := read_done told
  obtain ⟨entry, resolved, shown⟩ := bind_eq_ok.mp answered
  obtain ⟨member, self⟩ := Context.mem_of_function? (Context.resolveFunction_eq_ok.mp resolved).2
  exact ⟨context, found, entry, member, self, Fact.state.inj (pure_eq_ok.mp shown)⟩

end Store

/-- Contexts are coherent, and identities are given out once. -/
abbrev Workspace.Proper (settings : Settings) (workspace : Workspace σ) : Prop :=
  Store.Lasting.Within settings Store.Sound workspace

namespace Workspace

variable (proper : workspace.Proper settings)

include proper

theorem Proper.owned {id : ContextId} {context : Context}
    (found : workspace.store.context? id = some context) : context.Owned :=
  (proper.1.contexts id context found).2.owned

theorem Proper.live (records : workspace.store.Records function state) :
    workspace.store.Live (.function function) := by
  obtain ⟨context, found, entry, member, self, _⟩ := records
  obtain ⟨sameId, coherent⟩ := proper.1.contexts _ context found
  refine ⟨context, found, sameId.symm, entry, ?_⟩
  rw [← self]
  exact Context.function?_of_mem coherent.owned.functions.distinct member

theorem Proper.unique {second : VerificationState}
    (one : workspace.store.Records function state)
    (two : workspace.store.Records function second) : state = second := by
  obtain ⟨context, found, one⟩ := one
  obtain ⟨same, lookup, two⟩ := two
  obtain rfl := Option.some.inj (found.symm.trans lookup)
  exact one.unique (proper.owned found) two

end Workspace

/-! ### One verification -/

namespace Action

variable {target : FunctionId} {functions : List FunctionId}

/-- A verdict stands in the record. -/
theorem records_of_verified {verdict : Verdict}
    (done : (verify engine function workspace).result = .ok verdict)
    (records : (verify engine function workspace).workspace.store.Records function state) :
    state = verdict.state := by
  rcases verify_cases engine function workspace with ⟨_, refused, _⟩ | verified
  · cases refused.symm.trans done
  · obtain ⟨context, _, recorded, found, _, _, succeeded, equal⟩ := verified
    obtain rfl := Except.ok.inj (succeeded.symm.trans done)
    rw [equal] at records
    have inside := Store.records_put found records
    rw [if_pos rfl] at inside
    have written := Context.records_recordState inside
    rwa [if_pos rfl] at written

/-- Without a verdict on the function, its record stays. -/
theorem records_of_verify
    (unjudged : ∀ verdict, target = function → (verify engine target workspace).result ≠ .ok verdict)
    (records : (verify engine target workspace).workspace.store.Records function state) :
    workspace.store.Records function state := by
  rcases verify_cases engine target workspace with ⟨_, _, same⟩ | verified
  · rwa [same] at records
  · obtain ⟨context, _, verdict, found, _, _, succeeded, equal⟩ := verified
    have another : target ≠ function := fun same => unjudged verdict same succeeded
    rw [equal] at records
    have written := Store.records_put found records
    by_cases home : function.context = target.context
    · rw [if_pos home] at written
      have other : function.index ≠ target.index := by
        intro index
        apply another
        cases function
        cases target
        simp_all
      have kept := Context.records_recordState written
      rw [if_neg other] at kept
      exact ⟨context, home ▸ found, kept⟩
    · rwa [if_neg home] at written

theorem workspace_verifyEach_append {earlier later : List FunctionId} {reasons : List String}
    (done : (verifyEach engine earlier workspace).result = .ok reasons) :
    (verifyEach engine (earlier ++ later) workspace).workspace =
      (verifyEach engine later (verifyEach engine earlier workspace).workspace).workspace := by
  induction earlier generalizing workspace reasons with
  | nil => rfl
  | cons first rest inductionHypothesis =>
      obtain ⟨verdict, verified⟩ := ok_of_bind done
      have restDone : ∃ restReasons, (verifyEach engine rest
          (verify engine first workspace).workspace).result = .ok restReasons := by
        rw [verifyEach, result_bind verified] at done
        exact ok_of_bind done
      obtain ⟨restReasons, restDone⟩ := restDone
      rw [List.cons_append, workspace_verifyEach_cons verified, inductionHypothesis restDone,
        workspace_verifyEach_cons verified]

/-- Verification of several functions comes to the function, or leaves its record. -/
theorem records_of_verifyEach
    (records : (verifyEach engine functions workspace).workspace.store.Records function state) :
    (∃ earlier later reasons verdict, functions = earlier ++ function :: later ∧
        (verifyEach engine earlier workspace).result = .ok reasons ∧
        (verify engine function (verifyEach engine earlier workspace).workspace).result =
          .ok verdict) ∨
      workspace.store.Records function state := by
  induction functions generalizing workspace with
  | nil => exact .inr records
  | cons first rest inductionHypothesis =>
      cases verified : (verify engine first workspace).result with
      | error fault =>
          rw [verifyEach, (bind_of_error verified).2] at records
          refine .inr (records_of_verify (fun verdict _ done => ?_) records)
          cases verified.symm.trans done
      | ok verdict =>
          rw [workspace_verifyEach_cons verified] at records
          cases inductionHypothesis records with
          | inl judged =>
              obtain ⟨earlier, later, reasons, second, rfl, done, judged⟩ := judged
              have firstDone : (verifyEach engine (first :: earlier) workspace).result =
                  .ok (verdict.reasons ++ reasons) := by
                rw [verifyEach, result_bind verified, result_bind done]
                rfl
              refine .inl ⟨first :: earlier, later, _, second, rfl, firstDone, ?_⟩
              rwa [workspace_verifyEach_cons verified]
          | inr kept =>
              by_cases same : first = function
              · subst same
                exact .inl ⟨[], rest, [], verdict, rfl, rfl, verified⟩
              · exact .inr (records_of_verify (fun _ equal => absurd equal same) kept)

/-- Verification of a module comes to the function, or leaves its record. -/
theorem records_of_verifyModule {id : ContextId}
    (unjudged : ∀ verdict, ¬ workspace.JudgesWithin engine id function verdict)
    (records : (verifyModule engine id workspace).workspace.store.Records function state) :
    workspace.store.Records function state := by
  cases listed : functionsOf id workspace.store with
  | error fault =>
      have asked : (inspect (functionsOf id) workspace).result = .error fault := listed
      rwa [verifyModule, (bind_of_error asked).2] at records
  | ok functions =>
      rw [workspace_verifyModule listed] at records
      refine (records_of_verifyEach records).resolve_left ?_
      rintro ⟨earlier, later, reasons, verdict, rfl, done, judged⟩
      exact unjudged verdict ⟨earlier, later, reasons, listed, done, judged⟩

end Action

namespace Workspace

variable {id : ContextId} {verdict : Verdict}

/-- A function of a live context is live. -/
theorem Proper.live_of_listed (proper : workspace.Proper settings) {functions : List FunctionId}
    (listed : Action.functionsOf id workspace.store = .ok functions)
    (member : function ∈ functions) : workspace.store.Live (.function function) := by
  obtain ⟨context, found, rfl⟩ := Action.functionsOf_done listed
  obtain ⟨entry, entryMember, rfl⟩ := List.mem_map.mp member
  have home : workspace.store.context? (context.functionId entry.self).context = some context := by
    rw [← found, ← (proper.1.contexts id context found).1]
    rfl
  have records : workspace.store.Records (context.functionId entry.self) entry.state :=
    ⟨context, home, entry, entryMember, rfl, rfl⟩
  exact proper.live records

theorem JudgesWithin.live (proper : workspace.Proper settings)
    (judged : workspace.JudgesWithin engine id function verdict) :
    workspace.store.Live (.function function) := by
  obtain ⟨earlier, later, _, listed, _⟩ := judged
  exact proper.live_of_listed listed (List.mem_append_right earlier List.mem_cons_self)

/-- Each function is listed once, so the verdict that verification of the module has on it stands
until the end. -/
theorem JudgesWithin.records (proper : workspace.Proper settings)
    (judged : workspace.JudgesWithin engine id function verdict)
    (records : (Action.verifyModule engine id workspace).workspace.store.Records function state) :
    state = verdict.state := by
  obtain ⟨earlier, later, reasons, listed, done, judged⟩ := judged
  rw [Action.workspace_verifyModule listed, Action.workspace_verifyEach_append done,
    Action.workspace_verifyEach_cons judged] at records
  have last : function ∉ later := by
    obtain ⟨context, found, equal⟩ := Action.functionsOf_done listed
    have distinct : (earlier ++ function :: later).Nodup := by
      have selves : ((context.functions.map fun entry => context.functionId entry.self).map
          FunctionId.index).Nodup := by
        rw [List.map_map]
        exact (proper.owned found).functions.distinct
      rw [equal]
      exact selves.of_map
    exact (List.nodup_cons.mp (List.nodup_append.mp distinct).2.1).1
  rcases Action.records_of_verifyEach records with ⟨before, after, _, _, rfl, _⟩ | kept
  · exact absurd (List.mem_append_right before List.mem_cons_self) last
  · exact Action.records_of_verified judged kept

end Workspace

/-! ### One operation -/

namespace Action

variable {α : Type} {operation : Operation α} {subject : Context → ValueRef → Prop}

section Perform

variable {codes : UInt32 → Prop}
  (resets : ∀ home value changed, (operation.effect home).1 = .ok (value, changed) →
    Context.Resets codes (subject home) home changed)

include resets

theorem records_of_marking {context : Context} {value : α}
    (done : (perform operation workspace).result = .ok value)
    (here : operation.home = function.context)
    (found : workspace.store.context? function.context = some context)
    (about : subject context function.index)
    (records : (perform operation workspace).workspace.store.Records function state) :
    state = .unverified := by
  rcases perform_cases operation workspace with ⟨_, refused, _⟩ | performed
  · cases refused.symm.trans done
  · obtain ⟨home, given, changed, live, applied, _, equal⟩ := performed
    have cleared := (resets home given changed applied).cleared
    rw [here] at live equal
    obtain rfl := Option.some.inj (live.symm.trans found)
    rw [equal] at records
    have written := Store.records_put live records
    rw [if_pos rfl] at written
    obtain ⟨entry, member, self, rfl⟩ := written
    exact cleared entry member (self ▸ about)

/-- An operation that is not about the function leaves its record. A function that was not there
before is unverified. -/
theorem records_of_perform (proper : workspace.Proper settings)
    (untouched : ∀ context value, (perform operation workspace).result = .ok value →
      operation.home = function.context →
      workspace.store.context? function.context = some context → ¬ subject context function.index)
    (records : (perform operation workspace).workspace.store.Records function state) :
    workspace.store.Records function state ∨
      ¬ workspace.store.Live (.function function) ∧ state = .unverified := by
  rcases perform_cases operation workspace with ⟨_, _, same⟩ | performed
  · rw [same] at records
    exact .inl records
  · obtain ⟨home, given, changed, live, applied, done, equal⟩ := performed
    have kept := (resets home given changed applied).old
    rw [equal] at records
    have written := Store.records_put live records
    by_cases here : function.context = operation.home
    · rw [if_pos here] at written
      rw [← here] at live
      have other := untouched home given done here.symm live
      obtain ⟨entry, member, self, rfl⟩ := written
      rw [← self] at other
      rcases kept entry member other with ⟨old, oldMember, oldSelf, same⟩ | ⟨beyond, fresh⟩
      · exact .inl ⟨home, live, old, oldMember, oldSelf.trans self, same⟩
      · refine .inr ⟨fun known => ?_, fresh⟩
        obtain ⟨context, found, _, old, lookup⟩ := known
        obtain rfl := Option.some.inj (live.symm.trans found)
        obtain ⟨oldMember, oldSelf⟩ := Context.mem_of_function? lookup
        have inside := (proper.owned live).functions.lt_size
          ⟨old, oldMember, oldSelf.trans self.symm⟩
        exact absurd inside (Nat.not_lt.mpr beyond)
    · rw [if_neg here] at written
      exact .inl written

end Perform

theorem records_of_destroyContext {id : ContextId}
    (records : (destroyContext engine id workspace).workspace.store.Records function state) :
    workspace.store.Records function state := by
  rcases destroyContext_cases engine id workspace with ⟨_, _, same⟩ | destroyed
  · rwa [same] at records
  · obtain ⟨_, store, done, _, equal⟩ := destroyed
    rw [equal] at records
    obtain ⟨context, found, recorded⟩ := records
    exact ⟨context, (Store.destroy_ok done).2 _ context found, recorded⟩

end Action

/-! ### One request -/

namespace Command

variable {command : Command} {verdict : Verdict}

theorem records_of_judges (proper : workspace.Proper settings)
    (judges : command.Judges engine workspace function verdict)
    (records : (workspace.after engine command).store.Records function state) :
    state = verdict.state := by
  cases command with
  | verify target =>
      obtain ⟨rfl, done⟩ := judges
      rw [Workspace.after_verify] at records
      exact Action.records_of_verified done records
  | verifyModule id =>
      rw [Workspace.after_verifyModule] at records
      exact judges.records proper records
  | emitModule id =>
      rw [Workspace.after_emitModule, Action.workspace_emitModule judges.1] at records
      exact judges.2.records proper records
  | _ => exact judges.elim

theorem records_of_invalidates
    (invalidates : command.Invalidates engine workspace function)
    (records : (workspace.after engine command).store.Records function state) :
    state = .unverified := by
  obtain ⟨concerns, answer, done⟩ := invalidates
  cases command with
  | edit change =>
      obtain ⟨here, context, found, about⟩ := concerns
      exact Action.records_of_marking
        (fun _ _ _ applied => Edit.resets applied) done here found about records
  | setConvention target code =>
      obtain rfl := concerns
      rw [Workspace.after_setConvention] at records
      obtain ⟨_, performed⟩ := Action.ok_of_bind done
      obtain ⟨home, _, found, _⟩ := Action.perform_done performed
      exact Action.records_of_marking
        (fun _ _ _ applied => Context.resets_setConvention applied) performed rfl found rfl
        records
  | _ => exact concerns.elim

/-- A command that neither judges nor marks the function leaves its record. -/
theorem records_of_other (proper : workspace.Proper settings)
    (unjudged : ∀ verdict, ¬ command.Judges engine workspace function verdict)
    (unmarked : ¬ command.Invalidates engine workspace function)
    (records : (workspace.after engine command).store.Records function state) :
    workspace.store.Records function state ∨
      ¬ workspace.store.Live (.function function) ∧ state = .unverified := by
  cases command with
  | createContext name =>
      exact .inl (Store.records_create records)
  | destroyContext id =>
      rw [Workspace.after_destroyContext] at records
      exact .inl (Action.records_of_destroyContext records)
  | edit change =>
      refine Action.records_of_perform (fun _ _ _ applied => Edit.resets applied) proper ?_ records
      intro context answer done here found about
      exact unmarked ⟨⟨here, context, found, about⟩, answer, done⟩
  | setConvention target code =>
      rw [Workspace.after_setConvention] at records
      refine Action.records_of_perform
        (fun _ _ _ applied => Context.resets_setConvention applied) proper ?_ records
      intro context value done here found about
      have same : target = function := by
        cases target
        cases function
        simp_all [Operation.setConvention]
      exact unmarked ⟨same, .done, Action.result_bind done⟩
  | verify target =>
      rw [Workspace.after_verify] at records
      refine .inl (Action.records_of_verify (fun verdict same done => ?_) records)
      subst same
      exact unjudged verdict ⟨rfl, done⟩
  | verifyModule id =>
      rw [Workspace.after_verifyModule] at records
      exact .inl (Action.records_of_verifyModule unjudged records)
  | emitModule id =>
      rw [Workspace.after_emitModule] at records
      by_cases gated : workspace.store.settings.verifyBeforeEmit = true
      · rw [Action.workspace_emitModule gated] at records
        exact .inl (Action.records_of_verifyModule
          (fun verdict judged => unjudged verdict ⟨gated, judged⟩) records)
      · rw [Action.emitModule_ungated gated] at records
        exact .inl records

end Command

namespace Workspace

/-- What a verdict is about is live before it is verified. -/
theorem Proper.live_of_judges (proper : workspace.Proper settings) {request : Request}
    {verdict : Verdict} (judges : request.Judges engine workspace function verdict) :
    workspace.store.Live (.function function) := by
  obtain ⟨command, _, judges⟩ := judges
  cases command with
  | verify target =>
      obtain ⟨rfl, done⟩ := judges
      exact Workspace.live_of_verify done
  | verifyModule id => exact judges.live proper
  | emitModule id => exact judges.2.live proper
  | _ => exact judges.elim

end Workspace

namespace Request

variable {request : Request} {verdict : Verdict}

theorem records_of_judges (proper : workspace.Proper settings)
    (judges : request.Judges engine workspace function verdict)
    (records : (request.run engine workspace).workspace.store.Records function state) :
    state = verdict.state := by
  obtain ⟨command, changes, judges⟩ := judges
  rw [request.workspace_run, changes] at records
  exact Command.records_of_judges proper judges records

theorem records_of_invalidates
    (invalidates : request.Invalidates engine workspace function)
    (records : (request.run engine workspace).workspace.store.Records function state) :
    state = .unverified := by
  obtain ⟨command, changes, invalidates⟩ := invalidates
  rw [request.workspace_run, changes] at records
  exact Command.records_of_invalidates invalidates records

theorem records_of_other (proper : workspace.Proper settings)
    (unjudged : ∀ verdict, ¬ request.Judges engine workspace function verdict)
    (unmarked : ¬ request.Invalidates engine workspace function)
    (records : (request.run engine workspace).workspace.store.Records function state) :
    workspace.store.Records function state ∨
      ¬ workspace.store.Live (.function function) ∧ state = .unverified := by
  rw [request.workspace_run] at records
  cases changes : request.command? with
  | none =>
      rw [changes] at records
      exact .inl records
  | some command =>
      rw [changes] at records
      exact Command.records_of_other proper
        (fun verdict judges => unjudged verdict ⟨command, changes, judges⟩)
        (fun invalidates => unmarked ⟨command, changes, invalidates⟩) records

end Request

end TypedIR
